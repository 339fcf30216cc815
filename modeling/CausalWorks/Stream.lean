import CausalWorks.Pcap
import CausalWorks.Lib.Delivery

/-!
# The streaming reader (`stream.rs`)

The record counters are numbers without a bound, as in the eager reader.
-/

namespace CausalWorks
open Delivery (Source BufReader)

inductive IoError where
  | unexpectedEof
  deriving DecidableEq, Repr

inductive StreamPcapError where
  | io (error : IoError)
  | badMagic (magic : UInt32)
  | isPcapng
  | implausibleLength (length : UInt32)
  deriving DecidableEq, Repr

/-- The `while filled < buf.len()` loop of all three reads, with the bytes it has filled. -/
def fillBuf (rdr : BufReader UInt8) (want : Nat) : Except Fault (List UInt8 × BufReader UInt8) :=
  match rdr.fill want (rdr.reads want) [] with
  | some done => .ok done
  | none => .error .loopBound

def readExact (rdr : BufReader UInt8) (want : Nat) :
    Except (Stop StreamPcapError) (List UInt8 × BufReader UInt8) := do
  let (filled, rdr) ← orFault (fillBuf rdr want)
  if filled.length < want then .error (.err (.io .unexpectedEof)) else
  return (filled, rdr)

inductive ReadState where
  | full
  | cutShort
  | eof
  deriving DecidableEq, Repr

def readFullOrEof (rdr : BufReader UInt8) (want : Nat) :
    Except Fault (ReadState × List UInt8 × BufReader UInt8) := do
  let (filled, rdr) ← fillBuf rdr want
  if filled.length < want then return (if filled.isEmpty then .eof else .cutShort, filled, rdr)
  else return (.full, filled, rdr)

def readExactOrShort (rdr : BufReader UInt8) (want : Nat) :
    Except Fault (Bool × List UInt8 × BufReader UInt8) := do
  let (filled, rdr) ← fillBuf rdr want
  return (decide (want ≤ filled.length), filled, rdr)

structure StreamingPcapSource where
  rdr : BufReader UInt8
  fmt : PcapFormat
  scratch : List UInt8
  truncatedRecords : Nat
  recordsRead : Nat
  endedMidRecord : Bool
  deriving DecidableEq, Repr

namespace StreamingPcapSource

def new (inner : Source UInt8) : Except (Stop StreamPcapError) StreamingPcapSource := do
  let rdr := BufReader.withCapacity (1 <<< 20) inner
  let (ghdr, rdr) ← readExact rdr 24
  let magic ← rdU32 false ghdr 0
  match magicOf magic with
  | .classic fmt =>
      return { rdr, fmt, scratch := [], truncatedRecords := 0, recordsRead := 0
               endedMidRecord := false }
  | .pcapng => .error (.err .isPcapng)
  | .other magic => .error (.err (.badMagic magic))

def resize (scratch : List UInt8) (len : Nat) : List UInt8 :=
  scratch.take len ++ List.replicate (len - scratch.length) 0

def nextFrame (profile : Profile) (self : StreamingPcapSource) :
    Except (Stop StreamPcapError) (Option Packet × StreamingPcapSource) := do
  let (state, rhdr, rdr) ← orFault (readFullOrEof self.rdr 16)
  match state with
  | .eof => return (none, { self with rdr })
  | .cutShort => return (none, { self with rdr, endedMidRecord := true })
  | .full =>
    let tsSec ← rdU32 self.fmt.swapped rhdr 0
    let tsFrac ← rdU32 self.fmt.swapped rhdr 4
    let inclLen ← rdU32 self.fmt.swapped rhdr 8
    let origLen ← rdU32 self.fmt.swapped rhdr 12
    if maxFrame < inclLen then .error (.err (.implausibleLength inclLen)) else
    let resized := resize self.scratch inclLen.toNat
    let (whole, filled, rdr) ← orFault (readExactOrShort rdr inclLen.toNat)
    let scratch := filled ++ resized.drop filled.length
    if whole = false then return (none, { self with rdr, scratch, endedMidRecord := true }) else
    let tsNs ← orFault (tsNanos profile self.fmt.nanos tsSec.toUInt64 tsFrac.toUInt64)
    return (some (tsNs, scratch), { self with
      rdr, scratch
      recordsRead := self.recordsRead + 1
      truncatedRecords := if inclLen < origLen then self.truncatedRecords + 1
        else self.truncatedRecords })

end StreamingPcapSource

end CausalWorks
