import CausalWorks.Pcap

/-!
# The eager reader (`replay.rs`)

The record counters are numbers without a bound: a capture would need `2 ^ 64` records to wrap one.
-/

namespace CausalWorks

inductive PcapError where
  | badMagic (magic : UInt32)
  | isPcapng
  | truncatedRecord (offset : Nat)
  | truncatedData (claimed : UInt32) (available : Nat)
  | implausibleLength (length : UInt32)
  deriving DecidableEq, Repr

structure PcapReplaySource where
  data : List UInt8
  cursor : Nat
  fmt : PcapFormat
  scratch : List UInt8
  recordsRead : Nat
  truncatedRecords : Nat
  maxCapMinusOrig : Int
  deriving DecidableEq, Repr

namespace PcapReplaySource

def fromBytes (data : List UInt8) : Except (Stop PcapError) PcapReplaySource := do
  if data.length < 24 then .error (.err (.truncatedRecord 0)) else
  let magic ← rdU32 false data 0
  match magicOf magic with
  | .classic fmt =>
      return { data, cursor := 24, fmt, scratch := [], recordsRead := 0, truncatedRecords := 0
               maxCapMinusOrig := 0 }
  | .pcapng => .error (.err .isPcapng)
  | .other magic => .error (.err (.badMagic magic))

def nextFrame (profile : Profile) (self : PcapReplaySource) :
    Except (Stop PcapError) (Option Packet × PcapReplaySource) := do
  if self.data.length < self.cursor + 16 then
    if self.cursor = self.data.length then return (none, self)
    else .error (.err (.truncatedRecord self.cursor))
  else
  let tsSec ← rdU32 self.fmt.swapped self.data self.cursor
  let tsFrac ← rdU32 self.fmt.swapped self.data (self.cursor + 4)
  let inclLen ← rdU32 self.fmt.swapped self.data (self.cursor + 8)
  let origLen ← rdU32 self.fmt.swapped self.data (self.cursor + 12)
  if maxFrame < inclLen then .error (.err (.implausibleLength inclLen)) else
  let dataStart := self.cursor + 16
  let available := self.data.length - dataStart
  if available < inclLen.toNat then .error (.err (.truncatedData inclLen available)) else
  let tsNs ← orFault (tsNanos profile self.fmt.nanos tsSec.toUInt64 tsFrac.toUInt64)
  let delta : Int := inclLen.toNat - origLen.toNat
  let scratch ← sliceAt self.data dataStart inclLen.toNat
  return (some (tsNs, scratch), { self with
    recordsRead := self.recordsRead + 1
    truncatedRecords := if inclLen < origLen then self.truncatedRecords + 1
      else self.truncatedRecords
    maxCapMinusOrig := if self.maxCapMinusOrig < delta then delta else self.maxCapMinusOrig
    scratch
    cursor := dataStart + inclLen.toNat })

end PcapReplaySource

end CausalWorks
