import CausalWorks.Stream
import CausalWorks.Discovery

/-!
# The command line tool (`bin/harness.rs`)
-/

namespace CausalWorks
open Keyed (Table)
open Delivery (Source)

def ethertypeOf {ε : Type} (buf : List UInt8) : Except (Stop ε) (Option UInt16) := do
  if buf.length < 14 then return none else
  let et ← u16At buf 12
  if et = 0x8100 then
    if buf.length < 18 then return some 0x8100 else
    let et ← u16At buf 16
    return some et
  else return some et

/-- `parse_frame` in a loop that goes on after a parse error. -/
def tryParse {ε : Type} (ts : UInt64) (buf : List UInt8) :
    Except (Stop ε) (Except ParseError DecodedFieldbusFrame) :=
  match parseFrame ts buf with
  | .ok frame => .ok (.ok frame)
  | .error (.err error) => .ok (.error error)
  | .error (.fault fault) => .error (.fault fault)

/-- The `loop` over `src.next_frame()` of every command: an error of the reader ends it as the end
of the capture does. `fuel` bounds the number of calls. -/
def eachFrame {τ ε : Type} (profile : Profile) (body : τ → Packet → Except (Stop ε) τ) :
    Nat → τ → StreamingPcapSource → Except (Stop ε) (τ × StreamingPcapSource)
  | 0, _, _ => .error (.fault .loopBound)
  | fuel + 1, state, src =>
      match src.nextFrame profile with
      | .ok (some packet, src) => do
          let state ← body state packet
          eachFrame profile body fuel state src
      | .ok (none, src) => .ok (state, src)
      | .error (.err _) => .ok (state, src)
      | .error (.fault fault) => .error (.fault fault)

/-! ## Preflight -/

structure PreflightStats where
  total : Nat := 0
  classifiable : Nat := 0
  unclassified : Nat := 0
  malformed : Nat := 0
  vlanFrames : Nat := 0
  truncated : Nat := 0
  endedMidRecord : Bool := false
  spanNs : UInt64 := 0
  minDeltaNs : Option UInt64 := none
  ethertypes : Table UInt16 Nat := .empty

inductive PreflightVerdict where
  | analyzable
  | coverageGap
  | rejectedEmpty
  | rejectedFormat (isPcapng : Bool)
  deriving DecidableEq, Repr

def coverageGapThreshold : Float := 0.20

namespace PreflightStats

def unclassifiedFrac (self : PreflightStats) : Float :=
  if self.total = 0 then 0.0
  else (UInt64.ofNat self.unclassified).toFloat / (UInt64.ofNat self.total).toFloat

def verdict (self : PreflightStats) : PreflightVerdict :=
  if self.total = 0 then .rejectedEmpty
  else if coverageGapThreshold < self.unclassifiedFrac then .coverageGap
  else .analyzable

end PreflightStats

/-- The locals of the loop of `compute_preflight`. -/
structure PreflightScan where
  stats : PreflightStats := {}
  firstTs : Option UInt64 := none
  lastTs : UInt64 := 0
  minDelta : UInt64 := 0xffffffffffffffff

namespace PreflightScan

def noteTime (self : PreflightScan) (ts : UInt64) : PreflightScan :=
  if self.firstTs.isNone then { self with firstTs := some ts, lastTs := ts }
  else if self.lastTs ≤ ts then
    let d := ts - self.lastTs
    { self with lastTs := ts
                minDelta := if 0 < d ∧ d < self.minDelta then d else self.minDelta }
  else { self with lastTs := ts }

def isTagged {ε : Type} (buf : List UInt8) : Except (Stop ε) Bool := do
  if buf.length < 14 then return false else
  let hi ← byteAt buf 12
  let lo ← byteAt buf 13
  return hi = 0x81 ∧ lo = 0x00

def scanFrame {ε : Type} (self : PreflightScan) (packet : Packet) :
    Except (Stop ε) PreflightScan := do
  let (ts, buf) := packet
  let self := self.noteTime ts
  let s := { self.stats with total := self.stats.total + 1 }
  let tagged ← isTagged buf
  let s := if tagged then { s with vlanFrames := s.vlanFrames + 1 } else s
  let et ← ethertypeOf buf
  let s := match et with
    | some et => { s with ethertypes := s.ethertypes.upsert et 0 (· + 1) }
    | none => { s with malformed := s.malformed + 1 }
  let parsed ← tryParse ts buf
  let s := match parsed with
    | .ok _ => { s with classifiable := s.classifiable + 1 }
    | .error _ => { s with unclassified := s.unclassified + 1 }
  return { self with stats := s }

def finish (self : PreflightScan) (src : StreamingPcapSource) : PreflightStats :=
  { self.stats with
    truncated := src.truncatedRecords
    endedMidRecord := src.endedMidRecord
    spanNs := (self.firstTs.map fun f => saturatingSub self.lastTs f).getD 0
    minDeltaNs := if self.minDelta = 0xffffffffffffffff then none else some self.minDelta }

end PreflightScan

def computePreflight (profile : Profile) (fuel : Nat) (inner : Source UInt8) :
    Except (Stop Empty) (PreflightVerdict × PreflightStats) :=
  match StreamingPcapSource.new inner with
  | .error (.err error) => .ok (.rejectedFormat (error == .isPcapng), {})
  | .error (.fault fault) => .error (.fault fault)
  | .ok src => do
      let (scan, src) ← eachFrame profile PreflightScan.scanFrame fuel {} src
      let s := scan.finish src
      return (s.verdict, s)

/-! ## Discovery -/

def discoverFrame {ε : Type} (disc : DiscoveryEngine) (packet : Packet) :
    Except (Stop ε) DiscoveryEngine := do
  let (ts, buf) := packet
  let et ← ethertypeOf buf
  match ← tryParse ts buf with
  | .ok frame => disc.observe frame
  | .error _ => return disc.observeUnclassified et

def discover (profile : Profile) (fuel : Nat) (inner : Source UInt8) :
    Except (Stop StreamPcapError) (DiscoveryEngine × StreamingPcapSource) := do
  let src ← StreamingPcapSource.new inner
  eachFrame profile discoverFrame fuel .new src

def DiscoveryEngine.classified (self : DiscoveryEngine) : Nat :=
  self.streams.total fun profile => profile.interarrival.count + 1

def DiscoveryEngine.unclassifiedTotal (self : DiscoveryEngine) : Nat :=
  self.unclassified.byEthertype.total id + self.unclassified.malformed

/-! ## The fixture writer -/

def writeRecord (v : List UInt8) : UInt64 × Option Nat × List UInt8 → Except Fault (List UInt8)
  | (tsNs, inclOverride, frame) => do
    let sec := (tsNs / 1000000000).toUInt32
    let usec := ((tsNs % 1000000000) / 1000).toUInt32
    let origLen := UInt32.ofNat frame.length
    let inclLen := (inclOverride.map UInt32.ofNat).getD origLen
    let kept ← prefixAt frame inclLen.toNat
    return v ++ u32ToLeBytes sec ++ u32ToLeBytes usec ++ u32ToLeBytes inclLen ++
      u32ToLeBytes origLen ++ kept

def writePcap (records : List (UInt64 × Option Nat × List UInt8)) : Except Fault (List UInt8) :=
  records.foldlM writeRecord (u32ToLeBytes 0xa1b2c3d4 ++ u16ToLeBytes 2 ++ u16ToLeBytes 4 ++
    u32ToLeBytes 0 ++ u32ToLeBytes 0 ++ u32ToLeBytes 65535 ++ u32ToLeBytes 1)

end CausalWorks
