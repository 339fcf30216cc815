import CausalWorks.Harness
import CausalWorks.Lib.Sorting
import CausalWorks.Replay
import CausalWorks.Trace
import Mathlib.Data.Prod.Lex

/-!
# The reports (`bin/harness.rs`)

`print_discovery_report`, the list of EtherTypes of `preflight` and `print_finding`: the lines and
their numbers, in the order in which they are printed. How a number is formatted is left out.
-/

namespace CausalWorks
open Keyed (Table)
open Delivery (Source)

/-- The orders in which one process iterates the maps that are reported. -/
structure ReportOrder where
  types : List (UInt16 × Nat) → List (UInt16 × Nat)
  types_perm : ∀ entries, (types entries).Perm entries
  keys : List StreamKey → List StreamKey
  keys_perm : ∀ ids, (keys ids).Perm ids

def ReportOrder.inserted : ReportOrder :=
  { types := id, types_perm := fun _ => .refl _, keys := id, keys_perm := fun _ => .refl _ }

def ethertypeHint (et : UInt16) : String :=
  if et = 0x0806 then " (ARP)"
  else if et = 0x88cc then " (LLDP)"
  else if et = 0x88f7 then " (PTP/IEEE1588)"
  else if et = 0x8892 then " (PROFINET DCP/alarm — non-cyclic FrameIDs)"
  else if et = 0x8100 then " (VLAN-tagged, double tag?)"
  else if et = 0x88e3 then " (MRP ring)"
  else ""

structure TypeLine where
  ethertype : UInt16
  frames : Nat
  remark : String
  deriving DecidableEq, Repr

def byCount (order : ReportOrder) (table : Table UInt16 Nat) : List (UInt16 × Nat) :=
  Sorting.sortOn (fun entry => OrderDual.toDual entry.2) (order.types table.entries)

/-! ## Discovery -/

namespace LogHistogram

def minSamplesForPercentile : Nat := 30

def percentilesMeaningful {SUB : Nat} (self : LogHistogram SUB) : Bool :=
  minSamplesForPercentile ≤ self.count

end LogHistogram

def StreamKey.rank : StreamKey → Nat ×ₗ Nat
  | .profinet frameId => toLex (0, frameId.toNat)
  | .udpPort dstPort => toLex (1, dstPort.toNat)
  | .s7comm port => toLex (2, port.toNat)

inductive StreamStats where
  | single
  | insufficient (samples : Nat) (min max mean : UInt64)
  | percentiles (p50 p95 p99 p999 min max mean : UInt64)
  deriving DecidableEq, Repr

def streamStats (profile : Profile) (h : LogHistogram 8) : Except Fault StreamStats :=
  if h.count = 0 then .ok .single
  else if !h.percentilesMeaningful then .ok (.insufficient h.count h.getMin h.max h.mean)
  else do
    let p50 ← h.quantile profile 0.50
    let p95 ← h.quantile profile 0.95
    let p99 ← h.quantile profile 0.99
    let p999 ← h.quantile profile 0.999
    return .percentiles p50 p95 p99 p999 h.getMin h.max h.mean

/-- The section of one stream, with the number of toggling bits and those that are shown. -/
structure StreamLine where
  key : StreamKey
  frames : Nat
  stats : StreamStats
  bits : Option (Nat × List (Nat × UInt8))
  deriving DecidableEq, Repr

def streamLine (profile : Profile) (disc : DiscoveryEngine) (k : StreamKey) :
    Except Fault StreamLine :=
  match disc.streams.value k with
  | none => .error (.expectFailed "no entry found for key")
  | some s => do
    let h := s.interarrival
    let stats ← streamStats profile h
    let bits := match k with
      | .profinet _ => some (s.togglingBits.length, s.togglingBits.take 16)
      | .udpPort _ | .s7comm _ => none
    return { key := k, frames := h.count + 1, stats, bits }

structure DiscoveryReport where
  totalFrames : Nat
  recordsRead : Nat
  truncated : Nat
  endedMidRecord : Bool
  classified : Nat
  unclassified : Nat
  unclassifiedPercent : Float
  ethertypes : List TypeLine
  malformed : Nat
  streams : List StreamLine

def printDiscoveryReport (profile : Profile) (order : ReportOrder) (disc : DiscoveryEngine)
    (src : StreamingPcapSource) : Except Fault DiscoveryReport := do
  let unclassifiedTotal := disc.unclassifiedTotal
  let ethertypes := if 0 < unclassifiedTotal then
      (byCount order disc.unclassified.byEthertype).map fun (et, n) =>
        { ethertype := et, frames := n, remark := ethertypeHint et }
    else []
  let keys := Sorting.sortOn StreamKey.rank (order.keys (disc.streams.entries.map Prod.fst))
  let streams ← keys.mapM (streamLine profile disc)
  return {
    totalFrames := disc.totalFrames
    recordsRead := src.recordsRead
    truncated := src.truncatedRecords
    endedMidRecord := src.endedMidRecord
    classified := disc.classified
    unclassified := unclassifiedTotal
    unclassifiedPercent := if 0 < disc.totalFrames then
        100.0 * (UInt64.ofNat unclassifiedTotal).toFloat / (UInt64.ofNat disc.totalFrames).toFloat
      else 0.0
    ethertypes
    malformed := disc.unclassified.malformed
    streams }

def discoverReport (profile : Profile) (order : ReportOrder) (fuel : Nat) (inner : Source UInt8) :
    Except (Stop StreamPcapError) DiscoveryReport := do
  let (disc, src) ← discover profile fuel inner
  orFault (printDiscoveryReport profile order disc src)

/-! ## Preflight -/

def preflightStatus (et : UInt16) : String :=
  if et = 0x8892 then "supported (Profinet RT/IRT; DCP/alarm share this EtherType)"
  else if et = 0x0800 then "PARTIAL (UDP parsed; TCP e.g. S7comm not parsed — see `discover`)"
  else "unsupported" ++ ethertypeHint et

def preflightTypes (order : ReportOrder) (s : PreflightStats) : List TypeLine :=
  ((byCount order s.ethertypes).take 12).map fun (et, n) =>
    { ethertype := et, frames := n, remark := preflightStatus et }

/-! ## Findings -/

inductive TimestampSource where
  | nicHardware
  | kernelSoftware
  | replayFile
  deriving DecidableEq, Repr

def TimestampSource.approxJitterFloorNs : TimestampSource → UInt64
  | .nicHardware => 1000
  | .kernelSoftware => 100000
  | .replayFile => 0

def PcapReplaySource.timestampSource (_ : PcapReplaySource) : TimestampSource := .replayFile
def StreamingPcapSource.timestampSource (_ : StreamingPcapSource) : TimestampSource := .replayFile

structure RootLine where
  edgeFrom : NodeId
  edgeTo : NodeId
  observedDtNs : UInt64
  wcetNs : UInt64
  overrunNs : UInt64
  percent : Float
  warned : Bool
  deriving DecidableEq, Repr

/-- Without a root the trip is announced as unattributed. -/
structure Finding where
  tripTsNs : UInt64
  root : Option RootLine
  deriving DecidableEq, Repr

def printFinding (trace : CausalTrace) (tsSource : TimestampSource) : Finding :=
  { tripTsNs := trace.tripTsNs
    root := trace.rootCatalyst.map fun c =>
      let overrunNs := saturatingSub c.observedDtNs c.wcetNs
      let aboveFloor := decide (tsSource.approxJitterFloorNs < overrunNs)
      { edgeFrom := c.edgeFrom
        edgeTo := c.edgeTo
        observedDtNs := c.observedDtNs
        wcetNs := c.wcetNs
        overrunNs
        percent := c.normalizedOverrun * 100.0
        warned := !aboveFloor } }

end CausalWorks
