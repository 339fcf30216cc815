import CausalWorks.ManifestRun
import CausalWorks.Replay

/-!
# The demo run (`bin/harness.rs`)

`run` from the bytes of its capture on, over the manifest of the demo cell. It keeps an event log of
its own beside the engine, from which it takes the window of each trip. The summary and the findings
that it prints are left out.
-/

namespace CausalWorks

namespace Demo

def nAmr : NodeId := 1
def nFanuc : NodeId := 2
def nPlc : NodeId := 3
def amrPort : UInt16 := 7400

def nodes : NodeTable :=
  (((∅ : NodeTable).insert nAmr (.ros2Port amrPort)).insert nFanuc .fanucPose).insert nPlc
    (.profinetFrame 0x0002 0)

end Demo

open Demo

def demoManifest (order : IterationOrder) : DependencyManifest :=
  .new (order.arrange nodes) [⟨nAmr, nFanuc, 3000000⟩, ⟨nFanuc, nPlc, 4000000⟩] nPlc

inductive DemoError (JsonError : Type) where
  | capture (error : PcapError)
  | json (error : JsonError)
  | storage (error : StorageError JsonError)
  deriving DecidableEq, Repr

structure DemoRun where
  engine : CausalGraphObserver 10000
  sink : InMemorySink
  eventLog : List TraceEvent
  frames : Nat
  parsed : Nat
  skippedUnparseable : Nat
  trips : Nat
  attributed : Nat

namespace DemoRun
variable {JsonError : Type} (profile : Profile) (toJson : CausalTrace → Except JsonError String)

def new (order : IterationOrder) : DemoRun :=
  { engine := .new (demoManifest order), sink := .new, eventLog := [], frames := 0, parsed := 0
    skippedUnparseable := 0, trips := 0, attributed := 0 }

/-- The node and interlock level that `push_event` derives from a frame. -/
def trackedNode (f : DecodedFieldbusFrame) : Option (NodeId × Option Bool) :=
  match f.proto with
  | .profinetIrt frameId _ rawStatusByte =>
      if frameId = 0x0002 then some (nPlc, some (rawStatusByte &&& 0x01 != 0)) else none
  | .ros2Udp topicPort _ => if topicPort = amrPort then some (nAmr, none) else none
  | .fanucUdp _ _ _ => some (nFanuc, none)
  | .s7commArrival _ => none

def pushEvent (log : List TraceEvent) (f : DecodedFieldbusFrame) : List TraceEvent :=
  match trackedNode f with
  | none => log
  | some (node, interlock) =>
      log ++ [{ seq := .ofNat log.length, node, tsNs := f.tapTsNs, offsetFromTripNs := 0
                interlock }]

def relativeTo (tripTs : UInt64) (e : TraceEvent) : Except Fault TraceEvent := do
  let offsetFromTripNs ← profile.subI64 e.tsNs.toInt64 tripTs.toInt64
  return { e with offsetFromTripNs }

def traceOf (log : List TraceEvent) (analysis : TripAnalysis) : Except Fault CausalTrace := do
  let tripTs := analysis.tripEvent.tsNs
  let events ← log.mapM (relativeTo profile tripTs)
  let last ← tripEventToTrace profile analysis.tripEvent tripTs
  return .build "APPL-DEMO-01" analysis (events ++ [last]) "SF-ENTRY-GATE" 50000000

def persist (self : DemoRun) (analysis : TripAnalysis) :
    Except (Stop (DemoError JsonError)) DemoRun := do
  let self := { self with trips := self.trips + 1 }
  let trace ← orFault (traceOf profile self.eventLog analysis)
  let self := if trace.rootCatalyst.isSome then { self with attributed := self.attributed + 1 }
    else self
  match TraceRow.fromTrace toJson trace with
  | .error error => .error (.err (.json error))
  | .ok row =>
    match self.sink.put row with
    | (.error error, _) => .error (.err (.storage error))
    | (.ok (), sink) => return { self with sink }

def step (self : DemoRun) (packet : Packet) : Except (Stop (DemoError JsonError)) DemoRun := do
  let (ts, buf) := packet
  let self := { self with frames := self.frames + 1 }
  match ← tryParse ts buf with
  | .error _ => return { self with skippedUnparseable := self.skippedUnparseable + 1 }
  | .ok frame =>
    let self := { self with parsed := self.parsed + 1 }
    let (engine, trip) ← orFault (self.engine.observe profile frame)
    let self := { self with engine }
    let self ← match trip with
      | none => pure self
      | some analysis => self.persist profile toJson analysis
    return { self with eventLog := pushEvent self.eventLog frame }

end DemoRun

/-- The `loop` over the eager reader, with at most `fuel` calls of `next_frame`. -/
def eachEagerFrame {τ ε : Type} (profile : Profile) (body : τ → Packet → Except (Stop ε) τ) :
    Nat → τ → PcapReplaySource → Except (Stop ε) (τ × PcapReplaySource)
  | 0, _, _ => .error (.fault .loopBound)
  | fuel + 1, state, src =>
      match src.nextFrame profile with
      | .ok (some packet, src) => do
          let state ← body state packet
          eachEagerFrame profile body fuel state src
      | .ok (none, src) => .ok (state, src)
      | .error (.err _) => .ok (state, src)
      | .error (.fault fault) => .error (.fault fault)

def runDemo {JsonError : Type} (profile : Profile) (order : IterationOrder)
    (toJson : CausalTrace → Except JsonError String) (fuel : Nat) (file : CaptureFile) :
    Except (Stop (DemoError JsonError)) (DemoRun × List TraceRow) := do
  let src ← wrapError .capture (PcapReplaySource.fromBytes file.content.items)
  let (state, _) ← eachEagerFrame profile (DemoRun.step profile toJson) fuel (.new order) src
  let all ← orFault (state.sink.range 0 0xffffffffffffffff)
  return (state, all)

end CausalWorks
