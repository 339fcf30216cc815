import CausalWorks.Harness
import CausalWorks.Manifest
import CausalWorks.Storage

/-!
# The run over a manifest (`bin/harness.rs`)

`run_with_manifest` from its open file on, with the configuration that has been read from JSON. The
summary and the findings that it prints are left out.
-/

namespace CausalWorks
open Delivery (Source)

/-- An open file; its length is a `u64`. -/
structure CaptureFile where
  content : Source UInt8
  length_lt : content.items.length < 2 ^ 64

inductive RunError (JsonError : Type) where
  | manifest (error : ManifestError)
  | capture (error : StreamPcapError)
  | json (error : JsonError)
  | storage (error : StorageError JsonError)
  deriving DecidableEq, Repr

def tripEventToTrace (profile : Profile) (t : StateTransition) (tripTs : UInt64) :
    Except Fault TraceEvent := do
  let offsetFromTripNs ← profile.subI64 t.tsNs.toInt64 tripTs.toInt64
  return {
    seq := t.seq, node := t.node, tsNs := t.tsNs, offsetFromTripNs, interlock := t.interlock }

structure ManifestRun where
  engine : CausalGraphObserver 10000
  sink : InMemorySink
  frames : Nat
  parsed : Nat
  dropped : Nat
  trips : Nat
  attributed : Nat

namespace ManifestRun
variable {JsonError : Type} (profile : Profile) (toJson : CausalTrace → Except JsonError String)

def new (manifest : DependencyManifest) : ManifestRun :=
  { engine := .new manifest, sink := .new, frames := 0, parsed := 0, dropped := 0, trips := 0
    attributed := 0 }

def traceOf (analysis : TripAnalysis) : Except Fault CausalTrace := do
  let tripTs := analysis.tripEvent.tsNs
  let event ← tripEventToTrace profile analysis.tripEvent tripTs
  return .build "APPL-REPLAY" analysis [event] "SF-FROM-MANIFEST" 50000000

def persist (self : ManifestRun) (analysis : TripAnalysis) :
    Except (Stop (RunError JsonError)) ManifestRun := do
  let self := { self with trips := self.trips + 1 }
  let trace ← orFault (traceOf profile analysis)
  let self := if trace.rootCatalyst.isSome then { self with attributed := self.attributed + 1 }
    else self
  match TraceRow.fromTrace toJson trace with
  | .error error => .error (.err (.json error))
  | .ok row =>
    match self.sink.put row with
    | (.error error, _) => .error (.err (.storage error))
    | (.ok (), sink) => return { self with sink }

def step (self : ManifestRun) (packet : Packet) :
    Except (Stop (RunError JsonError)) ManifestRun := do
  let (ts, buf) := packet
  let self := { self with frames := self.frames + 1 }
  match ← tryParse ts buf with
  | .error _ => return { self with dropped := self.dropped + 1 }
  | .ok frame =>
    let self := { self with parsed := self.parsed + 1 }
    let (engine, result) ← orFault (self.engine.observe profile frame)
    let self := { self with engine }
    match result with
    | none => return self
    | some analysis => self.persist profile toJson analysis

end ManifestRun

def runWithManifest {JsonError : Type} (profile : Profile) (order : IterationOrder)
    (toJson : CausalTrace → Except JsonError String) (fuel : Nat) (cfg : ManifestCfg)
    (file : CaptureFile) :
    Except (Stop (RunError JsonError)) (ManifestRun × StreamingPcapSource) := do
  let manifest ← wrapError .manifest (cfg.build order)
  let src ← wrapError .capture (StreamingPcapSource.new file.content)
  eachFrame profile (ManifestRun.step profile toJson) fuel (.new manifest) src

end CausalWorks
