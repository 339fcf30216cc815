import CausalWorks.Causal

/-!
# Evidence records (`trace.rs`)

`CausalTrace` is the record of one trip and `TraceRow` its row in the store. How a trace is written
as JSON is left to the serializer.
-/

namespace CausalWorks

inductive FindingClass where
  | attributableNuisanceTrip
  | unattributedTrip
  deriving DecidableEq, Repr

structure Iso13849Srs where
  safetyFunctionId : String
  configuredResponseBudgetNs : UInt64
  observedResponseTimeNs : UInt64
  responseWithinBudget : Bool
  finding : FindingClass
  deriving DecidableEq, Repr

structure TraceEvent where
  seq : UInt64
  node : NodeId
  tsNs : UInt64
  offsetFromTripNs : Int64
  interlock : Option Bool
  deriving DecidableEq, Repr

structure TraceCatalyst where
  edgeFrom : NodeId
  edgeTo : NodeId
  observedDtNs : UInt64
  wcetNs : UInt64
  normalizedOverrun : Float
  triggerSeq : UInt64
  effectSeq : UInt64
  deriving DecidableEq, Repr

def TraceCatalyst.ofCandidate (c : CandidateCatalyst) : TraceCatalyst :=
  { edgeFrom := c.edge.edgeFrom
    edgeTo := c.edge.edgeTo
    observedDtNs := c.observedDtNs
    wcetNs := c.wcetNs
    normalizedOverrun := c.normalizedOverrun
    triggerSeq := c.trigger.seq
    effectSeq := c.effect.seq }

structure CausalTrace where
  traceId : String
  applianceId : String
  tripTsNs : UInt64
  rootCatalyst : Option TraceCatalyst
  rankedCatalysts : List TraceCatalyst
  eventSequence : List TraceEvent
  iso13849 : Iso13849Srs
  deriving DecidableEq, Repr

def formatTraceId (applianceId : String) (tsNs seq : UInt64) : String :=
  applianceId ++ ":" ++ toString tsNs.toNat ++ ":" ++ toString seq.toNat

def CausalTrace.build (applianceId : String) (analysis : TripAnalysis)
    (precedingEvents : List TraceEvent) (safetyFunctionId : String)
    (configuredResponseBudgetNs : UInt64) : CausalTrace :=
  let trip := analysis.tripEvent
  let root := analysis.rankedCatalysts.head?
  let finding := if root.isSome then FindingClass.attributableNuisanceTrip else .unattributedTrip
  let observedResponseTimeNs :=
    (root.map fun c => saturatingSub trip.tsNs c.trigger.tsNs).getD 0
  { traceId := formatTraceId applianceId trip.tsNs trip.seq
    applianceId
    tripTsNs := trip.tsNs
    rootCatalyst := root.map .ofCandidate
    rankedCatalysts := analysis.rankedCatalysts.map .ofCandidate
    eventSequence := precedingEvents
    iso13849 :=
      { safetyFunctionId
        configuredResponseBudgetNs
        observedResponseTimeNs
        responseWithinBudget :=
          decide (observedResponseTimeNs ≤ configuredResponseBudgetNs) && root.isSome
        finding } }

structure TraceRow where
  tripTsNs : UInt64
  traceId : String
  applianceId : String
  safetyFnId : String
  attributed : Bool
  rootOverrun : Option Float
  evidenceJson : String
  deriving DecidableEq, Repr

/-- `TraceRow::from_trace`, given what the serializer makes of a trace. -/
def TraceRow.fromTrace {JsonError : Type} (toJson : CausalTrace → Except JsonError String)
    (t : CausalTrace) : Except JsonError TraceRow := do
  let evidenceJson ← toJson t
  return { tripTsNs := t.tripTsNs
           traceId := t.traceId
           applianceId := t.applianceId
           safetyFnId := t.iso13849.safetyFunctionId
           attributed := t.iso13849.finding = .attributableNuisanceTrip
           rootOverrun := t.rootCatalyst.map (·.normalizedOverrun)
           evidenceJson }

end CausalWorks
