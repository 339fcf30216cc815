import CausalWorks.Causal
import CausalWorks.Lib.Worklist

/-!
# The observer over its history

The abstract model of the engine. Its state is the list of all classified transitions, newest
first; the ring buffer, the sequence counter and the interlock table are gone. A trip is decided by
the history, and attribution walks causal links over a window of it.
-/

namespace CausalWorks

abbrev History := List StateTransition

/-- The frame's interlock reading under a matcher that claims it; shift amounts are masked. -/
def NodeMatcher.claim (self : NodeMatcher) (f : DecodedFieldbusFrame) : Option (Option Bool) :=
  match self, f.proto with
  | .profinetFrame frameId bitIndex, .profinetIrt fid _ rawStatusByte =>
      if frameId = fid then some (some (rawStatusByte >>> bitIndex &&& 0x01 != 0)) else none
  | .ros2Port topicPort, .ros2Udp p _ => if topicPort = p then some none else none
  | .fanucPose, .fanucUdp _ _ _ => some none
  | _, _ => none

def DependencyManifest.assign (self : DependencyManifest) (f : DecodedFieldbusFrame) :
    Option (NodeId × Option Bool) :=
  self.nodes.entries.findSome? fun entry => (entry.2.claim f).map (entry.1, ·)

def DependencyManifest.incoming (self : DependencyManifest) (node : NodeId) :
    List DependencyEdge :=
  self.edges.filter fun e => e.edgeTo = node

/-- The latest transition of `node` in arrival order with a timestamp below `beforeTs`. -/
def lastBefore (history : History) (node : NodeId) (beforeTs : UInt64) : Option StateTransition :=
  history.find? fun t => t.node == node && decide (t.tsNs < beforeTs)

structure CausalLink where
  edge : DependencyEdge
  trigger : StateTransition
  effect : StateTransition
  deriving DecidableEq, Repr

def CausalLink.dt (self : CausalLink) : UInt64 :=
  saturatingSub self.effect.tsNs self.trigger.tsNs

def CausalLink.violated (self : CausalLink) : Bool := decide (self.edge.wcetNs < self.dt)

def CausalLink.catalyst (self : CausalLink) : CandidateCatalyst :=
  { edge := self.edge, observedDtNs := self.dt, wcetNs := self.edge.wcetNs
    normalizedOverrun := normalizedOverrun self.dt self.edge.wcetNs
    trigger := self.trigger, effect := self.effect }

section Attribution
variable (manifest : DependencyManifest) (window : History)

def linksInto (effect : StateTransition) : List CausalLink :=
  (manifest.incoming effect.node).filterMap fun edge =>
    (lastBefore window edge.edgeFrom effect.tsNs).map fun trigger => ⟨edge, trigger, effect⟩

def triggers (effect : StateTransition) : List StateTransition :=
  (linksInto manifest window effect).map CausalLink.trigger

/-- The instances on the backward chains from the trip. -/
inductive Reached (trip : StateTransition) : StateTransition → Prop
  | trip : Reached trip trip
  | trigger {effect : StateTransition} {l : CausalLink} (reached : Reached trip effect)
      (link : l ∈ linksInto manifest window effect) : Reached trip l.trigger

def examined (trip : StateTransition) : List StateTransition :=
  Worklist.expansions StateTransition.node (triggers manifest window)
    (1 + manifest.edges.length) [] [trip]

def violations (trip : StateTransition) : List CausalLink :=
  ((examined manifest window trip).flatMap (linksInto manifest window)).filter
    CausalLink.violated

def attribution (trip : StateTransition) : TripAnalysis :=
  { tripEvent := trip
    rankedCatalysts := rank ((violations manifest window trip).map CausalLink.catalyst) }

end Attribution

def TripAnalysis.evidence (self : TripAnalysis) : StateTransition × List CausalLink :=
  (self.tripEvent, self.rankedCatalysts.map fun c => ⟨c.edge, c.trigger, c.effect⟩)

def levelOf (history : History) (node : NodeId) : Option Bool :=
  history.findSome? fun t => if t.node = node then t.interlock else none

def transitionOf (history : History) (f : DecodedFieldbusFrame) (node : NodeId)
    (interlock : Option Bool) : StateTransition :=
  { seq := UInt64.ofNat history.length, node, tsNs := f.tapTsNs, interlock }

namespace DependencyManifest
variable (self : DependencyManifest)

def isTrip (history : History) (t : StateTransition) : Bool :=
  decide (t.node = self.tripNode ∧ t.interlock = some false ∧ levelOf history t.node = some true)

def record (history : History) (f : DecodedFieldbusFrame) : History × Option StateTransition :=
  match self.assign f with
  | none => (history, none)
  | some (node, interlock) =>
      let t := transitionOf history f node interlock
      (t :: history, if self.isTrip history t then some t else none)

def transitions (frames : List DecodedFieldbusFrame) : List StateTransition :=
  (frames.filterMap fun f => (self.assign f).map (f.tapTsNs, ·)).mapIdx
    fun seq reading =>
      { seq := UInt64.ofNat seq, node := reading.2.1, tsNs := reading.1, interlock := reading.2.2 }

def capture (history : History) (packet : Packet) : History × Option StateTransition :=
  match parseFrame packet.1 packet.2 with
  | .ok f => self.record history f
  | .error _ => (history, none)

end DependencyManifest

section Runs
variable {ι : Type} (step : History → ι → History × Option StateTransition)

def historyOf (history : History) (inputs : List ι) : History :=
  inputs.foldl (fun history x => (step history x).1) history

/-- What a run of inputs reports, attributing every trip over the window kept by `keep`. -/
def analyses (manifest : DependencyManifest) (keep : History → History) :
    History → List ι → List (Option TripAnalysis)
  | _, [] => []
  | history, x :: inputs =>
      let (after, trip) := step history x
      trip.map (attribution manifest (keep after)) :: analyses manifest keep after inputs

end Runs

end CausalWorks
