import CausalWorks.Ingest
import Mathlib.Data.List.AList
import Mathlib.Data.List.Sort
import Mathlib.Logic.Function.Basic

/-!
# The causal inference engine (`causal.rs`)

The `HashMap` of nodes is an association list whose order is the iteration order of the running
process. The maps that are only ever looked up are functions to `Option`.
-/

namespace CausalWorks

abbrev NodeId := UInt32

inductive NodeMatcher where
  | profinetFrame (frameId : UInt16) (bitIndex : UInt8)
  | ros2Port (topicPort : UInt16)
  | fanucPose
  deriving DecidableEq, Repr

/-- `NodeMatcher::matches`. -/
def NodeMatcher.matchesFrame (profile : Profile) (self : NodeMatcher) (f : DecodedFieldbusFrame) :
    Except Fault (Option (Option Bool)) :=
  match self, f.proto with
  | .profinetFrame frameId bitIndex, .profinetIrt fid _ rawStatusByte =>
      if frameId = fid then do
        let shifted ← profile.shrU8 rawStatusByte bitIndex
        return some (some (shifted &&& 0x01 != 0))
      else .ok none
  | .ros2Port topicPort, .ros2Udp p _ => .ok (if topicPort = p then some none else none)
  | .fanucPose, .fanucUdp _ _ _ => .ok (some none)
  | _, _ => .ok none

structure DependencyEdge where
  edgeFrom : NodeId
  edgeTo : NodeId
  wcetNs : UInt64
  deriving DecidableEq, Repr

abbrev NodeTable := AList (fun _ : NodeId => NodeMatcher)

structure DependencyManifest where
  nodes : NodeTable
  edges : List DependencyEdge
  tripNode : NodeId
  revAdj : NodeId → Option (List DependencyEdge)

def pushEdge (revAdj : NodeId → Option (List DependencyEdge)) (e : DependencyEdge) :
    NodeId → Option (List DependencyEdge) :=
  Function.update revAdj e.edgeTo (some ((revAdj e.edgeTo).getD [] ++ [e]))

def DependencyManifest.new (nodes : NodeTable) (edges : List DependencyEdge) (tripNode : NodeId) :
    DependencyManifest :=
  { nodes, edges, tripNode, revAdj := edges.foldl pushEdge fun _ => none }

def classifyEntries (profile : Profile) (f : DecodedFieldbusFrame) :
    List (Sigma fun _ : NodeId => NodeMatcher) → Except Fault (Option (NodeId × Option Bool))
  | [] => .ok none
  | ⟨id, m⟩ :: rest => do
      match ← m.matchesFrame profile f with
      | some interlock => return some (id, interlock)
      | none => classifyEntries profile f rest

def DependencyManifest.classify (profile : Profile) (self : DependencyManifest)
    (f : DecodedFieldbusFrame) : Except Fault (Option (NodeId × Option Bool)) :=
  classifyEntries profile f self.nodes.entries

structure StateTransition where
  seq : UInt64
  node : NodeId
  tsNs : UInt64
  interlock : Option Bool
  deriving DecidableEq, Repr

structure CandidateCatalyst where
  edge : DependencyEdge
  observedDtNs : UInt64
  wcetNs : UInt64
  normalizedOverrun : Float
  trigger : StateTransition
  effect : StateTransition
  deriving DecidableEq, Repr

structure TripAnalysis where
  tripEvent : StateTransition
  rankedCatalysts : List CandidateCatalyst
  deriving DecidableEq, Repr

/-! ## The ring buffer -/

structure RingBuffer (CAP : Nat) where
  buf : Vector (Option StateTransition) CAP
  head : Nat
  len : Nat

namespace RingBuffer
variable {CAP : Nat}

def new : RingBuffer CAP := { buf := .replicate CAP none, head := 0, len := 0 }

def push (self : RingBuffer CAP) (t : StateTransition) : Except Fault (RingBuffer CAP) :=
  if bound : self.head < CAP then
    .ok { buf := self.buf.set self.head (some t)
          head := (self.head + 1) % CAP
          len := if self.len < CAP then self.len + 1 else self.len }
  else .error (.indexOutOfBounds self.head CAP)

def slot (self : RingBuffer CAP) (idx : Nat) : Except Fault StateTransition :=
  match self.buf[idx]? with
  | some (some t) => .ok t
  | some none => .error (.expectFailed "len invariant")
  | none => .error (.indexOutOfBounds idx CAP)

/-- The lazy iterator, newest to oldest: an element that is never demanded cannot abort. -/
def iterRev (self : RingBuffer CAP) : List (Except Fault StateTransition) :=
  (List.range self.len).map fun i => self.slot ((self.head + CAP - 1 - i) % CAP)

end RingBuffer

def findFirst {α : Type} (p : α → Bool) : List (Except Fault α) → Except Fault (Option α)
  | [] => .ok none
  | x :: xs => do
      let a ← x
      if p a then return some a else findFirst p xs

def RingBuffer.lastForNodeBefore {CAP : Nat} (self : RingBuffer CAP) (node : NodeId)
    (beforeTs : UInt64) : Except Fault (Option StateTransition) :=
  findFirst (fun t => t.node == node && decide (t.tsNs < beforeTs)) self.iterRev

/-! ## Backward attribution -/

def normalizedOverrun (dt wcetNs : UInt64) : Float :=
  (dt.toFloat - wcetNs.toFloat) / wcetNs.toFloat

def partialCmp (a b : Float) : Option Ordering :=
  if a ≤ b then (if b ≤ a then some .eq else some .lt)
  else if b ≤ a then some .gt else none

/-- The comparator of `sort_by` does not put `b` strictly before `a`. -/
def notAfter (a b : CandidateCatalyst) : Prop :=
  (partialCmp b.normalizedOverrun a.normalizedOverrun).getD .eq ≠ .gt

instance : DecidableRel notAfter := fun _ _ => inferInstanceAs (Decidable (_ ≠ _))

def rank (candidates : List CandidateCatalyst) : List CandidateCatalyst :=
  candidates.insertionSort notAfter

/-- The locals of the walk; the top of the `frontier` stack is the head of the list. -/
structure Walk where
  candidates : List CandidateCatalyst
  visited : List NodeId
  frontier : List (NodeId × UInt64)

section Backtrack
variable (profile : Profile) (lookup : NodeId → UInt64 → Except Fault (Option StateTransition))
  (revAdj : NodeId → Option (List DependencyEdge)) (trip : StateTransition)

def effectInstance (effectNode : NodeId) (effectTs : UInt64) :
    Except Fault (Option StateTransition) :=
  if effectNode = trip.node ∧ effectTs = trip.tsNs then .ok (some trip)
  else do
    let beforeTs ← profile.addU64 effectTs 1
    lookup effectNode beforeTs

/-- The body of `for edge in incoming`. -/
def visitEdge (effectNode : NodeId) (effectTs : UInt64) (w : Walk) (edge : DependencyEdge) :
    Except Fault Walk := do
  match ← effectInstance profile lookup trip effectNode effectTs with
  | none => return w
  | some effect =>
    match ← lookup edge.edgeFrom effect.tsNs with
    | none => return w
    | some trigger =>
      let dt := saturatingSub effect.tsNs trigger.tsNs
      let candidates := if edge.wcetNs < dt then
          w.candidates ++ [{ edge, observedDtNs := dt, wcetNs := edge.wcetNs
                             normalizedOverrun := normalizedOverrun dt edge.wcetNs
                             trigger, effect }]
        else w.candidates
      return { w with candidates, frontier := (edge.edgeFrom, trigger.tsNs) :: w.frontier }

/-- The `while let Some(..) = frontier.pop()` loop; `fuel` bounds the number of pops. -/
def walk : Nat → Walk → Except Fault Walk
  | fuel, w =>
    match w.frontier with
    | [] => .ok w
    | (effectNode, effectTs) :: frontier =>
      match fuel with
      | 0 => .error .loopBound
      | fuel + 1 =>
        if effectNode ∈ w.visited then walk fuel { w with frontier }
        else
          let w := { w with visited := effectNode :: w.visited, frontier }
          match revAdj effectNode with
          | none => walk fuel w
          | some incoming => do
              let w ← incoming.foldlM (visitEdge profile lookup trip effectNode effectTs) w
              walk fuel w

end Backtrack

def backtrackWith (profile : Profile)
    (lookup : NodeId → UInt64 → Except Fault (Option StateTransition))
    (manifest : DependencyManifest) (trip : StateTransition) : Except Fault TripAnalysis := do
  let w ← walk profile lookup manifest.revAdj trip (1 + manifest.edges.length)
    { candidates := [], visited := [], frontier := [(trip.node, trip.tsNs)] }
  return { tripEvent := trip, rankedCatalysts := rank w.candidates }

/-! ## The observer -/

structure CausalGraphObserver (CAP : Nat) where
  manifest : DependencyManifest
  ring : RingBuffer CAP
  seq : UInt64
  lastInterlock : NodeId → Option Bool

abbrev Packet := UInt64 × List UInt8

namespace CausalGraphObserver
variable {CAP : Nat}

def new (manifest : DependencyManifest) : CausalGraphObserver CAP :=
  { manifest, ring := .new, seq := 0, lastInterlock := fun _ => none }

def backtrack (profile : Profile) (self : CausalGraphObserver CAP) (trip : StateTransition) :
    Except Fault TripAnalysis :=
  backtrackWith profile self.ring.lastForNodeBefore self.manifest trip

def detectTrip (self : CausalGraphObserver CAP) (node : NodeId) (interlock : Option Bool) :
    Bool × (NodeId → Option Bool) :=
  if node = self.manifest.tripNode then
    match interlock with
    | some level =>
        let prev := self.lastInterlock node
        (prev == some true && !level, Function.update self.lastInterlock node (some level))
    | none => (false, self.lastInterlock)
  else
    match interlock with
    | some level => (false, Function.update self.lastInterlock node (some level))
    | none => (false, self.lastInterlock)

def observe (profile : Profile) (self : CausalGraphObserver CAP) (f : DecodedFieldbusFrame) :
    Except Fault (CausalGraphObserver CAP × Option TripAnalysis) := do
  match ← self.manifest.classify profile f with
  | none => return (self, none)
  | some (node, interlock) =>
    let transition : StateTransition := { seq := self.seq, node, tsNs := f.tapTsNs, interlock }
    let seq ← profile.addU64 self.seq 1
    let (trip, lastInterlock) := self.detectTrip node interlock
    let ring ← self.ring.push transition
    let self := { self with ring, seq, lastInterlock }
    if trip then
      let analysis ← self.backtrack profile transition
      return (self, some analysis)
    else return (self, none)

def run (profile : Profile) (self : CausalGraphObserver CAP) :
    List DecodedFieldbusFrame →
      Except Fault (CausalGraphObserver CAP × List (Option TripAnalysis))
  | [] => .ok (self, [])
  | f :: frames => do
      let (self, result) ← self.observe profile f
      let (self, results) ← self.run profile frames
      return (self, result :: results)

/-- One iteration of a replay loop: a frame that does not parse is counted and skipped. -/
def feed (profile : Profile) (self : CausalGraphObserver CAP) (packet : Packet) :
    Except Fault (CausalGraphObserver CAP × Option TripAnalysis) :=
  match parseFrame packet.1 packet.2 with
  | .ok frame => self.observe profile frame
  | .error (.err _) => .ok (self, none)
  | .error (.fault fault) => .error fault

def replay (profile : Profile) (self : CausalGraphObserver CAP) :
    List Packet → Except Fault (CausalGraphObserver CAP × List (Option TripAnalysis))
  | [] => .ok (self, [])
  | packet :: packets => do
      let (self, result) ← self.feed profile packet
      let (self, results) ← self.replay profile packets
      return (self, result :: results)

/-- The analyses that a replay loop hands on before the capture, or the process, ends. -/
def reports (profile : Profile) (self : CausalGraphObserver CAP) : List Packet → List TripAnalysis
  | [] => []
  | packet :: packets =>
      match self.feed profile packet with
      | .ok (self, result) => result.toList ++ self.reports profile packets
      | .error _ => []

end CausalGraphObserver

def runResults (CAP : Nat) (profile : Profile) (manifest : DependencyManifest)
    (frames : List DecodedFieldbusFrame) : Except Fault (List (Option TripAnalysis)) := do
  let (_, results) ← (CausalGraphObserver.new manifest : CausalGraphObserver CAP).run profile frames
  return results

def replayResults (CAP : Nat) (profile : Profile) (manifest : DependencyManifest)
    (packets : List Packet) : Except Fault (List (Option TripAnalysis)) := do
  let (_, results) ← (CausalGraphObserver.new manifest : CausalGraphObserver CAP).replay profile
    packets
  return results

/-! ## The cell of the engine's tests -/

namespace Cell

def amr : NodeId := 1
def fanuc : NodeId := 2
def plc : NodeId := 3

def nodes : NodeTable :=
  [⟨plc, .profinetFrame 0x0002 0⟩, ⟨fanuc, .fanucPose⟩, ⟨amr, .ros2Port 7400⟩].toAList

def manifest : DependencyManifest := .new nodes [⟨amr, fanuc, 3000000⟩, ⟨fanuc, plc, 4000000⟩] plc

def ros2At (ts : UInt64) : DecodedFieldbusFrame := ⟨ts, .ros2Udp 7400 32, []⟩
def fanucAt (ts : UInt64) : DecodedFieldbusFrame := ⟨ts, .fanucUdp 0 0 0, []⟩
def plcAt (ts : UInt64) (interlock : Bool) : DecodedFieldbusFrame :=
  ⟨ts, .profinetIrt 0x0002 interlock (if interlock then 0x01 else 0x00), []⟩

def plcBytes (interlock : Bool) : List UInt8 :=
  List.replicate 12 0 ++ [0x88, 0x92, 0x00, 0x02, if interlock then 0x01 else 0x00]

def jitter : List DecodedFieldbusFrame :=
  [ros2At 0, fanucAt 2000000, plcAt 4000000 true, ros2At 10000000, fanucAt 20000000,
    plcAt 22000000 false]

end Cell

end CausalWorks
