import CausalWorks.Lib.Interleaving
import CausalWorks.Proof.Redundant
import CausalWorks.Proof.Sighting
import CausalWorks.Proof.Timing

/-!
# Nodes whose frames arrive in another order

The tap delivers the frames of different nodes in any order. As long as no frame overtakes one of
its own node or of the trip node, the engine reports the same.
-/

namespace CausalWorks
open Interleaving

namespace DependencyManifest
variable (self : DependencyManifest)

def nodeOf (packet : Packet) : Option NodeId := (reading self packet).map Prod.fst

/-- The frames of the node and of the trip node, in the order of the capture. -/
def seenWith (node : NodeId) (packets : List Packet) : List Packet :=
  packets.filter fun packet =>
    decide (self.nodeOf packet = some node ∨ self.nodeOf packet = some self.tripNode)

def Interleaves (packets packets' : List Packet) : Prop :=
  ∀ node, self.seenWith node packets = self.seenWith node packets'

end DependencyManifest

section
variable (CAP : Nat) (profile : Profile) (manifest : DependencyManifest)
  (packets packets' : List Packet)

/-- With more memory the analysis of the trip would be the same. -/
def Settled (k : Nat) (analysis : TripAnalysis) : Prop :=
  ∀ CAP' ≥ CAP, ∀ whole, replayResults CAP' profile manifest packets = .ok whole →
    whole.reduceOption[k]? = some analysis

structure InterleavingFree (results results' : List (Option TripAnalysis)) : Prop where
  trips : results'.reduceOption.map TripAnalysis.tripEvent =
    results.reduceOption.map TripAnalysis.tripEvent
  settled : ∀ (k : Nat) analysis analysis', results.reduceOption[k]? = some analysis →
    results'.reduceOption[k]? = some analysis' →
    Settled CAP profile manifest packets k analysis →
    Settled CAP profile manifest packets' k analysis' →
      analysis'.map (·.unnumbered) = analysis.map (·.unnumbered)
  unevicted : packets.countP (claimed manifest) ≤ CAP →
    results'.reduceOption.map (·.map (·.unnumbered)) =
      results.reduceOption.map (·.map (·.unnumbered))

end

def Cell.inTurn : List Packet := [(0, plcBytes true), (10000000, udpBytes 7400),
  (20000000, udpBytes 60008), (22000000, plcBytes false)]

def Cell.crossed : List Packet := [(0, plcBytes true), (20000000, udpBytes 60008),
  (10000000, udpBytes 7400), (22000000, plcBytes false)]

namespace Proof
variable {manifest : DependencyManifest} {history history' : History}
  {packets packets' : List Packet} {t t' u u' : StateTransition}

def ownOf (node : NodeId) (history : History) : History :=
  (history.filter fun t => t.node == node).map (·.unnumbered)

/-- As many transitions, and for each node the same ones. -/
structure SameNodes (history history' : History) : Prop where
  length : history.length = history'.length
  own : ∀ node, ownOf node history = ownOf node history'

theorem ownOf_cons (node : NodeId) (t : StateTransition) (history : History) :
    ownOf node (t :: history) =
      if t.node = node then t.unnumbered :: ownOf node history else ownOf node history := by
  unfold ownOf
  rw [List.filter_cons]
  by_cases here : t.node = node
  · rw [if_pos (beq_iff_eq.mpr here), if_pos here, List.map_cons]
  · rw [if_neg fun is => here (beq_iff_eq.mp is), if_neg here]

theorem lastBefore_ownOf (node : NodeId) (bound : UInt64) :
    lastBefore (history.map (·.unnumbered)) node bound =
      (ownOf node history).find? fun t => decide (t.tsNs < bound) := by
  unfold lastBefore ownOf
  rw [List.find?_map, List.find?_map, List.find?_filter]
  congr 1
  refine List.find?_congr fun t _ => ?_
  simp only [Function.comp_apply, Bool.decide_and, Bool.decide_eq_true]
  rfl

theorem levelOf_ownOf (node : NodeId) :
    levelOf history node = (ownOf node history).findSome? StateTransition.interlock := by
  induction history with
  | nil => rfl
  | cons t history ih =>
      rw [levelOf_cons, ownOf_cons]
      by_cases here : t.node = node
      · rw [if_pos here, if_pos here, List.findSome?_cons, ih]
        obtain ⟨_, _, _, interlock⟩ := t
        cases interlock <;> rfl
      · rw [if_neg here, if_neg here, ih]

theorem SameNodes.cons (same : SameNodes history history') (twin : t.unnumbered = t'.unnumbered) :
    SameNodes (t :: history) (t' :: history') := by
  have node : t.node = t'.node := (congrArg StateTransition.node twin :)
  refine ⟨congrArg (· + 1) same.length, fun other => ?_⟩
  rw [ownOf_cons, ownOf_cons, same.own, node, twin]

theorem sameNodes_swap (apart : t.node ≠ u.node) (twin : t.unnumbered = t'.unnumbered)
    (twin' : u.unnumbered = u'.unnumbered) :
    SameNodes (u :: t :: history) (t' :: u' :: history) := by
  have node : t.node = t'.node := (congrArg StateTransition.node twin :)
  have node' : u.node = u'.node := (congrArg StateTransition.node twin' :)
  refine ⟨rfl, fun other => ?_⟩
  rw [ownOf_cons, ownOf_cons, ownOf_cons, ownOf_cons, ← node, ← node', ← twin, ← twin']
  by_cases first : t.node = other
  · rw [if_pos first, if_pos first, if_neg fun is => apart (first.trans is.symm),
      if_neg fun is => apart (first.trans is.symm)]
  · rw [if_neg first, if_neg first]

theorem SameNodes.attribution_eq (same : SameNodes history history') (trip : StateTransition) :
    (attribution manifest history trip).map (·.unnumbered) =
      (attribution manifest history' trip).map (·.unnumbered) := by
  rw [← attribution_unnumbered, ← attribution_unnumbered]
  refine attribution_congr (P := fun _ => True) (fun _ _ _ _ => trivial) (fun x _ => ?_) trivial
  refine List.filterMap_congr fun edge _ => ?_
  rw [lastBefore_ownOf, lastBefore_ownOf, same.own]

section
variable {β : Type} (manifest) (out : History → StateTransition → β)

def emits (history : History) (packet : Packet) : History × Option β :=
  ((manifest.capture history packet).1,
    (manifest.capture history packet).2.map (out (manifest.capture history packet).1))

def Dependent (packet packet' : Packet) : Prop :=
  ∃ node node', manifest.nodeOf packet = some node ∧ manifest.nodeOf packet' = some node' ∧
    (node = node' ∨ node = manifest.tripNode ∨ node' = manifest.tripNode)

variable {manifest out}

theorem emits_none {packet : Packet} (unread : manifest.nodeOf packet = none) :
    emits manifest out history packet = (history, none) := by
  unfold emits
  rw [capture_eq, Option.map_eq_none_iff.mp unread]
  rfl

theorem emits_silent {packet : Packet} {node : NodeId} (read : manifest.nodeOf packet = some node)
    (off : node ≠ manifest.tripNode) : ∃ interlock, ∀ history, emits manifest out history packet =
      (⟨.ofNat history.length, node, packet.1, interlock⟩ :: history, none) := by
  obtain ⟨⟨node, interlock⟩, is, rfl⟩ := Option.map_eq_some_iff.mp read
  refine ⟨interlock, fun history => ?_⟩
  unfold emits
  rw [capture_eq, is]
  have quiet :
      ¬ manifest.isTrip history ⟨.ofNat history.length, node, packet.1, interlock⟩ = true :=
    fun trips => off (of_decide_eq_true trips).1
  simp only [if_neg quiet, Option.map_none]

theorem emits_commutes (told : ∀ history history' trip, SameNodes history history' →
    out history trip = out history' trip) :
    Commutes (emits manifest out) (Dependent manifest) SameNodes where
  congr history history' packet same := by
    unfold emits
    rw [capture_eq, capture_eq, same.length]
    cases reading manifest packet with
    | none => exact ⟨same, rfl⟩
    | some assigned =>
        have level := @levelOf_ownOf history assigned.1
        rw [same.own, ← levelOf_ownOf] at level
        let t : StateTransition := ⟨.ofNat history'.length, assigned.1, packet.1, assigned.2⟩
        have after : SameNodes (t :: history) (t :: history') := same.cons rfl
        have trips : manifest.isTrip history t = manifest.isTrip history' t := by
          unfold DependencyManifest.isTrip
          rw [level]
        refine ⟨after, ?_⟩
        dsimp only
        rw [trips]
        cases manifest.isTrip history' t with
        | false => rfl
        | true => exact congrArg some (told _ _ t after)
  swap history first second free := by
    cases read : manifest.nodeOf first with
    | none =>
        simp only [emits_none read]
        exact ⟨⟨rfl, fun _ => rfl⟩, (List.append_nil _).symm⟩
    | some node =>
      cases read' : manifest.nodeOf second with
      | none =>
          simp only [emits_none read']
          exact ⟨⟨rfl, fun _ => rfl⟩, List.append_nil _⟩
      | some node' =>
          have apart : node ≠ node' := fun is => free ⟨node, node', read, read', Or.inl is⟩
          obtain ⟨interlock, here⟩ := @emits_silent manifest _ out _ _ read fun is =>
            free ⟨node, node', read, read', Or.inr (Or.inl is)⟩
          obtain ⟨interlock', there⟩ := @emits_silent manifest _ out _ _ read' fun is =>
            free ⟨node, node', read, read', Or.inr (Or.inr is)⟩
          simp only [here, there]
          exact ⟨sameNodes_swap apart rfl rfl, trivial⟩

end

theorem claimed_nodeOf {packet : Packet} :
    claimed manifest packet = true ↔ ∃ node, manifest.nodeOf packet = some node := by
  rw [claimed, ← Option.isSome_map (f := Prod.fst), Option.isSome_iff_exists]
  rfl

theorem pair_seenWith {packet packet' : Packet} {node : NodeId}
    (inside : ∀ p, p = packet ∨ p = packet' →
      manifest.nodeOf p = some node ∨ manifest.nodeOf p = some manifest.tripNode) :
    pair packet packet' (packets.filter (claimed manifest)) =
      pair packet packet' (manifest.seenWith node packets) := by
  unfold pair DependencyManifest.seenWith
  rw [List.filter_filter, List.filter_filter]
  refine List.filter_congr fun p _ => ?_
  by_cases one : p = packet ∨ p = packet'
  · have seen := inside p one
    have known : claimed manifest p = true := claimed_nodeOf.mpr (seen.elim (⟨_, ·⟩) (⟨_, ·⟩))
    simp only [one, seen, known, decide_true, Bool.and_true]
  · simp only [one]
    rfl

theorem equivalent_of_interleaves (interleaves : manifest.Interleaves packets packets') :
    Equivalent (Dependent manifest) (packets.filter (claimed manifest))
      (packets'.filter (claimed manifest)) := by
  refine equivalent_of_pairs ?_ ?_ ?_
  · intro packet member
    obtain ⟨node, is⟩ : ∃ node, manifest.nodeOf packet = some node := by
      rcases List.mem_append.mp member with here | here
      · exact claimed_nodeOf.mp (List.mem_filter.mp here).2
      · exact claimed_nodeOf.mp (List.mem_filter.mp here).2
    exact ⟨node, node, is, is, Or.inl rfl⟩
  · rintro packet packet' ⟨node, node', is, is', related⟩
    refine ⟨node', node, is', is, ?_⟩
    rcases related with rfl | trip | trip
    · exact Or.inl rfl
    · exact Or.inr (Or.inr trip)
    · exact Or.inr (Or.inl trip)
  · rintro packet packet' ⟨node, node', is, is', related⟩
    obtain ⟨common, inside⟩ : ∃ common, ∀ p, p = packet ∨ p = packet' →
        manifest.nodeOf p = some common ∨ manifest.nodeOf p = some manifest.tripNode := by
      rcases related with rfl | rfl | rfl
      · exact ⟨node, fun p one => Or.inl (by rcases one with rfl | rfl <;> assumption)⟩
      · exact ⟨node', fun p one => by rcases one with rfl | rfl <;> simp [is, is']⟩
      · exact ⟨node, fun p one => by rcases one with rfl | rfl <;> simp [is, is']⟩
    rw [pair_seenWith inside, pair_seenWith inside, interleaves]

theorem emitted_claimed {β : Type} {out : History → StateTransition → β} :
    emitted (emits manifest out) history (packets.filter (claimed manifest)) =
      emitted (emits manifest out) history packets := by
  induction packets generalizing history with
  | nil => rfl
  | cons packet packets ih =>
      by_cases known : claimed manifest packet = true
      · rw [List.filter_cons_of_pos known, emitted, emitted, ih]
      · have unread : manifest.nodeOf packet = none := by
          cases is : manifest.nodeOf packet with
          | none => rfl
          | some node => exact absurd (claimed_nodeOf.mpr ⟨node, is⟩) known
        rw [List.filter_cons_of_neg known, ih, emitted, emits_none unread]
        rfl

theorem emitted_analyses {β : Type} (keep : History → History) (tell : TripAnalysis → β)
    (history : History) (packets : List Packet) :
    (analyses manifest.capture manifest keep history packets).reduceOption.map tell =
      emitted (emits manifest fun window trip => tell (attribution manifest (keep window) trip))
        history packets := by
  induction packets generalizing history with
  | nil => rfl
  | cons packet packets ih =>
      rw [analyses_cons, emitted, ← ih]
      unfold emits
      cases (manifest.capture history packet).2 with
      | none => rfl
      | some trip => rfl

theorem emitted_interleaves {β : Type} {out : History → StateTransition → β}
    (interleaves : manifest.Interleaves packets packets')
    (told : ∀ history history' trip, SameNodes history history' →
      out history trip = out history' trip) :
    emitted (emits manifest out) [] packets' = emitted (emits manifest out) [] packets := by
  rw [← emitted_claimed, ← @emitted_claimed _ _ packets]
  exact ((equivalent_of_interleaves interleaves).emitted_eq (emits_commutes told) []).symm

theorem trips_interleaved (interleaves : manifest.Interleaves packets packets') (keep : Nat) :
    (analyses manifest.capture manifest (List.take keep) [] packets').reduceOption.map
        TripAnalysis.tripEvent =
      (analyses manifest.capture manifest (List.take keep) [] packets).reduceOption.map
        TripAnalysis.tripEvent := by
  rw [emitted_analyses, emitted_analyses]
  exact emitted_interleaves interleaves fun _ _ _ _ => rfl

theorem analyses_interleaved (interleaves : manifest.Interleaves packets packets') :
    (analyses manifest.capture manifest id [] packets').reduceOption.map (·.map (·.unnumbered)) =
      (analyses manifest.capture manifest id [] packets).reduceOption.map
        (·.map (·.unnumbered)) := by
  rw [emitted_analyses, emitted_analyses]
  exact emitted_interleaves interleaves fun _ _ trip same => same.attribution_eq trip

theorem countP_interleaved (interleaves : manifest.Interleaves packets packets') :
    packets'.countP (claimed manifest) = packets.countP (claimed manifest) := by
  rw [List.countP_eq_length_filter, List.countP_eq_length_filter]
  exact (equivalent_of_interleaves interleaves).perm.length_eq.symm

theorem matchesFrame_free {profile : Profile} {m : NodeMatcher} {f : DecodedFieldbusFrame}
    (free : m.claim f = none) : m.matchesFrame profile f = .ok none := by
  unfold NodeMatcher.claim at free
  unfold NodeMatcher.matchesFrame
  cases m with
  | profinetFrame frameId bitIndex =>
      cases proto : f.proto with
      | profinetIrt fid interlockBit rawStatusByte =>
          simp only [proto] at free ⊢
          split at free
          · cases free
          · rename_i other
            rw [if_neg other]
      | ros2Udp | fanucUdp | s7commArrival => rfl
  | ros2Port topicPort =>
      cases proto : f.proto with
      | ros2Udp port len =>
          simp only [proto] at free ⊢
          rw [free]
      | profinetIrt | fanucUdp | s7commArrival => rfl
  | fanucPose =>
      cases proto : f.proto with
      | fanucUdp x y z =>
          simp only [proto] at free
          cases free
      | profinetIrt | ros2Udp | s7commArrival => rfl

theorem classify_unclaimed {profile : Profile} {f : DecodedFieldbusFrame}
    (free : manifest.assign f = none) : manifest.classify profile f = .ok (manifest.assign f) := by
  refine classifyEntries_ok manifest.nodes.entries fun entry member => ?_
  have none_ := Option.map_eq_none_iff.mp (List.findSome?_eq_none_iff.mp free entry member)
  rw [none_, matchesFrame_free none_]

theorem classified_interleaved {profile : Profile}
    (interleaves : manifest.Interleaves packets packets')
    (classified : ∀ f ∈ acceptedFrames packets,
      manifest.classify profile f = .ok (manifest.assign f)) :
    ∀ f ∈ acceptedFrames packets', manifest.classify profile f = .ok (manifest.assign f) := by
  intro f accepted
  cases claims : manifest.assign f with
  | none => exact claims ▸ classify_unclaimed claims
  | some assigned =>
      obtain ⟨packet, member, parsed, -⟩ := acceptedFrames_time accepted
      have read : manifest.nodeOf packet = some assigned.1 := by
        rw [DependencyManifest.nodeOf, reading_eq, parsed]
        exact congrArg (Option.map Prod.fst) claims
      have seen : packet ∈ manifest.seenWith assigned.1 packets' :=
        List.mem_filter.mpr ⟨member, decide_eq_true (Or.inl read)⟩
      rw [← interleaves] at seen
      refine claims ▸ classified f
        (List.mem_filterMap.mpr ⟨packet, List.mem_of_mem_filter seen, ?_⟩)
      rw [parsed]
      rfl

theorem interleaving_free {CAP : Nat} (positive : 0 < CAP) (profile : Profile) (nodes : NodeTable)
    (edges : List DependencyEdge) (tripNode : NodeId) {packets packets' : List Packet}
    (interleaves : (DependencyManifest.new nodes edges tripNode).Interleaves packets packets')
    {results : List (Option TripAnalysis)}
    (done : replayResults CAP profile (.new nodes edges tripNode) packets = .ok results) :
    ∃ results', replayResults CAP profile (.new nodes edges tripNode) packets' = .ok results' ∧
      InterleavingFree CAP profile (.new nodes edges tripNode) packets packets' results
        results' := by
  have indexed := new_indexed nodes edges tripNode
  generalize DependencyManifest.new nodes edges tripNode = manifest at indexed interleaves done ⊢
  have completes : ∀ CAP', 0 < CAP' →
      (∃ whole, replayResults CAP' profile manifest packets = .ok whole) ∧
        ∃ whole, replayResults CAP' profile manifest packets' = .ok whole := by
    intro CAP' positive'
    rw [replayResults_iff positive' indexed, replayResults_iff positive' indexed]
    have safe := (replayResults_iff positive indexed packets).mp ⟨results, done⟩
    refine ⟨safe, fun dev => ?_⟩
    obtain ⟨classified, few⟩ := safe dev
    exact ⟨classified_interleaved interleaves classified, by rwa [countP_interleaved interleaves]⟩
  have ran : ∀ {CAP' part results}, 0 < CAP' →
      replayResults CAP' profile manifest part = .ok results →
        results = analyses manifest.capture manifest (List.take CAP') [] part :=
    fun positive' finished => replayResults_eq positive' indexed finished
  obtain ⟨-, results', done'⟩ := completes CAP positive
  refine ⟨results', done', ?_⟩
  have unevicted : ∀ CAP', packets.countP (claimed manifest) ≤ CAP' →
      (analyses manifest.capture manifest (List.take CAP') [] packets').reduceOption.map
          (·.map (·.unnumbered)) =
        (analyses manifest.capture manifest (List.take CAP') [] packets).reduceOption.map
          (·.map (·.unnumbered)) := by
    intro CAP' few
    have few' := (countP_interleaved interleaves).trans_le few
    rw [analyses_whole (by simpa using few'), analyses_whole (by simpa using few)]
    exact analyses_interleaved interleaves
  constructor
  case trips =>
    rw [ran positive done, ran positive done']
    exact trips_interleaved interleaves CAP
  case settled =>
    intro k analysis analysis' at_ at_' settled settled'
    -- With enough memory for the whole capture both are what they are.
    let CAP' := max CAP (packets.countP (claimed manifest))
    have positive' : 0 < CAP' := positive.trans_le (Nat.le_max_left _ _)
    obtain ⟨⟨whole, finished⟩, whole', finished'⟩ := completes CAP' positive'
    have found := settled CAP' (Nat.le_max_left _ _) whole finished
    have found' := settled' CAP' (Nat.le_max_left _ _) whole' finished'
    have same := congrArg (·[k]?) (unevicted CAP' (Nat.le_max_right _ _))
    rw [← ran positive' finished, ← ran positive' finished'] at same
    simp only [List.getElem?_map, found, found', Option.map_some] at same
    exact Option.some.inj same
  case unevicted =>
    intro few
    rw [ran positive done, ran positive done']
    exact unevicted CAP few

theorem crossed_interleaves : Cell.manifest.Interleaves Cell.inTurn Cell.crossed := by
  intro node
  have amr : Cell.manifest.nodeOf (10000000, udpBytes 7400) = some Cell.amr := rfl
  have fanuc : Cell.manifest.nodeOf (20000000, udpBytes 60008) = some Cell.fanuc := rfl
  have trip : Cell.manifest.tripNode = Cell.plc := rfl
  unfold DependencyManifest.seenWith Cell.inTurn Cell.crossed
  by_cases here : node = Cell.amr
  · subst here
    simp [List.filter_cons, amr, fanuc, trip, Cell.amr, Cell.fanuc, Cell.plc]
  · have off : decide (Cell.manifest.nodeOf (10000000, udpBytes 7400) = some node ∨
        Cell.manifest.nodeOf (10000000, udpBytes 7400) = some Cell.manifest.tripNode) = false := by
      rw [amr, trip]
      exact decide_eq_false fun seen => seen.elim (fun is => here (Option.some.inj is).symm)
        (fun is => absurd is (by decide))
    simp only [List.filter_cons, off, Bool.false_eq_true, if_false]

theorem interleaving_free_cell : ∃ results results',
    replayResults 4 .dev Cell.manifest Cell.inTurn = .ok results ∧
    replayResults 4 .dev Cell.manifest Cell.crossed = .ok results' ∧
    InterleavingFree 4 .dev Cell.manifest Cell.inTurn Cell.crossed results results' := by
  obtain ⟨results, done⟩ : ∃ results,
      replayResults 4 .dev Cell.manifest Cell.inTurn = .ok results := ⟨_, rfl⟩
  obtain ⟨results', done', free⟩ :=
    interleaving_free (by decide) .dev _ _ Cell.plc crossed_interleaves done
  exact ⟨results, results', done, done', free⟩

end Proof
end CausalWorks
