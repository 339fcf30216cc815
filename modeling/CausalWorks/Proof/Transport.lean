import CausalWorks.Proof.Completeness
import CausalWorks.Proof.Coverage
import CausalWorks.Proof.Evidence

/-!
# Attribution over renumbered and shifted transitions

What the walk does with a transition depends on its node and on its distance to other transitions.
A change that keeps both is carried through to the analysis.
-/

namespace CausalWorks

def CandidateCatalyst.map (φ : StateTransition → StateTransition) (self : CandidateCatalyst) :
    CandidateCatalyst := { self with trigger := φ self.trigger, effect := φ self.effect }

def CausalLink.map (φ : StateTransition → StateTransition) (self : CausalLink) : CausalLink :=
  { self with trigger := φ self.trigger, effect := φ self.effect }

def TripAnalysis.map (φ : StateTransition → StateTransition) (self : TripAnalysis) : TripAnalysis :=
  { tripEvent := φ self.tripEvent, rankedCatalysts := self.rankedCatalysts.map (·.map φ) }

namespace Proof

structure Relabels (φ : StateTransition → StateTransition) : Prop where
  node : ∀ t, (φ t).node = t.node
  interlock : ∀ t, (φ t).interlock = t.interlock

def KeepsSpans (φ : StateTransition → StateTransition) (instances : List StateTransition) : Prop :=
  ∀ t ∈ instances, ∀ u ∈ instances,
    saturatingSub (φ u).tsNs (φ t).tsNs = saturatingSub u.tsNs t.tsNs

variable {φ : StateTransition → StateTransition} {instances : List StateTransition}
  {manifest : DependencyManifest} {window : History}

theorem saturatingSub_pos {x y : UInt64} : 0 < (saturatingSub y x).toNat ↔ x < y := by
  rw [saturatingSub_toNat, UInt64.lt_iff_toNat_lt]
  omega

theorem KeepsSpans.earlier (spans : KeepsSpans φ instances) {t u : StateTransition}
    (ht : t ∈ instances) (hu : u ∈ instances) : (φ t).tsNs < (φ u).tsNs ↔ t.tsNs < u.tsNs := by
  rw [← saturatingSub_pos, ← saturatingSub_pos, spans t ht u hu]

theorem KeepsSpans.mono (spans : KeepsSpans φ instances) {fewer : List StateTransition}
    (subset : ∀ t ∈ fewer, t ∈ instances) : KeepsSpans φ fewer :=
  fun t ht u hu => spans t (subset t ht) u (subset u hu)

theorem keepsSpans_of_times (same : ∀ t, (φ t).tsNs = t.tsNs) : KeepsSpans φ instances := by
  intro t _ u _
  rw [same, same]

theorem examined_inside {trip q : StateTransition} (visited : q ∈ examined manifest window trip) :
    q ∈ trip :: window := by
  cases examined_reached q visited with
  | trip => exact List.mem_cons_self
  | trigger _ link =>
      obtain ⟨-, -, -, found⟩ := mem_linksInto.mp link
      exact List.mem_cons_of_mem _ (lastBefore_some found).1

theorem rank_map (candidates : List CandidateCatalyst) :
    rank (candidates.map (·.map φ)) = (rank candidates).map (·.map φ) :=
  (List.map_insertionSort notAfter notAfter (·.map φ) candidates fun _ _ _ _ => Iff.rfl).symm

section
variable (relabels : Relabels φ) {effect : StateTransition}
  (spans : KeepsSpans φ (effect :: window))
include relabels spans

theorem lastBefore_map (node : NodeId) :
    lastBefore (window.map φ) node (φ effect).tsNs =
      (lastBefore window node effect.tsNs).map φ := by
  unfold lastBefore
  rw [List.find?_map]
  congr 1
  refine List.find?_congr fun t member => ?_
  have earlier := spans.earlier (List.mem_cons_of_mem _ member) List.mem_cons_self
  simp only [Function.comp_apply, relabels.node, earlier]

theorem linksInto_map : linksInto manifest (window.map φ) (φ effect) =
    (linksInto manifest window effect).map (CausalLink.map φ) := by
  unfold linksInto
  rw [relabels.node, List.map_filterMap]
  refine List.filterMap_congr fun edge _ => ?_
  rw [lastBefore_map relabels spans, Option.map_map, Option.map_map]
  rfl

theorem triggers_map : triggers manifest (window.map φ) (φ effect) =
    (triggers manifest window effect).map φ := by
  unfold triggers
  rw [linksInto_map relabels spans, List.map_map, List.map_map]
  rfl

end

section
variable {trip : StateTransition} (spans : KeepsSpans φ (trip :: window))
include spans

theorem keepsSpans_from {effect : StateTransition} (inside : effect ∈ trip :: window) :
    KeepsSpans φ (effect :: window) :=
  spans.mono fun t member => by
    rcases List.mem_cons.mp member with rfl | older
    · exact inside
    · exact List.mem_cons_of_mem _ older

theorem violated_map {l : CausalLink} (reached : l.effect ∈ trip :: window)
    (found : l.trigger ∈ window) : (l.map φ).violated = l.violated := by
  have span := spans l.trigger (List.mem_cons_of_mem _ found) l.effect reached
  unfold CausalLink.violated CausalLink.dt CausalLink.map
  rw [span]

variable (relabels : Relabels φ)
include relabels

theorem examined_map : examined manifest (window.map φ) (φ trip) =
    (examined manifest window trip).map φ := by
  have handed : ∀ x, x ∈ trip :: window → ∀ y ∈ triggers manifest window x, y ∈ trip :: window := by
    intro x _ y pushed
    obtain ⟨l, link, rfl⟩ := List.mem_map.mp pushed
    obtain ⟨-, -, -, found⟩ := mem_linksInto.mp link
    exact List.mem_cons_of_mem _ (lastBefore_some found).1
  exact Worklist.expansions_map φ handed (fun x _ => relabels.node x)
    (fun x inside => triggers_map relabels (keepsSpans_from spans inside)) _ [] [trip] (by simp)

theorem violations_map : violations manifest (window.map φ) (φ trip) =
    (violations manifest window trip).map (CausalLink.map φ) := by
  have links : ∀ x ∈ examined manifest window trip, linksInto manifest (window.map φ) (φ x) =
      (linksInto manifest window x).map (CausalLink.map φ) := fun x visited =>
    linksInto_map relabels (keepsSpans_from spans (examined_inside visited))
  unfold violations
  rw [examined_map spans relabels, List.flatMap_map, List.flatMap_congr links, ← List.map_flatMap,
    List.filter_map]
  congr 1
  refine List.filter_congr fun l member => ?_
  obtain ⟨x, visited, link⟩ := List.mem_flatMap.mp member
  obtain ⟨-, -, effect, found⟩ := mem_linksInto.mp link
  exact violated_map spans (effect ▸ examined_inside visited) (lastBefore_some found).1

theorem attribution_map : attribution manifest (window.map φ) (φ trip) =
    (attribution manifest window trip).map φ := by
  have catalysts : ∀ l ∈ violations manifest window trip,
      (l.map φ).catalyst = l.catalyst.map φ := by
    intro l late
    obtain ⟨x, visited, link, -⟩ := mem_violations late
    obtain ⟨-, -, effect, found⟩ := mem_linksInto.mp link
    have span := spans l.trigger (List.mem_cons_of_mem _ (lastBefore_some found).1) l.effect
      (effect ▸ examined_inside visited)
    unfold CausalLink.catalyst CausalLink.dt CausalLink.map CandidateCatalyst.map
    rw [span]
  unfold attribution TripAnalysis.map
  rw [violations_map spans relabels, List.map_map, ← rank_map, List.map_map]
  congr 2
  exact List.map_congr_left catalysts

end

theorem attribution_congr {window' : History} {trip : StateTransition} {P : StateTransition → Prop}
    (handed : ∀ x, P x → ∀ l ∈ linksInto manifest window x, P l.trigger)
    (same : ∀ x, P x → linksInto manifest window x = linksInto manifest window' x)
    (start : P trip) : attribution manifest window trip = attribution manifest window' trip := by
  have pushed : ∀ x, P x → ∀ y ∈ triggers manifest window x, P y := by
    intro x holds y member
    obtain ⟨l, link, rfl⟩ := List.mem_map.mp member
    exact handed x holds l link
  have started : ∀ x ∈ [trip], P x := by simpa using start
  have inside : ∀ x ∈ examined manifest window trip, P x :=
    Worklist.expansions_induction pushed _ _ _ started
  have visits : examined manifest window trip = examined manifest window' trip :=
    Worklist.expansions_congr pushed (fun x holds => by rw [triggers, triggers, same x holds])
      _ _ _ started
  rw [attribution, attribution, violations, violations, ← visits,
    List.flatMap_congr fun x member => same x (inside x member)]

theorem levelOf_map (relabels : Relabels φ) (history : History) (node : NodeId) :
    levelOf (history.map φ) node = levelOf history node := by
  unfold levelOf
  rw [List.findSome?_map]
  congr 1
  funext t
  rw [Function.comp_apply, relabels.node, relabels.interlock]

theorem isTrip_map (relabels : Relabels φ) (history : History) (t : StateTransition) :
    manifest.isTrip (history.map φ) (φ t) = manifest.isTrip history t := by
  unfold DependencyManifest.isTrip
  rw [levelOf_map relabels, relabels.node, relabels.interlock]

theorem capture_trip {history : History} {packet : Packet} {trip : StateTransition}
    (tripped : (manifest.capture history packet).2 = some trip) :
    (manifest.capture history packet).1 = trip :: history := by
  rcases capture_cases manifest history packet with same | ⟨t, -, -, pushed, trips⟩
  · rw [same] at tripped
    cases tripped
  · rw [pushed, trips trip tripped]

section
variable {CAP : Nat} {profile : Profile}

theorem map_fst_cons {α β : Type} (rest : Except Fault (α × List β)) (b : β) :
    (do let (a, bs) ← rest; return (a, b :: bs) : Except Fault (α × List β)).map Prod.fst =
      rest.map Prod.fst := by
  cases rest <;> rfl

theorem replay_accepted (s : CausalGraphObserver CAP) (packets : List Packet) :
    (s.replay profile packets).map Prod.fst =
      (s.run profile (acceptedFrames packets)).map Prod.fst := by
  induction packets generalizing s with
  | nil => rfl
  | cons packet packets ih =>
      rw [CausalGraphObserver.replay, CausalGraphObserver.feed]
      rcases parseFrame_cases packet.1 packet.2 with ⟨proto, parsed⟩ | ⟨error, failed⟩
      · rw [acceptedFrames_ok packets parsed, CausalGraphObserver.run, parsed]
        cases observed : s.observe profile ⟨packet.1, proto, packet.2⟩ with
        | error fault => simp only [observed, bind, Except.bind, Except.map]
        | ok next =>
            simp only [observed]
            exact (map_fst_cons _ next.2).trans ((ih next.1).trans (map_fst_cons _ next.2).symm)
      · rw [acceptedFrames_err packets failed, failed]
        exact (map_fst_cons _ none).trans (ih s)

theorem ok_iff_map {α β : Type} {x : Except Fault α} (f : α → β) :
    (∃ a, x = .ok a) ↔ ∃ b, x.map f = .ok b := by
  cases x with
  | error fault => simp [Except.map]
  | ok a => simp [Except.map]

theorem countP_claimed (packets : List Packet) :
    (acceptedFrames packets).countP (fun f => (manifest.assign f).isSome) =
      packets.countP (claimed manifest) := by
  induction packets with
  | nil => rfl
  | cons packet packets ih =>
      rw [List.countP_cons, ← ih, claimed, reading_eq]
      rcases parseFrame_cases packet.1 packet.2 with ⟨proto, parsed⟩ | ⟨error, failed⟩
      · rw [acceptedFrames_ok packets parsed, List.countP_cons, parsed]
      · rw [acceptedFrames_err packets failed, failed]
        rfl

theorem replayResults_iff (positive : 0 < CAP) (indexed : manifest.Indexed)
    (packets : List Packet) :
    (∃ results, replayResults CAP profile manifest packets = .ok results) ↔
      (profile = .dev → (∀ f ∈ acceptedFrames packets,
        manifest.classify profile f = .ok (manifest.assign f)) ∧
          packets.countP (claimed manifest) < 2 ^ 64) := by
  have replayed := @replay_accepted CAP profile (.new manifest) packets
  rw [← countP_claimed, ← runResults_iff positive indexed]
  show (∃ results, Except.map Prod.snd _ = .ok results) ↔
    ∃ results, Except.map Prod.snd _ = .ok results
  rw [← ok_iff_map, ← ok_iff_map, ok_iff_map Prod.fst, ok_iff_map Prod.fst, replayed]

end

end Proof
end CausalWorks
