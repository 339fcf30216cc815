import CausalWorks.Manifest
import CausalWorks.Proof.Attribution

/-!
# When a reported catalyst is genuine

The trigger lookup skips a source instance that carries the timestamp of the effect. A catalyst is
fabricated exactly when that happens: an instance within the budget was observed, and an older one
is blamed.
-/

namespace CausalWorks

def InBudget (edge : DependencyEdge) (effect t : StateTransition) : Prop :=
  t.node = edge.edgeFrom ∧ t.tsNs ≤ effect.tsNs ∧
    effect.tsNs.toNat ≤ t.tsNs.toNat + edge.wcetNs.toNat

instance (edge : DependencyEdge) (effect t : StateTransition) :
    Decidable (InBudget edge effect t) := inferInstanceAs (Decidable (_ ∧ _ ∧ _))

/-- No source instance observed before the effect is within the budget. -/
def Genuine (observed : List StateTransition) (c : CandidateCatalyst) : Prop :=
  ∀ t, [t, c.effect].Sublist observed → ¬ InBudget c.edge c.effect t

def TiedTrigger (observed : List StateTransition) (c : CandidateCatalyst) : Prop :=
  ∃ t, [t, c.effect].Sublist observed ∧ t.node = c.edge.edgeFrom ∧ t.tsNs = c.effect.tsNs

/-- Only a trigger at the effect's own timestamp is in budget, and an older one is late. -/
def HidesTrigger (before : History) (edge : DependencyEdge) (effect : StateTransition) : Prop :=
  (∃ t ∈ before, t.node = edge.edgeFrom ∧ t.tsNs = effect.tsNs) ∧
  (∃ t ∈ before, t.node = edge.edgeFrom ∧ t.tsNs < effect.tsNs) ∧
    ∀ t ∈ before, t.tsNs < effect.tsNs → ¬ InBudget edge effect t

namespace DependencyManifest
variable (self : DependencyManifest) (frames : List DecodedFieldbusFrame)

def NothingHidden : Prop :=
  ∀ i f, frames[i]? = some f → ∀ node interlock, self.assign f = some (node, interlock) →
    ∀ edge ∈ self.edges, edge.edgeTo = node →
      let before := (self.transitions (frames.take i)).reverse
      ¬ HidesTrigger before edge (transitionOf before f node interlock)

def Prompt : Prop :=
  ∀ i f, frames[i]? = some f → ∀ node interlock, self.assign f = some (node, interlock) →
    ∀ edge ∈ self.edges, edge.edgeTo = node →
      let before := (self.transitions (frames.take i)).reverse
      ∃ t ∈ before, InBudget edge (transitionOf before f node interlock) t

end DependencyManifest

structure NoFabrication (manifest : DependencyManifest) (frames : List DecodedFieldbusFrame)
    (results : List (Option TripAnalysis)) : Prop where
  genuine_iff : ∀ (i : Nat) (analysis : TripAnalysis),
    results[i]? = some (some analysis) →
    ∀ c ∈ analysis.rankedCatalysts, Genuine (manifest.transitions (frames.take (i + 1))) c ↔
      ¬ TiedTrigger (manifest.transitions (frames.take (i + 1))) c
  genuine : manifest.NothingHidden frames → ∀ (i : Nat) (analysis : TripAnalysis),
    results[i]? = some (some analysis) →
    ∀ c ∈ analysis.rankedCatalysts, Genuine (manifest.transitions (frames.take (i + 1))) c
  clean : manifest.NothingHidden frames → manifest.Prompt frames → ∀ (i : Nat)
    (analysis : TripAnalysis), results[i]? = some (some analysis) → analysis.rankedCatalysts = []

def FabricatesNothing (CAP : Nat) (profile : Profile) (manifest : DependencyManifest)
    (frames : List DecodedFieldbusFrame) : Prop :=
  match runResults CAP profile manifest frames with
  | .ok results => NoFabrication manifest frames results
  | .error fault => Proof.DevOnly profile fault

def Cell.instant : List DecodedFieldbusFrame :=
  [ros2At 0, fanucAt 0, plcAt 0 true, ros2At 10000000, fanucAt 10000000, plcAt 10000000 false]

def Cell.stale : CausalLink :=
  { edge := ⟨fanuc, plc, 4000000⟩, trigger := ⟨1, fanuc, 0, none⟩
    effect := ⟨5, plc, 10000000, some false⟩ }

def History.Sorted (history : History) : Prop :=
  history.Pairwise fun newer older => older.tsNs ≤ newer.tsNs

namespace Proof
variable {manifest : DependencyManifest} {history newer before : History}
  {effect t : StateTransition} {frames : List DecodedFieldbusFrame}

theorem sorted_historyOf
    (ordered : frames.Pairwise fun f g => f.tapTsNs ≤ g.tapTsNs) :
    History.Sorted (historyOf manifest.record [] frames) ∧
      ∀ t ∈ historyOf manifest.record [] frames, ∃ f ∈ frames, t.tsNs = f.tapTsNs := by
  induction frames using List.reverseRecOn with
  | nil => simp [historyOf, History.Sorted]
  | append_singleton frames f ih =>
      rw [List.pairwise_append] at ordered
      obtain ⟨earlier, -, last⟩ := ordered
      obtain ⟨sorted, stamped⟩ := ih earlier
      rw [historyOf_concat]
      unfold DependencyManifest.record
      cases manifest.assign f with
      | none =>
          refine ⟨sorted, fun t member => ?_⟩
          obtain ⟨g, inside, same⟩ := stamped t member
          exact ⟨g, List.mem_append_left _ inside, same⟩
      | some found =>
          constructor
          · refine List.pairwise_cons.mpr ⟨fun t member => ?_, sorted⟩
            obtain ⟨g, inside, same⟩ := stamped t member
            rw [same]
            exact last g inside f (by simp)
          · intro t member
            rcases List.mem_cons.mp member with rfl | older
            · exact ⟨f, by simp, rfl⟩
            · obtain ⟨g, inside, same⟩ := stamped t older
              exact ⟨g, List.mem_append_left _ inside, same⟩

theorem precedes_iff {observed : List StateTransition} : [t, effect].Sublist observed ↔
    ∃ newer before, observed.reverse = newer ++ effect :: before ∧ t ∈ before := by
  rw [← List.reverse_sublist, List.reverse_cons, List.reverse_singleton, List.singleton_append,
    List.cons_sublist_iff]
  constructor
  · rintro ⟨front, back, split, inside, later⟩
    obtain ⟨newer, rest, rfl⟩ := List.append_of_mem inside
    refine ⟨newer, rest ++ back, by simp [split], ?_⟩
    exact List.mem_append_right _ (List.singleton_sublist.mp later)
  · rintro ⟨newer, before, split, member⟩
    exact ⟨newer ++ [effect], before, by simp [split], by simp, List.singleton_sublist.mpr member⟩

theorem trigger_newest {CAP : Nat} {node : NodeId} {trigger : StateTransition}
    (sorted : History.Sorted history)
    (found : lastBefore (history.take CAP) node effect.tsNs = some trigger) (member : t ∈ history)
    (source : t.node = node) (older : t.tsNs < effect.tsNs) : t.tsNs ≤ trigger.tsNs := by
  obtain ⟨-, newer, before, split, skipped⟩ := List.find?_eq_some_iff_append.mp found
  have whole : history = newer ++ trigger :: (before ++ history.drop CAP) := by
    conv_lhs => rw [← List.take_append_drop CAP history, split]
    simp
  rw [whole] at member
  rw [History.Sorted, whole, List.pairwise_append, List.pairwise_cons] at sorted
  rcases List.mem_append.mp member with new | rest
  · have passed := skipped t new
    simp [source, older] at passed
  · rcases List.mem_cons.mp rest with rfl | behind
    · exact UInt64.le_refl _
    · exact sorted.2.1.1 t behind

theorem older_mem_before (sorted : History.Sorted (newer ++ effect :: before))
    (member : t ∈ newer ++ effect :: before) (older : t.tsNs < effect.tsNs) : t ∈ before := by
  rw [History.Sorted, List.pairwise_append] at sorted
  rcases List.mem_append.mp member with new | rest
  · exact absurd older (UInt64.not_lt.mpr (sorted.2.2 t new effect List.mem_cons_self))
  · rcases List.mem_cons.mp rest with rfl | behind
    · exact absurd older (UInt64.lt_irrefl _)
    · exact behind

theorem hidden_of_violated {CAP : Nat} {l : CausalLink} {e : StateTransition}
    (sorted : History.Sorted history) (link : l ∈ linksInto manifest (history.take CAP) e)
    (violated : l.edge.wcetNs < l.dt) (occurs : history = newer ++ l.effect :: before)
    (member : t ∈ before) (prompt : InBudget l.edge l.effect t) :
    t.tsNs = l.effect.tsNs ∧ HidesTrigger before l.edge l.effect := by
  have exact := dt_exact link
  obtain ⟨-, -, rfl, found⟩ := mem_linksInto.mp link
  obtain ⟨recent, source, older⟩ := lastBefore_some found
  have late : ∀ t ∈ history, t.tsNs < l.effect.tsNs → ¬ InBudget l.edge l.effect t := by
    rintro t inside before_ ⟨source, -, budget⟩
    have newest := trigger_newest sorted found inside source before_
    rw [UInt64.lt_iff_toNat_lt] at violated
    rw [UInt64.le_iff_toNat_le] at newest
    omega
  have inside : ∀ t ∈ before, t ∈ history := by
    intro t member
    rw [occurs]
    exact List.mem_append_right _ (List.mem_cons_of_mem _ member)
  have tied : t.tsNs = l.effect.tsNs := by
    by_contra apart
    have before_ : t.tsNs < l.effect.tsNs := UInt64.lt_of_le_of_ne prompt.2.1 apart
    exact late t (inside t member) before_ prompt
  refine ⟨tied, ⟨t, member, prompt.1, tied⟩, ⟨l.trigger, ?_, source, older⟩, fun t member =>
    late t (inside t member)⟩
  rw [occurs] at sorted
  have there := List.mem_of_mem_take recent
  rw [occurs] at there
  exact older_mem_before sorted there older

theorem hidden_of_reported {CAP : Nat} {i : Nat} {analysis : TripAnalysis}
    (ordered : frames.Pairwise fun f g => f.tapTsNs ≤ g.tapTsNs)
    (reported : (analyses manifest.record manifest (List.take CAP) [] frames)[i]? =
      some (some analysis)) {c : CandidateCatalyst} (ranked : c ∈ analysis.rankedCatalysts)
    (precedes : [t, c.effect].Sublist (manifest.transitions (frames.take (i + 1))))
    (prompt : InBudget c.edge c.effect t) : t.tsNs = c.effect.tsNs ∧
      c.edge ∈ manifest.edges ∧ c.edge.edgeTo = c.effect.node ∧
      ∃ newer before, historyOf manifest.record [] (frames.take (i + 1)) =
        newer ++ c.effect :: before ∧ HidesTrigger before c.edge c.effect := by
  obtain ⟨trip, rest, history, rfl⟩ := analysis_at manifest reported
  obtain ⟨l, violation, rfl⟩ := mem_rankedCatalysts.mp ranked
  obtain ⟨effect, -, link, violated⟩ := mem_violations violation
  obtain ⟨declared, into, same, -⟩ := mem_linksInto.mp link
  have sorted := (@sorted_historyOf manifest _
    (ordered.sublist (List.take_sublist (i + 1) frames))).1
  rw [history] at sorted
  obtain ⟨newer, before, occurs, member⟩ := precedes_iff.mp precedes
  rw [← historyOf_eq, history] at occurs
  obtain ⟨tied, hides⟩ := hidden_of_violated sorted link violated occurs member prompt
  subst same
  exact ⟨tied, declared, into, newer, before, history.trans occurs, hides⟩

theorem genuine_iff {CAP : Nat} {i : Nat} {analysis : TripAnalysis}
    (ordered : frames.Pairwise fun f g => f.tapTsNs ≤ g.tapTsNs)
    (reported : (analyses manifest.record manifest (List.take CAP) [] frames)[i]? =
      some (some analysis)) {c : CandidateCatalyst} (ranked : c ∈ analysis.rankedCatalysts) :
    Genuine (manifest.transitions (frames.take (i + 1))) c ↔
      ¬ TiedTrigger (manifest.transitions (frames.take (i + 1))) c := by
  constructor
  · rintro genuine ⟨t, precedes, source, tied⟩
    refine genuine t precedes ⟨source, ?_, ?_⟩
    · rw [tied]
      exact UInt64.le_refl _
    · rw [tied]
      exact Nat.le_add_right _ _
  · intro untied t precedes prompt
    obtain ⟨tied, -⟩ := hidden_of_reported ordered reported ranked precedes prompt
    exact untied ⟨t, precedes, prompt.1, tied⟩

theorem recorded_in_prefix {i : Nat}
    (occurs : historyOf manifest.record [] (frames.take (i + 1)) = newer ++ effect :: before) :
    ∃ j f node interlock, frames[j]? = some f ∧ manifest.assign f = some (node, interlock) ∧
      before = (manifest.transitions (frames.take j)).reverse ∧
      effect = transitionOf before f node interlock := by
  obtain ⟨j, f, node, interlock, at_, assigned, rest, same⟩ := recorded_at manifest occurs
  rw [List.getElem?_take, Option.ite_none_right_eq_some] at at_
  rw [List.take_take, Nat.min_eq_left at_.1.le, historyOf_eq] at rest
  exact ⟨j, f, node, interlock, at_.2, assigned, rest, same⟩

theorem genuine_of_nothingHidden {CAP : Nat} {i : Nat} {analysis : TripAnalysis}
    (ordered : frames.Pairwise fun f g => f.tapTsNs ≤ g.tapTsNs)
    (reported : (analyses manifest.record manifest (List.take CAP) [] frames)[i]? =
      some (some analysis)) {c : CandidateCatalyst} (ranked : c ∈ analysis.rankedCatalysts)
    (shown : manifest.NothingHidden frames) :
    Genuine (manifest.transitions (frames.take (i + 1))) c := by
  intro t precedes prompt
  obtain ⟨-, declared, into, newer, before, occurs, hides⟩ :=
    hidden_of_reported ordered reported ranked precedes prompt
  obtain ⟨j, f, node, interlock, at_, assigned, rfl, effect⟩ := recorded_in_prefix occurs
  rw [effect] at into hides
  exact shown j f at_ node interlock assigned c.edge declared into hides

theorem clean_of_prompt {CAP : Nat} (positive : 0 < CAP) {i : Nat} {analysis : TripAnalysis}
    (ordered : frames.Pairwise fun f g => f.tapTsNs ≤ g.tapTsNs)
    (reported : (analyses manifest.record manifest (List.take CAP) [] frames)[i]? =
      some (some analysis)) (shown : manifest.NothingHidden frames)
    (prompt : manifest.Prompt frames) : analysis.rankedCatalysts = [] := by
  rw [List.eq_nil_iff_forall_not_mem]
  intro c ranked
  have genuine := genuine_of_nothingHidden ordered reported ranked shown
  obtain ⟨trip, rest, history, rfl⟩ := analysis_at manifest reported
  have newest : trip ∈ (trip :: rest).take CAP := by
    obtain ⟨n, rfl⟩ := Nat.exists_eq_succ_of_ne_zero positive.ne'
    exact List.mem_cons_self
  obtain ⟨⟨nearer, chain⟩, -⟩ := attribution_sound newest c ranked
  obtain ⟨declared, into, -⟩ := chain.declared _ List.mem_cons_self
  have recent := List.mem_of_mem_take (chain.recent _ List.mem_cons_self).1
  rw [← history] at recent
  obtain ⟨newer, before, occurs⟩ := List.append_of_mem recent
  obtain ⟨j, f, node, interlock, at_, assigned, rfl, effect⟩ := recorded_in_prefix occurs
  rw [effect] at into
  obtain ⟨t, member, inBudget⟩ := prompt j f at_ node interlock assigned c.edge declared into
  rw [← effect] at inBudget
  refine genuine t (precedes_iff.mpr ⟨newer, _, ?_, member⟩) inBudget
  rw [← historyOf_eq, occurs]

theorem fabricates_nothing {CAP : Nat} (positive : 0 < CAP) (profile : Profile)
    (nodes : NodeTable) (edges : List DependencyEdge) (tripNode : NodeId)
    (frames : List DecodedFieldbusFrame)
    (ordered : frames.Pairwise fun f g => f.tapTsNs ≤ g.tapTsNs) :
    FabricatesNothing CAP profile (.new nodes edges tripNode) frames := by
  unfold FabricatesNothing runResults
  rcases run_new_cases positive profile (new_indexed nodes edges tripNode) frames with
    ⟨after, done, -⟩ | ⟨fault, devOnly, done⟩
  · rw [done]
    constructor
    · exact fun i analysis reported c ranked => genuine_iff ordered reported ranked
    · exact fun shown i analysis reported c ranked =>
        genuine_of_nothingHidden ordered reported ranked shown
    · exact fun shown prompt i analysis reported =>
        clean_of_prompt positive ordered reported shown prompt
  · rw [done]
    exact devOnly

theorem fabricates_nothing_cell : FabricatesNothing 8 .release Cell.manifest Cell.jitter :=
  fabricates_nothing (by decide) .release _ _ _ _ (by decide)

theorem instant_evidence : (runResults 8 .release Cell.manifest Cell.instant).map
    (List.map (Option.map TripAnalysis.evidence)) = .ok [none, none, none, none, none,
      some (Cell.stale.effect, [Cell.stale])] := by
  decide +kernel

/-- The prompt pose of the second cycle is skipped, and the trip is blamed on the first. -/
theorem instant_cell_fabricates : Cell.cfg.build .declared = .ok Cell.manifest ∧
    (Cell.instant.Pairwise fun f g => f.tapTsNs ≤ g.tapTsNs) ∧ Cell.manifest.Prompt Cell.instant ∧
    ∃ results analysis, runResults 8 .release Cell.manifest Cell.instant = .ok results ∧
      some analysis ∈ results ∧
      ∃ c ∈ analysis.rankedCatalysts, ¬ Genuine (Cell.manifest.transitions Cell.instant) c := by
  refine ⟨Cell.build_cfg, by decide, ?_, ?_⟩
  · have steps : ∀ i < Cell.instant.length, (Cell.instant[i]?.all fun f =>
        (Cell.manifest.assign f).all fun found => decide (∀ edge ∈ Cell.manifest.edges,
          edge.edgeTo = found.1 →
            let before := (Cell.manifest.transitions (Cell.instant.take i)).reverse
            ∃ t ∈ before, InBudget edge (transitionOf before f found.1 found.2) t)) = true := by
      decide +kernel
    intro i f at_ node interlock assigned edge declared into
    have step := steps i (List.getElem?_eq_some_iff.mp at_).1
    rw [at_, Option.all_some, assigned, Option.all_some, decide_eq_true_eq] at step
    exact step edge declared into
  · obtain ⟨results, done, evidence⟩ := evidence_ok instant_evidence
    obtain ⟨analysis, reported, -, blamed⟩ := evidence_at evidence (i := 5) rfl
    have listed : Cell.stale ∈ analysis.evidence.2 := by
      rw [blamed]
      exact List.mem_cons_self
    obtain ⟨c, ranked, same⟩ := List.mem_map.mp listed
    refine ⟨results, analysis, done, List.mem_of_getElem? reported, c, ranked, fun genuine => ?_⟩
    obtain ⟨edge, -, effect⟩ := CausalLink.mk.inj same
    rw [Genuine, edge, effect] at genuine
    exact genuine ⟨4, Cell.fanuc, 10000000, none⟩ (by decide +kernel) (by decide)

end Proof
end CausalWorks
