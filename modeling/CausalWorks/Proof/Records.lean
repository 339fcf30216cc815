import CausalWorks.Proof.Accepted
import CausalWorks.Proof.Attribution
import CausalWorks.Trace

/-!
# Evidence records agree with the analysis

The response time is taken from the trigger of the root. The chain back from the trip runs
strictly down in time, so the difference is not clamped, however many hops away the root is.
-/

namespace CausalWorks

/-- No reported catalyst has a larger overrun, as far as binary64 can tell. -/
def WorstOf (root : TraceCatalyst) (catalysts : List TraceCatalyst) : Prop :=
  ∀ c ∈ catalysts, c.normalizedOverrun ≤ root.normalizedOverrun ∧
    (c.observedDtNs < 2 ^ 53 → root.observedDtNs < 2 ^ 53 →
      Rounding.rounded (exactOverrun c.observedDtNs c.wcetNs) ≤
        Rounding.rounded (exactOverrun root.observedDtNs root.wcetNs))

structure ConsistentRecord (analysis : TripAnalysis) (budgetNs : UInt64) (t : CausalTrace) :
    Prop where
  ranked : t.rankedCatalysts = analysis.rankedCatalysts.map .ofCandidate
  root : t.rootCatalyst = t.rankedCatalysts.head?
  finding : t.iso13849.finding = .attributableNuisanceTrip ↔ t.rankedCatalysts ≠ []
  row : ∀ {JsonError : Type} (toJson : CausalTrace → Except JsonError String) row,
    TraceRow.fromTrace toJson t = .ok row →
      (row.attributed = true ↔ t.rankedCatalysts ≠ []) ∧
        (row.rootOverrun.isSome = true ↔ t.rankedCatalysts ≠ [])
  worst : ∀ root ∈ t.rootCatalyst, WorstOf root t.rankedCatalysts
  responseTime : ∀ root ∈ analysis.rankedCatalysts.head?,
    t.iso13849.observedResponseTimeNs.toNat + root.trigger.tsNs.toNat =
        analysis.tripEvent.tsNs.toNat ∧
      root.observedDtNs ≤ t.iso13849.observedResponseTimeNs ∧ root.wcetNs < root.observedDtNs
  withinBudget : t.iso13849.responseWithinBudget = true ↔
    t.rankedCatalysts ≠ [] ∧ t.iso13849.observedResponseTimeNs ≤ budgetNs

def ConsistentEvidence (analysis : TripAnalysis) : Prop :=
  ∀ applianceId window safetyFunctionId budgetNs, ConsistentRecord analysis budgetNs
    (.build applianceId analysis window safetyFunctionId budgetNs)

def RecordsConsistently (CAP : Nat) (profile : Profile) (manifest : DependencyManifest)
    (frames : List DecodedFieldbusFrame) : Prop :=
  match runResults CAP profile manifest frames with
  | .ok results => ∀ analysis, some analysis ∈ results → ConsistentEvidence analysis
  | .error fault => Proof.DevOnly profile fault

def Cell.tiedCfg : ManifestCfg :=
  { nodes := [⟨3, .profinet 0x0002 0⟩, ⟨2, .ros2Port 7401⟩, ⟨1, .ros2Port 7400⟩]
    edges := [⟨1, 3, 59999999999⟩, ⟨2, 3, 60000000000⟩]
    tripNode := 3 }

namespace Proof
variable {manifest : DependencyManifest} {window : History} {trip : StateTransition}

theorem reached_before {t : StateTransition} (reached : Reached manifest window trip t) :
    t.tsNs ≤ trip.tsNs := by
  induction reached with
  | trip => exact UInt64.le_refl _
  | trigger reached link ih =>
      have older := (lastBefore_some (mem_linksInto.mp link).2.2.2).2.2
      exact UInt64.le_of_lt (UInt64.lt_of_lt_of_le older ih)

theorem catalyst_times {c : CandidateCatalyst}
    (member : c ∈ (attribution manifest window trip).rankedCatalysts) :
    c.trigger.tsNs.toNat + c.observedDtNs.toNat ≤ trip.tsNs.toNat ∧
      c.wcetNs < c.observedDtNs := by
  obtain ⟨l, reported, rfl⟩ := mem_rankedCatalysts.mp member
  obtain ⟨effect, visited, link, violated⟩ := mem_violations reported
  have span := dt_exact link
  have before := UInt64.le_iff_toNat_le.mp (reached_before (examined_reached effect visited))
  obtain ⟨-, -, rfl, -⟩ := mem_linksInto.mp link
  exact ⟨span.trans_le before, violated⟩

theorem catalyst_budget (budgets : ∀ e ∈ manifest.edges, 0 < e.wcetNs) {c : CandidateCatalyst}
    (member : c ∈ (attribution manifest window trip).rankedCatalysts) : 0 < c.wcetNs := by
  obtain ⟨l, reported, rfl⟩ := mem_rankedCatalysts.mp member
  obtain ⟨effect, -, link, -⟩ := mem_violations reported
  exact budgets _ (mem_linksInto.mp link).1

theorem catalyst_measures {c : CandidateCatalyst}
    (member : c ∈ (attribution manifest window trip).rankedCatalysts) :
    ∃ v, Binary64.Measures c.normalizedOverrun v := by
  obtain ⟨l, reported, rfl⟩ := mem_rankedCatalysts.mp member
  obtain ⟨-, -, -, violated⟩ := mem_violations reported
  exact overrun_measures violated

theorem head_worst (budgets : ∀ e ∈ manifest.edges, 0 < e.wcetNs) {root : CandidateCatalyst}
    {rest : List CandidateCatalyst}
    (ranked : (attribution manifest window trip).rankedCatalysts = root :: rest) :
    WorstOf (.ofCandidate root) ((root :: rest).map .ofCandidate) := by
  have byFloat : RankedByFloat (attribution manifest window trip) := attribution_rankedByFloat
  have byRounding : RankedUpToRounding (attribution manifest window trip) :=
    attribution_rankedUpToRounding
  unfold RankedByFloat at byFloat
  unfold RankedUpToRounding at byRounding
  rw [ranked, List.pairwise_cons] at byFloat byRounding
  have positive : ∀ c ∈ root :: rest, 0 < c.wcetNs := fun c member =>
    catalyst_budget budgets (ranked ▸ member)
  intro reported member
  obtain ⟨c, listed, rfl⟩ := List.mem_map.mp member
  rcases List.mem_cons.mp listed with rfl | later
  · -- The overrun of the root itself is not a NaN.
    obtain ⟨v, measures⟩ := catalyst_measures (ranked ▸ listed)
    exact ⟨(measures.le_iff measures).mpr le_rfl, fun _ _ => le_rfl⟩
  · refine ⟨byFloat.1 c later, fun small smallRoot => ?_⟩
    exact byRounding.1 c later (positive root List.mem_cons_self) (positive c listed) smallRoot
      small

theorem row_fields {JsonError : Type} {toJson : CausalTrace → Except JsonError String}
    {t : CausalTrace} {row : TraceRow} (stored : TraceRow.fromTrace toJson t = .ok row) :
    row.attributed = decide (t.iso13849.finding = .attributableNuisanceTrip) ∧
      row.rootOverrun = t.rootCatalyst.map TraceCatalyst.normalizedOverrun := by
  unfold TraceRow.fromTrace at stored
  cases text : toJson t with
  | error error =>
      rw [text] at stored
      cases stored
  | ok json =>
      rw [text] at stored
      cases stored
      exact ⟨rfl, rfl⟩

theorem attribution_consistent (budgets : ∀ e ∈ manifest.edges, 0 < e.wcetNs) :
    ConsistentEvidence (attribution manifest window trip) := by
  intro applianceId events safetyFunctionId budgetNs
  cases ranked : (attribution manifest window trip).rankedCatalysts with
  | nil =>
      constructor
      case row =>
        intro JsonError toJson row stored
        obtain ⟨attributed, overrun⟩ := row_fields stored
        rw [attributed, overrun]
        simp [CausalTrace.build, ranked]
      all_goals simp [CausalTrace.build, ranked]
  | cons root rest =>
      have here : root ∈ (attribution manifest window trip).rankedCatalysts :=
        ranked ▸ List.mem_cons_self
      have times := catalyst_times here
      constructor
      case row =>
        intro JsonError toJson row stored
        obtain ⟨attributed, overrun⟩ := row_fields stored
        rw [attributed, overrun]
        simp [CausalTrace.build, ranked]
      case worst =>
        intro worst head
        simp only [CausalTrace.build, ranked, List.head?_cons, Option.map_some,
          Option.mem_some_iff] at head ⊢
        exact head ▸ head_worst budgets ranked
      case responseTime =>
        intro first head
        simp only [ranked, List.head?_cons, Option.mem_some_iff] at head
        subst head
        have response : (CausalTrace.build applianceId (attribution manifest window trip) events
            safetyFunctionId budgetNs).iso13849.observedResponseTimeNs =
              saturatingSub trip.tsNs root.trigger.tsNs := by
          simp only [CausalTrace.build, ranked, List.head?_cons, Option.map_some, Option.getD_some]
          rfl
        rw [response, UInt64.le_iff_toNat_le, saturatingSub_toNat]
        refine ⟨?_, ?_, times.2⟩
        · show trip.tsNs.toNat - _ + _ = trip.tsNs.toNat
          omega
        · omega
      all_goals simp [CausalTrace.build, ranked]

theorem evidence_consistent {CAP : Nat} (positive : 0 < CAP) (profile : Profile)
    {order : IterationOrder} {cfg : ManifestCfg} {m : DependencyManifest}
    (accepted : cfg.build order = .ok m) (frames : List DecodedFieldbusFrame) :
    RecordsConsistently CAP profile m frames := by
  have budgets : ∀ e ∈ m.edges, 0 < e.wcetNs := by
    intro e member
    rw [(built_of_build accepted).edges] at member
    obtain ⟨declared, listed, rfl⟩ := List.mem_map.mp member
    exact UInt64.lt_iff_toNat_lt.mpr ((wellFormed_of_build accepted).budgets declared listed).1
  unfold RecordsConsistently runResults
  rcases run_new_cases positive profile (indexed_of_build accepted) frames with
    ⟨after, done, -⟩ | ⟨fault, devOnly, done⟩
  · rw [done]
    intro analysis reported
    obtain ⟨i, reported⟩ := List.mem_iff_getElem?.mp reported
    obtain ⟨trip, before, -, rfl⟩ := analysis_at _ reported
    exact attribution_consistent budgets
  · rw [done]
    exact devOnly

theorem evidence_consistent_cell : RecordsConsistently 8 .dev Cell.manifest Cell.jitter :=
  evidence_consistent (by decide) .dev Cell.build_cfg _

theorem root_not_worst : Cell.tiedCfg.build .declared = .ok Cell.tiedManifest ∧ ∃ analysis,
    runResults 8 .release Cell.tiedManifest Cell.tied = .ok [none, none, none, some analysis] ∧
      ∀ applianceId window safetyFunctionId budgetNs,
        let t := CausalTrace.build applianceId analysis window safetyFunctionId budgetNs
        ∃ root ∈ t.rootCatalyst, ∃ c ∈ t.rankedCatalysts, 0 < root.wcetNs ∧ 0 < c.wcetNs ∧
          exactOverrun root.observedDtNs root.wcetNs < exactOverrun c.observedDtNs c.wcetNs := by
  refine ⟨by rfl, ?_⟩
  have spansEq := tied_spans
  unfold runResults
  cases done : (CausalGraphObserver.new Cell.tiedManifest : CausalGraphObserver 8).run .release
      Cell.tied with
  | error fault => simp [done, Except.map] at spansEq
  | ok run =>
      obtain ⟨s, results⟩ := run
      simp only [done, Except.map, Except.ok.injEq] at spansEq
      obtain ⟨analysis, rfl, list⟩ : ∃ analysis, results = [none, none, none, some analysis] ∧
          spans analysis = [(119999999997, 59999999999), (119999999999, 60000000000)] := by
        simpa [List.map_eq_cons_iff] using spansEq
      obtain ⟨root, rest, ranked, rootSpan, restSpan⟩ := List.map_eq_cons_iff.mp list
      obtain ⟨c, rest, rfl, cSpan, -⟩ := List.map_eq_cons_iff.mp restSpan
      obtain ⟨rootDt, rootWcet⟩ := Prod.mk.inj rootSpan
      obtain ⟨cDt, cWcet⟩ := Prod.mk.inj cSpan
      refine ⟨analysis, rfl, fun applianceId window safetyFunctionId budgetNs => ?_⟩
      refine ⟨.ofCandidate root, by simp [CausalTrace.build, ranked], .ofCandidate c,
        by simp [CausalTrace.build, ranked], ?_⟩
      simp only [TraceCatalyst.ofCandidate, rootDt, rootWcet, cDt, cWcet, exactOverrun,
        UInt64.reduceToNat]
      refine ⟨by decide, by decide, ?_⟩
      norm_num

end Proof
end CausalWorks
