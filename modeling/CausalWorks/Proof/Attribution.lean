import CausalWorks.Proof.Overrun
import CausalWorks.Proof.Refinement

/-!
# Attribution is sound

Every reported catalyst is the far end of a chain of declared links that leads back from the trip
through the window. The ranking follows the binary64 overrun, not the rational one.
-/

namespace CausalWorks

/-- Links from a catalyst to the trip: each effect is the trigger of the next. -/
structure CausalChain (manifest : DependencyManifest) (window : History)
    (trip : StateTransition) (links : List CausalLink) : Prop where
  toTrip : links.getLast?.map CausalLink.effect = some trip
  contiguous : links.IsChain fun far near => far.effect = near.trigger
  declared : ∀ l ∈ links, l.edge ∈ manifest.edges ∧ l.edge.edgeTo = l.effect.node ∧
    l.edge.edgeFrom = l.trigger.node
  backward : ∀ l ∈ links, l.trigger.tsNs < l.effect.tsNs
  recent : ∀ l ∈ links, l.effect ∈ window ∧ l.trigger ∈ window

def SoundCatalyst (manifest : DependencyManifest) (window : History) (trip : StateTransition)
    (c : CandidateCatalyst) : Prop :=
  (∃ nearer, CausalChain manifest window trip (⟨c.edge, c.trigger, c.effect⟩ :: nearer)) ∧
    c.trigger.tsNs.toNat + c.observedDtNs.toNat = c.effect.tsNs.toNat ∧
    c.edge.wcetNs < c.observedDtNs ∧ c.wcetNs = c.edge.wcetNs

def RankedExactly (analysis : TripAnalysis) : Prop :=
  analysis.rankedCatalysts.Pairwise fun a b =>
    0 < a.wcetNs → 0 < b.wcetNs → exactOverrun b.observedDtNs b.wcetNs ≤
      exactOverrun a.observedDtNs a.wcetNs

def RankedByFloat (analysis : TripAnalysis) : Prop :=
  analysis.rankedCatalysts.Pairwise fun a b => b.normalizedOverrun ≤ a.normalizedOverrun

/-- The rational overruns of spans below `2 ^ 53` ns are in order up to rounding to 53 bits. -/
def RankedUpToRounding (analysis : TripAnalysis) : Prop :=
  analysis.rankedCatalysts.Pairwise fun a b =>
    0 < a.wcetNs → 0 < b.wcetNs → a.observedDtNs < 2 ^ 53 → b.observedDtNs < 2 ^ 53 →
      Rounding.rounded (exactOverrun b.observedDtNs b.wcetNs) ≤
        Rounding.rounded (exactOverrun a.observedDtNs a.wcetNs)

def Cell.tiedManifest : DependencyManifest :=
  .new [⟨1, .ros2Port 7400⟩, ⟨2, .ros2Port 7401⟩, ⟨3, .profinetFrame 0x0002 0⟩].toAList
    [⟨1, 3, 59999999999⟩, ⟨2, 3, 60000000000⟩] 3

def Cell.tied : List DecodedFieldbusFrame :=
  [plcAt 0 true, ⟨1, .ros2Udp 7401 32, []⟩, ⟨3, .ros2Udp 7400 32, []⟩, plcAt 120000000000 false]

namespace Proof
variable {manifest : DependencyManifest} {window : History} {trip : StateTransition}

theorem examined_reached : ∀ t ∈ examined manifest window trip, Reached manifest window trip t := by
  apply Worklist.expansions_induction
  · intro effect reached t pushed
    obtain ⟨l, link, rfl⟩ := List.mem_map.mp pushed
    exact .trigger reached link
  · intro t member
    rw [List.mem_singleton] at member
    exact member ▸ .trip

theorem Reached.recent {t : StateTransition} (inside : trip ∈ window)
    (reached : Reached manifest window trip t) : t ∈ window := by
  cases reached with
  | trip => exact inside
  | trigger reached link => exact (lastBefore_some (mem_linksInto.mp link).2.2.2).1

theorem Reached.chain {effect : StateTransition} (inside : trip ∈ window)
    (reached : Reached manifest window trip effect) :
    ∀ l ∈ linksInto manifest window effect,
      ∃ nearer, CausalChain manifest window trip (l :: nearer) := by
  have extend : ∀ {effect : StateTransition} {l : CausalLink} {nearer : List CausalLink},
      Reached manifest window trip effect → l ∈ linksInto manifest window effect →
      (nearer = [] → effect = trip) →
      (∀ near ∈ nearer.head?, effect = near.trigger) →
      (nearer ≠ [] → CausalChain manifest window trip nearer) →
      CausalChain manifest window trip (l :: nearer) := by
    intro effect l nearer reached link start next chain
    obtain ⟨declared, into, rfl, found⟩ := mem_linksInto.mp link
    obtain ⟨recent, node, older⟩ := lastBefore_some found
    have here := And.intro (Reached.recent inside reached) recent
    cases nearer with
    | nil =>
        constructor
        · simpa using start rfl
        · exact List.isChain_singleton _
        all_goals
          intro l' member
          rw [List.mem_singleton] at member
          subst member
        · exact ⟨declared, into, node.symm⟩
        · exact older
        · exact here
    | cons near nearer =>
        obtain ⟨toTrip, contiguous, declared', backward, recent'⟩ := chain (List.cons_ne_nil _ _)
        constructor
        · simpa using toTrip
        · exact List.isChain_cons_cons.mpr ⟨next near rfl, contiguous⟩
        all_goals
          intro l' member
          rcases List.mem_cons.mp member with rfl | member
        · exact ⟨declared, into, node.symm⟩
        · exact declared' l' member
        · exact older
        · exact backward l' member
        · exact here
        · exact recent' l' member
  induction reached with
  | trip => exact fun l link => ⟨[], extend .trip link (fun _ => rfl) (by simp) (absurd rfl)⟩
  | @trigger effect near reached link ih =>
      obtain ⟨nearer, chain⟩ := ih near link
      exact fun l link' => ⟨near :: nearer, extend (.trigger reached link) link' (by simp)
        (by simp) fun _ => chain⟩

theorem mem_violations {l : CausalLink} (reported : l ∈ violations manifest window trip) :
    ∃ effect ∈ examined manifest window trip, l ∈ linksInto manifest window effect ∧
      l.edge.wcetNs < l.dt := by
  obtain ⟨link, violated⟩ := List.mem_filter.mp reported
  obtain ⟨effect, member, link⟩ := List.mem_flatMap.mp link
  exact ⟨effect, member, link, by simpa [CausalLink.violated] using violated⟩

theorem mem_rankedCatalysts {c : CandidateCatalyst} :
    c ∈ (attribution manifest window trip).rankedCatalysts ↔
      ∃ l ∈ violations manifest window trip, l.catalyst = c := by
  rw [attribution, (rank_perm _).mem_iff, List.mem_map]

theorem dt_exact {effect : StateTransition} {l : CausalLink}
    (link : l ∈ linksInto manifest window effect) :
    l.trigger.tsNs.toNat + l.dt.toNat = l.effect.tsNs.toNat := by
  obtain ⟨-, -, rfl, found⟩ := mem_linksInto.mp link
  have older := UInt64.lt_iff_toNat_lt.mp (lastBefore_some found).2.2
  rw [CausalLink.dt, saturatingSub_toNat]
  omega

theorem attribution_sound (inside : trip ∈ window) :
    ∀ c ∈ (attribution manifest window trip).rankedCatalysts,
      SoundCatalyst manifest window trip c := by
  intro c member
  obtain ⟨l, reported, rfl⟩ := mem_rankedCatalysts.mp member
  obtain ⟨effect, visited, link, violated⟩ := mem_violations reported
  exact ⟨Reached.chain inside (examined_reached effect visited) l link, dt_exact link, violated,
    rfl⟩

theorem attribution_rankedByFloat : RankedByFloat (attribution manifest window trip) := by
  apply rank_sorted
  intro c member
  obtain ⟨l, reported, rfl⟩ := List.mem_map.mp member
  obtain ⟨-, -, -, violated⟩ := mem_violations reported
  exact overrun_measures violated

theorem attribution_rankedUpToRounding :
    RankedUpToRounding (attribution manifest window trip) := by
  refine attribution_rankedByFloat.imp_of_mem ?_
  intro a b ha hb le positiveA positiveB smallA smallB
  have keyIs : ∀ c ∈ (attribution manifest window trip).rankedCatalysts, 0 < c.wcetNs →
      c.observedDtNs < 2 ^ 53 → Binary64.Measures c.normalizedOverrun
        (Rounding.rounded (exactOverrun c.observedDtNs c.wcetNs) : ℚ) := by
    intro c member positive small
    obtain ⟨l, reported, rfl⟩ := mem_rankedCatalysts.mp member
    obtain ⟨-, -, -, violated⟩ := mem_violations reported
    exact .normal (overrun_is (UInt64.lt_iff_toNat_lt.mp positive) violated
      (UInt64.lt_iff_toNat_lt.mp small))
  have order := ((keyIs b hb positiveB smallB).le_iff (keyIs a ha positiveA smallA)).mp le
  exact_mod_cast order

structure SoundAnalysis (manifest : DependencyManifest) (window : History)
    (analysis : TripAnalysis) : Prop where
  chains : ∀ c ∈ analysis.rankedCatalysts, SoundCatalyst manifest window analysis.tripEvent c
  byFloat : RankedByFloat analysis
  upToRounding : RankedUpToRounding analysis

def AttributesSoundly (CAP : Nat) (profile : Profile) (manifest : DependencyManifest)
    (frames : List DecodedFieldbusFrame) : Prop :=
  match (CausalGraphObserver.new manifest : CausalGraphObserver CAP).run profile frames with
  | .ok (_, results) => ∀ i analysis, results[i]? = some (some analysis) →
      SoundAnalysis manifest ((manifest.transitions (frames.take (i + 1))).reverse.take CAP)
        analysis
  | .error fault => DevOnly profile fault

theorem attributes_soundly {CAP : Nat} (positive : 0 < CAP) (profile : Profile)
    (nodes : NodeTable) (edges : List DependencyEdge) (tripNode : NodeId)
    (frames : List DecodedFieldbusFrame) :
    AttributesSoundly CAP profile (.new nodes edges tripNode) frames := by
  unfold AttributesSoundly
  rcases run_new_cases positive profile (new_indexed nodes edges tripNode) frames with
    ⟨after, done, -⟩ | ⟨fault, devOnly, done⟩
  · rw [done]
    intro i analysis reported
    obtain ⟨trip, before, history, rfl⟩ := analysis_at _ reported
    rw [← historyOf_eq, history]
    have inside : trip ∈ (trip :: before).take CAP := by
      obtain ⟨n, rfl⟩ := Nat.exists_eq_succ_of_ne_zero positive.ne'
      exact List.mem_cons_self
    exact ⟨attribution_sound inside, attribution_rankedByFloat, attribution_rankedUpToRounding⟩
  · rw [done]
    exact devOnly

theorem attributes_soundly_cell : AttributesSoundly 8 .dev Cell.manifest Cell.jitter :=
  attributes_soundly (by decide) .dev _ _ _ _

theorem evidence_ok {CAP : Nat} {profile : Profile} {frames : List DecodedFieldbusFrame}
    {evidence : List (Option (StateTransition × List CausalLink))}
    (run : (runResults CAP profile manifest frames).map
      (List.map (Option.map TripAnalysis.evidence)) = .ok evidence) :
    ∃ results, runResults CAP profile manifest frames = .ok results ∧
      results.map (Option.map TripAnalysis.evidence) = evidence := by
  cases done : runResults CAP profile manifest frames with
  | error fault => simp [done, Except.map] at run
  | ok results => exact ⟨results, rfl, by simpa [done, Except.map] using run⟩

theorem evidence_at {results : List (Option TripAnalysis)}
    {evidence : List (Option (StateTransition × List CausalLink))}
    (same : results.map (Option.map TripAnalysis.evidence) = evidence) {i : Nat}
    {t : StateTransition} {links : List CausalLink} (at_ : evidence[i]? = some (some (t, links))) :
    ∃ analysis, results[i]? = some (some analysis) ∧ analysis.tripEvent = t ∧
      analysis.evidence.2 = links := by
  rw [← same, List.getElem?_map, Option.map_eq_some_iff] at at_
  obtain ⟨result, found, viewed⟩ := at_
  obtain ⟨analysis, rfl, is⟩ := Option.map_eq_some_iff.mp viewed
  exact ⟨analysis, found, congrArg Prod.fst is, congrArg Prod.snd is⟩

def spans (analysis : TripAnalysis) : List (UInt64 × UInt64) :=
  analysis.rankedCatalysts.map fun c => (c.observedDtNs, c.wcetNs)

theorem tied_spans :
    ((CausalGraphObserver.new Cell.tiedManifest : CausalGraphObserver 8).run .release
      Cell.tied).map (fun run => run.2.map (Option.map spans)) =
    .ok [none, none, none, some [(119999999997, 59999999999), (119999999999, 60000000000)]] := by
  decide +kernel

theorem exact_order_lost : ∃ s analysis,
    (CausalGraphObserver.new Cell.tiedManifest : CausalGraphObserver 8).run .release Cell.tied =
      .ok (s, [none, none, none, some analysis]) ∧ ¬ RankedExactly analysis := by
  have spansEq := tied_spans
  cases done : (CausalGraphObserver.new Cell.tiedManifest : CausalGraphObserver 8).run .release
      Cell.tied with
  | error fault => simp [done, Except.map] at spansEq
  | ok run =>
      obtain ⟨s, results⟩ := run
      simp only [done, Except.map, Except.ok.injEq] at spansEq
      obtain ⟨analysis, rfl, list⟩ : ∃ analysis, results = [none, none, none, some analysis] ∧
          spans analysis = [(119999999997, 59999999999), (119999999999, 60000000000)] := by
        simpa [List.map_eq_cons_iff] using spansEq
      refine ⟨s, analysis, rfl, fun ranked => ?_⟩
      have order : (spans analysis).Pairwise fun a b => 0 < a.2 → 0 < b.2 →
          exactOverrun b.1 b.2 ≤ exactOverrun a.1 a.2 := List.pairwise_map.mpr ranked
      rw [list] at order
      have first := (List.pairwise_pair.mp order) (by decide) (by decide)
      simp only [exactOverrun, UInt64.reduceToNat] at first
      norm_num at first

end Proof
end CausalWorks
