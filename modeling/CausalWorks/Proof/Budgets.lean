import CausalWorks.Proof.Transport

/-!
# What the budgets decide

The declared graph and the capture fix which trips are found and which links are examined for them.
The budgets only filter these links, so that to raise a budget never adds a catalyst.
-/

namespace CausalWorks

def DependencyEdge.withBudget (self : DependencyEdge) (wcetNs : UInt64) : DependencyEdge :=
  { self with wcetNs }

def retuned (budget : Nat → UInt64) (edges : List DependencyEdge) : List DependencyEdge :=
  edges.mapIdx fun position edge => edge.withBudget (budget position)

/-- An edge that the walk evaluates, named by its position, with the instances found for it. -/
structure Examination where
  position : Nat
  edge : DependencyEdge
  trigger : StateTransition
  effect : StateTransition

def Examination.under (budget : Nat → UInt64) (self : Examination) : CausalLink :=
  ⟨self.edge.withBudget (budget self.position), self.trigger, self.effect⟩

def judged (budget : Nat → UInt64) (links : List Examination) : List CandidateCatalyst :=
  rank (((links.map (·.under budget)).filter CausalLink.violated).map CausalLink.catalyst)

def CandidateCatalyst.sighting (self : CandidateCatalyst) :
    NodeId × NodeId × UInt64 × StateTransition × StateTransition :=
  (self.edge.edgeFrom, self.edge.edgeTo, self.observedDtNs, self.trigger, self.effect)

section
variable (CAP : Nat) (profile : Profile) (nodes : NodeTable) (edges : List DependencyEdge)
  (tripNode : NodeId) (packets : List Packet)

def retunedResults (budget : Nat → UInt64) : Except Fault (List (Option TripAnalysis)) :=
  replayResults CAP profile (.new nodes (retuned budget edges) tripNode) packets

structure BudgetsOnlyFilter (trips : List (Option StateTransition))
    (links : Nat → List Examination) : Prop where
  positions : ∀ i, ((links i).map Examination.position).Nodup ∧
    ∀ x ∈ links i, edges[x.position]? = some x.edge
  completes : ∀ budget budget',
    ((∃ results, retunedResults CAP profile nodes edges tripNode packets budget = .ok results) ↔
      ∃ results, retunedResults CAP profile nodes edges tripNode packets budget' = .ok results)
  trips : ∀ budget results,
    retunedResults CAP profile nodes edges tripNode packets budget = .ok results →
      results.map (Option.map TripAnalysis.tripEvent) = trips
  catalysts : ∀ budget results,
    retunedResults CAP profile nodes edges tripNode packets budget = .ok results →
      ∀ i analysis, results[i]? = some (some analysis) →
        analysis.rankedCatalysts = judged budget (links i)
  raised : ∀ budget budget' : Nat → UInt64, (∀ k, budget k ≤ budget' k) → ∀ results results',
    retunedResults CAP profile nodes edges tripNode packets budget = .ok results →
    retunedResults CAP profile nodes edges tripNode packets budget' = .ok results' →
      ∀ (i : Nat) analysis analysis', results[i]? = some (some analysis) →
        results'[i]? = some (some analysis') →
        (analysis'.rankedCatalysts.map CandidateCatalyst.sighting).Subperm
          (analysis.rankedCatalysts.map CandidateCatalyst.sighting)

end

namespace Proof
variable {manifest : DependencyManifest} {window : History} {trip : StateTransition}
  {budget budget' : Nat → UInt64}

def examinationsInto (manifest : DependencyManifest) (window : History)
    (effect : StateTransition) : List Examination :=
  (manifest.edges.zipIdx.filter fun e => e.1.edgeTo = effect.node).filterMap fun e =>
    (lastBefore window e.1.edgeFrom effect.tsNs).map fun trigger => ⟨e.2, e.1, trigger, effect⟩

def examinations (manifest : DependencyManifest) (window : History) (trip : StateTransition) :
    List Examination :=
  (examined manifest window trip).flatMap (examinationsInto manifest window)

def retune (manifest : DependencyManifest) (budget : Nat → UInt64) : DependencyManifest :=
  .new manifest.nodes (retuned budget manifest.edges) manifest.tripNode

theorem linksInto_retuned (effect : StateTransition) :
    linksInto (retune manifest budget) window effect =
      (examinationsInto manifest window effect).map (·.under budget) := by
  unfold linksInto DependencyManifest.incoming examinationsInto
  show List.filterMap _ ((retuned budget manifest.edges).filter _) = _
  rw [retuned, List.mapIdx_eq_zipIdx_map, List.filter_map, List.filterMap_map, List.map_filterMap]
  refine List.filterMap_congr fun e _ => ?_
  rw [Option.map_map]
  rfl

theorem triggers_eq (effect : StateTransition) : triggers manifest window effect =
    (examinationsInto manifest window effect).map Examination.trigger := by
  have positions : manifest.edges = manifest.edges.zipIdx.map Prod.fst := by
    rw [List.zipIdx_map_fst]
  unfold triggers linksInto DependencyManifest.incoming examinationsInto
  rw [List.map_filterMap, List.map_filterMap, positions, List.filter_map, List.filterMap_map,
    ← positions]
  refine List.filterMap_congr fun e _ => ?_
  rw [Function.comp_apply, Option.map_map, Option.map_map]
  rfl

theorem triggers_retuned (effect : StateTransition) :
    triggers (retune manifest budget) window effect = triggers manifest window effect := by
  rw [@triggers_eq manifest, triggers, linksInto_retuned, List.map_map]
  rfl

theorem examined_retuned :
    examined (retune manifest budget) window trip = examined manifest window trip := by
  have size : (retune manifest budget).edges.length = manifest.edges.length := List.length_mapIdx
  rw [examined, examined, funext triggers_retuned, size]

theorem attribution_retuned : attribution (retune manifest budget) window trip =
    ⟨trip, judged budget (examinations manifest window trip)⟩ := by
  unfold attribution violations judged examinations
  rw [examined_retuned, List.flatMap_congr fun x _ => linksInto_retuned x, List.map_flatMap]

theorem mem_examinationsInto {effect : StateTransition} {x : Examination}
    (member : x ∈ examinationsInto manifest window effect) :
    manifest.edges[x.position]? = some x.edge ∧ x.edge.edgeTo = effect.node := by
  obtain ⟨e, into, found⟩ := List.mem_filterMap.mp member
  obtain ⟨trigger, -, rfl⟩ := Option.map_eq_some_iff.mp found
  rw [List.mem_filter, List.mem_zipIdx_iff_getElem?] at into
  exact ⟨into.1, of_decide_eq_true into.2⟩

theorem positions_into (effect : StateTransition) :
    ((examinationsInto manifest window effect).map Examination.position).Nodup := by
  have below : ∀ l : List (DependencyEdge × Nat), ((l.filterMap fun e =>
      (lastBefore window e.1.edgeFrom effect.tsNs).map fun trigger =>
        (⟨e.2, e.1, trigger, effect⟩ : Examination)).map Examination.position).Sublist
      (l.map Prod.snd) := by
    intro l
    induction l with
    | nil => exact List.nil_sublist _
    | cons e l ih =>
        cases found : lastBefore window e.1.edgeFrom effect.tsNs with
        | none =>
            rw [List.filterMap_cons_none (by simp [found])]
            exact ih.cons e.2
        | some trigger =>
            rw [List.filterMap_cons_some (by simp [found]; rfl)]
            exact ih.cons_cons e.2
  refine ((below _).trans (List.filter_sublist.map Prod.snd)).nodup ?_
  rw [List.zipIdx_map_snd]
  exact List.nodup_range' 

theorem positions_nodup :
    ((examinations manifest window trip).map Examination.position).Nodup := by
  rw [examinations, List.map_flatMap, List.nodup_flatMap]
  refine ⟨fun x _ => positions_into x, ?_⟩
  have distinct : ((examined manifest window trip).map StateTransition.node).Nodup :=
    Worklist.expansions_nodup _ _ _
  refine (List.pairwise_map.mp distinct).imp ?_
  intro x y different p inX inY
  obtain ⟨a, memberA, rfl⟩ := List.mem_map.mp inX
  obtain ⟨b, memberB, same⟩ := List.mem_map.mp inY
  obtain ⟨atA, toA⟩ := mem_examinationsInto memberA
  obtain ⟨atB, toB⟩ := mem_examinationsInto memberB
  rw [same, atA, Option.some.injEq] at atB
  exact different (toA.symm.trans ((congrArg _ atB).trans toB))

theorem judged_raised (raised : ∀ k, budget k ≤ budget' k) (links : List Examination) :
    ((judged budget' links).map CandidateCatalyst.sighting).Subperm
      ((judged budget links).map CandidateCatalyst.sighting) := by
  have late : ∀ (b : Nat → UInt64), ((judged b links).map CandidateCatalyst.sighting).Perm
      ((links.filter fun x => (x.under b).violated).map fun x =>
        (x.under 0).catalyst.sighting) := by
    intro b
    refine ((rank_perm _).map _).trans (.of_eq ?_)
    rw [List.filter_map, List.map_map, List.map_map]
    rfl
  refine (late budget').subperm.trans (.trans ?_ (late budget).symm.subperm)
  refine (List.Sublist.map _ (List.monotone_filter_right _ fun x violated => ?_)).subperm
  have exceeded : budget' x.position < (x.under 0).dt := of_decide_eq_true violated
  have exceeds : budget x.position < (x.under 0).dt :=
    UInt64.lt_of_le_of_lt (raised x.position) exceeded
  exact decide_eq_true exceeds

def linksAt (CAP : Nat) (manifest : DependencyManifest) (packets : List Packet) (i : Nat) :
    List Examination :=
  ((packets[i]?.bind fun packet =>
      (manifest.capture (historyOf manifest.capture [] (packets.take i)) packet).2).map
    (examinations manifest ((historyOf manifest.capture [] (packets.take (i + 1))).take CAP))).getD
    []

theorem analyses_retuned {CAP : Nat} {packets : List Packet} {i : Nat} :
    (analyses manifest.capture (retune manifest budget) (List.take CAP) [] packets)[i]? =
      packets[i]?.map fun packet =>
        (manifest.capture (historyOf manifest.capture [] (packets.take i)) packet).2.map fun trip =>
          ⟨trip, judged budget (linksAt CAP manifest packets i)⟩ := by
  rw [analyses_getElem?]
  unfold linksAt
  cases packets[i]? with
  | none => rfl
  | some packet =>
      rw [Option.map_some, Option.map_some, Option.bind_some]
      cases (manifest.capture (historyOf manifest.capture [] (packets.take i)) packet).2 with
      | none => rfl
      | some trip =>
          rw [Option.map_some, Option.map_some, Option.map_some, attribution_retuned]
          rfl

theorem linksAt_positions {CAP : Nat} {packets : List Packet} {i : Nat} :
    ((linksAt CAP manifest packets i).map Examination.position).Nodup ∧
      ∀ x ∈ linksAt CAP manifest packets i, manifest.edges[x.position]? = some x.edge := by
  unfold linksAt
  cases packets[i]?.bind fun packet =>
      (manifest.capture (historyOf manifest.capture [] (packets.take i)) packet).2 with
  | none => exact ⟨List.nodup_nil, fun x none_ => by cases none_⟩
  | some trip =>
      refine ⟨positions_nodup, fun x member => ?_⟩
      obtain ⟨effect, -, into⟩ := List.mem_flatMap.mp member
      exact (mem_examinationsInto into).1

theorem budgets_only_filter {CAP : Nat} (positive : 0 < CAP) (profile : Profile)
    (nodes : NodeTable) (edges : List DependencyEdge) (tripNode : NodeId)
    (packets : List Packet) : ∃ trips links,
      BudgetsOnlyFilter CAP profile nodes edges tripNode packets trips links := by
  let manifest := DependencyManifest.new nodes edges tripNode
  have ran : ∀ {budget results},
      retunedResults CAP profile nodes edges tripNode packets budget = .ok results →
        results = analyses manifest.capture (retune manifest budget) (List.take CAP) [] packets :=
    fun done => replayResults_eq positive (new_indexed _ _ _) done
  have catalysts : ∀ budget results,
      retunedResults CAP profile nodes edges tripNode packets budget = .ok results →
        ∀ (i : Nat) analysis, results[i]? = some (some analysis) →
          analysis.rankedCatalysts = judged budget (linksAt CAP manifest packets i) := by
    intro budget results done i analysis reported
    rw [ran done, analyses_retuned] at reported
    obtain ⟨packet, -, result⟩ := Option.map_eq_some_iff.mp reported
    obtain ⟨trip, -, rfl⟩ := Option.map_eq_some_iff.mp result
    rfl
  refine ⟨(analyses manifest.capture manifest (List.take CAP) [] packets).map
    (Option.map TripAnalysis.tripEvent), linksAt CAP manifest packets, ?_⟩
  constructor
  case positions => exact fun i => linksAt_positions
  case completes =>
    intro budget budget'
    rw [retunedResults, retunedResults, replayResults_iff positive (new_indexed _ _ _),
      replayResults_iff positive (new_indexed _ _ _)]
    exact Iff.rfl
  case trips =>
    intro budget results done
    rw [ran done]
    refine List.ext_getElem? fun i => ?_
    rw [List.getElem?_map, List.getElem?_map, analyses_retuned, analyses_getElem?, Option.map_map,
      Option.map_map]
    congr 1
    funext packet
    rw [Function.comp_apply, Function.comp_apply, Option.map_map, Option.map_map]
    rfl
  case catalysts => exact catalysts
  case raised =>
    intro budget budget' raised results results' done done' i analysis analysis' at_ at_'
    rw [catalysts _ _ done i _ at_, catalysts _ _ done' i _ at_']
    exact judged_raised raised _

theorem budgets_only_filter_cell : ∃ trips links, BudgetsOnlyFilter 4 .dev Cell.nodes
    [⟨Cell.amr, Cell.fanuc, 3000000⟩, ⟨Cell.fanuc, Cell.plc, 4000000⟩] Cell.plc
    [(0, Cell.plcBytes true), (1, Cell.plcBytes false)] trips links :=
  budgets_only_filter (by decide) .dev Cell.nodes _ Cell.plc _

end Proof
end CausalWorks
