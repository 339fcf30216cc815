import CausalWorks.Proof.Capacity
import CausalWorks.Proof.Fork

/-!
# What a further dependency adds

An integrator who declares more dependencies between the same nodes keeps every trip, and keeps
every catalyst unless a fork hides it. What comes in addition rests on a new edge.
-/

namespace CausalWorks
open Relation

structure ManifestCfg.Extends (cfg cfg' : ManifestCfg) : Prop where
  nodes : cfg'.nodes = cfg.nodes
  tripNode : cfg'.tripNode = cfg.tripNode
  edges : cfg.edges ⊆ cfg'.edges

structure DeclaringAdds (profile : Profile) (m m' : DependencyManifest) : Prop where
  completes : ∀ CAP frames, 0 < CAP → ((∃ results, runResults CAP profile m frames = .ok results) ↔
    ∃ results, runResults CAP profile m' frames = .ok results)
  trips : ∀ CAP frames results results', 0 < CAP → runResults CAP profile m frames = .ok results →
    runResults CAP profile m' frames = .ok results' →
      results.map (Option.map TripAnalysis.tripEvent) =
        results'.map (Option.map TripAnalysis.tripEvent)
  catalysts : m'.ForkFree profile → ∀ CAP frames results results', 0 < CAP →
    runResults CAP profile m frames = .ok results →
    runResults CAP profile m' frames = .ok results' →
      ∀ (i : Nat) analysis analysis', results[i]? = some (some analysis) →
        results'[i]? = some (some analysis') → ∀ c, c ∈ analysis.rankedCatalysts ↔
          c ∈ analysis'.rankedCatalysts ∧ c.edge ∈ m.edges ∧
            Reached m (windowAt CAP m frames i) analysis.tripEvent c.effect

def Cell.upstreamCfg : ManifestCfg := { cfg with edges := [⟨amr, fanuc, 3000000⟩] }

namespace Proof

section
variable {nodes : NodeTable} {edges edges' : List DependencyEdge} {tripNode : NodeId}
  {profile : Profile} {window : History} {trip q : StateTransition}

theorem dependsOn_mono (more : edges ⊆ edges') {a b : NodeId} (edge : DependsOn edges a b) :
    DependsOn edges' a b := by
  obtain ⟨e, declared, ends⟩ := edge
  exact ⟨e, more declared, ends⟩

variable (more : edges ⊆ edges')
include more

theorem feeds_mono {node : NodeId}
    (feeds : (DependencyManifest.new nodes edges tripNode).Feeds profile node) :
    (DependencyManifest.new nodes edges' tripNode).Feeds profile node := by
  induction feeds with
  | trip observable => exact .trip observable
  | step observable edge _ ih => exact .step observable (dependsOn_mono more edge) ih

theorem forkFree_anti (free : (DependencyManifest.new nodes edges' tripNode).ForkFree profile) :
    (DependencyManifest.new nodes edges tripNode).ForkFree profile :=
  fun source node left right known known' edge edgeLeft feedsLeft edgeRight feedsRight =>
    free source node left right known known' (dependsOn_mono more edge)
      (dependsOn_mono more edgeLeft) (feeds_mono more feedsLeft)
      (dependsOn_mono more edgeRight) (feeds_mono more feedsRight)

theorem linksInto_more {effect : StateTransition} {l : CausalLink}
    (link : l ∈ linksInto (.new nodes edges tripNode) window effect) :
    l ∈ linksInto (.new nodes edges' tripNode) window effect := by
  obtain ⟨declared, rest⟩ := mem_linksInto.mp link
  exact mem_linksInto.mpr ⟨more declared, rest⟩

theorem reached_more (reached : Reached (.new nodes edges tripNode) window trip q) :
    Reached (.new nodes edges' tripNode) window trip q := by
  induction reached with
  | trip => exact .trip
  | trigger _ link ih => exact .trigger ih (linksInto_more more link)

theorem ranked_more (unforked : Unforked (.new nodes edges tripNode) window trip)
    (unforked' : Unforked (.new nodes edges' tripNode) window trip) {c : CandidateCatalyst} :
    c ∈ (attribution (.new nodes edges tripNode) window trip).rankedCatalysts ↔
      c ∈ (attribution (.new nodes edges' tripNode) window trip).rankedCatalysts ∧
        c.edge ∈ edges ∧ Reached (.new nodes edges tripNode) window trip c.effect := by
  rw [ranked_iff unforked, ranked_iff unforked']
  constructor
  · rintro ⟨l, rfl, reached, link, late⟩
    have declared := (mem_linksInto.mp link).1
    exact ⟨⟨l, rfl, reached_more more reached, linksInto_more more link, late⟩, declared, reached⟩
  · rintro ⟨⟨l, rfl, -, link, late⟩, declared, reached⟩
    obtain ⟨-, rest⟩ := mem_linksInto.mp link
    exact ⟨l, rfl, reached, mem_linksInto.mpr ⟨declared, rest⟩, late⟩

theorem declaring_adds (profile : Profile) (acyclic : ∀ n, ¬ TransGen (DependsOn edges') n n) :
    DeclaringAdds profile (.new nodes edges tripNode) (.new nodes edges' tripNode) := by
  have indexed := new_indexed nodes edges tripNode
  have indexed' := new_indexed nodes edges' tripNode
  have trips : ∀ CAP frames results results', 0 < CAP →
      runResults CAP profile (.new nodes edges tripNode) frames = .ok results →
      runResults CAP profile (.new nodes edges' tripNode) frames = .ok results' →
        results.map (Option.map TripAnalysis.tripEvent) =
          results'.map (Option.map TripAnalysis.tripEvent) := by
    intro CAP frames results results' positive done done'
    rw [runResults_eq positive indexed done, runResults_eq positive indexed' done',
      analyses_trip, analyses_trip]
    rfl
  constructor
  case completes =>
    intro CAP frames positive
    rw [runResults_iff positive indexed, runResults_iff positive indexed']
    rfl
  case trips => exact trips
  case catalysts =>
    intro free CAP frames results results' positive done done' i analysis analysis' at_ at_' c
    have fewer : ∀ n, ¬ TransGen (DependsOn edges) n n := fun n path =>
      acyclic n (path.lift id fun _ _ => dependsOn_mono more)
    obtain ⟨unforked, is⟩ :=
      unforked_at positive indexed fewer (forkFree_anti more free) done at_
    obtain ⟨unforked', is'⟩ := unforked_at positive indexed' acyclic free done' at_'
    have same : analysis.tripEvent = analysis'.tripEvent := by
      have here := congrArg (·[i]?) (trips CAP frames results results' positive done done')
      simpa only [List.getElem?_map, at_, at_', Option.map_some, Option.some.injEq] using here
    rw [← same] at unforked' is'
    rw [is, is']
    exact ranked_more more unforked unforked'

end

theorem wellFormed_fewer {cfg cfg' : ManifestCfg} (more : cfg.Extends cfg')
    (wellFormed : cfg'.WellFormed) : cfg.WellFormed := by
  obtain ⟨nodes, tripNode, edges⟩ := more
  obtain ⟨nonempty, distinct, trip, declared, budgets, acyclic⟩ := wellFormed
  unfold ManifestCfg.ids at distinct declared
  rw [nodes] at nonempty distinct trip declared
  rw [tripNode] at trip
  refine ⟨nonempty, distinct, trip, fun e member => declared e (edges member),
    fun e member => budgets e (edges member), fun n path => acyclic n ?_⟩
  refine path.lift id ?_
  rintro a b ⟨e, member, ends⟩
  exact ⟨e, edges member, ends⟩

theorem declaring_only_adds {cfg cfg' : ManifestCfg} (more : cfg.Extends cfg')
    {order : IterationOrder} {m' : DependencyManifest} (accepted : cfg'.build order = .ok m')
    (profile : Profile) : ∃ m, cfg.build order = .ok m ∧ DeclaringAdds profile m m' := by
  have acyclic := acyclic_of_build accepted
  obtain ⟨wellFormed, table, declared, -, rfl⟩ := build_ok accepted
  rcases build_cases order cfg with ⟨-, table', declared', -, built⟩ | ⟨malformed, -⟩
  · obtain ⟨nodes, tripNode, edges⟩ := more
    rw [nodes, declared', Except.ok.injEq] at declared
    subst declared
    rw [tripNode] at acyclic ⊢
    exact ⟨_, built, declaring_adds (List.map_subset _ edges) profile acyclic⟩
  · exact absurd (wellFormed_fewer more wellFormed) malformed

theorem declaring_only_adds_cell : Cell.manifest.ForkFree .dev ∧ ∃ m,
    Cell.upstreamCfg.build .declared = .ok m ∧ DeclaringAdds .dev m Cell.manifest := by
  refine ⟨cell_forkFree .dev, @declaring_only_adds Cell.upstreamCfg Cell.cfg ⟨rfl, rfl, ?_⟩ _ _
    Cell.build_cfg .dev⟩
  exact List.cons_subset.mpr ⟨List.mem_cons_self, List.nil_subset _⟩

end Proof
end CausalWorks
