import CausalWorks.Proof.Accepted
import CausalWorks.Proof.Lint
import CausalWorks.Proof.Transport

/-!
# Node ids are names

The ids of a manifest only tell its nodes apart. A manifest under other ids is accepted and warned
about as before, and an engine that runs over it reports the same under the other ids.
-/

namespace CausalWorks

section
variable (σ : NodeId ↪ NodeId)

def DependencyEdge.rename (self : DependencyEdge) : DependencyEdge :=
  { self with edgeFrom := σ self.edgeFrom, edgeTo := σ self.edgeTo }

def StateTransition.rename (self : StateTransition) : StateTransition :=
  { self with node := σ self.node }

def CausalLink.rename (self : CausalLink) : CausalLink :=
  ⟨self.edge.rename σ, self.trigger.rename σ, self.effect.rename σ⟩

def CandidateCatalyst.rename (self : CandidateCatalyst) : CandidateCatalyst :=
  { self with edge := self.edge.rename σ, trigger := self.trigger.rename σ
              effect := self.effect.rename σ }

def TripAnalysis.rename (self : TripAnalysis) : TripAnalysis :=
  { tripEvent := self.tripEvent.rename σ
    rankedCatalysts := self.rankedCatalysts.map (·.rename σ) }

def renameEntry (entry : Sigma fun _ : NodeId => NodeMatcher) :
    Sigma fun _ : NodeId => NodeMatcher := ⟨σ entry.1, entry.2⟩

def renameNodes (nodes : NodeTable) : NodeTable where
  entries := nodes.entries.map (renameEntry σ)
  nodupKeys := by
    have keys : (nodes.entries.map (renameEntry σ)).keys = nodes.entries.keys.map σ := by
      unfold List.keys
      rw [List.map_map, List.map_map]
      rfl
    rw [List.NodupKeys, keys]
    exact nodes.nodupKeys.map σ.injective

def DependencyManifest.rename (self : DependencyManifest) : DependencyManifest :=
  .new (renameNodes σ self.nodes) (self.edges.map (·.rename σ)) (σ self.tripNode)

def NodeCfg.rename (self : NodeCfg) : NodeCfg := { self with id := σ self.id }

def EdgeCfg.rename (self : EdgeCfg) : EdgeCfg :=
  { self with edgeFrom := σ self.edgeFrom, edgeTo := σ self.edgeTo }

def ManifestCfg.rename (self : ManifestCfg) : ManifestCfg :=
  { nodes := self.nodes.map (·.rename σ), edges := self.edges.map (·.rename σ)
    tripNode := σ self.tripNode }

def ManifestWarning.rename : ManifestWarning → ManifestWarning
  | .tripNodeUnreachable id => .tripNodeUnreachable (σ id)
  | .orphanNode id => .orphanNode (σ id)
  | .suspiciouslyTightBudget edgeFrom edgeTo wcetNs =>
      .suspiciouslyTightBudget (σ edgeFrom) (σ edgeTo) wcetNs

end

structure RunsAlike (σ : NodeId ↪ NodeId) (m m' : DependencyManifest) : Prop where
  completes : ∀ (CAP : Nat) profile packets, 0 < CAP →
    ((∃ results, replayResults CAP profile m packets = .ok results) ↔
      ∃ results', replayResults CAP profile m' packets = .ok results')
  results : ∀ (CAP : Nat) profile packets results results', 0 < CAP →
    replayResults CAP profile m packets = .ok results →
    replayResults CAP profile m' packets = .ok results' →
    results' = results.map (Option.map (·.rename σ))

/-- Validation and lint do not depend on the orders of iteration. A run does, where matchers
overlap, so it is compared with one that iterates the nodes alike. -/
structure OnlyNames (σ : NodeId ↪ NodeId) (cfg : ManifestCfg) : Prop where
  accepted : ∀ order order', (∃ m, cfg.build order = .ok m) ↔
    ∃ m', (cfg.rename σ).build order' = .ok m'
  lint : ∀ order order', ((cfg.rename σ).lint order').Perm ((cfg.lint order).map (·.rename σ))
  iterated : ∀ order m, cfg.build order = .ok m →
    ∃ order' m', (cfg.rename σ).build order' = .ok m' ∧ m'.nodes = renameNodes σ m.nodes
  runs : ∀ order order' m m', cfg.build order = .ok m → (cfg.rename σ).build order' = .ok m' →
    m'.nodes = renameNodes σ m.nodes → RunsAlike σ m m'

namespace Proof
open ManifestCfg Relation
variable {σ : NodeId ↪ NodeId} {manifest : DependencyManifest} {window history : History}
  {cfg : ManifestCfg}

theorem rank_rename (candidates : List CandidateCatalyst) :
    rank (candidates.map (·.rename σ)) = (rank candidates).map (·.rename σ) :=
  (List.map_insertionSort notAfter notAfter (·.rename σ) candidates fun _ _ _ _ => Iff.rfl).symm

theorem lastBefore_rename (node : NodeId) (bound : UInt64) :
    lastBefore (window.map (·.rename σ)) (σ node) bound =
      (lastBefore window node bound).map (·.rename σ) := by
  unfold lastBefore
  rw [List.find?_map]
  congr 2
  funext t
  have same : (σ t.node == σ node) = (t.node == node) := by
    rw [Bool.eq_iff_iff, beq_iff_eq, beq_iff_eq, σ.injective.eq_iff]
  show ((σ t.node == σ node) && decide (t.tsNs < bound)) = _
  rw [same]

theorem incoming_rename (node : NodeId) :
    (manifest.rename σ).incoming (σ node) = (manifest.incoming node).map (·.rename σ) := by
  show (manifest.edges.map (·.rename σ)).filter _ = _
  rw [List.filter_map]
  refine congrArg (List.map _) (List.filter_congr fun e _ => ?_)
  show decide (σ e.edgeTo = σ node) = decide (e.edgeTo = node)
  rw [decide_eq_decide, σ.injective.eq_iff]

theorem linksInto_rename (effect : StateTransition) :
    linksInto (manifest.rename σ) (window.map (·.rename σ)) (effect.rename σ) =
      (linksInto manifest window effect).map (·.rename σ) := by
  unfold linksInto
  rw [show (effect.rename σ).node = σ effect.node from rfl, incoming_rename, List.filterMap_map,
    List.map_filterMap]
  refine List.filterMap_congr fun edge _ => ?_
  have found := @lastBefore_rename σ window edge.edgeFrom effect.tsNs
  show Option.map _ (lastBefore _ (σ edge.edgeFrom) effect.tsNs) = _
  rw [found, Option.map_map, Option.map_map]
  rfl

theorem examined_rename (trip : StateTransition) :
    examined (manifest.rename σ) (window.map (·.rename σ)) (trip.rename σ) =
      (examined manifest window trip).map (·.rename σ) := by
  have pushed : ∀ x : StateTransition, triggers (manifest.rename σ) (window.map (·.rename σ))
      (x.rename σ) = (triggers manifest window x).map (·.rename σ) := by
    intro x
    unfold triggers
    rw [linksInto_rename, List.map_map, List.map_map]
    rfl
  have fuel : (manifest.rename σ).edges.length = manifest.edges.length := List.length_map _
  unfold examined
  rw [fuel]
  exact Worklist.expansions_rename (StateTransition.rename σ) σ.injective
    (fun x _ _ _ => trivial : ∀ x : StateTransition, True → _) (fun _ _ => rfl)
    (fun x _ => pushed x) _ [] [trip] (fun _ _ => trivial)

theorem attribution_rename (trip : StateTransition) :
    attribution (manifest.rename σ) (window.map (·.rename σ)) (trip.rename σ) =
      (attribution manifest window trip).rename σ := by
  have links : violations (manifest.rename σ) (window.map (·.rename σ)) (trip.rename σ) =
      (violations manifest window trip).map (·.rename σ) := by
    unfold violations
    rw [examined_rename, List.flatMap_map, List.flatMap_congr fun x _ => linksInto_rename x,
      ← List.map_flatMap, List.filter_map]
    rfl
  unfold attribution TripAnalysis.rename
  rw [links, List.map_map, ← rank_rename, List.map_map]
  rfl

theorem classify_rename (profile : Profile) (f : DecodedFieldbusFrame) :
    (manifest.rename σ).classify profile f =
      (manifest.classify profile f).map
        (Option.map fun assigned => (σ assigned.1, assigned.2)) := by
  show classifyEntries profile f (manifest.nodes.entries.map (renameEntry σ)) =
    (classifyEntries profile f manifest.nodes.entries).map _
  induction manifest.nodes.entries with
  | nil => rfl
  | cons entry entries ih =>
      rw [List.map_cons]
      simp only [renameEntry, classifyEntries]
      cases entry.2.matchesFrame profile f with
      | error fault => rfl
      | ok claimed =>
          cases claimed with
          | some interlock => rfl
          | none => exact ih

theorem assign_rename (f : DecodedFieldbusFrame) : (manifest.rename σ).assign f =
    (manifest.assign f).map fun assigned => (σ assigned.1, assigned.2) := by
  have renamed := @classify_rename σ manifest .release f
  rw [classify_release, classify_release] at renamed
  exact Except.ok.inj renamed

theorem reading_rename (packet : Packet) : reading (manifest.rename σ) packet =
    (reading manifest packet).map fun assigned => (σ assigned.1, assigned.2) := by
  rw [reading_eq, reading_eq]
  cases parseFrame packet.1 packet.2 with
  | error _ => rfl
  | ok f => exact assign_rename f

theorem levelOf_rename (node : NodeId) :
    levelOf (history.map (·.rename σ)) (σ node) = levelOf history node := by
  unfold levelOf
  rw [List.findSome?_map]
  congr 1
  funext t
  show (if σ t.node = σ node then t.interlock else none) = _
  simp only [σ.injective.eq_iff]

theorem isTrip_rename (t : StateTransition) :
    (manifest.rename σ).isTrip (history.map (·.rename σ)) (t.rename σ) =
      manifest.isTrip history t := by
  unfold DependencyManifest.isTrip
  rw [decide_eq_decide]
  show σ t.node = σ manifest.tripNode ∧ t.interlock = some false ∧
    levelOf (history.map (·.rename σ)) (σ t.node) = some true ↔ _
  rw [levelOf_rename, σ.injective.eq_iff]

theorem capture_rename (packet : Packet) :
    (manifest.rename σ).capture (history.map (·.rename σ)) packet =
      ((manifest.capture history packet).1.map (·.rename σ),
        (manifest.capture history packet).2.map (·.rename σ)) := by
  rw [capture_eq, capture_eq, reading_rename]
  cases reading manifest packet with
  | none => rfl
  | some assigned =>
      have trips := @isTrip_rename σ manifest history
        ⟨.ofNat history.length, assigned.1, packet.1, assigned.2⟩
      simp only [Option.map_some, List.length_map]
      rw [show (⟨.ofNat history.length, σ assigned.1, packet.1, assigned.2⟩ : StateTransition) =
        StateTransition.rename σ ⟨.ofNat history.length, assigned.1, packet.1, assigned.2⟩ from rfl,
        trips]
      split <;> rfl

theorem analyses_rename {keep : Nat} (packets : List Packet) :
    analyses (manifest.rename σ).capture (manifest.rename σ) (List.take keep)
        (history.map (·.rename σ)) packets =
      (analyses manifest.capture manifest (List.take keep) history packets).map
        (Option.map (·.rename σ)) := by
  induction packets generalizing history with
  | nil => rfl
  | cons packet packets ih =>
      simp only [analyses, capture_rename, List.map_cons]
      rw [ih, Option.map_map, Option.map_map]
      refine congrArg (· :: _) (Option.map_congr fun trip _ => ?_)
      rw [Function.comp_apply, Function.comp_apply, ← List.map_take]
      exact attribution_rename trip

theorem completes_rename {CAP : Nat} (positive : 0 < CAP) (profile : Profile)
    (indexed : manifest.Indexed) (packets : List Packet) :
    (∃ results, replayResults CAP profile manifest packets = .ok results) ↔
      ∃ results', replayResults CAP profile (manifest.rename σ) packets = .ok results' := by
  have injective : Function.Injective (Option.map fun assigned : NodeId × Option Bool =>
      (σ assigned.1, assigned.2)) :=
    Option.map_injective (σ.injective.prodMap Function.injective_id)
  have settled : ∀ f, (manifest.rename σ).classify profile f = .ok ((manifest.rename σ).assign f) ↔
      manifest.classify profile f = .ok (manifest.assign f) := by
    intro f
    rw [classify_rename, assign_rename]
    cases manifest.classify profile f with
    | error fault => exact ⟨nofun, nofun⟩
    | ok assigned => simp only [Except.map, Except.ok.injEq, injective.eq_iff]
  have few : packets.countP (claimed (manifest.rename σ)) = packets.countP (claimed manifest) :=
    List.countP_congr fun packet _ => by rw [claimed, claimed, reading_rename, Option.isSome_map]
  have indexed' : (manifest.rename σ).Indexed := new_indexed _ _ _
  rw [replayResults_iff positive indexed, replayResults_iff positive indexed', few]
  simp only [settled]

theorem depends_rename {a b : NodeId} : (cfg.rename σ).Depends a b ↔
    ∃ x y, a = σ x ∧ b = σ y ∧ cfg.Depends x y := by
  constructor
  · rintro ⟨e, member, rfl, rfl⟩
    obtain ⟨e, declared, rfl⟩ := List.mem_map.mp member
    exact ⟨e.edgeFrom, e.edgeTo, rfl, rfl, e, declared, rfl, rfl⟩
  · rintro ⟨x, y, rfl, rfl, e, declared, rfl, rfl⟩
    exact ⟨e.rename σ, List.mem_map_of_mem declared, rfl, rfl⟩

theorem transGen_rename {a b : NodeId} : TransGen (cfg.rename σ).Depends a b ↔
    ∃ x y, a = σ x ∧ b = σ y ∧ TransGen cfg.Depends x y := by
  constructor
  · intro path
    induction path with
    | single last =>
        obtain ⟨x, y, start, target, edge⟩ := depends_rename.mp last
        exact ⟨x, y, start, target, .single edge⟩
    | tail _ last ih =>
        obtain ⟨x, y, start, is, path⟩ := ih
        obtain ⟨y', z, is', target, edge⟩ := depends_rename.mp last
        obtain rfl := σ.injective (is.symm.trans is')
        exact ⟨x, z, start, target, path.tail edge⟩
  · rintro ⟨x, y, rfl, rfl, path⟩
    exact path.lift σ fun a b edge => depends_rename.mpr ⟨a, b, rfl, rfl, edge⟩

theorem ids_rename : (cfg.rename σ).ids = cfg.ids.map σ := by
  unfold ids ManifestCfg.rename
  rw [List.map_map, List.map_map]
  rfl

theorem wellFormed_rename : (cfg.rename σ).WellFormed ↔ cfg.WellFormed := by
  have inside : ∀ id, σ id ∈ (cfg.rename σ).ids ↔ id ∈ cfg.ids := by
    intro id
    rw [ids_rename, List.mem_map_of_injective σ.injective]
  constructor
  · rintro ⟨nonempty, distinct, ⟨n, member, trip, profinet⟩, declared, budgets, acyclic⟩
    obtain ⟨n, there, rfl⟩ := List.mem_map.mp member
    refine ⟨fun none_ => nonempty (List.map_eq_nil_iff.mpr none_), ?_,
      ⟨n, there, σ.injective trip, profinet⟩, fun e edge => ?_, fun e edge => ?_, fun k cycle => ?_⟩
    · rw [ids_rename] at distinct
      exact distinct.of_map
    · have ends := declared (e.rename σ) (List.mem_map_of_mem edge)
      exact ⟨(inside _).mp ends.1, (inside _).mp ends.2⟩
    · exact budgets (e.rename σ) (List.mem_map_of_mem edge)
    · exact acyclic (σ k) (transGen_rename.mpr ⟨k, k, rfl, rfl, cycle⟩)
  · rintro ⟨nonempty, distinct, ⟨n, member, trip, profinet⟩, declared, budgets, acyclic⟩
    refine ⟨fun none_ => nonempty (List.map_eq_nil_iff.mp none_), ?_,
      ⟨n.rename σ, List.mem_map_of_mem member, congrArg σ trip, profinet⟩, fun e edge => ?_,
      fun e edge => ?_, fun k cycle => ?_⟩
    · rw [ids_rename]
      exact distinct.map σ.injective
    · obtain ⟨e, there, rfl⟩ := List.mem_map.mp edge
      exact ⟨(inside _).mpr (declared e there).1, (inside _).mpr (declared e there).2⟩
    · obtain ⟨e, there, rfl⟩ := List.mem_map.mp edge
      exact budgets e there
    · obtain ⟨x, y, is, is', path⟩ := transGen_rename.mp cycle
      obtain rfl := σ.injective (is.symm.trans is')
      exact acyclic x path

theorem built_iff (order : IterationOrder) :
    (∃ m, cfg.build order = .ok m) ↔ cfg.WellFormed := by
  rcases build_cases order cfg with
    ⟨wellFormed, table, -, -, built⟩ | ⟨malformed, error, rejected, -⟩
  · exact ⟨fun _ => wellFormed, fun _ => ⟨_, built⟩⟩
  · refine ⟨fun ⟨m, built⟩ => ?_, fun wellFormed => absurd wellFormed malformed⟩
    rw [rejected] at built
    cases built

theorem build_rename {order order' : IterationOrder} {m m' : DependencyManifest}
    (built : cfg.build order = .ok m) (built' : (cfg.rename σ).build order' = .ok m')
    (alike : m'.nodes = renameNodes σ m.nodes) : m' = m.rename σ := by
  obtain ⟨-, table, -, -, rfl⟩ := build_ok built
  obtain ⟨-, table', -, -, rfl⟩ := build_ok built'
  have alike : order'.arrange table' = renameNodes σ (order.arrange table) := alike
  rw [alike]
  unfold DependencyManifest.rename ManifestCfg.rename
  simp only [DependencyManifest.new, List.map_map]
  rfl

theorem degree_rename (endOf : EdgeCfg → NodeId)
    (renamed : ∀ e : EdgeCfg, endOf (e.rename σ) = σ (endOf e)) (id : NodeId) :
    (((cfg.rename σ).edges.foldl (fun degree e => countEnd degree (endOf e)) fun _ => none)
        (σ id)).getD 0 =
      ((cfg.edges.foldl (fun degree e => countEnd degree (endOf e)) fun _ => none) id).getD 0 := by
  rw [countEnd_foldl, countEnd_foldl]
  unfold ManifestCfg.rename
  rw [List.countP_map]
  refine congrArg _ (List.countP_congr fun e _ => ?_)
  rw [Function.comp_apply, renamed, decide_eq_true_eq, decide_eq_true_eq, σ.injective.eq_iff]

theorem lint_rename (order order' : IterationOrder) :
    ((cfg.rename σ).lint order').Perm ((cfg.lint order).map (·.rename σ)) := by
  have indegree := @degree_rename σ cfg EdgeCfg.edgeTo fun _ => rfl
  have outdegree := @degree_rename σ cfg EdgeCfg.edgeFrom fun _ => rfl
  unfold lint
  simp only [List.map_append]
  refine List.Perm.append (List.Perm.append ?_ ?_) ?_
  · rw [show (cfg.rename σ).tripNode = σ cfg.tripNode from rfl, indegree]
    split <;> rfl
  · have ids : ((cfg.rename σ).nodes.map NodeCfg.id).dedup =
        ((cfg.nodes.map NodeCfg.id).dedup).map σ := by
      rw [← List.dedup_map_of_injective σ.injective]
      exact congrArg List.dedup ids_rename
    rw [ids]
    refine ((order'.starts_perm _).filterMap _).trans ?_
    rw [List.filterMap_map, List.map_filterMap]
    refine (List.Perm.of_eq (List.filterMap_congr fun id _ => ?_)).trans
      ((order.starts_perm _).filterMap _).symm
    rw [Function.comp_apply, indegree, outdegree]
    split <;> rfl
  · refine List.Perm.of_eq ?_
    rw [show (cfg.rename σ).edges = cfg.edges.map (·.rename σ) from rfl, List.filterMap_map,
      List.map_filterMap]
    refine List.filterMap_congr fun e _ => ?_
    show (if e.wcetNs < tightBudgetNs then _ else _) = _
    split <;> rfl

theorem entries_rename {order order' : IterationOrder} {m m' : DependencyManifest}
    (built : cfg.build order = .ok m) (built' : (cfg.rename σ).build order' = .ok m') :
    (renameNodes σ m.nodes).entries.Perm m'.nodes.entries := by
  refine List.lookup_ext (renameNodes σ m.nodes).nodupKeys m'.nodes.nodupKeys fun id matcher => ?_
  have declared := (built_of_build built).nodes
  have declared' := (built_of_build built').nodes id matcher
  show _ ↔ m'.nodes.lookup id = some matcher
  rw [declared', List.mem_dlookup_iff (renameNodes σ m.nodes).nodupKeys]
  constructor
  · intro member
    obtain ⟨entry, there, is⟩ := List.mem_map.mp member
    obtain ⟨rfl, same⟩ := Sigma.mk.inj is
    obtain rfl := eq_of_heq same
    obtain ⟨n, in_, at_, reads⟩ := (declared entry.1 entry.2).mp (AList.mem_lookup_iff.mpr there)
    exact ⟨n.rename σ, List.mem_map_of_mem in_, congrArg σ at_, reads⟩
  · rintro ⟨n, member, rfl, rfl⟩
    obtain ⟨n, in_, rfl⟩ := List.mem_map.mp member
    have there := AList.mem_lookup_iff.mp ((declared n.id n.matcher.into).mpr ⟨n, in_, rfl, rfl⟩)
    exact List.mem_map.mpr ⟨_, there, rfl⟩

def listedAs (first : NodeTable) : IterationOrder :=
  { IterationOrder.declared with
    nodes := fun entries => if first.entries.Perm entries then first.entries else entries
    nodes_perm := fun entries => by
      split
      · assumption
      · exact .refl _ }

theorem arrange_listedAs {first table : NodeTable} (perm : first.entries.Perm table.entries) :
    (listedAs first).arrange table = first :=
  AList.ext (if_pos perm)

theorem iterated_rename {order : IterationOrder} {m : DependencyManifest}
    (built : cfg.build order = .ok m) : ∃ order' m', (cfg.rename σ).build order' = .ok m' ∧
      m'.nodes = renameNodes σ m.nodes := by
  have wellFormed : (cfg.rename σ).WellFormed :=
    wellFormed_rename.mpr ((built_iff order).mp ⟨m, built⟩)
  obtain ⟨m', built'⟩ := (@built_iff (cfg.rename σ) .declared).mpr wellFormed
  have perm := entries_rename built built'
  obtain ⟨-, table, done, -, rfl⟩ := build_ok built'
  rcases build_cases (listedAs (renameNodes σ m.nodes)) (cfg.rename σ) with
    ⟨-, table', done', -, again⟩ | ⟨malformed, -⟩
  · obtain rfl := Except.ok.inj (done.symm.trans done')
    exact ⟨_, _, again, arrange_listedAs perm⟩
  · exact absurd wellFormed malformed

theorem only_names (σ : NodeId ↪ NodeId) (cfg : ManifestCfg) : OnlyNames σ cfg where
  accepted order order' := by rw [built_iff, built_iff, wellFormed_rename]
  lint := lint_rename
  iterated _ _ := iterated_rename
  runs order order' m m' built built' alike := by
    rw [build_rename built built' alike]
    refine ⟨fun CAP profile packets positive => ?_,
      fun CAP profile packets results results' positive done done' => ?_⟩
    · exact completes_rename positive profile (indexed_of_build built) packets
    · rw [replayResults_eq positive (indexed_of_build built) done,
        replayResults_eq positive (new_indexed _ _ _) done']
      exact @analyses_rename _ _ [] _ packets

end Proof
end CausalWorks
