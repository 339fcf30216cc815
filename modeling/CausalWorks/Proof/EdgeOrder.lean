import CausalWorks.Proof.Fork

/-!
# The order of the declared edges

A permutation of the edges changes the order in which the walk pushes what it found. Without a fork
that does not show. With one it decides which of two instances is examined.
-/

namespace CausalWorks
open Relation

structure SameFinding (analysis analysis' : TripAnalysis) : Prop where
  trip : analysis.tripEvent = analysis'.tripEvent
  catalysts : analysis.rankedCatalysts.Perm analysis'.rankedCatalysts
  ranked : RankedByFloat analysis
  ranked' : RankedByFloat analysis'

/-- Both runs abort, or both report the same findings at the same frames. -/
inductive RunsAgree : Except Fault (List (Option TripAnalysis)) →
    Except Fault (List (Option TripAnalysis)) → Prop
  | aborted (fault fault' : Fault) : RunsAgree (.error fault) (.error fault')
  | completed {results results' : List (Option TripAnalysis)}
      (same : List.Forall₂ (Option.Rel SameFinding) results results') :
      RunsAgree (.ok results) (.ok results')

def ManifestCfg.EdgeOrderIndependent (cfg : ManifestCfg) (profile : Profile)
    (order : IterationOrder) (manifest : DependencyManifest) : Prop :=
  ∀ edges, edges.Perm cfg.edges → ∃ manifest', { cfg with edges }.build order = .ok manifest' ∧
    ∀ CAP frames, 0 < CAP →
      RunsAgree (runResults CAP profile manifest frames) (runResults CAP profile manifest' frames)

def DependencyManifest.reordered (self : DependencyManifest) (edges : List DependencyEdge) :
    DependencyManifest := .new self.nodes edges self.tripNode

def Diamond.swapped : List EdgeCfg :=
  [⟨1, 2, 1000000⟩, ⟨2, 3, 1000000⟩, ⟨2, 4, 1000000⟩, ⟨4, 5, 15000000⟩, ⟨3, 5, 15000000⟩]

namespace Proof
open ManifestCfg
variable {profile : Profile} {manifest : DependencyManifest} {window : History}
  {trip q : StateTransition} {order : IterationOrder} {cfg : ManifestCfg}

theorem build_reordered (accepted : cfg.build order = .ok manifest) {edges : List EdgeCfg}
    (perm : edges.Perm cfg.edges) : { cfg with edges }.build order =
      .ok (manifest.reordered (edges.map EdgeCfg.into)) := by
  obtain ⟨wellFormed, table, declared, -, rfl⟩ := build_ok accepted
  have depends : ({ cfg with edges } : ManifestCfg).Depends = cfg.Depends := by
    funext a b
    simp only [Depends, perm.mem_iff]
  rcases build_cases order { cfg with edges } with ⟨-, table', declared', -, built⟩ | ⟨malformed, -⟩
  · rw [declared, Except.ok.injEq] at declared'
    rw [built, declared']
    rfl
  · refine absurd ?_ malformed
    constructor
    case nonempty => exact wellFormed.nonempty
    case distinct => exact wellFormed.distinct
    case trip => exact wellFormed.trip
    case declared => exact fun e member => wellFormed.declared e (perm.mem_iff.mp member)
    case budgets => exact fun e member => wellFormed.budgets e (perm.mem_iff.mp member)
    case acyclic => exact depends ▸ wellFormed.acyclic

section Permuted
variable {edges : List DependencyEdge} (perm : edges.Perm manifest.edges)
include perm

theorem linksInto_reordered (window : History) (effect : StateTransition) :
    (linksInto (manifest.reordered edges) window effect).Perm (linksInto manifest window effect) :=
  (perm.filter _).filterMap _

theorem reached_reordered (reached : Reached manifest window trip q) :
    Reached (manifest.reordered edges) window trip q := by
  induction reached with
  | trip => exact .trip
  | trigger _ link ih => exact .trigger ih ((linksInto_reordered perm _ _).mem_iff.mpr link)

theorem reached_of_reordered (reached : Reached (manifest.reordered edges) window trip q) :
    Reached manifest window trip q := by
  induction reached with
  | trip => exact .trip
  | trigger _ link ih => exact .trigger ih ((linksInto_reordered perm _ _).mem_iff.mp link)

theorem unforked_reordered (unforked : Unforked manifest window trip) :
    Unforked (manifest.reordered edges) window trip := by
  intro q reached links q' reached' same
  refine unforked q (reached_of_reordered perm reached) (fun empty => links ?_) q'
    (reached_of_reordered perm reached') same
  exact List.perm_nil.mp (empty ▸ linksInto_reordered perm window q)

end Permuted

def expanding (manifest : DependencyManifest) (window : History) (trip : StateTransition) :
    List StateTransition :=
  (examined manifest window trip).filter fun x => !(linksInto manifest window x).isEmpty

theorem mem_expanding (unforked : Unforked manifest window trip) :
    q ∈ expanding manifest window trip ↔
      Reached manifest window trip q ∧ linksInto manifest window q ≠ [] := by
  rw [expanding, List.mem_filter]
  constructor
  · rintro ⟨member, links⟩
    exact ⟨examined_reached q member, by simpa using links⟩
  · rintro ⟨reached, links⟩
    exact ⟨examined_of_reached unforked reached links, by simpa using links⟩

theorem nodup_expanding : (expanding manifest window trip).Nodup :=
  (List.Nodup.of_map _ (Worklist.expansions_nodup _ _ _)).filter _

theorem flatMap_expanding : (expanding manifest window trip).flatMap (linksInto manifest window) =
    (examined manifest window trip).flatMap (linksInto manifest window) := by
  unfold expanding
  induction examined manifest window trip with
  | nil => rfl
  | cons x xs ih =>
      by_cases empty : linksInto manifest window x = []
      · simp [empty, ih]
      · simp [empty, ih]

theorem violations_reordered {edges : List DependencyEdge} (perm : edges.Perm manifest.edges)
    (unforked : Unforked manifest window trip) :
    (violations (manifest.reordered edges) window trip).Perm (violations manifest window trip) := by
  have same : (expanding (manifest.reordered edges) window trip).Perm
      (expanding manifest window trip) := by
    rw [List.perm_ext_iff_of_nodup nodup_expanding nodup_expanding]
    intro x
    rw [mem_expanding unforked, mem_expanding (unforked_reordered perm unforked)]
    have links := linksInto_reordered perm window x
    constructor
    · rintro ⟨reached, some_⟩
      exact ⟨reached_of_reordered perm reached,
        fun empty => some_ (List.perm_nil.mp (empty ▸ links))⟩
    · rintro ⟨reached, some_⟩
      exact ⟨reached_reordered perm reached,
        fun empty => some_ (List.perm_nil.mp (empty ▸ links.symm))⟩
  unfold violations
  rw [← flatMap_expanding, ← flatMap_expanding]
  refine List.Perm.filter _ ((same.flatMap_right _).trans ?_)
  exact List.Perm.flatMap_left _ fun x _ => linksInto_reordered perm window x

theorem sameFinding_reordered {edges : List DependencyEdge} (perm : edges.Perm manifest.edges)
    (unforked : Unforked manifest window trip) :
    SameFinding (attribution manifest window trip)
      (attribution (manifest.reordered edges) window trip) where
  trip := rfl
  catalysts := by
    refine (List.perm_insertionSort _ _).trans (.trans ?_ (List.perm_insertionSort _ _).symm)
    exact (violations_reordered perm unforked).symm.map _
  ranked := attribution_rankedByFloat
  ranked' := attribution_rankedByFloat

theorem runResults_reordered {CAP : Nat} (positive : 0 < CAP) (indexed : manifest.Indexed)
    {frames : List DecodedFieldbusFrame} {results : List (Option TripAnalysis)}
    (done : runResults CAP profile manifest frames = .ok results) (edges : List DependencyEdge) :
    ∃ results', runResults CAP profile (manifest.reordered edges) frames = .ok results' ∧
      results'.length = results.length ∧ ∀ i, results'[i]? = results[i]?.map (Option.map fun a =>
        attribution (manifest.reordered edges) (windowAt CAP manifest frames i) a.tripEvent) := by
  have indexed' : (manifest.reordered edges).Indexed := new_indexed _ _ _
  obtain ⟨results', done'⟩ : ∃ results',
      runResults CAP profile (manifest.reordered edges) frames = .ok results' :=
    (runResults_iff positive indexed' frames).mpr
      ((runResults_iff positive indexed frames).mp ⟨results, done⟩)
  refine ⟨results', done', ?_, fun i => ?_⟩
  · rw [runResults_eq positive indexed done, runResults_eq positive indexed' done',
      length_analyses, length_analyses]
  · rw [runResults_eq positive indexed done, runResults_eq positive indexed' done',
      analyses_getElem?, analyses_getElem?, windowAt, ← historyOf_eq, Option.map_map]
    congr 1
    funext f
    rw [Function.comp_apply, Option.map_map]
    rfl

theorem runsAgree_reordered {CAP : Nat} (positive : 0 < CAP) (indexed : manifest.Indexed)
    (acyclic : ∀ n, ¬ TransGen (DependsOn manifest.edges) n n)
    (free : manifest.ForkFree profile) {edges : List DependencyEdge}
    (perm : edges.Perm manifest.edges) (frames : List DecodedFieldbusFrame) :
    RunsAgree (runResults CAP profile manifest frames)
      (runResults CAP profile (manifest.reordered edges) frames) := by
  cases done : runResults CAP profile manifest frames with
  | error fault =>
      cases done' : runResults CAP profile (manifest.reordered edges) frames with
      | error fault' => exact .aborted fault fault'
      | ok results' =>
          obtain ⟨results, completes⟩ := (runResults_iff positive indexed frames).mpr
            ((runResults_iff positive (new_indexed _ _ _) frames).mp ⟨results', done'⟩)
          rw [done] at completes
          cases completes
  | ok results =>
      obtain ⟨results', done', lengths, each⟩ := runResults_reordered positive indexed done edges
      rw [done']
      refine .completed (List.forall₂_iff_get.mpr ⟨lengths.symm, fun i bound bound' => ?_⟩)
      have here := each i
      rw [List.getElem?_eq_getElem bound, List.getElem?_eq_getElem bound', Option.map_some,
        Option.some.injEq] at here
      rw [List.get_eq_getElem, List.get_eq_getElem, here]
      cases reported : results[i] with
      | none => exact .none
      | some analysis =>
          obtain ⟨unforked, is⟩ := unforked_at positive indexed acyclic free done
            (by rw [List.getElem?_eq_getElem bound, reported])
          refine .some ?_
          have same := sameFinding_reordered perm unforked
          rwa [← is] at same

def TriggeredBy (manifest : DependencyManifest) (window : History)
    (effect trigger : StateTransition) : Prop :=
  ∃ l ∈ linksInto manifest window effect, l.trigger = trigger

theorem reached_path (reached : Reached manifest window trip q) :
    ReflTransGen (TriggeredBy manifest window) trip q := by
  induction reached with
  | trip => exact .refl
  | trigger _ link ih => exact ih.tail ⟨_, link, rfl⟩

def OnPath (path : List StateTransition) (e : DependencyEdge) : Prop :=
  ∃ (i : Nat) (bound : i + 1 < path.length),
    e.edgeTo = path[i].node ∧ e.edgeFrom = path[i + 1].node

theorem path_distinct (acyclic : ∀ n, ¬ TransGen (DependsOn manifest.edges) n n)
    {path : List StateTransition} (chain : path.IsChain (TriggeredBy manifest window)) :
    (path.map StateTransition.node).Nodup := by
  have leads : path.IsChain fun a b => TransGen (DependsOn manifest.edges) b.node a.node := by
    refine chain.imp ?_
    rintro a b ⟨l, link, rfl⟩
    exact .single (dependsOn_link link)
  have : IsTrans StateTransition fun a b => TransGen (DependsOn manifest.edges) b.node a.node :=
    ⟨fun _ _ _ first second => second.trans first⟩
  rw [List.Nodup, List.pairwise_map]
  refine (List.isChain_iff_pairwise.mp leads).imp ?_
  intro a b before same
  rw [same] at before
  exact acyclic _ before

theorem getLast?_of_forall {α : Type} {xs ys : List α} {y : α} (some_ : ys ≠ [])
    (all : ∀ x ∈ ys, x = y) : (xs ++ ys).getLast? = some y := by
  rw [List.getLast?_append_of_ne_nil _ some_, List.getLast?_eq_getLast_of_ne_nil some_,
    all _ (List.getLast_mem some_)]

theorem pushed_last (front : List DependencyEdge) {back : List DependencyEdge}
    {path : List StateTransition} (distinct : (path.map StateTransition.node).Nodup)
    (chain : path.IsChain (TriggeredBy manifest window))
    (onPath : ∀ e, e ∈ back ↔ e ∈ manifest.edges ∧ OnPath path e) :
    path.IsChain fun a b =>
      (triggers (manifest.reordered (front ++ back)) window a).getLast? = some b := by
  rw [List.isChain_iff_getElem] at chain ⊢
  intro i bound
  obtain ⟨l, link, trigger⟩ := chain i bound
  obtain ⟨declared, into, -, found⟩ := mem_linksInto.mp link
  have from_ : l.edge.edgeFrom = path[i + 1].node := by
    rw [← trigger, (lastBefore_some found).2.1]
  rw [trigger] at found
  have split : triggers (manifest.reordered (front ++ back)) window path[i] =
      triggers (manifest.reordered front) window path[i] ++
        triggers (manifest.reordered back) window path[i] := by
    simp [triggers, linksInto, DependencyManifest.incoming, DependencyManifest.reordered,
      DependencyManifest.new]
  rw [split]
  apply getLast?_of_forall
  · have last : l ∈ linksInto (manifest.reordered back) window path[i] :=
      mem_linksInto.mpr ⟨(onPath _).mpr ⟨declared, i, bound, into, from_⟩, into,
        (mem_linksInto.mp link).2.2.1, trigger ▸ found⟩
    exact List.ne_nil_of_mem (List.mem_map_of_mem last)
  · intro t member
    obtain ⟨l', link', rfl⟩ := List.mem_map.mp member
    obtain ⟨inBack, into', -, found'⟩ := mem_linksInto.mp link'
    obtain ⟨-, j, bound', into'', from'⟩ := (onPath _).mp inBack
    -- The nodes of the path differ, so the edge is the one that leaves this instance.
    have same : path[j] = path[i] := List.inj_on_of_nodup_map distinct (List.getElem_mem _)
      (List.getElem_mem _) (into''.symm.trans into')
    obtain rfl : j = i := (List.Nodup.getElem_inj_iff (.of_map _ distinct)).mp same
    rw [from', ← from_, found] at found'
    exact (Option.some.inj found').symm

theorem path_fits {path : List StateTransition} (distinct : (path.map StateTransition.node).Nodup)
    (chain : path.IsChain (TriggeredBy manifest window)) :
    path.length ≤ 1 + manifest.edges.length := by
  have inside : path.dropLast.map StateTransition.node ⊆
      manifest.edges.map DependencyEdge.edgeTo := by
    intro n member
    obtain ⟨t, inside, rfl⟩ := List.mem_map.mp member
    obtain ⟨i, bound, rfl⟩ := List.getElem_of_mem inside
    rw [List.length_dropLast] at bound
    obtain ⟨l, link, -⟩ := List.isChain_iff_getElem.mp chain i (by omega)
    obtain ⟨declared, into, -⟩ := mem_linksInto.mp link
    rw [List.getElem_dropLast, ← into]
    exact List.mem_map_of_mem declared
  have distinct' : (path.dropLast.map StateTransition.node).Nodup :=
    distinct.sublist ((List.dropLast_sublist path).map _)
  have le := (distinct'.subperm inside).length_le
  rw [List.length_map, List.length_map, List.length_dropLast] at le
  omega

theorem examined_reordered (accepted : cfg.build order = .ok manifest)
    (reached : Reached manifest window trip q) :
    ∃ edges : List EdgeCfg, edges.Perm cfg.edges ∧
      q ∈ examined (manifest.reordered (edges.map EdgeCfg.into)) window trip := by
  obtain ⟨path, chain, last⟩ :=
    List.exists_isChain_cons_of_relationReflTransGen (reached_path reached)
  have distinct := path_distinct (acyclic_of_build accepted) chain
  classical
  let back := cfg.edges.filter fun e => decide (OnPath (trip :: path) e.into)
  let front := cfg.edges.filter fun e => !decide (OnPath (trip :: path) e.into)
  have perm : (front ++ back).Perm cfg.edges :=
    List.perm_append_comm.trans (List.filter_append_perm _ _)
  have edges := (built_of_build accepted).edges
  have onPath : ∀ e, e ∈ back.map EdgeCfg.into ↔
      e ∈ manifest.edges ∧ OnPath (trip :: path) e := by
    intro e
    rw [edges, List.mem_map, List.mem_map]
    constructor
    · rintro ⟨declared, member, rfl⟩
      obtain ⟨inside, on⟩ := List.mem_filter.mp member
      exact ⟨⟨declared, inside, rfl⟩, of_decide_eq_true on⟩
    · rintro ⟨⟨declared, inside, rfl⟩, on⟩
      exact ⟨declared, List.mem_filter.mpr ⟨inside, decide_eq_true on⟩, rfl⟩
  have pushed := pushed_last (front.map EdgeCfg.into) distinct chain onPath
  rw [← List.map_append] at pushed
  refine ⟨front ++ back, perm, ?_⟩
  have fits := path_fits distinct chain
  have same : (manifest.reordered ((front ++ back).map EdgeCfg.into)).edges.length =
      manifest.edges.length := by
    rw [edges, List.length_map, ← perm.length_eq, ← List.length_map EdgeCfg.into]
    rfl
  apply Worklist.expansions_descend path trip pushed _ [] [] ?_ distinct (by simp)
  · exact last ▸ List.getLast_mem _
  · rw [same]
    rw [List.length_cons] at fits
    omega

theorem sameFinding_at {run run' : Except Fault (List (Option TripAnalysis))}
    (agree : RunsAgree run run') {results results' : List (Option TripAnalysis)}
    (done : run = .ok results) (done' : run' = .ok results') {i : Nat}
    {analysis analysis' : TripAnalysis} (reported : results[i]? = some (some analysis))
    (reported' : results'[i]? = some (some analysis')) : SameFinding analysis analysis' := by
  subst done done'
  cases agree with
  | completed same =>
      obtain ⟨bound, at_⟩ := List.getElem?_eq_some_iff.mp reported
      obtain ⟨bound', at_'⟩ := List.getElem?_eq_some_iff.mp reported'
      have related := (List.forall₂_iff_get.mp same).2 i bound bound'
      rw [List.get_eq_getElem, List.get_eq_getElem, at_, at_'] at related
      cases related with
      | some finding => exact finding

theorem reported_reordered {CAP : Nat} (positive : 0 < CAP) (indexed : manifest.Indexed)
    {frames : List DecodedFieldbusFrame} {results : List (Option TripAnalysis)}
    (done : runResults CAP profile manifest frames = .ok results) {i : Nat}
    (reported : results[i]? = some (some (attribution manifest window trip)))
    (here : windowAt CAP manifest frames i = window) {edges : List DependencyEdge}
    (perm : edges.Perm manifest.edges)
    (agree : RunsAgree (runResults CAP profile manifest frames)
      (runResults CAP profile (manifest.reordered edges) frames))
    {l : CausalLink} (link : l ∈ linksInto manifest window q) (late : l.edge.wcetNs < l.dt)
    (visited : q ∈ examined (manifest.reordered edges) window trip) :
    l.catalyst ∈ (attribution manifest window trip).rankedCatalysts := by
  obtain ⟨results', done', -, each⟩ := runResults_reordered positive indexed done edges
  have there := each i
  rw [reported, here] at there
  have finding := sameFinding_at agree done done' reported there
  rw [finding.catalysts.mem_iff, mem_rankedCatalysts]
  refine ⟨l, mem_violations_iff.mpr ?_, rfl⟩
  have link' := (linksInto_reordered perm window q).mem_iff.mpr link
  obtain ⟨-, -, rfl, -⟩ := mem_linksInto.mp link
  exact ⟨visited, link', late⟩

theorem not_edgeOrderIndependent (accepted : cfg.build order = .ok manifest)
    (forks : ¬ manifest.ForkFree profile) :
    ¬ cfg.EdgeOrderIndependent profile order manifest := by
  intro independent
  obtain ⟨frames, window, down, q, q', ⟨CAP, results, i, positive, done, here, reported⟩, forked⟩ :=
    forkedAt_of_not_forkFree accepted forks
  have report : ∀ t, Reached manifest window down t → ∀ l ∈ linksInto manifest window t,
      l.edge.wcetNs < l.dt → l.catalyst ∈ (attribution manifest window down).rankedCatalysts := by
    intro t reached l link late
    obtain ⟨edges, perm, visited⟩ := examined_reordered accepted reached
    obtain ⟨manifest', built, agree⟩ := independent edges perm
    rw [build_reordered accepted perm, Except.ok.injEq] at built
    subst built
    have perm' : (edges.map EdgeCfg.into).Perm manifest.edges := by
      rw [(built_of_build accepted).edges]
      exact perm.map _
    exact reported_reordered positive (indexed_of_build accepted) done reported here perm'
      (agree CAP frames positive) link late visited
  obtain ⟨l, link, late⟩ := forked.late
  obtain ⟨l', link', late'⟩ := forked.late'
  exact forkedAt_exclusive forked link link' (report q forked.reached l link late)
    (report q' forked.reached' l' link' late')

theorem edge_order_independent_iff {order : IterationOrder} {cfg : ManifestCfg}
    {manifest : DependencyManifest} (accepted : cfg.build order = .ok manifest)
    (profile : Profile) :
    cfg.EdgeOrderIndependent profile order manifest ↔ manifest.ForkFree profile := by
  constructor
  · intro independent
    by_contra forks
    exact not_edgeOrderIndependent accepted forks independent
  · intro free edges perm
    refine ⟨_, build_reordered accepted perm, fun CAP frames positive => ?_⟩
    apply runsAgree_reordered positive (indexed_of_build accepted) (acyclic_of_build accepted) free
    rw [(built_of_build accepted).edges]
    exact perm.map _

theorem edge_order_independent_cell :
    Cell.cfg.EdgeOrderIndependent .dev .declared Cell.manifest :=
  (edge_order_independent_iff Cell.build_cfg .dev).mpr (cell_forkFree .dev)

theorem swapped_evidence :
    (runResults 8 .release (Diamond.manifest.reordered (Diamond.swapped.map EdgeCfg.into))
      Diamond.frames).map (List.map (Option.map TripAnalysis.evidence)) =
    .ok [none, none, none, none, none, none, none, some (Diamond.trip, [Diamond.lost])] := by
  decide +kernel

theorem diamond_order_matters : Diamond.cfg.build .declared = .ok Diamond.manifest ∧
    Diamond.swapped.Perm Diamond.cfg.edges ∧
    ∃ manifest', { Diamond.cfg with edges := Diamond.swapped }.build .declared = .ok manifest' ∧
      ¬ RunsAgree (runResults 8 .release Diamond.manifest Diamond.frames)
        (runResults 8 .release manifest' Diamond.frames) := by
  have perm : Diamond.swapped.Perm Diamond.cfg.edges := by decide
  have built := build_reordered Diamond.build_cfg perm
  refine ⟨Diamond.build_cfg, perm, _, built, fun agree => ?_⟩
  obtain ⟨results, done, evidence⟩ := evidence_ok diamond_evidence
  obtain ⟨results', done', evidence'⟩ := evidence_ok swapped_evidence
  obtain ⟨analysis, reported, -, nothing⟩ := evidence_at evidence (i := 7) rfl
  obtain ⟨analysis', reported', -, found⟩ := evidence_at evidence' (i := 7) rfl
  have finding := sameFinding_at agree done done' reported reported'
  have empty : analysis'.rankedCatalysts = [] :=
    List.nil_perm.mp (List.map_eq_nil_iff.mp nothing ▸ finding.catalysts)
  rw [TripAnalysis.evidence, empty] at found
  cases found

end Proof
end CausalWorks
