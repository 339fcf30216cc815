import CausalWorks.Proof.Completeness
import CausalWorks.Proof.Fabrication
import CausalWorks.Proof.Transport

/-!
# What a longer memory adds

Two engines that differ in the capacity of the ring examine the same links as far back as the
shorter one reaches. Without a fork the longer memory only adds catalysts, and those it adds have a
trigger that the shorter one has evicted.
-/

namespace CausalWorks

section
variable (CAP CAP' : Nat) (profile : Profile) (manifest : DependencyManifest)
  (frames : List DecodedFieldbusFrame) (results results' : List (Option TripAnalysis))

structure MemoryExtends : Prop where
  trips : results.map (Option.map TripAnalysis.tripEvent) =
    results'.map (Option.map TripAnalysis.tripEvent)
  enough : ∀ (i : Nat) analysis analysis', results[i]? = some (some analysis) →
    results'[i]? = some (some analysis') →
    (∀ t, Reached manifest (windowAt CAP' manifest frames i) analysis'.tripEvent t →
      t ∈ windowAt CAP manifest frames i) → analysis = analysis'
  remembered : manifest.ForkFree profile → ∀ (i : Nat) analysis analysis',
    results[i]? = some (some analysis) → results'[i]? = some (some analysis') →
      ∀ c, c ∈ analysis.rankedCatalysts ↔ c ∈ analysis'.rankedCatalysts ∧
        Reached manifest (windowAt CAP manifest frames i) analysis.tripEvent c.effect ∧
          c.trigger ∈ windowAt CAP manifest frames i
  evicted : manifest.ForkFree profile → (frames.Pairwise fun f g => f.tapTsNs ≤ g.tapTsNs) →
    ∀ (i : Nat) analysis analysis', results[i]? = some (some analysis) →
      results'[i]? = some (some analysis') → ∀ c, c ∈ analysis.rankedCatalysts ↔
        c ∈ analysis'.rankedCatalysts ∧ c.trigger ∈ windowAt CAP manifest frames i

end

namespace Proof
variable {manifest : DependencyManifest} {history : History} {keep : Nat}
  {trip q effect : StateTransition}

theorem lastBefore_longer {node : NodeId} {bound : UInt64} {t : StateTransition}
    (found : lastBefore (history.take keep) node bound = some t) :
    lastBefore history node bound = some t := by
  conv_lhs => rw [← List.take_append_drop keep history]
  rw [lastBefore, List.find?_append, show List.find? _ _ = some t from found, Option.some_or]

theorem lastBefore_shorter {node : NodeId} {bound : UInt64} {t : StateTransition}
    (found : lastBefore history node bound = some t) (kept : t ∈ history.take keep) :
    lastBefore (history.take keep) node bound = some t := by
  cases shorter : lastBefore (history.take keep) node bound with
  | some u => exact (lastBefore_longer shorter).symm.trans found
  | none =>
      obtain ⟨-, same, older⟩ := lastBefore_some found
      exact absurd older (lastBefore_none.mp shorter t kept same)

theorem linksInto_longer {l : CausalLink}
    (link : l ∈ linksInto manifest (history.take keep) effect) :
    l ∈ linksInto manifest history effect := by
  obtain ⟨declared, into, same, found⟩ := mem_linksInto.mp link
  exact mem_linksInto.mpr ⟨declared, into, same, lastBefore_longer found⟩

theorem linksInto_shorter {l : CausalLink} (link : l ∈ linksInto manifest history effect)
    (kept : l.trigger ∈ history.take keep) : l ∈ linksInto manifest (history.take keep) effect := by
  obtain ⟨declared, into, same, found⟩ := mem_linksInto.mp link
  exact mem_linksInto.mpr ⟨declared, into, same, lastBefore_shorter found kept⟩

theorem reached_longer (reached : Reached manifest (history.take keep) trip q) :
    Reached manifest history trip q := by
  induction reached with
  | trip => exact .trip
  | trigger _ link ih => exact .trigger ih (linksInto_longer link)

theorem links_kept (kept : ∀ l ∈ linksInto manifest history effect,
      l.trigger ∈ history.take keep) :
    linksInto manifest (history.take keep) effect = linksInto manifest history effect := by
  refine List.filterMap_congr fun edge member => ?_
  cases found : lastBefore history edge.edgeFrom effect.tsNs with
  | some t =>
      have link : (⟨edge, t, effect⟩ : CausalLink) ∈ linksInto manifest history effect :=
        List.mem_filterMap.mpr ⟨edge, member, by rw [found]; rfl⟩
      rw [lastBefore_shorter found (kept _ link)]
  | none =>
      cases shorter : lastBefore (history.take keep) edge.edgeFrom effect.tsNs with
      | none => rfl
      | some u => exact nomatch found.symm.trans (lastBefore_longer shorter)

theorem attribution_kept
    (kept : ∀ t, Reached manifest history trip t → t ∈ history.take keep) :
    attribution manifest (history.take keep) trip = attribution manifest history trip := by
  refine (attribution_congr (P := Reached manifest history trip) ?_ ?_ .trip).symm
  · exact fun x reached l link => .trigger reached link
  · exact fun x reached => (links_kept fun l link => kept _ (.trigger reached link)).symm

theorem ranked_iff {window : History} (unforked : Unforked manifest window trip)
    {c : CandidateCatalyst} : c ∈ (attribution manifest window trip).rankedCatalysts ↔
      ∃ l, l.catalyst = c ∧ Reached manifest window trip l.effect ∧
        l ∈ linksInto manifest window l.effect ∧ l.edge.wcetNs < l.dt := by
  rw [mem_rankedCatalysts]
  constructor
  · rintro ⟨l, reported, same⟩
    obtain ⟨visited, link, violated⟩ := mem_violations_iff.mp reported
    exact ⟨l, same, examined_reached _ visited, link, violated⟩
  · rintro ⟨l, same, reached, link, violated⟩
    have visited := examined_of_reached unforked reached (List.ne_nil_of_mem link)
    exact ⟨l, mem_violations_iff.mpr ⟨visited, link, violated⟩, same⟩

theorem ranked_shorter (unforked : Unforked manifest (history.take keep) trip)
    (unforked' : Unforked manifest history trip) {c : CandidateCatalyst} :
    c ∈ (attribution manifest (history.take keep) trip).rankedCatalysts ↔
      c ∈ (attribution manifest history trip).rankedCatalysts ∧
        Reached manifest (history.take keep) trip c.effect ∧ c.trigger ∈ history.take keep := by
  rw [ranked_iff unforked, ranked_iff unforked']
  constructor
  · rintro ⟨l, rfl, reached, link, violated⟩
    obtain ⟨-, -, -, found⟩ := mem_linksInto.mp link
    exact ⟨⟨l, rfl, reached_longer reached, linksInto_longer link, violated⟩, reached,
      (lastBefore_some found).1⟩
  · rintro ⟨⟨l, rfl, -, link, violated⟩, reached, kept⟩
    exact ⟨l, rfl, reached, linksInto_shorter link kept, violated⟩

theorem sorted_kept (sorted : history.Sorted) {t u : StateTransition}
    (kept : t ∈ history.take keep) (member : u ∈ history) (later : t.tsNs < u.tsNs) :
    u ∈ history.take keep := by
  rw [← List.take_append_drop keep history] at member
  rw [History.Sorted, ← List.take_append_drop keep history, List.pairwise_append] at sorted
  rcases List.mem_append.mp member with new | old
  · exact new
  · exact absurd (sorted.2.2 t kept u old) (UInt64.not_le.mpr later)

theorem reached_remembered (sorted : history.Sorted) (inside : trip ∈ history)
    (reached : Reached manifest history trip q) (kept : q ∈ history.take keep) :
    Reached manifest (history.take keep) trip q := by
  induction reached with
  | trip => exact .trip
  | @trigger effect l reached link ih =>
      have found := lastBefore_some (mem_linksInto.mp link).2.2.2
      have nearer := sorted_kept sorted kept (Reached.recent inside reached) found.2.2
      exact .trigger (ih nearer) (linksInto_shorter link kept)

theorem windowAt_longer {CAP CAP' : Nat} (longer : CAP ≤ CAP')
    (frames : List DecodedFieldbusFrame) (i : Nat) :
    windowAt CAP manifest frames i = (windowAt CAP' manifest frames i).take CAP := by
  rw [windowAt, windowAt, List.take_take, Nat.min_eq_left longer]

theorem analyses_trip (keep : History → History) {frames : List DecodedFieldbusFrame} :
    (analyses manifest.record manifest keep [] frames).map (Option.map TripAnalysis.tripEvent) =
      frames.mapIdx fun i f =>
        (manifest.record (historyOf manifest.record [] (frames.take i)) f).2 := by
  refine List.ext_getElem? fun i => ?_
  rw [List.getElem?_map, analyses_getElem?, Option.map_map, List.getElem?_mapIdx]
  congr 1
  funext f
  rw [Function.comp_apply, Option.map_map]
  exact Option.map_id'

theorem analysis_both {CAP CAP' : Nat} (positive : 0 < CAP) (longer : CAP ≤ CAP')
    {frames : List DecodedFieldbusFrame} {i : Nat} {analysis analysis' : TripAnalysis}
    (at_ : (analyses manifest.record manifest (List.take CAP) [] frames)[i]? =
      some (some analysis))
    (at_' : (analyses manifest.record manifest (List.take CAP') [] frames)[i]? =
      some (some analysis')) :
    analysis.tripEvent = analysis'.tripEvent ∧
      analysis.tripEvent ∈ windowAt CAP' manifest frames i ∧
      analysis = attribution manifest ((windowAt CAP' manifest frames i).take CAP)
        analysis.tripEvent ∧
      analysis' = attribution manifest (windowAt CAP' manifest frames i) analysis'.tripEvent := by
  obtain ⟨trip, before, history, rfl⟩ := analysis_at manifest at_
  obtain ⟨trip', before', history', rfl⟩ := analysis_at manifest at_'
  obtain ⟨rfl, rfl⟩ := List.cons.inj (history.symm.trans history')
  have window : windowAt CAP' manifest frames i = (trip :: before).take CAP' := by
    rw [windowAt, ← historyOf_eq, history]
  have inside : trip ∈ windowAt CAP' manifest frames i := by
    obtain ⟨n, rfl⟩ := Nat.exists_eq_succ_of_ne_zero (by omega : CAP' ≠ 0)
    exact window ▸ List.mem_cons_self
  refine ⟨rfl, inside, ?_, by rw [window]; rfl⟩
  rw [window, List.take_take, Nat.min_eq_left longer]
  rfl

theorem memory_extends {order : IterationOrder} {cfg : ManifestCfg} (profile : Profile)
    (accepted : cfg.build order = .ok manifest) {CAP CAP' : Nat} (positive : 0 < CAP)
    (longer : CAP ≤ CAP') {frames : List DecodedFieldbusFrame}
    {results results' : List (Option TripAnalysis)}
    (done : runResults CAP profile manifest frames = .ok results)
    (done' : runResults CAP' profile manifest frames = .ok results') :
    MemoryExtends CAP CAP' profile manifest frames results results' := by
  have indexed := indexed_of_build accepted
  have acyclic := acyclic_of_build accepted
  have remembered : manifest.ForkFree profile → ∀ (i : Nat) analysis analysis',
      results[i]? = some (some analysis) → results'[i]? = some (some analysis') →
        ∀ c, c ∈ analysis.rankedCatalysts ↔ c ∈ analysis'.rankedCatalysts ∧
          Reached manifest (windowAt CAP manifest frames i) analysis.tripEvent c.effect ∧
            c.trigger ∈ windowAt CAP manifest frames i := by
    intro free i analysis analysis' at_ at_' c
    obtain ⟨unforked, is⟩ := unforked_at positive indexed acyclic free done at_
    obtain ⟨unforked', is'⟩ := unforked_at (by omega) indexed acyclic free done' at_'
    rw [runResults_eq positive indexed done] at at_
    rw [runResults_eq (by omega) indexed done'] at at_'
    obtain ⟨same, -, -, -⟩ := analysis_both positive longer at_ at_'
    rw [windowAt_longer longer] at unforked is ⊢
    rw [← same] at unforked' is'
    rw [is, is']
    exact ranked_shorter unforked unforked'
  constructor
  case trips =>
    rw [runResults_eq positive indexed done, runResults_eq (by omega) indexed done',
      analyses_trip, analyses_trip]
  case enough =>
    intro i analysis analysis' at_ at_' kept
    rw [runResults_eq positive indexed done] at at_
    rw [runResults_eq (by omega) indexed done'] at at_'
    obtain ⟨same, -, is, is'⟩ := analysis_both positive longer at_ at_'
    rw [windowAt_longer longer] at kept
    rw [is, is', same]
    exact attribution_kept kept
  case remembered => exact remembered
  case evicted =>
    intro free ordered i analysis analysis' at_ at_' c
    have known := remembered free i analysis analysis' at_ at_' c
    rw [runResults_eq positive indexed done] at at_
    rw [runResults_eq (by omega) indexed done'] at at_'
    obtain ⟨same, inside, -, is'⟩ := analysis_both positive longer at_ at_'
    rw [windowAt_longer longer] at known ⊢
    have sorted : (windowAt CAP' manifest frames i).Sorted := by
      have whole := (@sorted_historyOf manifest _ (ordered.sublist (List.take_sublist (i + 1) _))).1
      rw [historyOf_eq] at whole
      exact whole.sublist (List.take_sublist _ _)
    refine known.trans (and_congr_right fun reported => and_iff_right_of_imp fun kept => ?_)
    rw [is', mem_rankedCatalysts] at reported
    obtain ⟨l, late, rfl⟩ := reported
    obtain ⟨visited, link, -⟩ := mem_violations_iff.mp late
    rw [← same] at visited
    have reached := examined_reached _ visited
    have found := lastBefore_some (mem_linksInto.mp link).2.2.2
    exact reached_remembered sorted inside reached
      (sorted_kept sorted kept (Reached.recent inside reached) found.2.2)

theorem memory_extends_cell : ∃ results results',
    runResults 2 .dev Cell.manifest Cell.jitter = .ok results ∧
    runResults 6 .dev Cell.manifest Cell.jitter = .ok results' ∧
      MemoryExtends 2 6 .dev Cell.manifest Cell.jitter results results' :=
  ⟨_, _, rfl, rfl, memory_extends .dev Cell.build_cfg (by decide) (by decide) rfl rfl⟩

end Proof
end CausalWorks
