import CausalWorks.Proof.Reports
import CausalWorks.Proof.Transport

/-!
# An engine that is restarted within a capture

A restarted engine knows neither the level of the trip node nor what happened before. It can miss
the first trip, and its analyses are those of the engine that went on once its ring is full.
-/

namespace CausalWorks

def StateTransition.renumber (k : UInt64) (self : StateTransition) : StateTransition :=
  { self with seq := self.seq + k }

section
variable (CAP : Nat) (manifest : DependencyManifest) (before after : List Packet)
  (results restarted : List (Option TripAnalysis))

def MissedAt (i : Nat) : Prop :=
  (∃ analysis, results[before.length + i]? = some (some analysis)) ∧ restarted[i]? = some none

/-- The results of the engine that is restarted behind `before`, against those of a whole run. -/
structure Restarted : Prop where
  one_each : restarted.length = after.length
  never_invents : ∀ i analysis, restarted[i]? = some (some analysis) →
    ∃ whole, results[before.length + i]? = some (some whole) ∧ whole.tripEvent =
      analysis.tripEvent.renumber (.ofNat (before.countP (claimed manifest)))
  misses_unknown_level : ∀ i, MissedAt before results restarted i →
    (after.take i).filterMap (tripLevel manifest) = []
  misses_one : ∀ i j, MissedAt before results restarted i → MissedAt before results restarted j →
    i = j
  recovers : ∀ i, CAP ≤ (after.take (i + 1)).countP (claimed manifest) →
    ¬ MissedAt before results restarted i → results[before.length + i]? = restarted[i]?.map
      (Option.map (·.map (·.renumber (.ofNat (before.countP (claimed manifest))))))

end

namespace Proof
variable {CAP : Nat} {profile : Profile} {manifest : DependencyManifest}
  {before after : List Packet}

theorem renumber_relabels (k : UInt64) : Relabels (StateTransition.renumber k) :=
  ⟨fun _ => rfl, fun _ => rfl⟩

section
variable (history old : History)

abbrev continued : History :=
  history.map (·.renumber (.ofNat old.length)) ++ old

theorem levelOf_append (history older : History) (node : NodeId) :
    levelOf (history ++ older) node = (levelOf history node).or (levelOf older node) := by
  simp [levelOf, List.findSome?_append]

theorem levelOf_continued (node : NodeId) :
    levelOf (continued history old) node = (levelOf history node).or (levelOf old node) := by
  rw [continued, levelOf_append, levelOf_map (renumber_relabels _)]

theorem capture_continued (packet : Packet) :
    (manifest.capture (continued history old) packet).1 =
      continued (manifest.capture history packet).1 old := by
  rw [capture_eq, capture_eq]
  cases reading manifest packet with
  | none => rfl
  | some assigned => simp [continued, StateTransition.renumber]

end

theorem historyOf_continued (before after : List Packet) :
    historyOf manifest.capture [] (before ++ after) =
      continued (historyOf manifest.capture [] after) (historyOf manifest.capture [] before) := by
  induction after using List.reverseRecOn with
  | nil => simp [historyOf, continued]
  | append_singleton after packet ih =>
      rw [← List.append_assoc, historyOf_concat, ih, historyOf_concat, capture_continued]

theorem capture_isSome_continued {history old : History} {packet : Packet} :
    (manifest.capture (continued history old) packet).2.isSome ↔
      (manifest.capture history packet).2.isSome ∨
        (manifest.capture (continued history old) packet).2.isSome ∧
          levelOf history manifest.tripNode = none := by
  rw [capture_trips_iff, capture_trips_iff, levelOf_continued]
  cases levelOf history manifest.tripNode <;> simp

theorem trip_continued {history old : History} {packet : Packet} {trip : StateTransition}
    (tripped : (manifest.capture history packet).2 = some trip) :
    (manifest.capture (continued history old) packet).2 =
      some (trip.renumber (.ofNat old.length)) := by
  obtain ⟨whole, is⟩ := Option.isSome_iff_exists.mp
    ((@capture_isSome_continued manifest history old packet).mpr
      (Or.inl (by rw [tripped]; rfl)))
  have pushed := capture_trip is
  rw [capture_continued, capture_trip tripped] at pushed
  rw [is, ← (List.cons.inj pushed).1]

abbrev reported (CAP : Nat) (manifest : DependencyManifest) (packets : List Packet) :
    List (Option TripAnalysis) :=
  analyses manifest.capture manifest (List.take CAP) [] packets

theorem whole_getElem? (i : Nat) :
    (reported CAP manifest (before ++ after))[before.length + i]? =
      after[i]?.map fun packet =>
        (manifest.capture (continued (historyOf manifest.capture [] (after.take i))
          (historyOf manifest.capture [] before)) packet).2.map
        (attribution manifest ((continued (historyOf manifest.capture [] (after.take (i + 1)))
          (historyOf manifest.capture [] before)).take CAP)) := by
  rw [analyses_getElem?, List.getElem?_append_right (Nat.le_add_right _ _), Nat.add_sub_cancel_left,
    Nat.add_assoc, List.take_length_add_append, List.take_length_add_append, historyOf_continued,
    historyOf_continued]

theorem attribution_continued {history old : History} {trip : StateTransition}
    (full : CAP ≤ history.length) :
    attribution manifest ((continued history old).take CAP) (trip.renumber (.ofNat old.length)) =
      (attribution manifest (history.take CAP) trip).map (·.renumber (.ofNat old.length)) := by
  have window : (continued history old).take CAP =
      (history.take CAP).map (·.renumber (.ofNat old.length)) := by
    rw [continued, List.take_append_of_le_length (by rwa [List.length_map]), List.map_take]
  rw [window]
  exact attribution_map (keepsSpans_of_times fun _ => rfl) (renumber_relabels _)

theorem levels_before_missed {i : Nat}
    (missed : MissedAt before (reported CAP manifest (before ++ after))
      (reported CAP manifest after) i) :
    (∃ packet, after[i]? = some packet ∧ tripLevel manifest packet = some false) ∧
      (after.take i).filterMap (tripLevel manifest) = [] := by
  obtain ⟨⟨analysis, found⟩, silent⟩ := missed
  rw [whole_getElem?] at found
  rw [analyses_getElem?] at silent
  obtain ⟨packet, at_, result⟩ := Option.map_eq_some_iff.mp found
  rw [at_, Option.map_some, Option.some.injEq, Option.map_eq_none_iff] at silent
  obtain ⟨trip, tripped, -⟩ := Option.map_eq_some_iff.mp result
  have fires := Option.isSome_of_eq_some tripped
  rcases capture_isSome_continued.mp fires with here | ⟨-, unknown⟩
  · rw [silent] at here
    cases here
  · rw [levelOf_historyOf, List.getLast?_eq_none_iff] at unknown
    exact ⟨⟨packet, at_, (capture_trips_iff _ _).mp fires |>.1⟩, unknown⟩

theorem missed_first {i j : Nat}
    (missed : MissedAt before (reported CAP manifest (before ++ after))
      (reported CAP manifest after) i)
    (missed' : MissedAt before (reported CAP manifest (before ++ after))
      (reported CAP manifest after) j) : ¬ i < j := by
  intro earlier
  obtain ⟨⟨packet, at_, level⟩, -⟩ := levels_before_missed missed
  obtain ⟨-, unknown⟩ := levels_before_missed missed'
  have inside : packet ∈ after.take j :=
    List.mem_of_getElem? ((List.getElem?_take_of_lt earlier).trans at_)
  have known := List.mem_filterMap.mpr ⟨packet, inside, level⟩
  rw [unknown] at known
  cases known

theorem recovered_at {i : Nat} (full : CAP ≤ (after.take (i + 1)).countP (claimed manifest))
    (kept : ¬ MissedAt before (reported CAP manifest (before ++ after))
      (reported CAP manifest after) i) :
    (reported CAP manifest (before ++ after))[before.length + i]? =
      (reported CAP manifest after)[i]?.map
        (Option.map (·.map (·.renumber (.ofNat (before.countP (claimed manifest)))))) := by
  rw [← length_historyOf] at full
  have whole := @whole_getElem? CAP manifest before after i
  have fresh := @analyses_getElem? _ manifest.capture manifest (List.take CAP) [] after i
  rw [MissedAt, whole, fresh] at kept
  rw [whole, fresh, Option.map_map, ← length_historyOf]
  cases at_ : after[i]? with
  | none => rfl
  | some packet =>
      simp only [at_, Option.map_some, Function.comp_apply] at kept ⊢
      cases tripped :
        (manifest.capture (historyOf manifest.capture [] (after.take i)) packet).2 with
      | none =>
          simp only [tripped, Option.map_none, and_true, not_exists, Option.some.injEq] at kept ⊢
          exact Option.eq_none_iff_forall_ne_some.mpr kept
      | some trip =>
          rw [trip_continued tripped, Option.map_some, Option.map_some, Option.map_some,
            attribution_continued full]

theorem restart_resilient (positive : 0 < CAP) (profile : Profile) (nodes : NodeTable)
    (edges : List DependencyEdge) (tripNode : NodeId) (before after : List Packet)
    {results : List (Option TripAnalysis)}
    (done : replayResults CAP profile (.new nodes edges tripNode) (before ++ after) =
      .ok results) :
    ∃ restarted, replayResults CAP profile (.new nodes edges tripNode) after = .ok restarted ∧
      Restarted CAP (.new nodes edges tripNode) before after results restarted := by
  have indexed := new_indexed nodes edges tripNode
  generalize DependencyManifest.new nodes edges tripNode = manifest at indexed done ⊢
  have completes : ∃ restarted, replayResults CAP profile manifest after = .ok restarted := by
    refine (replayResults_iff positive indexed after).mpr fun dev => ?_
    obtain ⟨classified, few⟩ := (replayResults_iff positive indexed _).mp ⟨results, done⟩ dev
    rw [acceptedFrames, List.filterMap_append] at classified
    rw [List.countP_append] at few
    exact ⟨fun f member => classified f (List.mem_append_right _ member), by omega⟩
  obtain ⟨restarted, done'⟩ := completes
  obtain rfl := replayResults_eq positive indexed done
  obtain rfl := replayResults_eq positive indexed done'
  refine ⟨_, done', ?_⟩
  have old := @length_historyOf manifest before
  constructor
  case one_each => exact length_analyses _ _ _ _
  case never_invents =>
    intro i analysis reported
    rw [analyses_getElem?] at reported
    obtain ⟨packet, at_, result⟩ := Option.map_eq_some_iff.mp reported
    obtain ⟨trip, tripped, rfl⟩ := Option.map_eq_some_iff.mp result
    rw [whole_getElem?, at_, Option.map_some, trip_continued tripped, ← old]
    exact ⟨_, rfl, rfl⟩
  case misses_unknown_level => exact fun i missed => (levels_before_missed missed).2
  case misses_one =>
    intro i j missed missed'
    have below := missed_first missed missed'
    have above := missed_first missed' missed
    omega
  case recovers => exact fun i full kept => recovered_at full kept

theorem restart_resilient_cell : ∃ restarted,
    replayResults 1 .release Cell.manifest
      [(1, Cell.plcBytes false), (2, Cell.plcBytes true), (3, Cell.plcBytes false)] =
        .ok restarted ∧
      Restarted 1 Cell.manifest [(0, Cell.plcBytes true)]
        [(1, Cell.plcBytes false), (2, Cell.plcBytes true), (3, Cell.plcBytes false)]
        [none, some ⟨⟨1, 3, 1, some false⟩, []⟩, none, some ⟨⟨3, 3, 3, some false⟩, []⟩]
        restarted :=
  restart_resilient (by decide) .release _ _ _ [(0, Cell.plcBytes true)]
    [(1, Cell.plcBytes false), (2, Cell.plcBytes true), (3, Cell.plcBytes false)] (by rfl)

end Proof
end CausalWorks
