import CausalWorks.Proof.Walk

/-!
# The engine refines the history model

`Refines` relates an observer to the history of what it has classified. One call of `observe`
preserves it and returns what the history model reports over the window of the last `CAP`
transitions.
-/

namespace CausalWorks

def CausalGraphObserver.transition {CAP : Nat} (s : CausalGraphObserver CAP)
    (f : DecodedFieldbusFrame) (node : NodeId) (interlock : Option Bool) : StateTransition :=
  { seq := s.seq, node, tsNs := f.tapTsNs, interlock }

namespace Proof

theorem matchesFrame_ok {profile : Profile} {m : NodeMatcher}
    (shifts : ∀ frameId bitIndex, m = .profinetFrame frameId bitIndex →
      ∀ byte, profile.shrU8 byte bitIndex = .ok (byte >>> bitIndex))
    (f : DecodedFieldbusFrame) : m.matchesFrame profile f = .ok (m.claim f) := by
  unfold NodeMatcher.matchesFrame NodeMatcher.claim
  cases m with
  | profinetFrame frameId bitIndex =>
      cases f.proto with
      | profinetIrt fid interlockBit rawStatusByte =>
          by_cases same : frameId = fid
          · simp only [same, if_true, shifts _ _ rfl]
            rfl
          · simp [same]
      | ros2Udp | fanucUdp | s7commArrival => rfl
  | ros2Port topicPort => cases f.proto <;> rfl
  | fanucPose => cases f.proto <;> rfl

theorem matchesFrame_release (m : NodeMatcher) (f : DecodedFieldbusFrame) :
    m.matchesFrame .release f = .ok (m.claim f) :=
  matchesFrame_ok (fun _ _ _ byte => shrU8_release byte _) f

theorem matchesFrame_of_lt (profile : Profile) {m : NodeMatcher}
    (small : ∀ frameId bitIndex, m = .profinetFrame frameId bitIndex → bitIndex < 8)
    (f : DecodedFieldbusFrame) : m.matchesFrame profile f = .ok (m.claim f) :=
  matchesFrame_ok (fun frameId bitIndex is byte =>
    shrU8_of_lt profile byte bitIndex (small frameId bitIndex is)) f

theorem classifyEntries_ok {profile : Profile} {f : DecodedFieldbusFrame}
    (entries : List (Sigma fun _ : NodeId => NodeMatcher))
    (each : ∀ entry ∈ entries, entry.2.matchesFrame profile f = .ok (entry.2.claim f)) :
    classifyEntries profile f entries =
      .ok (entries.findSome? fun entry => (entry.2.claim f).map (entry.1, ·)) := by
  induction entries with
  | nil => rfl
  | cons entry entries ih =>
      have here := each entry List.mem_cons_self
      have rest := ih fun e member => each e (List.mem_cons_of_mem _ member)
      simp only [classifyEntries, here, bind, Except.bind, pure, Except.pure,
        List.findSome?_cons]
      cases entry.2.claim f with
      | none => exact rest
      | some interlock => rfl

theorem classify_release (manifest : DependencyManifest) (f : DecodedFieldbusFrame) :
    manifest.classify .release f = .ok (manifest.assign f) :=
  classifyEntries_ok _ fun entry _ => matchesFrame_release entry.2 f

/-- What the `dev` profile aborts on and the `release` profile wraps. -/
def DevOnly (profile : Profile) (fault : Fault) : Prop :=
  profile = .dev ∧ (fault = .shiftOverflow ∨ fault = .addOverflow)

theorem matchesFrame_cases (profile : Profile) (m : NodeMatcher) (f : DecodedFieldbusFrame) :
    m.matchesFrame profile f = .ok (m.claim f) ∨
      profile = .dev ∧ m.matchesFrame profile f = .error .shiftOverflow := by
  cases profile with
  | release => exact Or.inl (matchesFrame_release m f)
  | dev =>
      cases m with
      | ros2Port | fanucPose => exact Or.inl (matchesFrame_ok (fun _ _ other => by cases other) f)
      | profinetFrame frameId bitIndex =>
          by_cases small : bitIndex < 8
          · exact Or.inl (matchesFrame_of_lt _ (fun _ _ same => by cases same; exact small) f)
          · have large : 8 ≤ bitIndex := by simpa using small
            unfold NodeMatcher.matchesFrame NodeMatcher.claim
            cases f.proto with
            | profinetIrt fid interlockBit rawStatusByte =>
                by_cases same : frameId = fid
                · right
                  simp [same, Profile.shrU8, Profile.overflowChecks, large, bind, Except.bind]
                · left
                  simp [same]
            | ros2Udp | fanucUdp | s7commArrival => exact Or.inl rfl

theorem classify_cases (profile : Profile) (manifest : DependencyManifest)
    (f : DecodedFieldbusFrame) : manifest.classify profile f = .ok (manifest.assign f) ∨
      profile = .dev ∧ manifest.classify profile f = .error .shiftOverflow := by
  unfold DependencyManifest.classify DependencyManifest.assign
  induction manifest.nodes.entries with
  | nil => exact Or.inl rfl
  | cons entry entries ih =>
      simp only [classifyEntries, bind, Except.bind, pure, Except.pure, List.findSome?_cons]
      rcases matchesFrame_cases profile entry.2 f with here | ⟨dev, here⟩
      · rw [here]
        cases entry.2.claim f with
        | none => exact ih
        | some interlock => exact Or.inl rfl
      · rw [here]
        exact Or.inr ⟨dev, rfl⟩

theorem addU64_cases (profile : Profile) (x y : UInt64) :
    profile.addU64 x y = .ok (x + y) ∨
      profile = .dev ∧ profile.addU64 x y = .error .addOverflow := by
  unfold Profile.addU64
  cases profile with
  | release => exact Or.inl rfl
  | dev =>
      split
      · exact Or.inr ⟨rfl, rfl⟩
      · exact Or.inl rfl

theorem observe_inv {CAP : Nat} {profile : Profile} {s after : CausalGraphObserver CAP}
    {f : DecodedFieldbusFrame} {result : Option TripAnalysis}
    (done : s.observe profile f = .ok (after, result)) :
    (s.manifest.classify profile f = .ok none ∧ after = s ∧ result = none) ∨
    ∃ node interlock seq ring, s.manifest.classify profile f = .ok (some (node, interlock)) ∧
      profile.addU64 s.seq 1 = .ok seq ∧ s.ring.push (s.transition f node interlock) = .ok ring ∧
      after = { s with ring, seq, lastInterlock := (s.detectTrip node interlock).2 } ∧
      ((s.detectTrip node interlock).1 = false ∧ result = none ∨
        (s.detectTrip node interlock).1 = true ∧ ∃ analysis,
          after.backtrack profile (s.transition f node interlock) = .ok analysis ∧
          result = some analysis) := by
  unfold CausalGraphObserver.observe at done
  obtain ⟨found, classified, done⟩ := bind_ok done
  cases found with
  | none =>
      obtain ⟨rfl, rfl⟩ := Prod.mk.inj (Except.ok.inj done)
      exact Or.inl ⟨classified, rfl, rfl⟩
  | some claim =>
      obtain ⟨node, interlock⟩ := claim
      obtain ⟨seq, counted, done⟩ := bind_ok done
      simp only at done
      obtain ⟨ring, pushed, done⟩ := bind_ok done
      refine Or.inr ⟨node, interlock, seq, ring, classified, counted, pushed, ?_⟩
      cases fires : (s.detectTrip node interlock).1 with
      | false =>
          simp only [fires, Bool.false_eq_true, if_false] at done
          obtain ⟨rfl, rfl⟩ := Prod.mk.inj (Except.ok.inj done)
          exact ⟨rfl, Or.inl ⟨rfl, rfl⟩⟩
      | true =>
          simp only [fires, if_true] at done
          obtain ⟨analysis, walked, done⟩ := bind_ok done
          obtain ⟨rfl, rfl⟩ := Prod.mk.inj (Except.ok.inj done)
          exact ⟨rfl, Or.inr ⟨rfl, analysis, walked, rfl⟩⟩

structure Refines {CAP : Nat} (s : CausalGraphObserver CAP) (manifest : DependencyManifest)
    (history : History) : Prop where
  manifest_eq : s.manifest = manifest
  ring : RingHolds s.ring (history.take CAP)
  seq : s.seq = UInt64.ofNat history.length
  levels : s.lastInterlock = levelOf history

theorem refines_new {CAP : Nat} (positive : 0 < CAP) (manifest : DependencyManifest) :
    Refines (CausalGraphObserver.new manifest : CausalGraphObserver CAP) manifest [] where
  manifest_eq := rfl
  ring := by
    rw [List.take_nil]
    exact ringHolds_new positive
  seq := rfl
  levels := rfl

theorem Refines.counts {CAP : Nat} (profile : Profile) {s : CausalGraphObserver CAP}
    {manifest : DependencyManifest} {history : History} (refines : Refines s manifest history)
    (few : history.length + 1 < 2 ^ 64) : profile.addU64 s.seq 1 = .ok (s.seq + 1) := by
  apply addU64_of_lt
  rw [refines.seq, UInt64.toNat_ofNat', UInt64.toNat_one, Nat.mod_eq_of_lt (by omega)]
  exact few

theorem levelOf_cons (t : StateTransition) (history : History) (node : NodeId) :
    levelOf (t :: history) node =
      if t.node = node then t.interlock.or (levelOf history node) else levelOf history node := by
  unfold levelOf
  by_cases here : t.node = node
  · cases level : t.interlock <;> simp [here, level]
  · simp [here]

theorem detectTrip_eq {CAP : Nat} {s : CausalGraphObserver CAP} {history : History}
    (levels : s.lastInterlock = levelOf history) (t : StateTransition) :
    s.detectTrip t.node t.interlock =
      (s.manifest.isTrip history t, levelOf (t :: history)) := by
  unfold CausalGraphObserver.detectTrip DependencyManifest.isTrip
  have table : ∀ level, t.interlock = some level →
      Function.update s.lastInterlock t.node (some level) = levelOf (t :: history) := by
    intro level known
    funext node
    rw [Function.update_apply, levelOf_cons, levels, known]
    by_cases here : node = t.node
    · simp [here]
    · simp [here, Ne.symm here]
  have unchanged : t.interlock = none → s.lastInterlock = levelOf (t :: history) := by
    intro unknown
    funext node
    rw [levelOf_cons, levels, unknown]
    simp
  cases known : t.interlock with
  | none => simp [unchanged known]
  | some level =>
      have after := table level known
      by_cases here : t.node = s.manifest.tripNode
      · simp only [here, if_true, true_and]
        rw [← here, after, levels]
        cases level <;> simp [beq_eq_decide]
      · simp [here, after]

theorem observe_ok {CAP : Nat} {profile : Profile} {s : CausalGraphObserver CAP}
    {manifest : DependencyManifest} {history : History} (refines : Refines s manifest history)
    (indexed : manifest.Indexed) (f : DecodedFieldbusFrame)
    (classified : manifest.classify profile f = .ok (manifest.assign f))
    (counts : manifest.assign f ≠ none → profile.addU64 s.seq 1 = .ok (s.seq + 1)) :
    ∃ after, s.observe profile f = .ok (after, (manifest.record history f).2.map
        (attribution manifest ((manifest.record history f).1.take CAP))) ∧
      Refines after manifest (manifest.record history f).1 := by
  obtain ⟨rfl, ring, seq, levels⟩ := refines
  unfold CausalGraphObserver.observe DependencyManifest.record
  rw [classified]
  simp only [bind, Except.bind]
  cases assigned : s.manifest.assign f with
  | none => exact ⟨s, rfl, rfl, ring, seq, levels⟩
  | some found =>
      obtain ⟨node, interlock⟩ := found
      let t := transitionOf history f node interlock
      have transition : ({ seq := s.seq, node, tsNs := f.tapTsNs, interlock } : StateTransition) =
          t := by
        simp [t, transitionOf, seq]
      obtain ⟨ring, pushed, holds⟩ := push_ok ring t
      rw [take_cons_take] at holds
      have refines' : Refines
          { s with ring, seq := s.seq + 1, lastInterlock := levelOf (t :: history) }
          s.manifest (t :: history) :=
        { manifest_eq := rfl
          ring := holds
          seq := by rw [seq]; simp
          levels := rfl }
      simp only [counts (by simp [assigned]), transition,
        show s.detectTrip node interlock = _ from detectTrip_eq levels t, pushed]
      refine ⟨_, ?_, refines'⟩
      by_cases trip : s.manifest.isTrip history t = true
      · have analysis := backtrackWith_ok profile indexed ((t :: history).take CAP) t
        simp only [trip, if_true, CausalGraphObserver.backtrack, lastForNodeBefore_ok holds,
          analysis, pure, Except.pure, Option.map_some, t]
      · simp only [trip, if_false, pure, Except.pure, Option.map_none, t, Bool.false_eq_true]

theorem observe_cases {CAP : Nat} {s : CausalGraphObserver CAP} {manifest : DependencyManifest}
    {history : History} (profile : Profile) (refines : Refines s manifest history)
    (indexed : manifest.Indexed) (f : DecodedFieldbusFrame) :
    (∃ after, s.observe profile f = .ok (after, (manifest.record history f).2.map
        (attribution manifest ((manifest.record history f).1.take CAP))) ∧
      Refines after manifest (manifest.record history f).1) ∨
    ∃ fault, DevOnly profile fault ∧ s.observe profile f = .error fault := by
  have same := refines.manifest_eq
  rcases classify_cases profile manifest f with classified | ⟨dev, overflow⟩
  · rcases addU64_cases profile s.seq 1 with counts | ⟨dev, overflow⟩
    · exact Or.inl (observe_ok refines indexed f classified fun _ => counts)
    · cases assigned : manifest.assign f with
      | none => exact Or.inl (observe_ok refines indexed f classified fun claimed =>
          absurd assigned claimed)
      | some found =>
          refine Or.inr ⟨_, ⟨dev, Or.inr rfl⟩, ?_⟩
          simp [CausalGraphObserver.observe, same, classified, assigned, overflow, bind,
            Except.bind]
  · refine Or.inr ⟨_, ⟨dev, Or.inl rfl⟩, ?_⟩
    simp [CausalGraphObserver.observe, same, overflow, bind, Except.bind]

theorem run_cases {CAP : Nat} {s : CausalGraphObserver CAP} {manifest : DependencyManifest}
    {history : History} (profile : Profile) (refines : Refines s manifest history)
    (indexed : manifest.Indexed) (frames : List DecodedFieldbusFrame) :
    (∃ after, s.run profile frames =
        .ok (after, analyses manifest.record manifest (List.take CAP) history frames) ∧
      Refines after manifest (historyOf manifest.record history frames)) ∨
    ∃ fault, DevOnly profile fault ∧ s.run profile frames = .error fault := by
  induction frames generalizing s history with
  | nil => exact Or.inl ⟨s, rfl, refines⟩
  | cons f frames ih =>
      simp only [CausalGraphObserver.run, bind, Except.bind, pure, Except.pure]
      rcases observe_cases profile refines indexed f with ⟨next, step, refines'⟩ |
        ⟨fault, devOnly, step⟩
      · rw [step]
        rcases ih refines' with ⟨after, rest, refines''⟩ | ⟨fault, devOnly, rest⟩
        · simp only [rest]
          exact Or.inl ⟨after, rfl, refines''⟩
        · simp only [rest]
          exact Or.inr ⟨fault, devOnly, rfl⟩
      · rw [step]
        exact Or.inr ⟨fault, devOnly, rfl⟩

theorem run_new_cases {CAP : Nat} (positive : 0 < CAP) (profile : Profile)
    {manifest : DependencyManifest} (indexed : manifest.Indexed)
    (frames : List DecodedFieldbusFrame) :
    (∃ after, (CausalGraphObserver.new manifest : CausalGraphObserver CAP).run profile frames =
        .ok (after, analyses manifest.record manifest (List.take CAP) [] frames) ∧
      Refines after manifest (historyOf manifest.record [] frames)) ∨
    ∃ fault, DevOnly profile fault ∧
      (CausalGraphObserver.new manifest : CausalGraphObserver CAP).run profile frames =
        .error fault :=
  run_cases profile (refines_new positive manifest) indexed frames

theorem run_new_ok {CAP : Nat} (positive : 0 < CAP) {manifest : DependencyManifest}
    (indexed : manifest.Indexed) (frames : List DecodedFieldbusFrame) :
    ∃ after, (CausalGraphObserver.new manifest : CausalGraphObserver CAP).run .release frames =
        .ok (after, analyses manifest.record manifest (List.take CAP) [] frames) ∧
      Refines after manifest (historyOf manifest.record [] frames) := by
  rcases run_new_cases positive .release indexed frames with done | ⟨fault, ⟨dev, -⟩, -⟩
  · exact done
  · cases dev

section Reports
variable {ι : Type} {step : History → ι → History × Option StateTransition}
  (manifest : DependencyManifest)

theorem historyOf_concat (history : History) (inputs : List ι) (x : ι) :
    historyOf step history (inputs ++ [x]) = (step (historyOf step history inputs) x).1 := by
  simp [historyOf]

theorem analyses_getElem? (keep : History → History) (history : History) (inputs : List ι)
    (i : Nat) : (analyses step manifest keep history inputs)[i]? = inputs[i]?.map fun x =>
      (step (historyOf step history (inputs.take i)) x).2.map
        (attribution manifest (keep (historyOf step history (inputs.take (i + 1))))) := by
  induction inputs generalizing history i with
  | nil => simp [analyses]
  | cons x inputs ih =>
      cases i with
      | zero => simp [analyses, historyOf]
      | succ i =>
          simp only [analyses, List.getElem?_cons_succ, ih, historyOf, List.take_succ_cons,
            List.foldl_cons]

@[simp] theorem length_analyses (keep : History → History) (history : History)
    (inputs : List ι) : (analyses step manifest keep history inputs).length = inputs.length := by
  induction inputs generalizing history with
  | nil => rfl
  | cons x inputs ih => simp [analyses, ih]

theorem record_some {history : History} {f : DecodedFieldbusFrame} {trip : StateTransition}
    (tripped : (manifest.record history f).2 = some trip) :
    (manifest.record history f).1 = trip :: history := by
  unfold DependencyManifest.record at tripped ⊢
  cases assigned : manifest.assign f with
  | none => simp [assigned] at tripped
  | some found =>
      simp only [assigned, Option.ite_none_right_eq_some, Option.some.injEq] at tripped
      simp only [tripped.2]

theorem analysis_at {keep : History → History} {frames : List DecodedFieldbusFrame} {i : Nat}
    {analysis : TripAnalysis}
    (reported : (analyses manifest.record manifest keep [] frames)[i]? = some (some analysis)) :
    ∃ trip before, historyOf manifest.record [] (frames.take (i + 1)) = trip :: before ∧
      analysis = attribution manifest (keep (trip :: before)) trip := by
  rw [analyses_getElem?] at reported
  obtain ⟨f, at_, result⟩ := Option.map_eq_some_iff.mp reported
  obtain ⟨trip, tripped, rfl⟩ := Option.map_eq_some_iff.mp result
  have history : historyOf manifest.record [] (frames.take (i + 1)) =
      trip :: historyOf manifest.record [] (frames.take i) := by
    rw [← record_some manifest tripped, List.take_add_one, at_]
    exact historyOf_concat [] _ f
  exact ⟨trip, _, history, by rw [history]⟩

theorem historyOf_eq (frames : List DecodedFieldbusFrame) :
    historyOf manifest.record [] frames = (manifest.transitions frames).reverse := by
  induction frames using List.reverseRecOn with
  | nil => rfl
  | append_singleton frames f ih =>
      rw [historyOf_concat, ih]
      unfold DependencyManifest.transitions DependencyManifest.record
      cases assigned : manifest.assign f with
      | none => simp [assigned]
      | some found => simp [assigned, transitionOf, List.mapIdx_append]

theorem recorded_at {frames : List DecodedFieldbusFrame} {newer before : History}
    {t : StateTransition} (occurs : historyOf manifest.record [] frames = newer ++ t :: before) :
    ∃ i f node interlock, frames[i]? = some f ∧ manifest.assign f = some (node, interlock) ∧
      before = historyOf manifest.record [] (frames.take i) ∧
      t = transitionOf before f node interlock := by
  induction frames using List.reverseRecOn generalizing newer with
  | nil => simp [historyOf] at occurs
  | append_singleton frames f ih =>
      have earlier : ∀ newer, historyOf manifest.record [] frames = newer ++ t :: before →
          ∃ i g node interlock, (frames ++ [f])[i]? = some g ∧
            manifest.assign g = some (node, interlock) ∧
            before = historyOf manifest.record [] ((frames ++ [f]).take i) ∧
            t = transitionOf before g node interlock := by
        intro newer occurs
        obtain ⟨i, g, node, interlock, at_, assigned, rest, same⟩ := ih occurs
        have inside : i < frames.length := (List.getElem?_eq_some_iff.mp at_).1
        refine ⟨i, g, node, interlock, ?_, assigned, ?_, same⟩
        · rwa [List.getElem?_append_left inside]
        · rwa [List.take_append_of_le_length inside.le]
      rw [historyOf_concat, DependencyManifest.record] at occurs
      cases assigned : manifest.assign f with
      | none =>
          rw [assigned] at occurs
          exact earlier newer occurs
      | some found =>
          rw [assigned] at occurs
          cases newer with
          | cons head newer => exact earlier newer (List.cons.inj occurs).2
          | nil =>
              obtain ⟨now, rest⟩ := List.cons.inj occurs
              refine ⟨frames.length, f, found.1, found.2, by simp, assigned, ?_, ?_⟩
              · simp [← rest]
              · rw [← now, ← rest]

end Reports

end Proof
end CausalWorks
