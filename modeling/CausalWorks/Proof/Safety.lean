import CausalWorks.Proof.Accepted

/-!
# When an accepted manifest runs without faults

The `dev` profile checks every index, shift and sum, so a run that completes under it has none out
of range. Validation bounds the budgets but not the bit indices: those decide, with the width of
the sequence counter.
-/

namespace CausalWorks

def ManifestCfg.ReadsBits (self : ManifestCfg) (f : DecodedFieldbusFrame) : Prop :=
  ∀ n ∈ self.nodes, ∀ frameId bitIndex interlockBit rawStatusByte,
    n.matcher = .profinet frameId bitIndex →
    f.proto = .profinetIrt frameId interlockBit rawStatusByte → bitIndex < 8

def ReadsDeclaredBit (cfg : ManifestCfg) (f : DecodedFieldbusFrame) (id : NodeId)
    (level : Bool) : Prop :=
  ∃ n ∈ cfg.nodes, n.id = id ∧ ∃ frameId bitIndex interlockBit rawStatusByte,
    n.matcher = .profinet frameId bitIndex ∧
    f.proto = .profinetIrt frameId interlockBit rawStatusByte ∧ bitIndex < 8 ∧
    level = rawStatusByte.toNat.testBit bitIndex.toNat

structure NeverFaults (cfg : ManifestCfg) (frames : List DecodedFieldbusFrame) : Prop where
  completes : ∀ order m profile CAP, cfg.build order = .ok m → 0 < CAP → ∃ s results,
    (CausalGraphObserver.new m : CausalGraphObserver CAP).run profile frames =
      .ok (s, results) ∧ s.ring.head < CAP
  reads : ∀ order m profile, cfg.build order = .ok m → ∀ f ∈ frames, ∀ id level,
    m.classify profile f = .ok (some (id, some level)) → ReadsDeclaredBit cfg f id level
  divisors : ∀ order m, cfg.build order = .ok m → ∀ e ∈ m.edges, e.wcetNs ≠ 0

def Cell.wideCfg : ManifestCfg :=
  { nodes := [⟨plc, .profinet 0x0002 8⟩], edges := [], tripNode := plc }

namespace Proof
variable {order : IterationOrder} {cfg : ManifestCfg} {m : DependencyManifest}

theorem shifted_bit (byte index : UInt8) (small : index < 8) :
    (byte >>> index &&& 0x01 != 0) = byte.toNat.testBit index.toNat := by
  have amount : index.toNat % 8 = index.toNat := Nat.mod_eq_of_lt (UInt8.lt_iff_toNat_lt.mp small)
  have value : (byte >>> index &&& 0x01).toNat = 1 &&& byte.toNat >>> index.toNat := by
    rw [UInt8.toNat_and, UInt8.toNat_shiftRight, amount, Nat.and_comm]
    rfl
  rw [Nat.testBit, ← value, Bool.eq_iff_iff, bne_iff_ne, bne_iff_ne, ne_eq, ne_eq,
    ← UInt8.toNat_inj]
  rfl

theorem matchesFrame_ok_of_readsBits (profile : Profile) {f : DecodedFieldbusFrame}
    (reads : cfg.ReadsBits f) {n : NodeCfg} (declared : n ∈ cfg.nodes) :
    n.matcher.into.matchesFrame profile f = .ok (n.matcher.into.claim f) := by
  cases kind : n.matcher with
  | ros2Port | fanucPose => exact matchesFrame_ok (fun _ _ other => by cases other) f
  | profinet frameId bitIndex =>
      cases proto : f.proto with
      | ros2Udp | fanucUdp | s7commArrival =>
          simp [NodeMatcherCfg.into, NodeMatcher.matchesFrame, NodeMatcher.claim, proto]
      | profinetIrt fid interlockBit rawStatusByte =>
          by_cases here : frameId = fid
          · subst here
            have small := reads n declared _ _ _ _ kind proto
            exact matchesFrame_of_lt profile (fun _ _ same => by cases same; exact small) f
          · simp [NodeMatcherCfg.into, NodeMatcher.matchesFrame, NodeMatcher.claim, proto, here]

theorem classify_ok_of_readsBits (profile : Profile) (built : cfg.Built m)
    {f : DecodedFieldbusFrame} (reads : cfg.ReadsBits f) :
    m.classify profile f = .ok (m.assign f) := by
  apply classifyEntries_ok
  rintro ⟨id, matcher⟩ entry
  obtain ⟨n, declared, -, rfl⟩ := (mem_entries built).mp entry
  exact matchesFrame_ok_of_readsBits profile reads declared

theorem readsBits_of_classify (accepted : cfg.build order = .ok m) {f : DecodedFieldbusFrame}
    (classified : ∀ order m, cfg.build order = .ok m → ∃ found, m.classify .dev f = .ok found) :
    cfg.ReadsBits f := by
  intro n declared frameId bitIndex interlockBit rawStatusByte kind proto
  by_contra large
  obtain ⟨m', accepted'⟩ := build_any (.headed n.id) accepted
  obtain ⟨rest, entries⟩ := headed_entries declared accepted'
  obtain ⟨found, done⟩ := classified _ m' accepted'
  rw [UInt8.not_lt] at large
  simp [DependencyManifest.classify, entries, classifyEntries, kind, NodeMatcherCfg.into,
    NodeMatcher.matchesFrame, proto, Profile.shrU8, Profile.overflowChecks, large, bind,
    Except.bind] at done

theorem length_record (history : History) (f : DecodedFieldbusFrame) :
    (m.record history f).1.length = history.length + if (m.assign f).isSome then 1 else 0 := by
  unfold DependencyManifest.record
  cases m.assign f <;> simp

theorem observe_dev_ok {CAP : Nat} {s : CausalGraphObserver CAP} {history : History}
    (refines : Refines s m history) (indexed : m.Indexed) (fits : history.length < 2 ^ 64)
    (f : DecodedFieldbusFrame) (classified : m.classify .dev f = .ok (m.assign f)) :
    (∃ after result, s.observe .dev f = .ok (after, result) ∧
      Refines after m (m.record history f).1 ∧ (m.record history f).1.length < 2 ^ 64) ∨
    s.observe .dev f = .error .addOverflow ∧ (m.assign f).isSome ∧ history.length + 1 = 2 ^ 64 := by
  have counter : s.seq.toNat = history.length := by
    rw [refines.seq]
    exact Nat.mod_eq_of_lt fits
  rw [length_record]
  by_cases room : history.length + 1 < 2 ^ 64
  · have counts : Profile.dev.addU64 s.seq 1 = .ok (s.seq + 1) := by
      apply addU64_of_lt
      rw [counter, UInt64.toNat_one]
      exact room
    obtain ⟨after, step, refines'⟩ := observe_ok refines indexed f classified fun _ => counts
    refine Or.inl ⟨after, _, step, refines', ?_⟩
    split <;> omega
  · cases assigned : m.assign f with
    | none =>
        obtain ⟨after, step, refines'⟩ := observe_ok refines indexed f classified fun claimed =>
          absurd assigned claimed
        exact Or.inl ⟨after, _, step, refines', by simpa using fits⟩
    | some found =>
        have overflow : Profile.dev.addU64 s.seq 1 = .error .addOverflow := by
          unfold Profile.addU64
          rw [counter, UInt64.toNat_one, if_pos ⟨rfl, by omega⟩]
        refine Or.inr ⟨?_, rfl, by omega⟩
        simp [CausalGraphObserver.observe, refines.manifest_eq, classified, assigned, overflow,
          bind, Except.bind]

theorem run_dev_ok {CAP : Nat} {s : CausalGraphObserver CAP} {history : History}
    (refines : Refines s m history) (indexed : m.Indexed) (fits : history.length < 2 ^ 64)
    (frames : List DecodedFieldbusFrame) : (∃ done, s.run .dev frames = .ok done) ↔
      (∀ f ∈ frames, m.classify .dev f = .ok (m.assign f)) ∧
      history.length + frames.countP (fun f => (m.assign f).isSome) < 2 ^ 64 := by
  induction frames generalizing s history with
  | nil => simpa [CausalGraphObserver.run] using fits
  | cons f frames ih =>
      simp only [CausalGraphObserver.run, bind, Except.bind, pure, Except.pure,
        List.forall_mem_cons, List.countP_cons]
      rcases classify_cases .dev m f with classified | ⟨-, overflow⟩
      · rcases observe_dev_ok refines indexed fits f classified with
          ⟨after, result, step, refines', fits'⟩ | ⟨overflow, assigned, full⟩
        · have rest := ih refines' fits'
          rw [length_record] at rest
          rw [step]
          constructor
          · rintro ⟨done, run⟩
            obtain ⟨all, count⟩ := rest.mp (by
              cases tail : after.run .dev frames with
              | ok pair => exact ⟨pair, rfl⟩
              | error fault => simp [tail] at run)
            exact ⟨⟨classified, all⟩, by omega⟩
          · rintro ⟨⟨-, all⟩, count⟩
            obtain ⟨pair, tail⟩ := rest.mpr ⟨all, by omega⟩
            exact ⟨_, by simp only [tail]; rfl⟩
        · rw [overflow]
          constructor
          · simp
          · rintro ⟨-, count⟩
            rw [if_pos assigned] at count
            omega
      · have stops : s.observe .dev f = .error .shiftOverflow := by
          simp [CausalGraphObserver.observe, refines.manifest_eq, overflow, bind, Except.bind]
        rw [stops, overflow]
        simp

theorem run_new_dev_ok {CAP : Nat} (positive : 0 < CAP) (indexed : m.Indexed)
    (frames : List DecodedFieldbusFrame) :
    (∃ done, (CausalGraphObserver.new m : CausalGraphObserver CAP).run .dev frames = .ok done) ↔
      (∀ f ∈ frames, m.classify .dev f = .ok (m.assign f)) ∧
      frames.countP (fun f => (m.assign f).isSome) < 2 ^ 64 := by
  have run := run_dev_ok (refines_new positive m) indexed (by decide) frames
  rwa [List.length_nil, Nat.zero_add] at run

theorem classified_reads (built : cfg.Built m) {f : DecodedFieldbusFrame}
    (reads : cfg.ReadsBits f) (profile : Profile) {id : NodeId} {level : Bool}
    (classified : m.classify profile f = .ok (some (id, some level))) :
    ReadsDeclaredBit cfg f id level := by
  rw [classify_ok_of_readsBits profile built reads, Except.ok.injEq] at classified
  obtain ⟨⟨_, matcher⟩, entry, claims⟩ := List.exists_of_findSome?_eq_some classified
  obtain ⟨n, declared, rfl, rfl⟩ := (mem_entries built).mp entry
  obtain ⟨reading, claim, same⟩ := Option.map_eq_some_iff.mp claims
  obtain ⟨rfl, rfl⟩ := Prod.mk.inj same
  refine ⟨n, declared, rfl, ?_⟩
  unfold NodeMatcher.claim at claim
  cases kind : n.matcher with
  | ros2Port | fanucPose =>
      cases proto : f.proto <;> simp [kind, proto, NodeMatcherCfg.into] at claim
  | profinet frameId bitIndex =>
      cases proto : f.proto with
      | ros2Udp | fanucUdp | s7commArrival => simp [kind, proto, NodeMatcherCfg.into] at claim
      | profinetIrt fid interlockBit rawStatusByte =>
          simp only [kind, proto, NodeMatcherCfg.into, Option.ite_none_right_eq_some,
            Option.some.injEq] at claim
          obtain ⟨rfl, rfl⟩ := claim
          have small := reads n declared _ _ _ _ kind proto
          exact ⟨_, _, _, _, rfl, rfl, small, shifted_bit rawStatusByte bitIndex small⟩

theorem never_faults_iff (accepted : cfg.build order = .ok m)
    (frames : List DecodedFieldbusFrame) : NeverFaults cfg frames ↔
      (∀ f ∈ frames, cfg.ReadsBits f) ∧ frames.countP cfg.claims < 2 ^ 64 := by
  have claims : ∀ order m, cfg.build order = .ok m →
      (fun f => (m.assign f).isSome) = cfg.claims := fun order m accepted =>
    funext fun f => assign_isSome (built_of_build accepted) f
  constructor
  · intro safe
    have runs : ∀ order m, cfg.build order = .ok m →
        (∀ f ∈ frames, m.classify .dev f = .ok (m.assign f)) ∧
          frames.countP cfg.claims < 2 ^ 64 := by
      intro order m accepted
      obtain ⟨s, results, done, -⟩ := safe.completes order m .dev 1 accepted (by decide)
      rw [← claims order m accepted]
      exact (run_new_dev_ok (by decide) (indexed_of_build accepted) frames).mp ⟨_, done⟩
    refine ⟨fun f member => ?_, (runs order m accepted).2⟩
    exact readsBits_of_classify accepted fun order m accepted =>
      ⟨_, (runs order m accepted).1 f member⟩
  · rintro ⟨reads, few⟩
    constructor
    · intro order m profile CAP accepted positive
      have indexed := indexed_of_build accepted
      have ends : ∃ done, (CausalGraphObserver.new m : CausalGraphObserver CAP).run profile frames =
          .ok done := by
        cases profile with
        | release =>
            obtain ⟨after, done, -⟩ := run_new_ok positive indexed frames
            exact ⟨_, done⟩
        | dev =>
            refine (run_new_dev_ok positive indexed frames).mpr ⟨fun f member => ?_, ?_⟩
            · exact classify_ok_of_readsBits .dev (built_of_build accepted) (reads f member)
            · rwa [claims order m accepted]
      rcases run_new_cases positive profile indexed frames with ⟨after, done, refines⟩ |
        ⟨fault, -, failed⟩
      · exact ⟨after, _, done, refines.ring.head_lt⟩
      · obtain ⟨done, completed⟩ := ends
        rw [completed] at failed
        cases failed
    · intro order m profile accepted f member id level classified
      exact classified_reads (built_of_build accepted) (reads f member) profile classified
    · intro order m accepted e member
      rw [(built_of_build accepted).edges] at member
      obtain ⟨declared, inside, rfl⟩ := List.mem_map.mp member
      have budget := (wellFormed_of_build accepted).budgets declared inside
      intro zero
      rw [show declared.wcetNs = 0 from zero] at budget
      exact absurd budget.1 (by decide)

theorem cell_readsBits (f : DecodedFieldbusFrame) : Cell.cfg.ReadsBits f := by
  intro n declared frameId bitIndex interlockBit rawStatusByte kind proto
  simp only [Cell.cfg, List.mem_cons, List.not_mem_nil, or_false] at declared
  rcases declared with rfl | rfl | rfl <;> cases kind
  decide

theorem never_faults_cell : NeverFaults Cell.cfg Cell.jitter :=
  (never_faults_iff Cell.build_cfg Cell.jitter).mpr
    ⟨fun f _ => cell_readsBits f, by decide⟩

theorem bit_eight_faults : ∃ m, Cell.wideCfg.build .declared = .ok m ∧
    runResults 4 .dev m [Cell.plcAt 0 true] = .error .shiftOverflow ∧
    m.classify .release (Cell.plcAt 0 true) = .ok (some (Cell.plc, some true)) ∧
    ¬ NeverFaults Cell.wideCfg [Cell.plcAt 0 true] := by
  refine ⟨_, by rfl, by rfl, by rfl, fun safe => ?_⟩
  obtain ⟨s, results, done, -⟩ := safe.completes .declared _ .dev 4 (by rfl) (by decide)
  cases done

end Proof
end CausalWorks
