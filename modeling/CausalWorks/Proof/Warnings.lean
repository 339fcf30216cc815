import CausalWorks.Proof.Capacity
import CausalWorks.Proof.Lint
import CausalWorks.Proof.Reports

/-!
# What the warnings of lint mean

Each warning is a fact of the manifest, and tells something of every run: an orphan has no part in
any finding, and over a capture in microseconds an edge with a tight budget is always to blame.
-/

namespace CausalWorks

structure ManifestCfg.LintExact (self : ManifestCfg) (order : IterationOrder) : Prop where
  unreachable : ∀ id, .tripNodeUnreachable id ∈ self.lint order ↔
    id = self.tripNode ∧ ∀ e ∈ self.edges, e.edgeTo ≠ self.tripNode
  orphan : ∀ id, .orphanNode id ∈ self.lint order ↔
    id ∈ self.ids ∧ ∀ e ∈ self.edges, e.edgeFrom ≠ id ∧ e.edgeTo ≠ id
  tight : ∀ edgeFrom edgeTo wcetNs,
    .suspiciouslyTightBudget edgeFrom edgeTo wcetNs ∈ self.lint order ↔
      ⟨edgeFrom, edgeTo, wcetNs⟩ ∈ self.edges ∧ wcetNs < 1000

def heldAt (CAP : Nat) (manifest : DependencyManifest) (packets : List Packet) (i : Nat) :
    History :=
  (historyOf manifest.capture [] (packets.take (i + 1))).take CAP

structure ManifestCfg.LintMeans (self : ManifestCfg) (order : IterationOrder) (profile : Profile)
    (manifest : DependencyManifest) : Prop extends self.LintExact order where
  inert : ∀ id, .orphanNode id ∈ self.lint order → ∀ CAP packets results, 0 < CAP →
    replayResults CAP profile manifest packets = .ok results →
    ∀ (i : Nat) analysis, results[i]? = some (some analysis) → ∀ c ∈ analysis.rankedCatalysts,
      c.trigger.node ≠ id ∧ c.effect.node ≠ id
  noise : ∀ edgeFrom edgeTo wcetNs,
    .suspiciouslyTightBudget edgeFrom edgeTo wcetNs ∈ self.lint order →
    ∀ fmt bytes frames ending, Reads fmt bytes frames ending → fmt.nanos = false →
    ∀ CAP results, 0 < CAP →
    replayResults CAP profile manifest (frames.map Prod.fst) = .ok results →
    ∀ (i : Nat) analysis, results[i]? = some (some analysis) →
      ∀ x ∈ examined manifest (heldAt CAP manifest (frames.map Prod.fst) i) analysis.tripEvent,
      ∀ l ∈ linksInto manifest (heldAt CAP manifest (frames.map Prod.fst) i) x,
        l.edge = ⟨edgeFrom, edgeTo, wcetNs⟩ → l.catalyst ∈ analysis.rankedCatalysts

def Cell.tightCfg : ManifestCfg := { cfg with edges := [⟨fanuc, plc, 500⟩] }

namespace Proof
open ManifestCfg
variable {profile : Profile} {order : IterationOrder} {cfg : ManifestCfg}
  {manifest : DependencyManifest} {window : History} {trip : StateTransition}

theorem orphan_iff {id : NodeId} : .orphanNode id ∈ cfg.lint order ↔
    id ∈ cfg.ids ∧ ∀ e ∈ cfg.edges, e.edgeFrom ≠ id ∧ e.edgeTo ≠ id := by
  have into := countEnd_foldl EdgeCfg.edgeTo cfg.edges (fun _ => none)
  have out := countEnd_foldl EdgeCfg.edgeFrom cfg.edges (fun _ => none)
  unfold lint
  simp only [into, out, Option.getD_none, Nat.zero_add]
  rw [List.mem_append, List.mem_append]
  constructor
  · rintro ((unreachable | orphan) | tight)
    · split at unreachable
      · cases List.mem_singleton.mp unreachable
      · cases unreachable
    · obtain ⟨id', listed, warned⟩ := List.mem_filterMap.mp orphan
      split at warned
      · rename_i alone
        obtain rfl := ManifestWarning.orphanNode.inj (Option.some.inj warned)
        simp only [Bool.and_eq_true, Bool.not_eq_true', decide_eq_false_iff_not, Nat.not_lt,
          Nat.le_zero, List.countP_eq_zero, decide_eq_true_eq] at alone
        refine ⟨List.mem_dedup.mp ((order.starts_perm _).mem_iff.mp listed), fun e declared => ?_⟩
        exact ⟨alone.2 e declared, alone.1 e declared⟩
      · cases warned
    · obtain ⟨e, -, warned⟩ := List.mem_filterMap.mp tight
      split at warned
      · cases Option.some.inj warned
      · cases warned
  · rintro ⟨declared, alone⟩
    left
    right
    refine List.mem_filterMap.mpr
      ⟨id, (order.starts_perm _).mem_iff.mpr (List.mem_dedup.mpr declared), if_pos ?_⟩
    simp only [Bool.and_eq_true, Bool.not_eq_true', decide_eq_false_iff_not, Nat.not_lt,
      Nat.le_zero, List.countP_eq_zero, decide_eq_true_eq]
    exact ⟨fun e edge => (alone e edge).2, fun e edge => (alone e edge).1⟩

theorem tight_iff {edgeFrom edgeTo : NodeId} {wcetNs : UInt64} :
    .suspiciouslyTightBudget edgeFrom edgeTo wcetNs ∈ cfg.lint order ↔
      ⟨edgeFrom, edgeTo, wcetNs⟩ ∈ cfg.edges ∧ wcetNs < 1000 := by
  unfold lint
  dsimp only
  rw [List.mem_append, List.mem_append]
  constructor
  · rintro ((unreachable | orphan) | tight)
    · split at unreachable
      · cases List.mem_singleton.mp unreachable
      · cases unreachable
    · obtain ⟨id, -, warned⟩ := List.mem_filterMap.mp orphan
      split at warned
      · cases Option.some.inj warned
      · cases warned
    · obtain ⟨e, declared, warned⟩ := List.mem_filterMap.mp tight
      split at warned
      · rename_i small
        obtain ⟨rfl, rfl, rfl⟩ :=
          ManifestWarning.suspiciouslyTightBudget.inj (Option.some.inj warned)
        exact ⟨declared, small⟩
      · cases warned
  · rintro ⟨declared, small⟩
    exact Or.inr (List.mem_filterMap.mpr ⟨_, declared, if_pos small⟩)

theorem lint_exact : cfg.LintExact order :=
  ⟨fun _ => unreachable_iff, fun _ => orphan_iff, fun _ _ _ => tight_iff⟩

theorem replayed_analysis {CAP : Nat} (positive : 0 < CAP) (indexed : manifest.Indexed)
    {packets : List Packet} {results : List (Option TripAnalysis)}
    (done : replayResults CAP profile manifest packets = .ok results) {i : Nat}
    {analysis : TripAnalysis} (reported : results[i]? = some (some analysis)) :
    (∃ packet, packets[i]? = some packet ∧ analysis.tripEvent.tsNs = packet.1) ∧
      analysis.tripEvent ∈ heldAt CAP manifest packets i ∧
      analysis = attribution manifest (heldAt CAP manifest packets i) analysis.tripEvent := by
  rw [replayResults_eq positive indexed done, analyses_getElem?] at reported
  obtain ⟨packet, at_, result⟩ := Option.map_eq_some_iff.mp reported
  obtain ⟨trip, tripped, rfl⟩ := Option.map_eq_some_iff.mp result
  rcases capture_cases manifest (historyOf manifest.capture [] (packets.take i)) packet with
    same | ⟨t, -, time, pushed, trips⟩
  · rw [same] at tripped
    cases tripped
  · obtain rfl := trips trip tripped
    refine ⟨⟨packet, at_, time⟩, ?_, rfl⟩
    unfold heldAt
    rw [List.take_add_one, at_, Option.toList_some, historyOf_concat, pushed]
    obtain ⟨n, rfl⟩ := Nat.exists_eq_succ_of_ne_zero positive.ne'
    exact List.mem_cons_self

theorem orphan_inert (accepted : cfg.build order = .ok manifest) {id : NodeId}
    (warned : .orphanNode id ∈ cfg.lint order) {c : CandidateCatalyst}
    (blamed : c ∈ (attribution manifest window trip).rankedCatalysts) :
    c.trigger.node ≠ id ∧ c.effect.node ≠ id := by
  obtain ⟨l, reported, rfl⟩ := mem_rankedCatalysts.mp blamed
  obtain ⟨-, link, -⟩ := mem_violations_iff.mp reported
  obtain ⟨declared, into, -, found⟩ := mem_linksInto.mp link
  rw [(built_of_build accepted).edges] at declared
  obtain ⟨e, member, same⟩ := List.mem_map.mp declared
  have apart := (orphan_iff.mp warned).2 e member
  rw [← same] at into found
  refine ⟨?_, ?_⟩
  · rw [show l.catalyst.trigger.node = e.edgeFrom from (lastBefore_some found).2.1]
    exact apart.1
  · rw [show l.catalyst.effect.node = e.edgeTo from into.symm]
    exact apart.2

theorem reads_micros {fmt : PcapFormat} {bytes : List UInt8} {frames : List (Packet × Bool)}
    {ending : Front} (reads : Reads fmt bytes frames ending) (micros : fmt.nanos = false) :
    ∀ packet ∈ frames.map Prod.fst, packet.1.toNat % 1000 = 0 := by
  induction reads with
  | stop => exact fun _ member => absurd member List.not_mem_nil
  | next is reads ih =>
      obtain ⟨-, -, rfl, -⟩ := front_record_iff.mp is
      rw [List.map_cons]
      refine List.forall_mem_cons.mpr ⟨?_, ih⟩
      have small := recordTime_small fmt.nanos
      rw [UInt64.toNat_ofNat_of_lt' ((small _ _).trans (by decide)), recordTime, micros,
        if_neg Bool.false_ne_true]
      omega

theorem linked_micros {CAP : Nat} {packets : List Packet}
    (micros : ∀ packet ∈ packets, packet.1.toNat % 1000 = 0) {i : Nat} {effect : StateTransition}
    (recent : effect ∈ heldAt CAP manifest packets i) {l : CausalLink}
    (link : l ∈ linksInto manifest (heldAt CAP manifest packets i) effect) : 1000 ≤ l.dt.toNat := by
  have times := @historyOf_times manifest (packets.take (i + 1)) (fun ts => ts.toNat % 1000 = 0)
    fun packet member => micros packet (List.mem_of_mem_take member)
  obtain ⟨-, -, same, found⟩ := mem_linksInto.mp link
  obtain ⟨recent', -, older⟩ := lastBefore_some found
  have trigger := times l.trigger (List.mem_of_mem_take recent')
  have effect_ := times effect (List.mem_of_mem_take recent)
  have apart := dt_exact link
  rw [same] at apart
  have before := UInt64.lt_iff_toNat_lt.mp older
  omega

theorem tight_blamed {fmt : PcapFormat} {bytes : List UInt8} {frames : List (Packet × Bool)}
    {ending : Front} (reads : Reads fmt bytes frames ending) (micros : fmt.nanos = false)
    {CAP : Nat} {i : Nat} {effect : StateTransition}
    (inside : trip ∈ heldAt CAP manifest (frames.map Prod.fst) i)
    (visited : effect ∈ examined manifest (heldAt CAP manifest (frames.map Prod.fst) i) trip)
    {l : CausalLink}
    (link : l ∈ linksInto manifest (heldAt CAP manifest (frames.map Prod.fst) i) effect)
    (tight : l.edge.wcetNs < 1000) : l.catalyst ∈
      (attribution manifest (heldAt CAP manifest (frames.map Prod.fst) i)
        trip).rankedCatalysts := by
  have recent := Reached.recent inside (examined_reached effect visited)
  have apart := linked_micros (reads_micros reads micros) recent link
  obtain ⟨-, -, same, -⟩ := mem_linksInto.mp link
  refine mem_rankedCatalysts.mpr ⟨l, mem_violations_iff.mpr ⟨same ▸ visited, same ▸ link, ?_⟩, rfl⟩
  exact UInt64.lt_iff_toNat_lt.mpr ((UInt64.lt_iff_toNat_lt.mp tight).trans_le apart)

theorem lint_means (accepted : cfg.build order = .ok manifest) (profile : Profile) :
    cfg.LintMeans order profile manifest := by
  have indexed := indexed_of_build accepted
  refine ⟨lint_exact, ?inert, ?noise⟩
  case inert =>
    intro id warned CAP packets results positive done i analysis reported c blamed
    obtain ⟨-, -, attributed⟩ := replayed_analysis positive indexed done reported
    rw [attributed] at blamed
    exact orphan_inert accepted warned blamed
  case noise =>
    intro edgeFrom edgeTo wcetNs warned fmt bytes frames ending reads micros CAP results positive
      done i analysis reported x visited l link same
    obtain ⟨-, inside, attributed⟩ := replayed_analysis positive indexed done reported
    rw [attributed]
    refine tight_blamed reads micros inside visited link ?_
    rw [same]
    exact (tight_iff.mp warned).2

theorem lint_means_tight : .orphanNode Cell.amr ∈ Cell.tightCfg.lint .declared ∧
    .suspiciouslyTightBudget Cell.fanuc Cell.plc 500 ∈ Cell.tightCfg.lint .declared ∧
    ∃ m, Cell.tightCfg.build .declared = .ok m ∧ Cell.tightCfg.LintMeans .declared .dev m :=
  ⟨by decide, by decide, _, rfl, lint_means rfl .dev⟩

end Proof
end CausalWorks
