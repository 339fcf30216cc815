import CausalWorks.Proof.Coverage
import CausalWorks.Proof.Overrun

/-!
# The verdict of preflight

The threshold is compared in binary64. Below `2 ^ 52` frames no rounding shows: the verdict is a gap
exactly when more than a fifth of the frames is rejected.
-/

namespace CausalWorks
open Binary64 Rounding Delivery

def rejects (packet : Packet) : Bool :=
  match parseFrame packet.1 packet.2 with
  | .ok _ => false
  | .error _ => true

/-- The verdict in integers: more than a fifth of the frames is rejected, or less. -/
def verdictOf (frames rejected : Nat) : PreflightVerdict :=
  if frames = 0 then .rejectedEmpty
  else if frames < 5 * rejected then .coverageGap
  else .analyzable

structure VerdictExact (bytes : List UInt8) (verdict : PreflightVerdict) : Prop where
  unreadable : (¬ ∃ fmt, 24 ≤ bytes.length ∧ magicOf (wordAt false bytes 0) = .classic fmt) →
    verdict = .rejectedFormat
      (decide (24 ≤ bytes.length ∧ magicOf (wordAt false bytes 0) = .pcapng))
  readable : ∀ fmt frames ending, 24 ≤ bytes.length →
    magicOf (wordAt false bytes 0) = .classic fmt → Reads fmt (bytes.drop 24) frames ending →
      frames.length < 2 ^ 52 →
        verdict = verdictOf frames.length ((frames.map Prod.fst).countP rejects)

namespace Proof
variable {s : PreflightStats}

theorem hundred_is : Is (Float.ofBits 0x4059000000000000) 100 :=
  ⟨0x19000000000000, -46, by decide, rfl, ⟨by decide, by decide, by decide, by decide⟩, by norm_num⟩

theorem threshold_is : Is coverageGapThreshold (rounded (1 / 5)) := by
  have twenty := @toFloat_is 20 (by decide)
  rw [show ((20 : UInt64).toNat : ℚ) = (20 : ℕ) from rfl,
    rounded_natCast (by decide) (by decide)] at twenty
  have fifth := div_is twenty hundred_is ⟨by norm_num, by norm_num⟩
  rw [show ((20 : ℕ) : ℚ) / 100 = 1 / 5 by norm_num] at fifth
  exact fifth

theorem zero_div_unpack {b : Float} {y : ℚ} (hb : Is b y) :
    ((0 : UInt64).toFloat / b).toModel.unpack = .zero .positive := by
  obtain ⟨m, e, p, unpack, -⟩ := hb
  have zero : (0 : UInt64).toFloat.toModel.unpack = .zero .positive := rfl
  rw [div_unpack, zero, unpack]
  exact zero_unpack

theorem fifth_lt_iff {unclassified total : ℕ} (some_ : 0 < unclassified) (positive : 0 < total)
    (few : total < 2 ^ 52) :
    rounded (1 / 5) < rounded (unclassified / total) ↔ total < 5 * unclassified := by
  have pt : (0 : ℚ) < total := by exact_mod_cast positive
  constructor
  · contrapose!
    intro covered
    have le : (5 : ℚ) * unclassified ≤ total := by exact_mod_cast covered
    refine rounded_mono (div_pos (by exact_mod_cast some_) pt) ?_
    rw [div_le_div_iff₀ pt (by norm_num)]
    linarith
  · intro more
    have scaleEq : scale (1 / 5 + 1 / (5 * 2 ^ 52)) = -55 :=
      scale_unique (by norm_num) (by norm_num)
    have apart : rounded (1 / 5) < rounded (1 / 5 + 1 / (5 * 2 ^ 52)) :=
      rounded_lt (by norm_num) (by rw [scaleEq]; norm_num)
    refine apart.trans_le (rounded_mono (by norm_num) ?_)
    have step : (total : ℚ) + 1 ≤ 5 * unclassified := by exact_mod_cast more
    have bound : (total : ℚ) / (5 * 2 ^ 52) ≤ 1 / 5 := by
      have few' : (total : ℚ) ≤ 2 ^ 52 := by exact_mod_cast few.le
      rw [div_le_div_iff₀ (by norm_num) (by norm_num)]
      linarith
    rw [le_div_iff₀ pt]
    calc (1 / 5 + 1 / (5 * 2 ^ 52) : ℚ) * total = total / 5 + total / (5 * 2 ^ 52) := by ring
      _ ≤ (unclassified : ℚ) := by linarith

theorem toFloat_exact {n : ℕ} (positive : 0 < n) (few : n < 2 ^ 52) :
    Is (UInt64.ofNat n).toFloat n := by
  have value : (UInt64.ofNat n).toNat = n :=
    UInt64.toNat_ofNat_of_lt' (few.trans (by decide))
  have is := @toFloat_is (.ofNat n) (by omega)
  rwa [value, rounded_natCast positive (few.trans (by norm_num))] at is

theorem gap_iff (few : s.total < 2 ^ 52) (inside : s.unclassified ≤ s.total)
    (positive : 0 < s.total) :
    coverageGapThreshold < s.unclassifiedFrac ↔ s.total < 5 * s.unclassified := by
  have total := toFloat_exact positive few
  rw [PreflightStats.unclassifiedFrac, if_neg positive.ne']
  rcases Nat.eq_zero_or_pos s.unclassified with none_ | some_
  · have nothing : ((UInt64.ofNat s.unclassified).toFloat /
        (UInt64.ofNat s.total).toFloat).toModel.unpack = .zero .positive := by
      rw [none_]
      exact zero_div_unpack total
    have above : ((0 : ℚ) : WithTop ℚ) < (rounded (1 / 5) : ℚ) :=
      WithTop.coe_lt_coe.mpr threshold_is.pos
    rw [(Measures.normal threshold_is).lt_iff (.zero nothing), none_]
    exact iff_of_false above.not_gt (by omega)
  · have small : ∀ {n : ℕ}, n < 2 ^ 52 → (n : ℚ) ≤ 2 ^ 64 := fun {n} small => by
      have : (n : ℚ) < 2 ^ 52 := by exact_mod_cast small
      linarith
    have quotient := div_is (toFloat_exact some_ (by omega)) total
      (moderate_div (by exact_mod_cast some_) (small (by omega)) (by exact_mod_cast positive)
        (small few))
    rw [(Measures.normal threshold_is).lt_iff (.normal quotient), WithTop.coe_lt_coe]
    exact fifth_lt_iff some_ positive few

theorem verdict_eq (few : s.total < 2 ^ 52) (inside : s.unclassified ≤ s.total) :
    s.verdict = verdictOf s.total s.unclassified := by
  unfold PreflightStats.verdict verdictOf
  split
  · rfl
  · rename_i some_
    by_cases more : s.total < 5 * s.unclassified
    · rw [if_pos ((gap_iff few inside (Nat.pos_of_ne_zero some_)).mpr more), if_pos more]
    · rw [if_neg (mt (gap_iff few inside (Nat.pos_of_ne_zero some_)).mp more), if_neg more]

theorem length_rejected (packets : List Packet) :
    (rejectedTypes packets).length = packets.countP rejects := by
  induction packets with
  | nil => rfl
  | cons packet packets ih =>
      rw [List.countP_cons, ← ih, rejects]
      rcases parseFrame_cases packet.1 packet.2 with ⟨proto, parsed⟩ | ⟨error, failed⟩
      · rw [rejectedTypes_ok packets parsed, parsed]
        rfl
      · rw [rejectedTypes_err packets failed, failed]
        rfl

theorem preflight_reads (profile : Profile) {bytes : List UInt8} {fmt : PcapFormat}
    {frames : List (Packet × Bool)} {ending : Front} (long : 24 ≤ bytes.length)
    (magic : magicOf (wordAt false bytes 0) = .classic fmt)
    (reads : Reads fmt (bytes.drop 24) frames ending) (schedule : List Response) {fuel : Nat}
    (enough : bytes.length < fuel) : ∃ stats,
      computePreflight profile fuel ⟨bytes, schedule⟩ = .ok (stats.verdict, stats) ∧
      stats.total = frames.length ∧
      stats.unclassified = (frames.map Prod.fst).countP rejects := by
  obtain ⟨s, accepted, at_⟩ := stream_opens long magic schedule
  have few : frames.length < fuel := by
    have size := reads_length reads
    rw [List.length_drop] at size
    omega
  obtain ⟨src, done, -⟩ := eachFrame_eq profile
    (PreflightScan.scanFrame : _ → _ → Except (Stop Empty) _) reads at_ fuel few {}
  rw [scan_eq] at done
  obtain ⟨total, -, unclassified, -, -⟩ := stats_eq (frames.map Prod.fst)
  refine ⟨((frames.map Prod.fst).foldl PreflightScan.scanned {}).finish src, ?_, ?_, ?_⟩
  · rw [computePreflight, accepted]
    simp only [done]
    rfl
  · exact total.trans (by simp)
  · exact unclassified.trans (by rw [length_rejected]; exact Nat.zero_add _)

theorem preflight_verdict_exact (profile : Profile) (bytes : List UInt8)
    (schedule : List Response) {fuel : Nat} (enough : bytes.length < fuel) : ∃ verdict stats,
      computePreflight profile fuel ⟨bytes, schedule⟩ = .ok (verdict, stats) ∧
      VerdictExact bytes verdict := by
  rcases new_cases ⟨bytes, schedule⟩ with ⟨short, failed⟩ | ⟨long, opens⟩
  · refine ⟨.rejectedFormat false, {}, by rw [computePreflight, failed]; rfl, ?_, ?_⟩
    · exact fun _ => by rw [decide_eq_false fun is => absurd is.1 (Nat.not_le.mpr short)]
    · exact fun _ _ _ long => absurd long (Nat.not_le.mpr short)
  · cases magic : magicOf (wordAt false bytes 0) with
    | pcapng =>
        rw [magic] at opens
        refine ⟨.rejectedFormat true, {}, by rw [computePreflight, opens]; rfl, ?_, ?_⟩
        · exact fun _ => by rw [decide_eq_true ⟨long, magic⟩]
        · exact fun _ _ _ _ classic => by cases magic.symm.trans classic
    | other word =>
        rw [magic] at opens
        refine ⟨.rejectedFormat false, {}, by rw [computePreflight, opens]; rfl, ?_, ?_⟩
        · have classic : ¬ (24 ≤ bytes.length ∧ magicOf (wordAt false bytes 0) = .pcapng) :=
            fun is => by cases magic.symm.trans is.2
          exact fun _ => by rw [decide_eq_false classic]
        · exact fun _ _ _ _ classic => by cases magic.symm.trans classic
    | classic fmt =>
        obtain ⟨frames, ending, reads⟩ := reads_total fmt (bytes.drop 24)
        obtain ⟨stats, done, -⟩ := preflight_reads profile long magic reads schedule enough
        refine ⟨stats.verdict, stats, done, fun none_ => absurd ⟨fmt, long, magic⟩ none_, ?_⟩
        intro fmt' frames ending _ magic' reads few
        obtain ⟨stats', done', total, unclassified⟩ :=
          preflight_reads profile long magic' reads schedule enough
        obtain ⟨-, rfl⟩ := Prod.mk.inj (Except.ok.inj (done.symm.trans done'))
        have inside : stats.unclassified ≤ stats.total := by
          rw [unclassified, total, ← List.length_map Prod.fst]
          exact List.countP_le_length
        rw [verdict_eq (total ▸ few) inside, total, unclassified]

theorem preflight_verdict_exact_body : ∃ verdict stats,
    computePreflight .dev 43 ⟨twoByteCapture, []⟩ = .ok (verdict, stats) ∧
      VerdictExact twoByteCapture verdict :=
  preflight_verdict_exact .dev twoByteCapture [] (by decide)

end Proof
end CausalWorks
