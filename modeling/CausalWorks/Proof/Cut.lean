import CausalWorks.Proof.Capture

/-!
# A capture that was cut short

Reading the first bytes of a capture yields the frames whose records are wholly there, and the
analyses of a replay are a prefix of those that the whole capture gives.
-/

namespace CausalWorks
open Delivery (Response)

def recordsLen (frames : List Packet) : Nat := (frames.map fun packet => 16 + packet.2.length).sum

def recordEnd (frames : List Packet) : Nat := 24 + recordsLen frames

def IsRecordBoundary (frames : List Packet) (k : Nat) : Prop :=
  ∃ n ≤ frames.length, recordEnd (frames.take n) = k

structure WholeWithin (k : Nat) (frames whole : List Packet) : Prop where
  leading : whole <+: frames
  within : recordEnd whole ≤ k
  all : ∀ n ≤ frames.length, recordEnd (frames.take n) ≤ k → n ≤ whole.length

structure DegradesToPrefix (profile : Profile) (k : Nat) (frames cut : List Packet)
    (last : StreamingPcapSource) : Prop where
  whole : WholeWithin k frames cut
  flagged : last.endedMidRecord = true ↔ ¬ IsRecordBoundary frames k
  analyses : ∀ (CAP : Nat) (manifest : DependencyManifest),
    (CausalGraphObserver.new manifest : CausalGraphObserver CAP).reports profile cut <+:
      (CausalGraphObserver.new manifest : CausalGraphObserver CAP).reports profile frames

namespace Proof
variable {fmt : PcapFormat} {bytes : List UInt8} {frames : List (Packet × Bool)} {ending : Front}
  {k : Nat}

def bodyLen (fmt : PcapFormat) (bytes : List UInt8) : Nat := (wordAt fmt.swapped bytes 8).toNat

theorem front_record_iff {packet : Packet} {cut : Bool} {rest : List UInt8} :
    front fmt bytes = .record packet cut rest ↔ 16 + bodyLen fmt bytes ≤ bytes.length ∧
      ¬ maxFrame < wordAt fmt.swapped bytes 8 ∧
      packet = (UInt64.ofNat (recordTime fmt.nanos (wordAt fmt.swapped bytes 0)
        (wordAt fmt.swapped bytes 4)), (bytes.drop 16).take (bodyLen fmt bytes)) ∧
      cut = decide (wordAt fmt.swapped bytes 8 < wordAt fmt.swapped bytes 12) ∧
      rest = bytes.drop (16 + bodyLen fmt bytes) := by
  unfold front bodyLen
  simp only
  by_cases empty : bytes = []
  · simp [empty]
  by_cases short : bytes.length < 16
  · simp only [if_neg empty, if_pos short, reduceCtorEq, false_iff]
    omega
  by_cases large : maxFrame < wordAt fmt.swapped bytes 8
  · simp [if_neg empty, if_neg short, large]
  by_cases missing : bytes.length - 16 < (wordAt fmt.swapped bytes 8).toNat
  · simp only [if_neg empty, if_neg short, if_neg large, if_pos missing, reduceCtorEq, false_iff]
    omega
  · simp only [if_neg empty, if_neg short, if_neg large, if_neg missing, Front.record.injEq]
    constructor
    · rintro ⟨rfl, rfl, rfl⟩
      exact ⟨by omega, large, rfl, rfl, rfl⟩
    · rintro ⟨-, -, rfl, rfl, rfl⟩
      exact ⟨rfl, rfl, rfl⟩

theorem front_take_cut (moderate : ¬ maxFrame < wordAt fmt.swapped bytes 8 ∨ k < 16)
    (le : k ≤ bytes.length) (cut : k < 16 + bodyLen fmt bytes) :
    (k = 0 ∧ front fmt (bytes.take k) = .finished) ∨
      0 < k ∧ (front fmt (bytes.take k)).isCut = true := by
  by_cases none_ : k = 0
  · subst none_
    exact Or.inl ⟨rfl, rfl⟩
  · right
    refine ⟨by omega, ?_⟩
    have length : (bytes.take k).length = k := List.length_take_of_le le
    have some_ : bytes.take k ≠ [] := by
      rw [← List.length_pos_iff]
      omega
    unfold front
    rw [if_neg some_, length]
    by_cases short : k < 16
    · rw [if_pos short]
      rfl
    · have same : wordAt fmt.swapped (bytes.take k) 8 = wordAt fmt.swapped bytes 8 :=
        wordAt_take _ _ (by omega)
      unfold bodyLen at cut
      simp only [if_neg short, same]
      rw [if_neg (moderate.resolve_right short), if_pos (by omega)]
      rfl

theorem record_length {packet : Packet} {cut : Bool} {rest : List UInt8}
    (is : front fmt bytes = .record packet cut rest) : packet.2.length = bodyLen fmt bytes := by
  obtain ⟨inside, -, rfl, -, -⟩ := front_record_iff.mp is
  rw [List.length_take, List.length_drop]
  omega

theorem front_take_record {packet : Packet} {cut : Bool} {rest : List UInt8}
    (is : front fmt bytes = .record packet cut rest) (le : k ≤ bytes.length)
    (within : 16 + packet.2.length ≤ k) :
    front fmt (bytes.take k) = .record packet cut (rest.take (k - (16 + packet.2.length))) := by
  have body := record_length is
  obtain ⟨inside, moderate, value, flag, rfl⟩ := front_record_iff.mp is
  have word : ∀ off ≤ 12, wordAt fmt.swapped (bytes.take k) off = wordAt fmt.swapped bytes off :=
    fun off small => wordAt_take _ _ (by omega)
  have same : bodyLen fmt (bytes.take k) = bodyLen fmt bytes := by
    rw [bodyLen, word 8 (by omega), bodyLen]
  rw [front_record_iff, same, word 0 (by omega), word 4 (by omega), word 8 (by omega),
    word 12 (by omega), List.length_take_of_le le, ← body]
  refine ⟨within, moderate, ?_, flag, ?_⟩
  · rw [List.drop_take, List.take_take, body, Nat.min_eq_left (by omega)]
    exact value
  · rw [List.drop_take]

theorem front_stop (last : (front fmt bytes).isRecord = false)
    (accepted : ∀ length, front fmt bytes ≠ .tooLong length) :
    bytes.length < 16 + bodyLen fmt bytes ∧
      (¬ maxFrame < wordAt fmt.swapped bytes 8 ∨ bytes.length < 16) := by
  unfold front at last accepted
  simp only at last accepted
  split at last
  · rename_i empty
    rw [empty]
    exact ⟨Nat.lt_of_lt_of_le (by decide : 0 < 16) (Nat.le_add_right _ _), Or.inr (by decide)⟩
  rename_i some_
  rw [if_neg some_] at accepted
  split at last
  · exact ⟨by omega, Or.inr (by assumption)⟩
  rename_i long
  rw [if_neg long] at accepted
  split at last
  · rename_i large
    rw [if_pos large] at accepted
    exact absurd rfl (accepted _)
  rename_i moderate
  split at last
  · unfold bodyLen
    exact ⟨by omega, Or.inl moderate⟩
  · cases last

theorem recordsLen_take (packet : Packet) (cut : Bool) (frames : List (Packet × Bool)) (n : Nat) :
    recordsLen ((((packet, cut) :: frames).take (n + 1)).map Prod.fst) =
      16 + packet.2.length + recordsLen ((frames.take n).map Prod.fst) := List.sum_cons

/-- What the first `k` bytes hold: the leading whole records, and a part of the next one. -/
structure HoldsFirst (fmt : PcapFormat) (bytes : List UInt8) (frames : List (Packet × Bool))
    (k n : Nat) (ending : Front) : Prop where
  few : n ≤ frames.length
  reads : Reads fmt (bytes.take k) (frames.take n) ending
  within : recordsLen ((frames.take n).map Prod.fst) ≤ k
  all : ∀ m ≤ frames.length, recordsLen ((frames.take m).map Prod.fst) ≤ k → m ≤ n
  ends : ending = .finished ∧ recordsLen ((frames.take n).map Prod.fst) = k ∨
    ending.isCut = true ∧ recordsLen ((frames.take n).map Prod.fst) ≠ k

theorem holdsFirst_none (le : k ≤ bytes.length) (cut : k < 16 + bodyLen fmt bytes)
    (moderate : ¬ maxFrame < wordAt fmt.swapped bytes 8 ∨ k < 16)
    (none_ : ∀ m ≤ frames.length, recordsLen ((frames.take m).map Prod.fst) ≤ k → m = 0) :
    HoldsFirst fmt bytes frames k 0 (front fmt (bytes.take k)) := by
  have stopped := front_take_cut moderate le cut
  have last : (front fmt (bytes.take k)).isRecord = false := by
    rcases stopped with ⟨-, is⟩ | ⟨-, is⟩
    · rw [is]
      rfl
    · cases here : front fmt (bytes.take k) with
      | record => rw [here] at is; cases is
      | finished | cutHeader | cutBody | tooLong => rfl
  refine ⟨Nat.zero_le _, .stop last, Nat.zero_le _, fun m few within => (none_ m few within).le,
    ?_⟩
  rcases stopped with ⟨rfl, is⟩ | ⟨positive, is⟩
  · exact Or.inl ⟨is, rfl⟩
  · exact Or.inr ⟨is, positive.ne⟩

theorem reads_take (reads : Reads fmt bytes frames ending)
    (accepted : ∀ length, ending ≠ .tooLong length) (le : k ≤ bytes.length) :
    ∃ n ending', HoldsFirst fmt bytes frames k n ending' := by
  induction reads generalizing k with
  | stop last =>
      obtain ⟨short, moderate⟩ := front_stop last accepted
      refine ⟨0, _, holdsFirst_none le (by omega) (moderate.imp_right fun small => by omega) ?_⟩
      intro m few _
      exact Nat.le_zero.mp few
  | @next bytes rest packet cut frames ending is reads ih =>
      have body := record_length is
      obtain ⟨inside, moderate, -, -, left⟩ := front_record_iff.mp is
      by_cases whole : 16 + packet.2.length ≤ k
      · obtain ⟨n, ending', few, reads', within, all, ends⟩ :=
          ih (k := k - (16 + packet.2.length)) accepted (by
            rw [left, List.length_drop]
            omega)
        refine ⟨n + 1, ending', ?_, ?_, ?_, ?_, ?_⟩
        · rw [List.length_cons]
          omega
        · rw [List.take_succ_cons]
          exact .next (front_take_record is le whole) reads'
        · rw [recordsLen_take]
          omega
        · intro m few' within'
          cases m with
          | zero => exact Nat.zero_le _
          | succ m =>
              rw [recordsLen_take] at within'
              have := all m (Nat.le_of_succ_le_succ few') (by omega)
              omega
        · rw [recordsLen_take]
          rcases ends with ⟨finished, exact_⟩ | ⟨cutShort, inexact⟩
          · exact Or.inl ⟨finished, by omega⟩
          · exact Or.inr ⟨cutShort, by omega⟩
      · refine ⟨0, _, holdsFirst_none le (by omega) (Or.inl moderate) ?_⟩
        intro m _ within
        cases m with
        | zero => rfl
        | succ m =>
            rw [recordsLen_take] at within
            omega

theorem recordsLen_mono (frames : List Packet) {m n : Nat} (le : m ≤ n) :
    recordsLen (frames.take m) ≤ recordsLen (frames.take n) := by
  have split := List.take_append_drop m (frames.take n)
  rw [List.take_take, Nat.min_eq_left le] at split
  rw [← split]
  simp only [recordsLen, List.map_append, List.sum_append]
  exact Nat.le_add_right _ _

theorem isRecordBoundary_iff {frames whole : List Packet} (leading : WholeWithin k frames whole) :
    IsRecordBoundary frames k ↔ recordEnd whole = k := by
  obtain ⟨leading, within, all⟩ := leading
  have taken : frames.take whole.length = whole := (List.prefix_iff_eq_take.mp leading).symm
  constructor
  · rintro ⟨m, few, ends⟩
    have later := recordsLen_mono frames (all m few ends.le)
    rw [taken] at later
    unfold recordEnd at *
    omega
  · intro ends
    refine ⟨whole.length, leading.length_le, ?_⟩
    rw [taken, ends]

section
variable {n : Nat} (holds : HoldsFirst fmt bytes frames (k - 24) n ending) (header : 24 ≤ k)
include holds header

theorem HoldsFirst.whole :
    WholeWithin k (frames.map Prod.fst) ((frames.take n).map Prod.fst) := by
  have within := holds.within
  constructor
  case leading =>
    rw [List.map_take]
    exact List.take_prefix _ _
  case within =>
    rw [recordEnd]
    omega
  case all =>
    intro m few inside
    rw [List.length_map] at few ⊢
    rw [← List.map_take, recordEnd] at inside
    rw [List.length_take_of_le holds.few]
    exact holds.all m few (by omega)

theorem HoldsFirst.isCut_iff :
    ending.isCut = true ↔ ¬ IsRecordBoundary (frames.map Prod.fst) k := by
  rw [isRecordBoundary_iff (holds.whole header), recordEnd]
  rcases holds.ends with ⟨rfl, exact_⟩ | ⟨cutShort, inexact⟩
  · simp only [Front.isCut, Bool.false_eq_true, false_iff, not_not]
    omega
  · simp only [cutShort, true_iff]
    omega

end

theorem drain_more {σ ε : Type} {nextFrame : σ → Except ε (Option Packet × σ)} {reader : σ}
    {last : Except ε σ} {fuel more : Nat} (done : (drain nextFrame fuel reader).2 = some last)
    (le : fuel ≤ more) : drain nextFrame more reader = drain nextFrame fuel reader := by
  induction fuel generalizing reader more with
  | zero => cases done
  | succ fuel ih =>
      obtain ⟨more, rfl⟩ : ∃ n, more = n + 1 := ⟨more - 1, by omega⟩
      simp only [drain] at done ⊢
      cases step : nextFrame reader with
      | error error => rfl
      | ok result =>
          obtain ⟨packet, after⟩ := result
          rw [step] at done
          cases packet with
          | none => rfl
          | some packet =>
              have same : drain nextFrame more after = drain nextFrame fuel after :=
                ih done (by omega)
              simp only [same]

theorem drain_length {σ ε : Type} {nextFrame : σ → Except ε (Option Packet × σ)} {reader : σ}
    {last : Except ε σ} {fuel : Nat} (done : (drain nextFrame fuel reader).2 = some last) :
    (drain nextFrame fuel reader).1.length < fuel := by
  induction fuel generalizing reader with
  | zero => cases done
  | succ fuel ih =>
      simp only [drain] at done ⊢
      cases step : nextFrame reader with
      | error error => exact Nat.succ_pos _
      | ok result =>
          obtain ⟨packet, after⟩ := result
          rw [step] at done
          cases packet with
          | none => exact Nat.succ_pos _
          | some packet => exact Nat.succ_lt_succ (ih done)

theorem reports_prefix {CAP : Nat} (profile : Profile) (s : CausalGraphObserver CAP)
    {cut packets : List Packet} (leading : cut <+: packets) :
    s.reports profile cut <+: s.reports profile packets := by
  induction packets generalizing s cut with
  | nil => rw [List.prefix_nil.mp leading]
  | cons packet packets ih =>
      rcases List.prefix_cons_iff.mp leading with rfl | ⟨rest, rfl, onward⟩
      · exact List.nil_prefix
      · simp only [CausalGraphObserver.reports]
        cases s.feed profile packet with
        | error fault => exact List.prefix_refl _
        | ok result => exact (List.prefix_append_right_inj _).mpr (ih _ onward)

theorem streamEnds_ok {read truncated : Nat}
    {last : Option (Except (Stop StreamPcapError) StreamingPcapSource)}
    (ends : StreamEnds read truncated ending last)
    (ordinary : ending = .finished ∨ ending.isCut = true) :
    ∃ s, last = some (.ok s) ∧ Finished s ending read truncated := by
  cases ending with
  | finished | cutHeader | cutBody => exact ends
  | record => exact ends.elim
  | tooLong =>
      rcases ordinary with is | is
      · cases is
      · cases is

theorem cut_degrades (profile : Profile) {bytes : List UInt8} (schedule schedule' : List Response)
    {s last : StreamingPcapSource} {fuel k : Nat}
    (accepted : StreamingPcapSource.new ⟨bytes, schedule⟩ = .ok s)
    (clean : (drain (StreamingPcapSource.nextFrame profile) fuel s).2 = some (.ok last))
    (header : 24 ≤ k) (inside : k ≤ bytes.length) :
    ∃ s', StreamingPcapSource.new ⟨bytes.take k, schedule'⟩ = .ok s' ∧ ∀ fuel', fuel ≤ fuel' →
      ∃ last', (drain (StreamingPcapSource.nextFrame profile) fuel' s').2 = some (.ok last') ∧
        DegradesToPrefix profile k
          ((drain (StreamingPcapSource.nextFrame profile) fuel s).1.map Prod.fst)
          ((drain (StreamingPcapSource.nextFrame profile) fuel' s').1.map Prod.fst) last' := by
  have length : (bytes.take k).length = k := List.length_take_of_le inside
  have sameMagic : wordAt false (bytes.take k) 0 = wordAt false bytes 0 :=
    wordAt_take _ _ (by omega)
  obtain ⟨fmt, long, magic, at_⟩ := stream_opened accepted
  obtain ⟨s', built', at'⟩ :=
    stream_opens (by rwa [length] : 24 ≤ (bytes.take k).length) (sameMagic ▸ magic) schedule'
  refine ⟨s', built', fun fuel' le => ?_⟩
  obtain ⟨held, ending, reads⟩ := reads_total fmt (bytes.drop 24)
  -- the given fuel was enough, so more of it changes nothing
  obtain ⟨sameFrames, ends⟩ :=
    stream_drain profile reads at_ (max fuel (held.length + 1)) (by omega)
  rw [drain_more clean (Nat.le_max_left _ _)] at sameFrames ends
  have few : held.length < fuel := by
    have counted := congrArg List.length sameFrames
    rw [List.length_map, List.length_map] at counted
    exact counted ▸ drain_length clean
  have moderate : ∀ length, ending ≠ .tooLong length := by
    rintro length rfl
    rw [show _ = _ from ends] at clean
    cases clean
  obtain ⟨n, ending', holds⟩ := reads_take reads moderate (k := k - 24) (by
    rw [List.length_drop]
    omega)
  have reads' : Reads fmt ((bytes.take k).drop 24) (held.take n) ending' := by
    rw [List.drop_take]
    exact holds.reads
  have cutFew : (held.take n).length < fuel' := by
    rw [List.length_take]
    omega
  obtain ⟨cutFrames, cutEnds⟩ := stream_drain profile reads' at' fuel' cutFew
  obtain ⟨last', ended, finished⟩ := streamEnds_ok cutEnds (holds.ends.imp And.left And.left)
  refine ⟨last', ended, ?_⟩
  rw [sameFrames, cutFrames]
  have whole := holds.whole header
  constructor
  case whole => exact whole
  case flagged => rw [finished.endedMidRecord, holds.isCut_iff header]
  case analyses => exact fun CAP manifest => reports_prefix profile _ whole.leading

theorem cut_degrades_body : ∃ s fuel last,
    StreamingPcapSource.new ⟨twoByteCapture, []⟩ = .ok s ∧
    (drain (StreamingPcapSource.nextFrame .dev) fuel s).2 = some (.ok last) ∧
    ∃ s', StreamingPcapSource.new ⟨twoByteCapture.take 41, [.chunk 0]⟩ = .ok s' ∧
      ∀ fuel', fuel ≤ fuel' → ∃ last',
        (drain (StreamingPcapSource.nextFrame .dev) fuel' s').2 = some (.ok last') ∧
        DegradesToPrefix .dev 41
          ((drain (StreamingPcapSource.nextFrame .dev) fuel s).1.map Prod.fst)
          ((drain (StreamingPcapSource.nextFrame .dev) fuel' s').1.map Prod.fst) last' :=
  ⟨_, 2, _, rfl, rfl, cut_degrades .dev [] [.chunk 0] rfl rfl (by decide) (by decide)⟩

end Proof
end CausalWorks
