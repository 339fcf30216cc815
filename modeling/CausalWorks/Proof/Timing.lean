import CausalWorks.Proof.Coverage
import CausalWorks.Proof.Evidence
import CausalWorks.Proof.Percentiles

/-!
# The times of a capture are exact

A record header bounds its time by `2 ^ 62`, whatever the seconds and the fraction. So do the gaps
that preflight and discovery take, and the reconstruction of a bucket stays below `2 ^ 64`.
-/

namespace CausalWorks

/-- The frames have the times of the records that `bytes` starts with, and are counted from `read`
on. -/
inductive ReadExactly (fmt : PcapFormat) : Nat → List UInt8 → List (Packet × Nat × Nat) → Prop
  | stop {read : Nat} {bytes : List UInt8} : ReadExactly fmt read bytes []
  | next {read truncated : Nat} {bytes : List UInt8} {packet : Packet}
      {frames : List (Packet × Nat × Nat)}
      (time : packet.1.toNat =
        recordTime fmt.nanos (wordAt fmt.swapped bytes 0) (wordAt fmt.swapped bytes 4))
      (early : packet.1.toNat < 2 ^ 62) (short : truncated ≤ read + 1)
      (rest : ReadExactly fmt (read + 1)
        (bytes.drop (16 + (wordAt fmt.swapped bytes 8).toNat)) frames) :
      ReadExactly fmt read bytes ((packet, read + 1, truncated) :: frames)

def PcapReplaySource.Bounded (self : PcapReplaySource) : Prop :=
  self.cursor ≤ self.data.length ∧ 0 ≤ self.maxCapMinusOrig ∧ self.maxCapMinusOrig < 2 ^ 32

structure PreflightExact (packets : List Packet) (scan : PreflightScan) : Prop where
  counters : scan.stats.total = packets.length ∧
    scan.stats.classifiable + scan.stats.unclassified = packets.length ∧
    scan.stats.ethertypes.total id + scan.stats.malformed = packets.length ∧
    scan.stats.vlanFrames ≤ packets.length
  span : ∀ src, (scan.finish src).spanNs.toNat =
    ((packets.getLast?.map fun packet => packet.1.toNat).getD 0) -
      ((packets.head?.map fun packet => packet.1.toNat).getD 0)
  minDelta : scan.minDelta = 0xffffffffffffffff ∨ ∃ t t', [t, t'] <:+: packets.map Prod.fst ∧
    t.toNat + scan.minDelta.toNat = t'.toNat

structure StreamExact (profile : Profile) (times : List UInt64) (h : LogHistogram 8) : Prop where
  differences : (gaps times).map UInt64.toNat =
    List.zipWith (fun t t' => t'.toNat - t.toNat) times times.tail
  small : ∀ gap ∈ gaps times, gap.toNat < 2 ^ 62
  holds : h.Holds (gaps times)
  wide : h.count < 2 ^ 64 ∧ h.buckets.toList.sum = h.count ∧ h.sum < 2 ^ 128
  mean : h.mean.toNat = h.sum / h.count
  quantile : 0 < h.count → ∀ q, ∃ i edge estimate, h.bucketOf (h.target q) = some i ∧
    i % 8 * 2 ^ (i / 8) < 2 ^ 64 ∧ LogHistogram.bucketLower profile 8 i = .ok edge ∧
    edge.toNat = Proof.lowerEdge i ∧ h.quantile profile q = .ok estimate

structure DiscoveryExact (profile : Profile) (packets : List Packet) (engine : DiscoveryEngine) :
    Prop where
  counters : engine.totalFrames = packets.length ∧
    engine.classified + engine.unclassifiedTotal = packets.length
  streams : ∀ key stream, engine.streams.value key = some stream →
    StreamExact profile ((framesOf key (acceptedFrames packets)).map (·.tapTsNs))
      stream.interarrival

namespace Proof
open LogHistogram

def Advances {σ ε : Type} (nextFrame : σ → Except (Stop ε) (Option Packet × σ))
    (view : Packet × σ → Packet × Nat × Nat) (At : σ → List UInt8 → Nat → Nat → Prop) (reader : σ)
    (read truncated : Nat) : Front → Prop
  | .record packet cut rest => ∃ after, nextFrame reader = .ok (some packet, after) ∧
      let truncated := if cut then truncated + 1 else truncated
      view (packet, after) = (packet, read + 1, truncated) ∧ At after rest (read + 1) truncated
  | _ => (∃ after, nextFrame reader = .ok (none, after)) ∨
      ∃ error, nextFrame reader = .error (.err error)

section
variable {profile : Profile} {fmt : PcapFormat} {bytes : List UInt8} {read truncated : Nat}

theorem drain_exact {σ ε : Type} {nextFrame : σ → Except (Stop ε) (Option Packet × σ)}
    {view : Packet × σ → Packet × Nat × Nat} {At : σ → List UInt8 → Nat → Nat → Prop}
    (advances : ∀ {reader bytes read truncated}, At reader bytes read truncated →
      Advances nextFrame view At reader read truncated (front fmt bytes))
    (fuel : Nat) {reader : σ} (at_ : At reader bytes read truncated) (few : truncated ≤ read) :
    ReadExactly fmt read bytes ((drain nextFrame fuel reader).1.map view) ∧
      ∀ fault, (drain nextFrame fuel reader).2 ≠ some (.error (.fault fault)) := by
  induction fuel generalizing reader bytes read truncated with
  | zero => exact ⟨.stop, fun _ stopped => by cases stopped⟩
  | succ fuel ih =>
      have step := advances at_
      cases is : front fmt bytes with
      | record packet cut rest =>
          rw [is] at step
          obtain ⟨after, yields, viewed, at'⟩ := step
          obtain ⟨-, -, rfl, -, rfl⟩ := front_record_iff.mp is
          have counted : (if cut then truncated + 1 else truncated) ≤ read + 1 := by
            split
            · omega
            · omega
          obtain ⟨frames, noFault⟩ := ih at' counted
          have small := recordTime_small fmt.nanos (wordAt fmt.swapped bytes 0)
            (wordAt fmt.swapped bytes 4)
          have time := UInt64.toNat_ofNat_of_lt' (small.trans (by decide))
          simp only [drain, yields, List.map_cons, viewed]
          exact ⟨.next time (by rwa [time]) counted frames, noFault⟩
      | finished | cutHeader | tooLong | cutBody =>
          rw [is] at step
          rcases step with ⟨after, done⟩ | ⟨error, done⟩
          · simp only [drain, done]
            exact ⟨.stop, fun _ stopped => by cases stopped⟩
          · simp only [drain, done]
            exact ⟨.stop, fun _ stopped => by cases stopped⟩

variable (profile) in
theorem eager_advances {e : PcapReplaySource} (at_ : EagerAt e fmt bytes read truncated) :
    Advances (PcapReplaySource.nextFrame profile) eagerView
      (fun e bytes read truncated => EagerAt e fmt bytes read truncated) e read truncated
      (front fmt bytes) := by
  have step := eager_step profile at_
  cases is : front fmt bytes with
  | record packet cut rest =>
      rw [is] at step
      obtain ⟨after, yields, at'⟩ := step
      refine ⟨after, yields, ?_, at'⟩
      rw [eagerView, at'.recordsRead, at'.truncatedRecords]
  | finished =>
      rw [is] at step
      exact Or.inl ⟨e, step⟩
  | cutHeader | cutBody | tooLong =>
      rw [is] at step
      exact Or.inr ⟨_, step⟩

variable (profile) in
theorem stream_advances {s : StreamingPcapSource} (at_ : StreamAt s fmt bytes read truncated) :
    Advances (StreamingPcapSource.nextFrame profile) streamView
      (fun s bytes read truncated => StreamAt s fmt bytes read truncated) s read truncated
      (front fmt bytes) := by
  have step := stream_step profile at_
  cases is : front fmt bytes with
  | record packet cut rest =>
      rw [is] at step
      obtain ⟨after, yields, at'⟩ := step
      refine ⟨after, yields, ?_, at'⟩
      rw [streamView, at'.recordsRead, at'.truncatedRecords]
  | finished | cutHeader | cutBody =>
      rw [is] at step
      obtain ⟨after, done, -⟩ := step
      exact Or.inl ⟨after, done⟩
  | tooLong =>
      rw [is] at step
      exact Or.inr ⟨_, step⟩

theorem eager_bounded {e after : PcapReplaySource} {packet : Packet} (bounded : e.Bounded)
    (yields : e.nextFrame profile = .ok (some packet, after)) : after.Bounded := by
  obtain ⟨-, positive, small⟩ := bounded
  unfold PcapReplaySource.nextFrame at yields
  split at yields
  · split at yields
    · cases yields
    · cases yields
  obtain ⟨tsSec, -, yields⟩ := bind_ok yields
  obtain ⟨tsFrac, -, yields⟩ := bind_ok yields
  obtain ⟨inclLen, -, yields⟩ := bind_ok yields
  obtain ⟨origLen, -, yields⟩ := bind_ok yields
  split at yields
  · cases yields
  simp only at yields
  split at yields
  · cases yields
  obtain ⟨tsNs, -, yields⟩ := bind_ok yields
  obtain ⟨scratch, -, yields⟩ := bind_ok yields
  cases yields
  have word := inclLen.toNat_lt
  refine ⟨?_, ?_⟩
  · simp only
    omega
  · simp only
    split
    · omega
    · exact ⟨positive, small⟩

theorem drain_keeps {σ ε : Type} {nextFrame : σ → Except ε (Option Packet × σ)} {good : σ → Prop}
    (step : ∀ {reader packet after}, good reader → nextFrame reader = .ok (some packet, after) →
      good after) (fuel : Nat) {reader : σ} (start : good reader) :
    ∀ frame ∈ (drain nextFrame fuel reader).1, good frame.2 := by
  induction fuel generalizing reader with
  | zero => exact fun _ member => absurd member List.not_mem_nil
  | succ fuel ih =>
      rw [drain]
      split
      · rename_i packet after yields
        have next := step start yields
        exact List.forall_mem_cons.mpr ⟨next, ih next⟩
      · exact fun _ member => absurd member List.not_mem_nil
      · exact fun _ member => absurd member List.not_mem_nil

theorem readExactly_early {frames : List (Packet × Nat × Nat)}
    (exact_ : ReadExactly fmt read bytes frames) :
    ∀ packet ∈ frames.map Prod.fst, packet.1.toNat < 2 ^ 62 := by
  induction exact_ with
  | stop => exact fun _ member => absurd member List.not_mem_nil
  | next _ early _ _ ih => exact List.forall_mem_cons.mpr ⟨early, ih⟩

end

theorem noteTime_cases (scan : PreflightScan) (ts : UInt64) :
    (scan.noteTime ts).firstTs = scan.firstTs.or (some ts) ∧ (scan.noteTime ts).lastTs = ts ∧
      ((scan.noteTime ts).minDelta = scan.minDelta ∨ scan.firstTs ≠ none ∧
        scan.lastTs ≤ ts ∧ (scan.noteTime ts).minDelta = ts - scan.lastTs) := by
  unfold PreflightScan.noteTime
  cases first : scan.firstTs with
  | none => exact ⟨rfl, rfl, Or.inl rfl⟩
  | some start =>
      simp only [Option.isNone_some, Bool.false_eq_true, if_false]
      split
      · rename_i ordered
        refine ⟨rfl, rfl, ?_⟩
        show (if _ then _ else _) = _ ∨ _ ∧ _ ∧ (if _ then _ else _) = _
        split
        · exact Or.inr ⟨Option.some_ne_none _, ordered, rfl⟩
        · exact Or.inl rfl
      · exact ⟨rfl, rfl, Or.inl rfl⟩

theorem scanned_vlan (scan : PreflightScan) (packet : Packet) :
    (scan.scanned packet).stats.vlanFrames ≤ scan.stats.vlanFrames + 1 := by
  have tag : (PreflightScan.noteTag { scan.stats with total := scan.stats.total + 1 }
      packet.2).vlanFrames ≤ scan.stats.vlanFrames + 1 := by
    unfold PreflightScan.noteTag
    split
    · exact Nat.le_refl _
    · exact Nat.le_succ _
  have headers : (PreflightScan.noteHeaders scan.stats packet.2).vlanFrames ≤
      scan.stats.vlanFrames + 1 := by
    unfold PreflightScan.noteHeaders PreflightScan.noteType
    split
    · exact tag
    · exact tag
  unfold PreflightScan.scanned
  split
  · exact headers
  · exact headers

structure ScanTimes (packets : List Packet) (scan : PreflightScan) : Prop where
  first : scan.firstTs = packets.head?.map Prod.fst
  last : ∀ packet ∈ packets.getLast?, scan.lastTs = packet.1
  vlan : scan.stats.vlanFrames ≤ packets.length
  minDelta : scan.minDelta = 0xffffffffffffffff ∨ ∃ t t', [t, t'] <:+: packets.map Prod.fst ∧
    t.toNat + scan.minDelta.toNat = t'.toNat

theorem scan_times (packets : List Packet) :
    ScanTimes packets (packets.foldl PreflightScan.scanned {}) := by
  induction packets using List.reverseRecOn with
  | nil => exact ⟨rfl, fun _ none_ => (by cases none_), Nat.le_refl _, Or.inl rfl⟩
  | append_singleton packets packet ih =>
      rw [List.foldl_concat]
      generalize packets.foldl PreflightScan.scanned {} = scan at ih ⊢
      obtain ⟨first, last, vlan, minDelta⟩ := ih
      obtain ⟨first', last', minDelta'⟩ := noteTime_cases scan packet.1
      have tagged := scanned_vlan scan packet
      constructor
      case first =>
        rw [List.head?_append, Option.map_or, ← first]
        exact first'
      case last =>
        intro p final
        rw [List.getLast?_concat] at final
        obtain rfl := Option.some.inj final
        exact last'
      case vlan =>
        rw [List.length_append, List.length_singleton]
        omega
      case minDelta =>
        rw [List.map_append, List.map_singleton]
        show (scan.noteTime packet.1).minDelta = _ ∨ ∃ t t', _ ∧
          _ + (scan.noteTime packet.1).minDelta.toNat = _
        rcases minDelta' with same | ⟨started, ordered, delta⟩
        · rw [same]
          refine minDelta.imp_right ?_
          rintro ⟨t, t', adjacent, sum⟩
          exact ⟨t, t', adjacent.trans (List.prefix_append _ _).isInfix, sum⟩
        · right
          rcases List.eq_nil_or_concat packets with rfl | ⟨before, prev, rfl⟩
          · exact absurd first started
          rw [List.concat_eq_append] at last ⊢
          have lastTs : scan.lastTs = prev.1 := last prev (by rw [List.getLast?_concat]; rfl)
          refine ⟨prev.1, packet.1, ?_, ?_⟩
          · rw [List.map_append, List.map_singleton, List.append_assoc, List.singleton_append]
            exact (List.suffix_append _ _).isInfix
          · rw [delta, lastTs, UInt64.toNat_sub_of_le _ _ (lastTs ▸ ordered)]
            have le := UInt64.le_iff_toNat_le.mp ordered
            rw [lastTs] at le
            omega

theorem preflight_exact (packets : List Packet) :
    PreflightExact packets (packets.foldl PreflightScan.scanned {}) := by
  obtain ⟨first, last, vlan, minDelta⟩ := scan_times packets
  obtain ⟨total, classifiable, unclassified, malformed, ethertypes⟩ := stats_eq packets
  simp only [Nat.zero_add] at total classifiable unclassified malformed
  have typed := length_reduceOption (packets.map fun packet => rawEthertype packet.2)
  rw [List.length_map] at typed
  constructor
  case counters =>
    refine ⟨total, ?_, ?_, vlan⟩
    · rw [classifiable, unclassified, accepted_rejected]
    · rw [ethertypes, malformed, ← typed]
      exact congrArg (· + _) (Keyed.Table.total_tally _)
  case span =>
    intro src
    show (((PreflightScan.firstTs _).map fun start => saturatingSub _ start).getD 0).toNat = _
    rw [first]
    rcases List.eq_nil_or_concat packets with rfl | ⟨before, packet, rfl⟩
    · rfl
    rw [List.concat_eq_append] at last ⊢
    have ends := last packet (by rw [List.getLast?_concat]; rfl)
    rw [List.getLast?_concat, ends]
    cases before with
    | nil => exact saturatingSub_toNat _ _
    | cons start before => exact saturatingSub_toNat _ _
  case minDelta => exact minDelta

theorem gaps_differences (times : List UInt64) : (gaps times).map UInt64.toNat =
    List.zipWith (fun t t' => t'.toNat - t.toNat) times times.tail := by
  induction times using gaps.induct with
  | case1 t t' times ih =>
      rw [gaps, List.map_cons, ih, saturatingSub_toNat]
      rfl
  | case2 times few =>
      cases times with
      | nil => rfl
      | cons t times =>
          cases times with
          | nil => rfl
          | cons t' times => exact (few t t' times rfl).elim

theorem gaps_early {times : List UInt64} (early : ∀ t ∈ times, t.toNat < 2 ^ 62) :
    ∀ gap ∈ gaps times, gap.toNat < 2 ^ 62 := by
  induction times using gaps.induct with
  | case1 t t' times ih =>
      obtain ⟨-, later⟩ := List.forall_mem_cons.mp early
      refine List.forall_mem_cons.mpr ⟨?_, ih later⟩
      rw [saturatingSub_toNat]
      exact (Nat.sub_le _ _).trans_lt (later t' List.mem_cons_self)
  | case2 times few =>
      rw [gaps.eq_2 times few]
      exact fun _ member => absurd member List.not_mem_nil

theorem stream_exact (profile : Profile) {times : List UInt64} {h : LogHistogram 8}
    (holds : h.Holds (gaps times)) (early : ∀ t ∈ times, t.toNat < 2 ^ 62)
    (few : times.length < 2 ^ 64) : StreamExact profile times h := by
  have small := gaps_early early
  have number : (gaps times).length < 2 ^ 64 := by
    rw [length_gaps]
    omega
  constructor
  case differences => exact gaps_differences times
  case small => exact small
  case holds => exact holds
  case wide =>
    have sum := sum_le holds small
    rw [← holds.count] at number
    exact ⟨number, sum_buckets holds, by omega⟩
  case mean => exact mean_ok holds small
  case quantile =>
    intro positive q
    have first := @target_first h q positive
    have last : h.target q ≤ (gaps times).length := holds.count ▸ target_last
    obtain ⟨x, at_⟩ := smallest_exists first last
    have low := index_low (small x (smallest_mem at_))
    obtain ⟨edge, lower, edge_eq⟩ := bucketLower_ok profile low
    obtain ⟨estimate, estimated, -⟩ := estimate_ok profile holds small first at_
    have product : index 8 x % 8 * 2 ^ (index 8 x / 8) ≤ 7 * 2 ^ 61 :=
      Nat.mul_le_mul (by omega) (Nat.pow_le_pow_right (by decide) (by omega))
    exact ⟨_, edge, estimate, bucketOf_eq holds first at_, product.trans_lt (by decide), lower,
      edge_eq, (if_neg positive.ne').trans estimated⟩

theorem acceptedFrames_time {packets : List Packet} {f : DecodedFieldbusFrame}
    (accepted : f ∈ acceptedFrames packets) : ∃ packet ∈ packets,
      parseFrame packet.1 packet.2 = .ok f ∧ f.tapTsNs = packet.1 := by
  obtain ⟨packet, member, parsed⟩ := List.mem_filterMap.mp accepted
  refine ⟨packet, member, ?_⟩
  rcases parseFrame_cases packet.1 packet.2 with ⟨proto, is⟩ | ⟨error, is⟩
  · rw [is] at parsed
    obtain rfl := Option.some.inj parsed
    exact ⟨is, rfl⟩
  · rw [is] at parsed
    cases parsed

theorem discovery_exact (profile : Profile) {packets : List Packet}
    (early : ∀ packet ∈ packets, packet.1.toNat < 2 ^ 62) (few : packets.length < 2 ^ 64) :
    DiscoveryExact profile packets (packets.foldl DiscoveryEngine.discovered .new) := by
  constructor
  case counters =>
    rw [classified_eq, unclassified_eq, accepted_rejected, discovered_foldl]
    exact ⟨Nat.zero_add _, rfl⟩
  case streams =>
    intro key stream found
    have decoded : ∀ f ∈ acceptedFrames packets, Decodes f.raw f.proto := by
      intro f member
      obtain ⟨packet, -, parsed, -⟩ := acceptedFrames_time member
      obtain ⟨-, raw, decodes⟩ := ((parses_exactly _ _).accepts f).mp parsed
      rwa [raw]
    have value := Keyed.Table.value_accumulated (·.streamKey) StreamProfile.new StreamProfile.take
      (acceptedFrames packets) key
    rw [own_eq decoded key] at value
    rw [discovered_foldl] at found
    replace found := value.symm.trans found
    split at found
    · cases found
    obtain rfl := Option.some.inj found
    refine stream_exact profile (foldl_take key _).2.2 ?_ ?_
    · intro t member
      obtain ⟨f, own, rfl⟩ := List.mem_map.mp member
      obtain ⟨packet, inside, -, time⟩ := acceptedFrames_time (List.mem_of_mem_filter own)
      rw [time]
      exact early packet inside
    · rw [List.length_map]
      have own : (framesOf key (acceptedFrames packets)).length ≤
        (acceptedFrames packets).length := List.length_filter_le _ _
      have all := accepted_rejected packets
      omega

end Proof
end CausalWorks
