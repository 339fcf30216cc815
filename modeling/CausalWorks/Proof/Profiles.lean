import CausalWorks.Proof.Streams

/-!
# Stream profiles

The profile under a key depends on the frames of that key alone, whatever comes in between, and its
histogram holds exactly the gaps between them.
-/

namespace CausalWorks

def gaps : List UInt64 → List UInt64
  | t :: t' :: times => saturatingSub t' t :: gaps (t' :: times)
  | _ => []

structure LogHistogram.Holds {SUB : Nat} (h : LogHistogram SUB) (values : List UInt64) :
    Prop where
  count : h.count = values.length
  buckets : ∀ i (inside : i < 64 * SUB),
    h.buckets[i] = values.countP fun v => decide (index SUB v = i)
  sum : h.sum = (values.map UInt64.toNat).sum
  min_mem : h.min ∈ values ∨ values = [] ∧ h.min = 0xffffffffffffffff
  min_le : ∀ v ∈ values, h.min ≤ v
  max_mem : h.max ∈ values ∨ values = [] ∧ h.max = 0
  le_max : ∀ v ∈ values, v ≤ h.max

def IndustrialProtocol.stream : IndustrialProtocol → StreamKey
  | .profinetIrt frameId _ _ => .profinet frameId
  | .ros2Udp topicPort _ => .udpPort topicPort
  | .fanucUdp _ _ _ => .udpPort 60008
  | .s7commArrival port => .s7comm port

def IndustrialProtocol.isFanuc : IndustrialProtocol → Bool
  | .fanucUdp _ _ _ => true
  | _ => false

def framesOf (key : StreamKey) (frames : List DecodedFieldbusFrame) : List DecodedFieldbusFrame :=
  Keyed.Table.own (·.proto.stream) key frames

structure ProfileExact (key : StreamKey) (own : List DecodedFieldbusFrame)
    (profile : StreamProfile) : Prop where
  key_eq : profile.key = key
  holds : profile.interarrival.Holds (gaps (own.map (·.tapTsNs)))
  count : profile.interarrival.count + 1 = own.length
  last : profile.lastTsNs = own.getLast?.map (·.tapTsNs)
  sum : (own.map (·.tapTsNs)).Pairwise (· ≤ ·) → ∀ first ∈ own.head?, ∀ last ∈ own.getLast?,
    profile.interarrival.sum = last.tapTsNs.toNat - first.tapTsNs.toNat

structure StreamsApart (frames : List DecodedFieldbusFrame) (engine : DiscoveryEngine) : Prop where
  keyed : ∀ f ∈ frames, ∃ payload,
    DiscoveryEngine.streamOf f = (.ok (f.proto.stream, payload) : Except (Stop Empty) _)
  fanuc : ∀ f ∈ frames, f.proto.stream = .udpPort 60008 ↔ f.proto.isFanuc = true
  projected : ∀ key, ∃ alone, (framesOf key frames).foldlM DiscoveryEngine.observe .new =
    (.ok alone : Except (Stop Empty) _) ∧ engine.streams.value key = alone.streams.value key
  exact_ : ∀ key, framesOf key frames = [] ∧ engine.streams.value key = none ∨
    ∃ profile, engine.streams.value key = some profile ∧
      ProfileExact key (framesOf key frames) profile

namespace Proof

section
variable {α : Type} (better : α → α → Prop) [DecidableRel better] {best start value : α}
  {values : List α}

theorem best_mem (before : best ∈ values ∨ values = [] ∧ best = start)
    (worst : ¬ better value start → start = value) :
    (if better value best then value else best) ∈ values ++ [value] := by
  rw [List.mem_append, List.mem_singleton]
  split
  · exact Or.inr rfl
  · rename_i notBetter
    rcases before with member | ⟨-, rfl⟩
    · exact Or.inl member
    · exact Or.inr (worst notBetter)

theorem best_bound (irrefl : ∀ a, ¬ better a a)
    (trans : ∀ {a b c}, better a b → better b c → better a c)
    (before : ∀ v ∈ values, ¬ better v best) :
    ∀ v ∈ values ++ [value], ¬ better v (if better value best then value else best) := by
  intro v member
  rcases List.mem_append.mp member with earlier | now
  · split
    · rename_i improved
      exact fun better => before v earlier (trans better improved)
    · exact before v earlier
  · rw [List.mem_singleton.mp now]
    split
    · exact irrefl value
    · rename_i notBetter
      exact notBetter

end

section
variable {SUB : Nat}

theorem holds_new : (LogHistogram.new : LogHistogram SUB).Holds [] where
  count := rfl
  buckets i inside := by simp [LogHistogram.new]
  sum := rfl
  min_mem := Or.inr ⟨rfl, rfl⟩
  min_le _ member := absurd member List.not_mem_nil
  max_mem := Or.inr ⟨rfl, rfl⟩
  le_max _ member := absurd member List.not_mem_nil

theorem holds_record [NeZero SUB] {h : LogHistogram SUB} {values : List UInt64}
    (holds : h.Holds values) (value : UInt64) : (h.record value).Holds (values ++ [value]) where
  count := by
    rw [List.length_append, List.length_singleton, ← holds.count]
    rfl
  buckets i inside := by
    rw [List.countP_append, List.countP_singleton, ← holds.buckets i inside]
    by_cases here : LogHistogram.index SUB value = i
    · subst here
      simp [LogHistogram.record]
    · simp [LogHistogram.record, Vector.getElem_set_ne, here]
  sum := by
    rw [List.map_append, List.sum_append, ← holds.sum]
    rfl
  min_mem := by
    refine Or.inl (best_mem (· < ·) holds.min_mem ?_)
    intro notLess
    exact UInt64.le_antisymm (UInt64.not_lt.mp notLess)
      (UInt64.le_iff_toNat_le.mpr (Nat.le_of_lt_succ value.toNat_lt))
  min_le v member := by
    have bound := best_bound (· < ·) UInt64.lt_irrefl UInt64.lt_trans
      (fun v member => UInt64.not_lt.mpr (holds.min_le v member)) v member
    exact UInt64.not_lt.mp bound
  max_mem := by
    refine Or.inl (best_mem (fun a b => b < a) holds.max_mem ?_)
    intro notMore
    exact UInt64.le_antisymm (UInt64.le_iff_toNat_le.mpr (Nat.zero_le _)) (UInt64.not_lt.mp notMore)
  le_max v member := by
    have bound := best_bound (fun a b => b < a) UInt64.lt_irrefl
      (fun first second => UInt64.lt_trans second first)
      (fun v member => UInt64.not_lt.mpr (holds.le_max v member)) v member
    exact UInt64.not_lt.mp bound

end

theorem length_gaps (times : List UInt64) : (gaps times).length = times.length - 1 := by
  induction times using gaps.induct with
  | case1 t t' times ih =>
      simp only [gaps, List.length_cons, ih]
      omega
  | case2 times few =>
      cases times with
      | nil => rfl
      | cons t times =>
          cases times with
          | nil => rfl
          | cons t' times => exact (few t t' times rfl).elim

theorem gaps_concat (times : List UInt64) (last t : UInt64) :
    gaps (times ++ [last, t]) = gaps (times ++ [last]) ++ [saturatingSub t last] := by
  induction times with
  | nil => rfl
  | cons first times ih =>
      cases times with
      | nil => rfl
      | cons second times => exact congrArg (saturatingSub second first :: ·) ih

theorem sum_gaps {times : List UInt64} (ordered : times.Pairwise (· ≤ ·)) {first last : UInt64}
    (starts : times.head? = some first) (ends : times.getLast? = some last) :
    first.toNat ≤ last.toNat ∧
      ((gaps times).map UInt64.toNat).sum = last.toNat - first.toNat := by
  induction times generalizing first with
  | nil => cases starts
  | cons t times ih =>
      obtain rfl : t = first := Option.some.inj starts
      cases times with
      | nil =>
          obtain rfl : t = last := Option.some.inj ends
          exact ⟨Nat.le_refl _, (Nat.sub_self _).symm⟩
      | cons t' times =>
          obtain ⟨before, ordered'⟩ := List.pairwise_cons.mp ordered
          obtain ⟨le, sum⟩ := ih ordered' rfl (by rwa [List.getLast?_cons_cons] at ends)
          have step := UInt64.le_iff_toNat_le.mp (before t' List.mem_cons_self)
          refine ⟨by omega, ?_⟩
          rw [gaps, List.map_cons, List.sum_cons, sum, saturatingSub_toNat]
          omega

theorem take_key (profile : StreamProfile) (f : DecodedFieldbusFrame) :
    (profile.take f).key = profile.key := by
  have gap : (profile.recordGap f.tapTsNs).key = profile.key := by
    unfold StreamProfile.recordGap
    split
    · rfl
    · rfl
  unfold StreamProfile.take StreamProfile.observe StreamProfile.comparePayload
  split
  · exact gap
  · split
    · exact gap
    · exact gap

theorem foldl_take (key : StreamKey) (own : List DecodedFieldbusFrame) :
    (own.foldl StreamProfile.take (.new key)).key = key ∧
      (own.foldl StreamProfile.take (.new key)).lastTsNs = own.getLast?.map (·.tapTsNs) ∧
      (own.foldl StreamProfile.take (.new key)).interarrival.Holds
        (gaps (own.map (·.tapTsNs))) := by
  induction own using List.reverseRecOn with
  | nil => exact ⟨rfl, rfl, holds_new⟩
  | append_singleton own f ih =>
      obtain ⟨key_eq, last, holds⟩ := ih
      rw [List.foldl_append, List.foldl_cons, List.foldl_nil, List.getLast?_concat]
      refine ⟨(take_key _ f).trans key_eq, take_lastTsNs _ f, ?_⟩
      rw [take_interarrival, StreamProfile.recordGap, last]
      rcases List.eq_nil_or_concat own with rfl | ⟨before, prev, rfl⟩
      · exact holds_new
      · rw [List.concat_eq_append, List.getLast?_concat]
        rw [List.concat_eq_append] at holds
        simp only [List.map_append, List.map_cons, List.map_nil, List.append_assoc,
          List.cons_append, List.nil_append, Option.map_some] at holds ⊢
        rw [gaps_concat]
        exact holds_record holds _

theorem profile_exact (key : StreamKey) {own : List DecodedFieldbusFrame} (some_ : own ≠ []) :
    ProfileExact key own (own.foldl StreamProfile.take (.new key)) := by
  obtain ⟨key_eq, last, holds⟩ := foldl_take key own
  have positive := List.length_pos_iff.mpr some_
  constructor
  case key_eq => exact key_eq
  case holds => exact holds
  case last => exact last
  case count =>
    rw [holds.count, length_gaps, List.length_map]
    omega
  case sum =>
    intro ordered first starts last ends
    rw [holds.sum]
    refine (sum_gaps ordered ?_ ?_).2
    · rw [List.head?_map, starts]
      rfl
    · rw [List.getLast?_map, ends]
      rfl

theorem rawPort_udp {buf : List UInt8} {transport : UInt8}
    (ip : Ipv4At buf (linkEnd buf) transport) :
    rawPort buf = some (beWord buf (linkEnd buf + 4 * ihl buf (linkEnd buf) + 2)) := by
  obtain ⟨etherType, words, size, -⟩ := ip
  have known : ¬ (beWord buf (linkEnd buf - 2) ≠ 0x0800 ∨ buf.length < linkEnd buf + 20 ∨
      buf.length < linkEnd buf + 4 * ihl buf (linkEnd buf) + 4) := by
    rintro (other | short | short)
    · exact other etherType
    · omega
    · omega
  rw [rawPort, if_pos (by omega), portBehind, if_neg known]

theorem streamKey_eq {f : DecodedFieldbusFrame} (decodes : Decodes f.raw f.proto) :
    f.streamKey = f.proto.stream := by
  obtain ⟨ts, proto, raw⟩ := f
  obtain ⟨-, accepted⟩ : linkEnd raw ≤ raw.length ∧ Grammar raw (linkEnd raw) proto := decodes
  cases accepted with
  | profinet | s7comm | ros2 => rfl
  | fanuc ip _ port =>
      simp only [DecodedFieldbusFrame.streamKey, rawPort_udp ip, port]
      rfl

theorem fanuc_port {buf : List UInt8} {proto : IndustrialProtocol} (decodes : Decodes buf proto) :
    proto.stream = .udpPort 60008 ↔ proto.isFanuc = true := by
  obtain ⟨-, accepted⟩ := decodes
  cases accepted with
  | fanuc => exact ⟨fun _ => rfl, fun _ => rfl⟩
  | ros2 _ _ port =>
      constructor
      · exact fun same => absurd (StreamKey.udpPort.inj same) port
      · exact fun is => Bool.noConfusion is
  | profinet | s7comm =>
      constructor
      · exact fun same => StreamKey.noConfusion same
      · exact fun is => Bool.noConfusion is

theorem observe_foldl {ε : Type} (disc : DiscoveryEngine) (frames : List DecodedFieldbusFrame) :
    (frames.foldlM DiscoveryEngine.observe disc : Except (Stop ε) DiscoveryEngine) =
      .ok { disc with
        totalFrames := disc.totalFrames + frames.length
        streams := frames.foldl (Keyed.Table.accumulate (·.streamKey) .new .take)
          disc.streams } := by
  induction frames generalizing disc with
  | nil => rfl
  | cons f frames ih =>
      rw [List.foldlM_cons, observe_eq]
      refine (ih (disc.observed f)).trans ?_
      rw [List.length_cons, Nat.add_comm frames.length, ← Nat.add_assoc]
      rfl

theorem own_eq {frames : List DecodedFieldbusFrame}
    (decoded : ∀ f ∈ frames, Decodes f.raw f.proto) (key : StreamKey) :
    Keyed.Table.own (·.streamKey) key frames = framesOf key frames := by
  refine List.filter_congr ?_
  intro f member
  simp only [streamKey_eq (decoded f member)]

theorem streams_apart {frames : List DecodedFieldbusFrame}
    (accepted : ∀ f ∈ frames, parseFrame f.tapTsNs f.raw = .ok f) : ∃ engine,
      frames.foldlM DiscoveryEngine.observe .new = (.ok engine : Except (Stop Empty) _) ∧
      StreamsApart frames engine := by
  have decoded : ∀ f ∈ frames, Decodes f.raw f.proto := fun f member =>
    (((parses_exactly f.tapTsNs f.raw).accepts f).mp (accepted f member)).2.2
  refine ⟨_, observe_foldl .new frames, ?_⟩
  constructor
  case keyed =>
    intro f member
    refine ⟨f.watchedPayload, ?_⟩
    rw [streamOf_ok, streamKey_eq (decoded f member)]
  case fanuc => exact fun f member => fanuc_port (decoded f member)
  case projected =>
    intro key
    refine ⟨_, observe_foldl .new (framesOf key frames), ?_⟩
    rw [← own_eq decoded key]
    exact Keyed.Table.value_own (·.streamKey) StreamProfile.new StreamProfile.take frames key
  case exact_ =>
    intro key
    have value := Keyed.Table.value_accumulated (·.streamKey) StreamProfile.new StreamProfile.take
      frames key
    rw [own_eq decoded key] at value
    by_cases none_ : framesOf key frames = []
    · rw [if_pos none_] at value
      exact Or.inl ⟨none_, value⟩
    · rw [if_neg none_] at value
      exact Or.inr ⟨_, value, profile_exact key none_⟩

theorem plcBytes_parse (ts : UInt64) (interlock : Bool) :
    parseFrame ts (Cell.plcBytes interlock) =
      .ok ⟨ts, .profinetIrt 0x0002 interlock (if interlock then 0x01 else 0x00),
        Cell.plcBytes interlock⟩ := by
  cases interlock <;> rfl

theorem streams_apart_plc : ∃ engine,
    [⟨10, .profinetIrt 0x0002 true 0x01, Cell.plcBytes true⟩,
      ⟨15, .profinetIrt 0x0002 false 0x00, Cell.plcBytes false⟩].foldlM
        DiscoveryEngine.observe .new = (.ok engine : Except (Stop Empty) _) ∧
    StreamsApart [⟨10, .profinetIrt 0x0002 true 0x01, Cell.plcBytes true⟩,
      ⟨15, .profinetIrt 0x0002 false 0x00, Cell.plcBytes false⟩] engine := by
  refine streams_apart ?_
  intro f member
  rcases List.mem_cons.mp member with rfl | member
  · exact plcBytes_parse 10 true
  · obtain rfl := List.mem_singleton.mp member
    exact plcBytes_parse 15 false

end Proof
end CausalWorks
