import CausalWorks.Proof.Toggling
import Mathlib.Data.List.Sort

/-!
# Toggling bits, payload by payload

The mask has the length of the first payload that is not empty, and never grows. So a bit that
flips is reported when that payload has its byte, and in every order of the payloads when all of
them have it.
-/

namespace CausalWorks

/-- Two of the payloads have byte `i`, and differ in bit `b` of it. -/
def Flips (payloads : List (List UInt8)) (i b : Nat) : Prop :=
  ∃ p ∈ payloads, ∃ q ∈ payloads, i < p.length ∧ i < q.length ∧ bitAt p i b ≠ bitAt q i b

def StreamProfile.seen (key : StreamKey) (observed : List (UInt64 × List UInt8)) : StreamProfile :=
  observed.foldl (fun profile o => profile.observe o.1 (some o.2)) (.new key)

def reference (payloads : List (List UInt8)) : List UInt8 :=
  (payloads.find? fun p => !p.isEmpty).getD []

def BitBefore (a b : Nat × UInt8) : Prop := a.1 < b.1 ∨ a.1 = b.1 ∧ a.2 < b.2

structure TogglesExactly (key : StreamKey) (observed : List (UInt64 × List UInt8)) : Prop where
  increasing : (StreamProfile.seen key observed).togglingBits.Pairwise BitBefore
  exact : ∀ i (b : UInt8), (i, b) ∈ (StreamProfile.seen key observed).togglingBits ↔
    b < 8 ∧ Flips (observed.map Prod.snd) i b.toNat

def OrderFree (key : StreamKey) (observed : List (UInt64 × List UInt8)) : Prop :=
  ∀ other : List (UInt64 × List UInt8), (other.map Prod.snd).Perm (observed.map Prod.snd) →
    (StreamProfile.seen key other).togglingBits = (StreamProfile.seen key observed).togglingBits

structure TogglesExactlyWhen (key : StreamKey) (observed : List (UInt64 × List UInt8)) : Prop where
  asObserved : TogglesExactly key observed ↔
    ∀ i b, Flips (observed.map Prod.snd) i b → i < (reference (observed.map Prod.snd)).length
  inAnyOrder : TogglesExactly key observed ∧ OrderFree key observed ↔
    ∀ i b, Flips (observed.map Prod.snd) i b →
      ∀ p ∈ observed.map Prod.snd, p ≠ [] → i < p.length

namespace Proof

instance : Std.Irrefl BitBefore where
  irrefl a before := by
    rcases before with less | ⟨-, less⟩
    · exact Nat.lt_irrefl _ less
    · exact UInt8.lt_irrefl _ less

instance : Std.Antisymm BitBefore where
  antisymm a b before after := by
    rcases before with less | ⟨same, less⟩
    · rcases after with less' | ⟨same, -⟩
      · exact absurd less' (Nat.lt_asymm less)
      · omega
    · rcases after with less' | ⟨-, less'⟩
      · omega
      · exact absurd less' (UInt8.lt_asymm less)

theorem togglingBits_increasing (profile : StreamProfile) :
    profile.togglingBits.Pairwise BitBefore := by
  unfold StreamProfile.togglingBits
  rw [List.pairwise_flatMap]
  constructor
  · rintro ⟨m, i⟩ -
    have listed : ([0, 1, 2, 3, 4, 5, 6, 7] : List UInt8).Pairwise (· < ·) := by simp
    refine List.pairwise_map.mpr ((listed.filter _).imp ?_)
    exact fun less => Or.inr ⟨rfl, less⟩
  · have places : (profile.xorMask.zipIdx.map Prod.snd).Pairwise (· < ·) := by
      rw [List.zipIdx_map_snd]
      exact List.pairwise_lt_range'
    refine (List.pairwise_map.mp places).imp ?_
    intro a b less x here y there
    obtain ⟨_, -, rfl⟩ := List.mem_map.mp here
    obtain ⟨_, -, rfl⟩ := List.mem_map.mp there
    exact Or.inl less

theorem mem_togglingBits_small {profile : StreamProfile} {i : Nat} {bit : UInt8}
    (member : (i, bit) ∈ profile.togglingBits) : bit < 8 := by
  have listed : ∀ bit ∈ ([0, 1, 2, 3, 4, 5, 6, 7] : List UInt8), bit < 8 := by simp
  obtain ⟨⟨m, place⟩, -, inside⟩ := List.mem_flatMap.mp member
  obtain ⟨bit', set_, same⟩ := List.mem_map.mp inside
  obtain ⟨-, rfl⟩ := Prod.mk.inj same
  exact listed _ (List.mem_filter.mp set_).1

structure Compared (payloads : List (List UInt8)) (profile : StreamProfile) : Prop where
  first : profile.firstPayload = reference payloads
  mask : ∀ i b, bitAt profile.xorMask i b = true ↔ ∃ q ∈ payloads,
    i < (reference payloads).length ∧ i < q.length ∧ bitAt (reference payloads) i b ≠ bitAt q i b

theorem reference_concat (payloads : List (List UInt8)) (p : List UInt8) :
    reference (payloads ++ [p]) = if reference payloads = [] then p else reference payloads := by
  unfold reference
  rw [List.find?_append]
  cases found : payloads.find? fun p => !p.isEmpty with
  | none => cases p <;> simp
  | some first =>
      have some_ := List.find?_some found
      cases first with
      | nil => cases some_
      | cons a first => simp

theorem reference_nil {payloads : List (List UInt8)} (none_ : reference payloads = []) :
    ∀ p ∈ payloads, p = [] := by
  intro p member
  unfold reference at none_
  cases found : payloads.find? fun p => !p.isEmpty with
  | none => simpa using List.find?_eq_none.mp found p member
  | some first =>
      have some_ := List.find?_some found
      rw [found, Option.getD_some] at none_
      rw [none_] at some_
      cases some_

theorem reference_mem {payloads : List (List UInt8)} (some_ : reference payloads ≠ []) :
    reference payloads ∈ payloads := by
  unfold reference at some_ ⊢
  cases found : payloads.find? fun p => !p.isEmpty with
  | none =>
      rw [found] at some_
      exact absurd rfl some_
  | some first => exact List.mem_of_find?_eq_some found

theorem compared_observe {payloads : List (List UInt8)} {profile : StreamProfile}
    (compared : Compared payloads profile) (ts : UInt64) (p : List UInt8) :
    Compared (payloads ++ [p]) (profile.observe ts (some p)) := by
  obtain ⟨first, mask⟩ := observe_mask profile ts (some p)
  by_cases none_ : reference payloads = []
  · have unset : profile.firstPayload.isEmpty = true := by rw [compared.first, none_]; rfl
    have set_ : profile.comparePayload (some p) = { profile with
        firstPayload := p, xorMask := .replicate p.length 0
        aligned := List.length_replicate } := if_pos unset
    rw [set_] at first mask
    have now : reference (payloads ++ [p]) = p := by rw [reference_concat, if_pos none_]
    refine ⟨first.trans now.symm, fun i b => ?_⟩
    rw [mask, bitAt_blank, now]
    refine ⟨fun no => (Bool.false_ne_true no).elim, ?_⟩
    rintro ⟨q, member, -, inside, differs⟩
    rcases List.mem_append.mp member with old | new
    · rw [reference_nil none_ q old] at inside
      exact absurd inside (Nat.not_lt_zero i)
    · rw [List.mem_singleton.mp new] at differs
      exact absurd rfl differs
  · have set_ : ¬ profile.firstPayload.isEmpty = true := by
      rw [compared.first, List.isEmpty_iff]
      exact none_
    have differences : profile.comparePayload (some p) = { profile with
        xorMask := orDifferences profile.xorMask profile.firstPayload p
        aligned := (length_orDifferences _ _ _).trans profile.aligned } := if_neg set_
    rw [differences] at first mask
    have now : reference (payloads ++ [p]) = reference payloads := by
      rw [reference_concat, if_neg none_]
    refine ⟨first.trans (compared.first.trans now.symm), fun i b => ?_⟩
    rw [mask, bitAt_orDifferences profile.aligned, now, Bool.or_eq_true, compared.mask i b,
      compared.first]
    simp only [Bool.and_eq_true, decide_eq_true_eq, bne_iff_ne, List.mem_append,
      List.mem_singleton, or_and_right, exists_or, exists_eq_left, and_assoc]

theorem compared_seen (key : StreamKey) (observed : List (UInt64 × List UInt8)) :
    Compared (observed.map Prod.snd) (.seen key observed) := by
  induction observed using List.reverseRecOn with
  | nil => exact ⟨rfl, fun i b => by simp [StreamProfile.seen, StreamProfile.new, bitAt, octet]⟩
  | append_singleton observed o ih =>
      rw [StreamProfile.seen, List.foldl_concat, List.map_append]
      exact compared_observe ih o.1 o.2

theorem mem_seen {key : StreamKey} {observed : List (UInt64 × List UInt8)} {i : Nat} {bit : UInt8} :
    (i, bit) ∈ (StreamProfile.seen key observed).togglingBits ↔
      bit < 8 ∧ i < (reference (observed.map Prod.snd)).length ∧
        Flips (observed.map Prod.snd) i bit.toNat := by
  have mask := (compared_seen key observed).mask i bit.toNat
  generalize observed.map Prod.snd = payloads at mask ⊢
  constructor
  · intro member
    have small := mem_togglingBits_small member
    obtain ⟨q, listed, inside, inside', differs⟩ := mask.mp ((mem_togglingBits small).mp member)
    have first : reference payloads ∈ payloads :=
      reference_mem fun none_ => by simp [none_] at inside
    exact ⟨small, inside, _, first, q, listed, inside, inside', differs⟩
  · rintro ⟨small, inside, p, listed, q, listed', insideP, insideQ, differs⟩
    refine (mem_togglingBits small).mpr (mask.mpr ?_)
    -- Of two payloads that differ, one differs from the reference.
    by_cases same : bitAt (reference payloads) i bit.toNat = bitAt p i bit.toNat
    · exact ⟨q, listed', inside, insideQ, fun is => differs (same.symm.trans is)⟩
    · exact ⟨p, listed, inside, insideP, same⟩

theorem flips_bit {payloads : List (List UInt8)} {i b : Nat} (flips : Flips payloads i b) :
    b < 8 := by
  obtain ⟨p, -, q, -, -, -, differs⟩ := flips
  by_contra large
  have high : ∀ byte : UInt8, byte.toNat.testBit b = false := fun byte =>
    Nat.testBit_lt_two_pow (byte.toNat_lt.trans_le (Nat.pow_le_pow_right (by decide) (by omega)))
  exact differs ((high _).trans (high _).symm)

theorem flips_reported {key : StreamKey} {observed : List (UInt64 × List UInt8)}
    (exactly : TogglesExactly key observed) {i b : Nat}
    (flips : Flips (observed.map Prod.snd) i b) :
    (i, UInt8.ofNat b) ∈ (StreamProfile.seen key observed).togglingBits := by
  have small := flips_bit flips
  have bit : (UInt8.ofNat b).toNat = b := UInt8.toNat_ofNat_of_lt (small.trans (by decide))
  exact (exactly.exact i (.ofNat b)).mpr
    ⟨UInt8.lt_iff_toNat_lt.mpr (bit.trans_lt small), by rwa [bit]⟩

theorem toggles_iff_reference {key : StreamKey} {observed : List (UInt64 × List UInt8)} :
    TogglesExactly key observed ↔
      ∀ i b, Flips (observed.map Prod.snd) i b →
        i < (reference (observed.map Prod.snd)).length := by
  constructor
  · exact fun exactly i b flips => (mem_seen.mp (flips_reported exactly flips)).2.1
  · intro reaches
    refine ⟨togglingBits_increasing _, fun i b => mem_seen.trans ?_⟩
    exact and_congr_right fun _ => and_iff_right_of_imp (reaches i b.toNat)

theorem flips_perm {payloads payloads' : List (List UInt8)} (same : payloads.Perm payloads')
    {i b : Nat} : Flips payloads i b ↔ Flips payloads' i b := by
  simp only [Flips, same.mem_iff]

theorem toggles_exactly_when (key : StreamKey) (observed : List (UInt64 × List UInt8)) :
    TogglesExactlyWhen key observed := by
  refine ⟨toggles_iff_reference, ?_, ?_⟩
  · rintro ⟨exactly, free⟩ i b flips p listed some_
    obtain ⟨o, member, rfl⟩ := List.mem_map.mp listed
    obtain ⟨before, after, rfl⟩ := List.append_of_mem member
    -- Observed first, the payload is the reference.
    have same : ((o :: (before ++ after)).map Prod.snd).Perm
        ((before ++ o :: after).map Prod.snd) := List.perm_middle.symm.map Prod.snd
    have first : reference ((o :: (before ++ after)).map Prod.snd) = o.2 := by
      unfold reference
      rw [List.map_cons, List.find?_cons_of_pos (by simpa using some_), Option.getD_some]
    have reported := flips_reported exactly flips
    rw [← free _ same] at reported
    exact first ▸ (mem_seen.mp reported).2.1
  · intro reach
    have reaches : ∀ payloads, payloads.Perm (observed.map Prod.snd) → ∀ i b, Flips payloads i b →
        i < (reference payloads).length := by
      intro payloads same i b flips
      have some_ : reference payloads ≠ [] := by
        intro none_
        obtain ⟨p, listed, -, -, inside, -⟩ := flips
        rw [reference_nil none_ p listed] at inside
        exact absurd inside (Nat.not_lt_zero i)
      exact reach i b ((flips_perm same).mp flips) _ (same.mem_iff.mp (reference_mem some_)) some_
    refine ⟨toggles_iff_reference.mpr (reaches _ (.refl _)), fun other same => ?_⟩
    refine List.Pairwise.eq_of_mem_iff (togglingBits_increasing _) (togglingBits_increasing _) ?_
    rintro ⟨i, bit⟩
    rw [mem_seen, mem_seen, flips_perm same]
    refine and_congr_right fun _ => and_congr_left fun flips => ?_
    exact ⟨fun _ => reaches _ (.refl _) i _ flips,
      fun _ => reaches _ same i _ ((flips_perm same).mpr flips)⟩

/-- The first payload lost its second byte, and the bit that flips there is not reported. -/
theorem short_first_hides : ¬ TogglesExactly (.profinet 0x0002)
    [(0, [0x00]), (1, [0x00, 0x01]), (2, [0x00, 0x00])] := by
  intro exactly
  have flips : Flips [[0x00], [0x00, 0x01], [0x00, 0x00]] 1 0 :=
    ⟨[0x00, 0x01], by simp, [0x00, 0x00], by simp, by decide, by decide, by decide⟩
  have reported := (exactly.exact 1 0).mpr ⟨by decide, flips⟩
  exact absurd reported (by decide +kernel)

end Proof
end CausalWorks
