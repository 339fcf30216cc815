import Mathlib.Data.UInt

/-!
# Encodings that keep the order

Byte strings in unsigned lexicographic order. A sequence of codes is ordered as what it encodes if
the codes of two values in order differ, and their first different bytes are in order. So are
big-endian numbers of one length, and the UTF-8 codes of characters.
-/

namespace ByteOrder

section
variable {α β : Type} [Ord α] [Ord β]

def Apart (xs ys : List β) : Prop :=
  ∃ common x y xs' ys', xs = common ++ x :: xs' ∧ ys = common ++ y :: ys' ∧ compare x y = .lt

theorem compare_append [Std.ReflOrd β] (common xs ys : List β) :
    compare (common ++ xs) (common ++ ys) = compare xs ys := by
  induction common with
  | nil => rfl
  | cons x common ih =>
      rw [List.cons_append, List.cons_append, List.compare_cons_cons, Std.ReflOrd.compare_self, ih]
      rfl

theorem Apart.compare_lt [Std.ReflOrd β] {xs ys : List β} (apart : Apart xs ys) (xs' ys' : List β) :
    compare (xs ++ xs') (ys ++ ys') = .lt := by
  obtain ⟨common, x, y, as, bs, rfl, rfl, lt⟩ := apart
  rw [List.append_assoc, List.append_assoc, compare_append, List.cons_append, List.cons_append,
    List.compare_cons_cons, lt]
  rfl

theorem Apart.here {x y : β} (lt : compare x y = .lt) (xs ys : List β) :
    Apart (x :: xs) (y :: ys) :=
  ⟨[], x, y, xs, ys, rfl, rfl, lt⟩

theorem Apart.prepend {xs ys : List β} (common : List β) (apart : Apart xs ys) :
    Apart (common ++ xs) (common ++ ys) := by
  obtain ⟨more, x, y, as, bs, rfl, rfl, lt⟩ := apart
  refine ⟨common ++ more, x, y, as, bs, ?_, ?_, lt⟩
  · rw [List.append_assoc]
  · rw [List.append_assoc]

theorem Apart.append {xs ys : List β} (apart : Apart xs ys) (xs' ys' : List β) :
    Apart (xs ++ xs') (ys ++ ys') := by
  obtain ⟨common, x, y, as, bs, rfl, rfl, lt⟩ := apart
  refine ⟨common, x, y, as ++ xs', bs ++ ys', ?_, ?_, lt⟩
  · rw [List.append_assoc, List.cons_append]
  · rw [List.append_assoc, List.cons_append]

/-- A code that keeps the order of single values, and ends without looking ahead. -/
structure OrderedCode (encode : α → List β) : Prop where
  nonempty : ∀ a, encode a ≠ []
  apart : ∀ a b, compare a b = .lt → Apart (encode a) (encode b)

theorem OrderedCode.compare_flatMap [Std.TransOrd α] [Std.LawfulEqOrd α] [Std.TransOrd β]
    {encode : α → List β} (code : OrderedCode encode) (as bs : List α) :
    compare (as.flatMap encode) (bs.flatMap encode) = compare as bs := by
  have front : ∀ b rest, ∃ x xs, encode b ++ rest = x :: xs := by
    intro b rest
    obtain ⟨x, xs, is⟩ := List.exists_cons_of_ne_nil (code.nonempty b)
    exact ⟨x, xs ++ rest, by rw [is, List.cons_append]⟩
  induction as generalizing bs with
  | nil =>
      cases bs with
      | nil => rfl
      | cons b bs =>
          rw [List.flatMap_cons]
          obtain ⟨x, xs, is⟩ := front b (bs.flatMap encode)
          rw [is]
          rfl
  | cons a as ih =>
      cases bs with
      | nil =>
          rw [List.flatMap_cons]
          obtain ⟨x, xs, is⟩ := front a (as.flatMap encode)
          rw [is]
          rfl
      | cons b bs =>
          rw [List.flatMap_cons, List.flatMap_cons, List.compare_cons_cons]
          cases order : compare a b with
          | lt => exact (code.apart a b order).compare_lt _ _
          | eq =>
              obtain rfl := Std.LawfulEqOrd.eq_of_compare order
              rw [compare_append, ih]
              rfl
          | gt =>
              have after := (code.apart b a (Std.OrientedCmp.gt_iff_lt.mp order)).compare_lt
                (bs.flatMap encode) (as.flatMap encode)
              exact Std.OrientedCmp.gt_iff_lt.mpr after

theorem compare_lt_iff_lex [LT α] [Std.LawfulEqOrd α]
    (single : ∀ a b : α, compare a b = .lt ↔ a < b) {as bs : List α} :
    compare as bs = .lt ↔ as < bs := by
  induction as generalizing bs with
  | nil =>
      cases bs with
      | nil => exact ⟨nofun, nofun⟩
      | cons b bs => exact ⟨fun _ => List.nil_lt_cons b bs, fun _ => rfl⟩
  | cons a as ih =>
      cases bs with
      | nil => exact ⟨nofun, nofun⟩
      | cons b bs =>
          rw [List.compare_cons_cons, Ordering.then_eq_lt, single, ih, List.cons_lt_cons_iff,
            Std.LawfulEqOrd.compare_eq_iff_eq]

theorem compare_congr [Std.OrientedOrd α] [Std.OrientedOrd β] {a b : α} {x y : β}
    (lt : compare a b = .lt ↔ compare x y = .lt) (gt : compare b a = .lt ↔ compare y x = .lt) :
    compare a b = compare x y := by
  rw [← Std.OrientedCmp.gt_iff_lt, ← Std.OrientedCmp.gt_iff_lt] at gt
  cases first : compare a b with
  | lt => exact (lt.mp first).symm
  | gt => exact (gt.mp first).symm
  | eq =>
      cases second : compare x y with
      | eq => rfl
      | lt => rw [lt.mpr second] at first; cases first
      | gt => rw [gt.mpr second] at first; cases first

end

theorem compare_ofNat {m n : Nat} (lt : m < n) (small : n < 256) :
    compare (UInt8.ofNat m) (UInt8.ofNat n) = .lt := by
  rw [Std.compare_eq_lt, UInt8.lt_iff_toNat_lt, UInt8.toNat_ofNat', UInt8.toNat_ofNat',
    Nat.mod_eq_of_lt (lt.trans small), Nat.mod_eq_of_lt small]
  exact lt

theorem Apart.byte {m n : Nat} (small : n < 256) {xs ys : List UInt8}
    (order : m < n ∨ m = n ∧ Apart xs ys) : Apart (UInt8.ofNat m :: xs) (UInt8.ofNat n :: ys) := by
  rcases order with lt | ⟨rfl, apart⟩
  · exact .here (compare_ofNat lt small) xs ys
  · exact apart.prepend [UInt8.ofNat m]

def bigEndian : Nat → Nat → List UInt8
  | 0, _ => []
  | len + 1, n => bigEndian len (n / 256) ++ [UInt8.ofNat n]

def ofBigEndian (bytes : List UInt8) : Nat := bytes.foldl (fun n byte => n * 256 + byte.toNat) 0

@[simp] theorem length_bigEndian (len n : Nat) : (bigEndian len n).length = len := by
  induction len generalizing n with
  | zero => rfl
  | succ len ih => rw [bigEndian, List.length_append, ih, List.length_singleton]

theorem ofBigEndian_bigEndian {len n : Nat} (small : n < 256 ^ len) :
    ofBigEndian (bigEndian len n) = n := by
  induction len generalizing n with
  | zero =>
      rw [Nat.pow_zero, Nat.lt_one_iff] at small
      rw [small]
      rfl
  | succ len ih =>
      have less : n / 256 < 256 ^ len := by
        rw [Nat.pow_succ] at small
        omega
      have front := ih less
      rw [ofBigEndian] at front ⊢
      rw [bigEndian, List.foldl_append, front, List.foldl_cons, List.foldl_nil, UInt8.toNat_ofNat']
      omega

theorem bigEndian_apart {len m n : Nat} (lt : m < n) (small : n < 256 ^ len) :
    Apart (bigEndian len m) (bigEndian len n) := by
  induction len generalizing m n with
  | zero =>
      rw [Nat.pow_zero] at small
      omega
  | succ len ih =>
      rw [bigEndian, bigEndian]
      by_cases front : m / 256 = n / 256
      · have last : m % 256 < n % 256 := by omega
        rw [front]
        refine Apart.prepend _ (.here ?_ [] [])
        have wraps : ∀ k, UInt8.ofNat k = UInt8.ofNat (k % 256) := fun k => by
          rw [← UInt8.toNat_inj, UInt8.toNat_ofNat', UInt8.toNat_ofNat', Nat.mod_mod]
        rw [wraps m, wraps n]
        exact compare_ofNat last (Nat.mod_lt _ (by decide))
      · refine (ih (by omega) ?_).append _ _
        rw [Nat.pow_succ] at small
        omega

theorem compare_bigEndian {len m n : Nat} (smallM : m < 256 ^ len) (smallN : n < 256 ^ len)
    (xs ys : List UInt8) : compare (bigEndian len m ++ xs) (bigEndian len n ++ ys) =
      (compare m n).then (compare xs ys) := by
  rcases Nat.lt_trichotomy m n with lt | rfl | gt
  · rw [Nat.compare_eq_lt.mpr lt]
    exact (bigEndian_apart lt smallN).compare_lt xs ys
  · rw [compare_append, Nat.compare_eq_eq.mpr rfl]
    rfl
  · rw [Nat.compare_eq_gt.mpr gt]
    exact Std.OrientedCmp.gt_iff_lt.mpr ((bigEndian_apart gt smallM).compare_lt ys xs)

/-- The codes by the number of the character, whose digits in base 64 the bytes carry. -/
def utf8 (v : Nat) : List UInt8 :=
  if v ≤ 0x7f then [.ofNat v]
  else if v ≤ 0x7ff then [.ofNat (v / 64 % 0x20 + 0xc0), .ofNat (v % 0x40 + 0x80)]
  else if v ≤ 0xffff then
    [.ofNat (v / 4096 % 0x10 + 0xe0), .ofNat (v / 64 % 0x40 + 0x80), .ofNat (v % 0x40 + 0x80)]
  else
    [.ofNat (v / 262144 % 0x08 + 0xf0), .ofNat (v / 4096 % 0x40 + 0x80),
      .ofNat (v / 64 % 0x40 + 0x80), .ofNat (v % 0x40 + 0x80)]

section
variable {v w : Nat}

theorem apart_one (lt : v % 64 < w % 64) :
    Apart [UInt8.ofNat (v % 64 + 0x80)] [UInt8.ofNat (w % 64 + 0x80)] :=
  .here (compare_ofNat (by omega) (by omega)) [] []

theorem apart_two (lt : v % 4096 < w % 4096) :
    Apart [UInt8.ofNat (v / 64 % 64 + 0x80), UInt8.ofNat (v % 64 + 0x80)]
      [UInt8.ofNat (w / 64 % 64 + 0x80), UInt8.ofNat (w % 64 + 0x80)] := by
  refine .byte (by omega) ?_
  by_cases same : v / 64 % 64 = w / 64 % 64
  · exact Or.inr ⟨by rw [same], apart_one (by omega)⟩
  · exact Or.inl (by omega)

theorem apart_three (lt : v % 262144 < w % 262144) :
    Apart [UInt8.ofNat (v / 4096 % 64 + 0x80), UInt8.ofNat (v / 64 % 64 + 0x80),
        UInt8.ofNat (v % 64 + 0x80)]
      [UInt8.ofNat (w / 4096 % 64 + 0x80), UInt8.ofNat (w / 64 % 64 + 0x80),
        UInt8.ofNat (w % 64 + 0x80)] := by
  refine .byte (by omega) ?_
  by_cases same : v / 4096 % 64 = w / 4096 % 64
  · exact Or.inr ⟨by rw [same], apart_two (by omega)⟩
  · exact Or.inl (by omega)

theorem utf8_apart (lt : v < w) (small : w < 0x110000) : Apart (utf8 v) (utf8 w) := by
  -- A longer code starts with a larger byte.
  by_cases one : w ≤ 0x7f
  · rw [utf8, if_pos (by omega), utf8, if_pos one]
    exact .here (compare_ofNat lt (by omega)) [] []
  by_cases two : w ≤ 0x7ff
  · rw [utf8.eq_def w, if_neg one, if_pos two, utf8]
    split
    · exact .here (compare_ofNat (by omega) (by omega)) _ _
    · rw [if_pos (by omega)]
      refine .byte (by omega) ?_
      by_cases same : v / 64 = w / 64
      · exact Or.inr ⟨by rw [same], apart_one (by omega)⟩
      · exact Or.inl (by omega)
  by_cases three : w ≤ 0xffff
  · rw [utf8.eq_def w, if_neg one, if_neg two, if_pos three, utf8]
    split
    · exact .here (compare_ofNat (by omega) (by omega)) _ _
    split
    · exact .here (compare_ofNat (by omega) (by omega)) _ _
    · rw [if_pos (by omega)]
      refine .byte (by omega) ?_
      by_cases same : v / 4096 = w / 4096
      · exact Or.inr ⟨by rw [same], apart_two (by omega)⟩
      · exact Or.inl (by omega)
  · rw [utf8.eq_def w, if_neg one, if_neg two, if_neg three, utf8]
    split
    · exact .here (compare_ofNat (by omega) (by omega)) _ _
    split
    · exact .here (compare_ofNat (by omega) (by omega)) _ _
    split
    · exact .here (compare_ofNat (by omega) (by omega)) _ _
    · refine .byte (by omega) ?_
      by_cases same : v / 262144 = w / 262144
      · exact Or.inr ⟨by rw [same], apart_three (by omega)⟩
      · exact Or.inl (by omega)

end

theorem utf8_ordered : OrderedCode String.utf8EncodeChar where
  nonempty c := String.utf8EncodeChar_ne_nil
  apart c d lt := by
    have small : d.val.toNat < 0x110000 := by
      rcases d.valid with low | ⟨-, high⟩
      · omega
      · exact high
    have less : c < d := compareOfLessAndEq_eq_lt.mp lt
    rw [Char.lt_def, UInt32.lt_iff_toNat_lt] at less
    exact utf8_apart less small

end ByteOrder
