import Mathlib.Data.UInt

/-!
# Machine arithmetic of the shipped program

A Rust operation that can go wrong either aborts the process or, for integer overflow, does so
only under the `dev` profile: `Cargo.toml` leaves `overflow-checks` at its default, so `release`
wraps sums and masks shift amounts.
-/

namespace CausalWorks

inductive Profile where
  | dev
  | release
  deriving DecidableEq, Repr

def Profile.overflowChecks : Profile → Bool
  | .dev => true
  | .release => false

/-- What ends the process, or the loop bound of the model. -/
inductive Fault where
  | indexOutOfBounds (index length : Nat)
  | expectFailed (message : String)
  | shiftOverflow
  | addOverflow
  | mulOverflow
  | subOverflow
  | loopBound
  deriving DecidableEq, Repr

/-- How a fallible function stops: with an error value of the source, or with a fault. -/
inductive Stop (ε : Type) where
  | err (error : ε)
  | fault (fault : Fault)
  deriving DecidableEq, Repr

def orFault {ε α : Type} : Except Fault α → Except (Stop ε) α
  | .ok a => .ok a
  | .error fault => .error (.fault fault)

/-- The `?` operator, into an error type that has this one. -/
def wrapError {ε ε' α : Type} (into : ε → ε') : Except (Stop ε) α → Except (Stop ε') α
  | .ok a => .ok a
  | .error (.err error) => .error (.err (into error))
  | .error (.fault fault) => .error (.fault fault)

def byteAt {ε : Type} (buf : List UInt8) (off : Nat) : Except (Stop ε) UInt8 :=
  match buf[off]? with
  | some b => .ok b
  | none => .error (.fault (.indexOutOfBounds off buf.length))

def sliceAt {ε : Type} (buf : List UInt8) (off len : Nat) : Except (Stop ε) (List UInt8) :=
  if off + len ≤ buf.length then .ok ((buf.drop off).take len)
  else .error (.fault (.indexOutOfBounds (off + len) buf.length))

def suffixAt {ε : Type} (buf : List UInt8) (off : Nat) : Except (Stop ε) (List UInt8) :=
  if off ≤ buf.length then .ok (buf.drop off)
  else .error (.fault (.indexOutOfBounds off buf.length))

def u16At {ε : Type} (buf : List UInt8) (off : Nat) : Except (Stop ε) UInt16 := do
  let hi ← byteAt buf off
  let lo ← byteAt buf (off + 1)
  return hi.toUInt16 <<< 8 ||| lo.toUInt16

def Profile.shrU8 (profile : Profile) (x amount : UInt8) : Except Fault UInt8 :=
  if profile.overflowChecks = true ∧ 8 ≤ amount then .error .shiftOverflow
  else .ok (x >>> amount)

def Profile.addU64 (profile : Profile) (x y : UInt64) : Except Fault UInt64 :=
  if profile.overflowChecks = true ∧ 2 ^ 64 ≤ x.toNat + y.toNat then .error .addOverflow
  else .ok (x + y)

def Profile.mulU64 (profile : Profile) (x y : UInt64) : Except Fault UInt64 :=
  if profile.overflowChecks = true ∧ 2 ^ 64 ≤ x.toNat * y.toNat then .error .mulOverflow
  else .ok (x * y)

def Profile.addU16 (profile : Profile) (x y : UInt16) : Except Fault UInt16 :=
  if profile.overflowChecks = true ∧ 2 ^ 16 ≤ x.toNat + y.toNat then .error .addOverflow
  else .ok (x + y)

def Profile.shlU64 (profile : Profile) (x : UInt64) (amount : Nat) : Except Fault UInt64 :=
  if profile.overflowChecks = true ∧ 64 ≤ amount then .error .shiftOverflow
  else .ok (x <<< UInt64.ofNat amount)

def Profile.subI64 (profile : Profile) (x y : Int64) : Except Fault Int64 :=
  if profile.overflowChecks = true ∧
      (x.toInt - y.toInt < -2 ^ 63 ∨ 2 ^ 63 ≤ x.toInt - y.toInt) then .error .subOverflow
  else .ok (x - y)

def saturatingSub (x y : UInt64) : UInt64 := if y ≤ x then x - y else 0

def saturatingSubU16 (x y : UInt16) : UInt16 := if y ≤ x then x - y else 0

def clampU64 (x lo hi : UInt64) : Except Fault UInt64 :=
  if lo ≤ hi then .ok (if x < lo then lo else if hi < x then hi else x)
  else .error (.expectFailed "assertion failed: min <= max")

def prefixAt (buf : List UInt8) (len : Nat) : Except Fault (List UInt8) :=
  if len ≤ buf.length then .ok (buf.take len) else .error (.indexOutOfBounds len buf.length)

theorem bind_ok {ε α β : Type} {x : Except ε α} {next : α → Except ε β} {b : β}
    (done : x >>= next = .ok b) : ∃ a, x = .ok a ∧ next a = .ok b := by
  cases x with
  | error e => cases done
  | ok a => exact ⟨a, rfl, done⟩

theorem mapM_ok {ε α β : Type} {f : α → Except ε β} {g : α → β} {xs : List α}
    (each : ∀ x ∈ xs, f x = .ok (g x)) : xs.mapM f = .ok (xs.map g) := by
  induction xs with
  | nil => rfl
  | cons x xs ih =>
      rw [List.mapM_cons, each x List.mem_cons_self,
        ih fun y later => each y (List.mem_cons_of_mem _ later)]
      rfl

theorem byteAt_ok {ε : Type} {buf : List UInt8} {off : Nat} (inside : off < buf.length) :
    (byteAt buf off : Except (Stop ε) UInt8) = .ok buf[off] := by
  simp [byteAt, List.getElem?_eq_getElem inside]

@[simp] theorem shrU8_release (x amount : UInt8) :
    Profile.release.shrU8 x amount = .ok (x >>> amount) := rfl

theorem or_shiftLeft (lo hi : Nat) {k : Nat} (small : lo < 2 ^ k) :
    lo ||| hi <<< k = lo + hi * 2 ^ k := by
  rw [Nat.or_comm, Nat.shiftLeft_eq, Nat.mul_comm, ← Nat.two_pow_add_eq_or_of_lt small,
    Nat.add_comm]

theorem shrU8_of_lt (profile : Profile) (x amount : UInt8) (small : amount < 8) :
    profile.shrU8 x amount = .ok (x >>> amount) := by
  have notLarge : ¬ 8 ≤ amount := by
    rw [UInt8.lt_iff_toNat_lt] at small
    rw [UInt8.le_iff_toNat_le]
    omega
  simp [Profile.shrU8, notLarge]

theorem addU64_of_lt (profile : Profile) (x y : UInt64) (small : x.toNat + y.toNat < 2 ^ 64) :
    profile.addU64 x y = .ok (x + y) := by
  have notLarge : ¬ 2 ^ 64 ≤ x.toNat + y.toNat := by omega
  simp only [Profile.addU64, notLarge, and_false, if_false]

theorem mulU64_of_lt (profile : Profile) (x y : UInt64) (small : x.toNat * y.toNat < 2 ^ 64) :
    profile.mulU64 x y = .ok (x * y) := by
  have notLarge : ¬ 2 ^ 64 ≤ x.toNat * y.toNat := by omega
  simp only [Profile.mulU64, notLarge, and_false, if_false]

theorem shlU64_one (profile : Profile) {amount : Nat} (small : amount < 64) :
    ∃ x, profile.shlU64 1 amount = .ok x ∧ x.toNat = 2 ^ amount := by
  have power : 2 ^ amount < 2 ^ 64 := Nat.pow_lt_pow_right (by decide) small
  refine ⟨_, if_neg (by omega), ?_⟩
  rw [UInt64.toNat_shiftLeft, UInt64.toNat_ofNat_of_lt' (small.trans (by decide)),
    Nat.mod_eq_of_lt small, Nat.shiftLeft_eq, UInt64.toNat_one, Nat.one_mul,
    Nat.mod_eq_of_lt power]

theorem toInt_toInt64 {x : UInt64} (small : x.toNat < 2 ^ 63) : x.toInt64.toInt = x.toNat := by
  rw [Int64.toInt, UInt64.toBitVec_toInt64, BitVec.toInt_eq_toNat_of_lt, UInt64.toNat_toBitVec]
  rw [UInt64.toNat_toBitVec]
  omega

theorem subI64_of_small (profile : Profile) {x y : UInt64} (smallX : x.toNat < 2 ^ 63)
    (smallY : y.toNat < 2 ^ 63) :
    profile.subI64 x.toInt64 y.toInt64 = .ok (x.toInt64 - y.toInt64) ∧
      (x.toInt64 - y.toInt64).toInt = (x.toNat : Int) - y.toNat := by
  constructor
  · refine if_neg ?_
    rw [toInt_toInt64 smallX, toInt_toInt64 smallY]
    omega
  · rw [Int64.toInt_sub, toInt_toInt64 smallX, toInt_toInt64 smallY, Int.bmod_eq_of_le]
    · omega
    · omega

@[simp] theorem saturatingSub_toNat (x y : UInt64) :
    (saturatingSub x y).toNat = x.toNat - y.toNat := by
  unfold saturatingSub
  split
  · rename_i le
    exact UInt64.toNat_sub_of_le _ _ le
  · rename_i le
    rw [UInt64.le_iff_toNat_le] at le
    simp only [UInt64.toNat_zero]
    omega

@[simp] theorem saturatingSubU16_toNat (x y : UInt16) :
    (saturatingSubU16 x y).toNat = x.toNat - y.toNat := by
  unfold saturatingSubU16
  split
  · rename_i le
    exact UInt16.toNat_sub_of_le _ _ le
  · rename_i le
    rw [UInt16.le_iff_toNat_le] at le
    simp only [UInt16.toNat_zero]
    omega

end CausalWorks
