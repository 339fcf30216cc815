import CausalWorks.Harness
import CausalWorks.Proof.Grammar

/-!
# The helpers that read the headers again

`ethertypeOf`, `profinetIoPayload` and `udpDstPort` walk the link header as the parser does, and
never read past the end.
-/

namespace CausalWorks

def portBehind (buf : List UInt8) (L : Nat) : Option UInt16 :=
  if beWord buf (L - 2) ≠ 0x0800 ∨ buf.length < L + 20 ∨ buf.length < L + 4 * ihl buf L + 4 then
    none
  else some (beWord buf (L + 4 * ihl buf L + 2))

def rawEthertype (buf : List UInt8) : Option UInt16 :=
  if buf.length < 14 then none
  else if linkEnd buf ≤ buf.length then some (beWord buf (linkEnd buf - 2))
  else some 0x8100

def ioPayload (buf : List UInt8) : List UInt8 :=
  if linkEnd buf ≤ buf.length then buf.drop (linkEnd buf + 2) else []

def rawPort (buf : List UInt8) : Option UInt16 :=
  if linkEnd buf ≤ buf.length then portBehind buf (linkEnd buf) else none

namespace Proof
variable {buf : List UInt8} {ε : Type}

theorem linkEnd_ge (buf : List UInt8) : 14 ≤ linkEnd buf := by
  unfold linkEnd
  split <;> omega

theorem ethertypeOf_ok :
    (ethertypeOf buf : Except (Stop ε) (Option UInt16)) = .ok (rawEthertype buf) := by
  unfold ethertypeOf rawEthertype
  by_cases short : buf.length < 14
  · rw [if_pos short, if_pos short]
    rfl
  rw [if_neg short, if_neg short, u16At_beWord (by omega)]
  simp only [bind, Except.bind, pure, Except.pure]
  by_cases tagged : beWord buf 12 = 0x8100
  · rw [if_pos tagged, show linkEnd buf = 18 from if_pos tagged]
    by_cases cut : buf.length < 18
    · rw [if_pos cut, if_neg (by omega)]
    · rw [if_neg cut, if_pos (by omega), u16At_beWord (by omega)]
  · rw [if_neg tagged, show linkEnd buf = 14 from if_neg tagged, if_pos (by omega)]

theorem payloadFrom_ok (L : Nat) :
    (payloadFrom buf L : Except (Stop ε) (List UInt8)) = .ok (buf.drop (L + 2)) := by
  unfold payloadFrom
  by_cases empty : buf.length ≤ L + 2
  · rw [if_pos empty, List.drop_eq_nil_of_le empty]
    rfl
  · rw [if_neg empty, suffixAt, if_pos (by omega)]

theorem profinetIoPayload_ok :
    (profinetIoPayload buf : Except (Stop ε) (List UInt8)) = .ok (ioPayload buf) := by
  have link := linkEnd_ge buf
  unfold profinetIoPayload ioPayload
  by_cases short : buf.length < 14
  · rw [if_pos short, if_neg (by omega)]
    rfl
  rw [if_neg short, u16At_beWord (by omega)]
  simp only [bind, Except.bind, pure, Except.pure]
  by_cases tagged : beWord buf 12 = 0x8100
  · rw [if_pos tagged, show linkEnd buf = 18 from if_pos tagged]
    by_cases cut : buf.length < 18
    · rw [if_pos cut, if_neg (by omega)]
    · rw [if_neg cut, if_pos (by omega), u16At_beWord (by omega)]
      exact payloadFrom_ok 18
  · rw [if_neg tagged, show linkEnd buf = 14 from if_neg tagged, if_pos (by omega)]
    exact payloadFrom_ok 14

theorem dstPortFrom_ok (L : Nat) :
    (dstPortFrom buf (beWord buf (L - 2)) L : Except (Stop ε) (Option UInt16)) =
      .ok (portBehind buf L) := by
  unfold dstPortFrom portBehind
  by_cases other : beWord buf (L - 2) ≠ 0x0800 ∨ buf.length < L + 20
  · rw [if_pos other, if_pos (other.imp_right Or.inl)]
    rfl
  rw [if_neg other, byteAt_octet (by omega)]
  simp only [bind, Except.bind, pure, Except.pure, lowNibble]
  rw [show (octet buf L).toNat % 16 = ihl buf L from rfl, Nat.mul_comm (ihl buf L)]
  by_cases short : buf.length < L + 4 * ihl buf L + 4
  · rw [if_pos short, if_pos (Or.inr (Or.inr short))]
  · have whole : ¬ (beWord buf (L - 2) ≠ 0x0800 ∨ buf.length < L + 20 ∨
        buf.length < L + 4 * ihl buf L + 4) := by
      rw [← or_assoc]
      exact fun here => here.elim other short
    rw [if_neg short, if_neg whole, u16At_beWord (by omega)]

theorem udpDstPort_ok :
    (udpDstPort buf : Except (Stop ε) (Option UInt16)) = .ok (rawPort buf) := by
  have link := linkEnd_ge buf
  unfold udpDstPort rawPort
  by_cases short : buf.length < 14
  · rw [if_pos short, if_neg (by omega)]
    rfl
  rw [if_neg short, u16At_beWord (by omega)]
  simp only [bind, Except.bind, pure, Except.pure]
  by_cases tagged : beWord buf 12 = 0x8100
  · rw [if_pos tagged, show linkEnd buf = 18 from if_pos tagged]
    by_cases cut : buf.length < 18
    · rw [if_pos cut, if_neg (by omega)]
    · rw [if_neg cut, if_pos (by omega), u16At_beWord (by omega)]
      exact dstPortFrom_ok 18
  · rw [if_neg tagged, show linkEnd buf = 14 from if_neg tagged, if_pos (by omega)]
    exact dstPortFrom_ok 14

end Proof
end CausalWorks
