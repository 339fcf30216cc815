import CausalWorks.Ingest

/-!
# The parser never reads out of bounds

Every read of `parseFrame` is guarded by a length check, and the timestamp and the buffer are
handed through.
-/

namespace CausalWorks.Proof

def HandsThrough (ts : UInt64) (buf : List UInt8) : Parse DecodedFieldbusFrame → Prop
  | .ok f => f.tapTsNs = ts ∧ f.raw = buf
  | .error (.err _) => True
  | .error (.fault _) => False

theorem handsThrough_ok (ts : UInt64) (buf : List UInt8) (proto : IndustrialProtocol) :
    HandsThrough ts buf (.ok ⟨ts, proto, buf⟩) := ⟨rfl, rfl⟩

theorem handsThrough_fail (ts : UInt64) (buf : List UInt8) (error : ParseError) :
    HandsThrough ts buf (fail error) := trivial

theorem readU16_ok {buf : List UInt8} {off : Nat} (inside : off + 2 ≤ buf.length) :
    readU16 buf off = .ok (buf[off].toUInt16 <<< 8 ||| buf[off + 1].toUInt16) := by
  rw [readU16, byteAt_ok (by omega : off < buf.length),
    byteAt_ok (by omega : off + 1 < buf.length)]
  rfl

theorem readF32_ok {buf : List UInt8} {off : Nat} (inside : off + 4 ≤ buf.length) :
    ∃ bits, readF32 buf off = .ok bits := by
  rw [readF32, byteAt_ok (by omega : off < buf.length),
    byteAt_ok (by omega : off + 1 < buf.length), byteAt_ok (by omega : off + 2 < buf.length),
    byteAt_ok (by omega : off + 3 < buf.length)]
  exact ⟨_, rfl⟩

section
variable {ts : UInt64} {buf : List UInt8}

theorem parseProfinet_handsThrough (l3Offset : Nat) :
    HandsThrough ts buf (parseProfinet ts buf l3Offset) := by
  unfold parseProfinet
  dsimp only
  split
  · exact handsThrough_fail _ _ _
  · rename_i long
    rw [readU16_ok (by omega), byteAt_ok (by omega)]
    exact handsThrough_ok _ _ _

theorem parseTcp_handsThrough (l4Off : Nat) : HandsThrough ts buf (parseTcp ts buf l4Off) := by
  unfold parseTcp
  split
  · exact handsThrough_fail _ _ _
  · rename_i long
    rw [readU16_ok (by omega), readU16_ok (by omega)]
    simp only [bind, Except.bind]
    split
    · exact handsThrough_ok _ _ _
    · exact handsThrough_fail _ _ _

theorem parseUdp_handsThrough (udpOff : Nat) (header : udpOff + 8 ≤ buf.length) :
    HandsThrough ts buf (parseUdp ts buf udpOff) := by
  unfold parseUdp
  rw [readU16_ok (by omega), readU16_ok (by omega)]
  simp only [bind, Except.bind]
  split
  · exact handsThrough_fail _ _ _
  · rename_i body
    generalize buf[udpOff + 4].toUInt16 <<< 8 ||| buf[udpOff + 4 + 1].toUInt16 = udpLen at body ⊢
    split
    · split
      · exact handsThrough_fail _ _ _
      · rename_i payload
        rw [saturatingSubU16_toNat, show (8 : UInt16).toNat = 8 from rfl] at payload
        have long : udpOff + 8 + 12 ≤ buf.length := by omega
        obtain ⟨x, hx⟩ : ∃ x, readF32 buf (udpOff + 8) = .ok x := readF32_ok (by omega)
        obtain ⟨y, hy⟩ : ∃ y, readF32 buf (udpOff + 8 + 4) = .ok y := readF32_ok (by omega)
        obtain ⟨z, hz⟩ : ∃ z, readF32 buf (udpOff + 8 + 8) = .ok z := readF32_ok (by omega)
        simp only [hx, hy, hz]
        exact handsThrough_ok _ _ _
    · exact handsThrough_ok _ _ _

theorem parseIpv4Udp_handsThrough (ipOff : Nat) :
    HandsThrough ts buf (parseIpv4Udp ts buf ipOff) := by
  unfold parseIpv4Udp
  split
  · exact handsThrough_fail _ _ _
  · rename_i header
    rw [byteAt_ok (by omega : ipOff < buf.length)]
    simp only [bind, Except.bind]
    split
    · exact handsThrough_fail _ _ _
    · rename_i options
      rw [byteAt_ok (by omega : ipOff + 9 < buf.length)]
      simp only
      split
      · exact parseTcp_handsThrough _
      · split
        · exact handsThrough_fail _ _ _
        · exact parseUdp_handsThrough _ (by omega)

theorem parseEthertype_handsThrough (ethertype : UInt16) (l3Offset : Nat) :
    HandsThrough ts buf (parseEthertype ts buf ethertype l3Offset) := by
  unfold parseEthertype
  split
  · exact parseProfinet_handsThrough _
  · split
    · exact parseIpv4Udp_handsThrough _
    · exact handsThrough_fail _ _ _

theorem parseFrame_handsThrough (ts : UInt64) (buf : List UInt8) :
    HandsThrough ts buf (parseFrame ts buf) := by
  unfold parseFrame
  by_cases header : buf.length < ethHdrLen
  · rw [if_pos header]
    exact handsThrough_fail _ _ _
  · have long : ¬ buf.length < 14 := header
    rw [if_neg header, readU16_ok (by omega)]
    simp only [bind, Except.bind]
    split
    · by_cases tag : buf.length < ethHdrLen + vlanTagLen
      · rw [if_pos tag]
        exact handsThrough_fail _ _ _
      · have longer : ¬ buf.length < 18 := tag
        rw [if_neg tag, readU16_ok (by omega)]
        exact parseEthertype_handsThrough _ _
    · exact parseEthertype_handsThrough _ _

theorem parseFrame_cases (ts : UInt64) (buf : List UInt8) :
    (∃ proto, parseFrame ts buf = .ok ⟨ts, proto, buf⟩) ∨
      ∃ error, parseFrame ts buf = .error (.err error) := by
  have through := parseFrame_handsThrough ts buf
  cases parsed : parseFrame ts buf with
  | ok f =>
      rw [parsed] at through
      obtain ⟨rfl, rfl⟩ := through
      exact Or.inl ⟨f.proto, rfl⟩
  | error stop =>
      cases stop with
      | err error => exact Or.inr ⟨error, rfl⟩
      | fault fault =>
          rw [parsed] at through
          exact through.elim

end

end CausalWorks.Proof
