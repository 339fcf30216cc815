import CausalWorks.Proof.Profiles

/-!
# The headers, read twice

The helpers of the discovery pass and of the command line tool find in the raw bytes what the parser
has found there.
-/

namespace CausalWorks

structure HelpersAgree (ε : Type) (ts : UInt64) (buf : List UInt8) : Prop where
  inBounds : (∃ et, ethertypeOf buf = (.ok et : Except (Stop ε) _)) ∧
    (∃ payload, profinetIoPayload buf = (.ok payload : Except (Stop ε) _)) ∧
    ∃ port, udpDstPort buf = (.ok port : Except (Stop ε) _)
  short : ethertypeOf buf = (.ok none : Except (Stop ε) _) ↔
    ∃ n < 14, parseFrame ts buf = .error (.err (.truncated n))
  unhandled : ∀ e, parseFrame ts buf = .error (.err (.unhandledEtherType e)) →
    ethertypeOf buf = (.ok (some e) : Except (Stop ε) _)
  profinet : ∀ f frameId bit status, parseFrame ts buf = .ok f →
    f.proto = .profinetIrt frameId bit status →
    ethertypeOf buf = (.ok (some 0x8892) : Except (Stop ε) _) ∧
      ∃ rest, profinetIoPayload f.raw = (.ok (status :: rest) : Except (Stop ε) _)
  ros2 : ∀ f port len, parseFrame ts buf = .ok f → f.proto = .ros2Udp port len →
    udpDstPort f.raw = (.ok (some port) : Except (Stop ε) _)
  fanuc : ∀ f x y z, parseFrame ts buf = .ok f → f.proto = .fanucUdp x y z →
    udpDstPort f.raw = (.ok (some 60008) : Except (Stop ε) _) ∧
      DiscoveryEngine.streamOf f = (.ok (.udpPort 60008, none) : Except (Stop ε) _)

namespace Proof

def BlamesType (et : UInt16) : Parse DecodedFieldbusFrame → Prop
  | .error (.err (.truncated _)) => False
  | .error (.err (.unhandledEtherType e)) => e = et
  | _ => True

def NoError {α : Type} (parse : Parse α) : Prop := ∀ error, parse ≠ .error (.err error)

theorem blamesType_bind {α : Type} {et : UInt16} {parse : Parse α}
    {next : α → Parse DecodedFieldbusFrame} (noError : NoError parse)
    (blames : ∀ x, BlamesType et (next x)) : BlamesType et (parse >>= next) := by
  cases done : parse with
  | ok x => exact blames x
  | error stop =>
      cases stop with
      | err error => exact absurd done (noError error)
      | fault => trivial

theorem noError_bind {α β : Type} {parse : Parse α} {next : α → Parse β} (noError : NoError parse)
    (noErrors : ∀ x, NoError (next x)) : NoError (parse >>= next) := by
  intro error
  cases done : parse with
  | ok x => exact noErrors x error
  | error stop =>
      cases stop with
      | err error => exact absurd done (noError error)
      | fault =>
          intro same
          cases same

section
variable {buf : List UInt8} {ts : UInt64} {et : UInt16}

theorem byteAt_noError (off : Nat) : NoError (byteAt buf off : Parse UInt8) := by
  intro error same
  unfold byteAt at same
  split at same
  · cases same
  · cases same

theorem readU16_noError (off : Nat) : NoError (readU16 buf off) :=
  noError_bind (byteAt_noError off) fun _ =>
    noError_bind (byteAt_noError (off + 1)) fun _ _ => nofun

theorem readF32_noError (off : Nat) : NoError (readF32 buf off) :=
  noError_bind (byteAt_noError off) fun _ => noError_bind (byteAt_noError (off + 1)) fun _ =>
    noError_bind (byteAt_noError (off + 2)) fun _ =>
      noError_bind (byteAt_noError (off + 3)) fun _ _ => nofun

theorem parseProfinet_blames (off : Nat) : BlamesType et (parseProfinet ts buf off) := by
  unfold parseProfinet
  dsimp only
  split
  · trivial
  · exact blamesType_bind (readU16_noError _) fun _ =>
      blamesType_bind (byteAt_noError _) fun _ => trivial

theorem parseTcp_blames (off : Nat) : BlamesType ethertypeIpv4 (parseTcp ts buf off) := by
  unfold parseTcp
  split
  · trivial
  · refine blamesType_bind (readU16_noError _) fun src => ?_
    refine blamesType_bind (readU16_noError _) fun dst => ?_
    split
    · trivial
    · rfl

theorem parseUdp_blames (off : Nat) : BlamesType et (parseUdp ts buf off) := by
  unfold parseUdp
  refine blamesType_bind (readU16_noError _) fun dst => ?_
  refine blamesType_bind (readU16_noError _) fun len => ?_
  dsimp only
  split
  · trivial
  · split
    · split
      · trivial
      · exact blamesType_bind (readF32_noError _) fun _ =>
          blamesType_bind (readF32_noError _) fun _ =>
            blamesType_bind (readF32_noError _) fun _ => trivial
    · trivial

theorem parseIpv4Udp_blames (off : Nat) : BlamesType ethertypeIpv4 (parseIpv4Udp ts buf off) := by
  unfold parseIpv4Udp
  split
  · trivial
  · refine blamesType_bind (byteAt_noError _) fun first => ?_
    dsimp only
    split
    · trivial
    · refine blamesType_bind (byteAt_noError _) fun transport => ?_
      split
      · exact parseTcp_blames _
      · split
        · rfl
        · exact parseUdp_blames _

theorem parseEthertype_blames (off : Nat) : BlamesType et (parseEthertype ts buf et off) := by
  unfold parseEthertype
  split
  · exact parseProfinet_blames off
  · split
    · rename_i ipv4
      rw [ipv4]
      exact parseIpv4Udp_blames off
    · rfl

theorem parseFrame_blames (whole : linkEnd buf ≤ buf.length) :
    BlamesType (beWord buf (linkEnd buf - 2)) (parseFrame ts buf) := by
  have link := linkEnd_ge buf
  unfold parseFrame
  rw [if_neg (by show ¬ buf.length < 14; omega), readU16_beWord (by omega)]
  simp only [bind, Except.bind]
  by_cases tagged : beWord buf 12 = ethertypeVlan
  · have at_ : linkEnd buf = 18 := if_pos tagged
    rw [at_] at whole ⊢
    rw [if_pos tagged, if_neg (by show ¬ buf.length < 18; omega), readU16_beWord (by omega)]
    exact parseEthertype_blames _
  · have at_ : linkEnd buf = 14 := if_neg tagged
    rw [at_, if_neg tagged]
    exact parseEthertype_blames _

theorem parseFrame_cut (cut : ¬ linkEnd buf ≤ buf.length) :
    parseFrame ts buf = .error (.err (.truncated buf.length)) := by
  unfold parseFrame
  by_cases short : buf.length < ethHdrLen
  · rw [if_pos short]
    rfl
  · have long : 14 ≤ buf.length := Nat.not_lt.mp short
    rw [if_neg short, readU16_beWord (by omega)]
    by_cases tagged : beWord buf 12 = ethertypeVlan
    · rw [show linkEnd buf = 18 from if_pos tagged] at cut
      simp only [bind, Except.bind]
      rw [if_pos tagged, if_pos (by show buf.length < 18; omega)]
      rfl
    · rw [show linkEnd buf = 14 from if_neg tagged] at cut
      exact absurd long cut

theorem rawEthertype_whole (whole : linkEnd buf ≤ buf.length) :
    rawEthertype buf = some (beWord buf (linkEnd buf - 2)) := by
  have link := linkEnd_ge buf
  rw [rawEthertype, if_neg (by omega), if_pos whole]

theorem rawEthertype_none_iff :
    rawEthertype buf = none ↔ ∃ n < 14, parseFrame ts buf = .error (.err (.truncated n)) := by
  constructor
  · intro none_
    unfold rawEthertype at none_
    split at none_
    · rename_i short
      have link := linkEnd_ge buf
      exact ⟨buf.length, short, parseFrame_cut (by omega)⟩
    · split at none_ <;> cases none_
  · rintro ⟨n, small, failed⟩
    by_cases whole : linkEnd buf ≤ buf.length
    · have blames := @parseFrame_blames buf ts whole
      rw [failed] at blames
      exact blames.elim
    · rw [parseFrame_cut whole] at failed
      obtain rfl := ParseError.truncated.inj (Stop.err.inj (Except.error.inj failed))
      exact if_pos small

theorem rawEthertype_unhandled {e : UInt16}
    (failed : parseFrame ts buf = .error (.err (.unhandledEtherType e))) :
    rawEthertype buf = some e := by
  by_cases whole : linkEnd buf ≤ buf.length
  · have blames := @parseFrame_blames buf ts whole
    rw [failed] at blames
    obtain rfl : e = beWord buf (linkEnd buf - 2) := blames
    exact rawEthertype_whole whole
  · rw [parseFrame_cut whole] at failed
    cases failed

theorem ioPayload_status {frameId : UInt16} {bit : Bool} {status : UInt8}
    (decodes : Decodes buf (.profinetIrt frameId bit status)) :
    ∃ rest, ioPayload buf = status :: rest := by
  obtain ⟨whole, accepted⟩ := decodes
  cases accepted with
  | profinet etherType size =>
      have inside : linkEnd buf + 2 < buf.length := by omega
      refine ⟨buf.drop (linkEnd buf + 2 + 1), ?_⟩
      rw [ioPayload, if_pos whole, List.drop_eq_getElem_cons inside, octet,
        List.getD_eq_getElem?_getD, List.getElem?_eq_getElem inside, Option.getD_some]

end

theorem helpers_agree (ε : Type) (ts : UInt64) (buf : List UInt8) : HelpersAgree ε ts buf := by
  have accepted : ∀ f, parseFrame ts buf = .ok f → f.raw = buf ∧ Decodes buf f.proto :=
    fun f parsed => (((parses_exactly ts buf).accepts f).mp parsed).2
  constructor
  case inBounds => exact ⟨⟨_, ethertypeOf_ok⟩, ⟨_, profinetIoPayload_ok⟩, ⟨_, udpDstPort_ok⟩⟩
  case short => rw [ethertypeOf_ok, Except.ok.injEq, rawEthertype_none_iff]
  case unhandled =>
    intro e failed
    rw [ethertypeOf_ok, rawEthertype_unhandled failed]
  case profinet =>
    intro f frameId bit status parsed proto
    obtain ⟨raw, decodes⟩ := accepted f parsed
    rw [proto] at decodes
    obtain ⟨rest, payload⟩ := ioPayload_status decodes
    refine ⟨?_, rest, ?_⟩
    · rw [ethertypeOf_ok, rawEthertype_whole decodes.1]
      cases decodes.2 with
      | profinet etherType => rw [etherType]
    · rw [raw, profinetIoPayload_ok, payload]
  case ros2 =>
    intro f port len parsed proto
    obtain ⟨raw, decodes⟩ := accepted f parsed
    rw [proto] at decodes
    rw [raw, udpDstPort_ok]
    cases decodes.2 with
    | ros2 ip => rw [rawPort_udp ip]
  case fanuc =>
    intro f x y z parsed proto
    obtain ⟨raw, decodes⟩ := accepted f parsed
    rw [proto] at decodes
    have port : rawPort f.raw = some 60008 := by
      rw [raw]
      cases decodes.2 with
      | fanuc ip _ port => rw [rawPort_udp ip, port]
    refine ⟨?_, ?_⟩
    · rw [udpDstPort_ok, port]
    · unfold DiscoveryEngine.streamOf
      rw [proto, udpDstPort_ok, port]
      rfl

end Proof
end CausalWorks
