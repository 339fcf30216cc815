import CausalWorks.Fixture
import CausalWorks.Proof.RoundTrip
import CausalWorks.Proof.Sighting
import CausalWorks.Proof.SnapLength

/-!
# The fixture tells its script

What the frame builders put into a capture is what the parser reads from it, at the microsecond.
A record that is cut short of its extent is skipped, and no other.
-/

namespace CausalWorks
open Delivery (Response)
open Demo

inductive CellEvent where
  | interlock (frameId : UInt16) (level : Bool)
  | datagram (dstPort : UInt16) (payload : List UInt8)

namespace CellEvent

def build (profile : Profile) : CellEvent → Except Fault (List UInt8)
  | .interlock frameId level => .ok (profinetFrame frameId level)
  | .datagram dstPort payload => udpFrame profile dstPort payload

def decoded : CellEvent → Option IndustrialProtocol
  | .interlock frameId level => some (.profinetIrt frameId level (if level then 0x01 else 0x00))
  | .datagram dstPort payload =>
      if dstPort = fanucPosePort then
        if 12 ≤ payload.length then
          some (.fanucUdp (leFloat payload 0) (leFloat payload 4) (leFloat payload 8))
        else none
      else some (.ros2Udp dstPort (UInt16.ofNat payload.length))

def extent : CellEvent → Nat
  | .interlock _ _ => 17
  | .datagram _ payload => 42 + payload.length

def length : CellEvent → Nat
  | .interlock _ _ => 60
  | .datagram _ payload => 42 + payload.length

end CellEvent

structure ScriptEntry where
  tsNs : UInt64
  kept : Option Nat
  event : CellEvent

namespace ScriptEntry

def request (profile : Profile) (self : ScriptEntry) :
    Except Fault (UInt64 × Option Nat × List UInt8) := do
  let frame ← self.event.build profile
  return (self.tsNs, self.kept, frame)

structure Fits (entry : ScriptEntry) : Prop where
  seconds : entry.tsNs.toNat / 1000000000 < 2 ^ 32
  payload : entry.event.length < 42 + 65528
  kept : ∀ n ∈ entry.kept, n ≤ entry.event.length

def decoded (self : ScriptEntry) : Option (Nat × IndustrialProtocol) :=
  if self.event.extent ≤ self.kept.getD self.event.length then
    self.event.decoded.map (self.tsNs.toNat - self.tsNs.toNat % 1000, ·)
  else none

end ScriptEntry

def decodedAt (frame : Nat × List UInt8) : Option (Nat × IndustrialProtocol) :=
  match parseFrame (.ofNat frame.1) frame.2 with
  | .ok f => some (f.tapTsNs.toNat, f.proto)
  | .error _ => none

def scriptCapture (profile : Profile) (script : List ScriptEntry) : Except Fault (List UInt8) := do
  let requests ← script.mapM (ScriptEntry.request profile)
  writePcap requests

namespace Proof

theorem low_byte (w : UInt16) : (w &&& 0xff).toUInt8 = w.toUInt8 := by
  rw [← UInt8.toNat_inj, UInt16.toNat_toUInt8, UInt16.toNat_toUInt8, UInt16.toNat_and,
    show (0xff : UInt16).toNat = 2 ^ 8 - 1 from rfl, Nat.and_two_pow_sub_one_eq_mod, Nat.mod_mod]

theorem octet_behind {head rest : List UInt8} {i : Nat} (behind : head.length ≤ i) :
    octet (head ++ rest) i = octet rest (i - head.length) := by
  rw [octet, octet, List.getD_eq_getElem?_getD, List.getD_eq_getElem?_getD,
    List.getElem?_append_right behind]

theorem profinetFrame_eq (frameId : UInt16) (interlock : Bool) : profinetFrame frameId interlock =
    profinetBytes frameId (if interlock then 0x01 else 0x00) ++ List.replicate 43 0 := by
  cases interlock <;> rfl

def udpHeader (dstPort udpLen : UInt16) : List UInt8 :=
  List.replicate 12 0 ++ [0x08, 0x00, 0x45, 0, 0, 0, 0, 0, 0, 0, 0, 17, 0, 0, 0, 0, 0, 0, 0, 0, 0,
    0, 0, 0] ++ u16ToBeBytes dstPort ++ u16ToBeBytes udpLen ++ [0, 0]

theorem udpFrame_eq (profile : Profile) (dstPort : UInt16) {payload : List UInt8}
    (fits : payload.length < 65528) : udpFrame profile dstPort payload =
      .ok (udpHeader dstPort (UInt16.ofNat (8 + payload.length)) ++ payload) := by
  have size : (UInt16.ofNat payload.length).toNat = payload.length :=
    UInt16.toNat_ofNat_of_lt' (fits.trans (by decide))
  have room : ¬ 2 ^ 16 ≤ (8 : UInt16).toNat + (UInt16.ofNat payload.length).toNat := by
    rw [size, show (8 : UInt16).toNat = 8 from rfl]
    omega
  have sum : 8 + UInt16.ofNat payload.length = UInt16.ofNat (8 + payload.length) := by
    rw [UInt16.ofNat_add]
    rfl
  unfold udpFrame Profile.addU16
  rw [if_neg fun is => room is.2, sum]
  simp only [bind, Except.bind, pure, Except.pure, low_byte]
  rfl

section
variable (dstPort : UInt16) {payload : List UInt8} (fits : payload.length < 65528)

abbrev datagramBytes (dstPort : UInt16) (payload : List UInt8) : List UInt8 :=
  udpHeader dstPort (UInt16.ofNat (8 + payload.length)) ++ payload

theorem linkEnd_datagram : linkEnd (datagramBytes dstPort payload) = 14 := by
  have type : beWord (datagramBytes dstPort payload) 12 = 0x0800 := beWord_bytes rfl rfl
  exact if_neg fun tagged => absurd (type.symm.trans tagged) (by decide)

theorem ihl_datagram : ihl (datagramBytes dstPort payload) 14 = 5 := by
  have first : octet (datagramBytes dstPort payload) 14 = 0x45 := rfl
  rw [ihl, first]
  decide

theorem port_datagram : beWord (datagramBytes dstPort payload) 36 = dstPort := beWord_bytes rfl rfl

theorem length_datagram : (datagramBytes dstPort payload).length = 42 + payload.length := by
  rw [List.length_append]
  rfl

theorem leFloat_datagram (i : Nat) :
    leFloat (datagramBytes dstPort payload) (42 + i) = leFloat payload i := by
  have shifted : ∀ j, octet (datagramBytes dstPort payload) (42 + j) = octet payload j := by
    intro j
    have length : (udpHeader dstPort (UInt16.ofNat (8 + payload.length))).length = 42 := rfl
    rw [octet_behind (by omega), length, Nat.add_sub_cancel_left]
  simp only [leFloat, Nat.add_assoc, shifted]

theorem ipv4At_datagram : Ipv4At (datagramBytes dstPort payload) 14 17 := by
  refine ⟨beWord_bytes rfl rfl, by rw [ihl_datagram], ?_, rfl⟩
  rw [ihl_datagram, length_datagram]
  omega

include fits

theorem size_datagram :
    (beWord (datagramBytes dstPort payload) 38).toNat = 8 + payload.length := by
  have word : beWord (datagramBytes dstPort payload) 38 = UInt16.ofNat (8 + payload.length) :=
    beWord_bytes rfl rfl
  rw [word]
  exact UInt16.toNat_ofNat_of_lt' (by rw [show UInt16.size = 65536 from rfl]; omega)

theorem udpAt_datagram : UdpAt (datagramBytes dstPort payload) 34 := by
  refine ⟨?_, ?_⟩
  · rw [size_datagram dstPort fits]
    omega
  · rw [size_datagram dstPort fits, length_datagram]
    omega

theorem extent_datagram : extent (datagramBytes dstPort payload) = 42 + payload.length := by
  have ip := @ipv4At_datagram dstPort payload
  rw [← linkEnd_datagram dstPort] at ip
  rw [extent_udp ip, linkEnd_datagram, ihl_datagram, size_datagram dstPort fits]
  omega

theorem decodes_datagram {proto : IndustrialProtocol} :
    Decodes (datagramBytes dstPort payload) proto ↔
      (CellEvent.datagram dstPort payload).decoded = some proto := by
  have link := @linkEnd_datagram dstPort payload
  have words := @ihl_datagram dstPort payload
  have port := @port_datagram dstPort payload
  have size := size_datagram dstPort fits
  have x := @leFloat_datagram dstPort payload 0
  have y := @leFloat_datagram dstPort payload 4
  have z := @leFloat_datagram dstPort payload 8
  have ip := @ipv4At_datagram dstPort payload
  have udp := udpAt_datagram dstPort fits
  have whole : 14 ≤ (datagramBytes dstPort payload).length := by
    rw [length_datagram]
    omega
  rw [Decodes, link, CellEvent.decoded]
  constructor
  · rintro ⟨-, accepted⟩
    cases accepted with
    | profinet etherType => exact absurd (etherType.symm.trans ip.etherType) (by decide)
    | s7comm tcp => exact absurd (tcp.transport_eq.symm.trans ip.transport_eq) (by decide)
    | fanuc _ _ pose long =>
        rw [words] at pose long
        have robot : dstPort = fanucPosePort := port.symm.trans pose
        have enough : 20 ≤ 8 + payload.length := size ▸ long
        rw [if_pos robot, if_pos (by omega), words, x, y, z]
    | ros2 _ _ other =>
        rw [words] at other
        have stranger : dstPort ≠ fanucPosePort := fun robot => other (port.trans robot)
        rw [if_neg stranger, words, port, size, Nat.add_sub_cancel_left]
  · intro decoded
    refine ⟨whole, ?_⟩
    by_cases pose : dstPort = fanucPosePort
    · rw [if_pos pose] at decoded
      split at decoded
      · have here := Grammar.fanuc ip (by rwa [words]) (by rw [words]; exact port.trans pose)
          (by rw [words, size]; omega)
        rw [words, x, y, z] at here
        rwa [← Option.some.inj decoded]
      · cases decoded
    · rw [if_neg pose] at decoded
      have here := Grammar.ros2 ip (by rwa [words])
        (by rw [words]; exact fun same => pose (port.symm.trans same))
      rw [words, port, size, Nat.add_sub_cancel_left] at here
      rwa [← Option.some.inj decoded]

end

theorem decodes_profinet (frameId : UInt16) (level : Bool) {proto : IndustrialProtocol} :
    Decodes (profinetFrame frameId level) proto ↔
      (CellEvent.interlock frameId level).decoded = some proto := by
  have front : profinetBytes frameId (if level then 0x01 else 0x00) <+:
      profinetFrame frameId level := ⟨_, (profinetFrame_eq frameId level).symm⟩
  have parsed := parseFrame_of_decodes 0
    (profinetBytes_decode frameId (if level then 0x01 else 0x00))
  have bit : decide ((if level then (0x01 : UInt8) else 0x00).toNat % 2 = 1) = level := by
    cases level <;> rfl
  rw [bit] at parsed
  have whole := parseFrame_leading front parsed
  constructor
  · intro decodes
    have same := whole.symm.trans (parseFrame_of_decodes 0 decodes)
    exact congrArg some (DecodedFieldbusFrame.mk.inj (Except.ok.inj same)).2.1
  · intro decoded
    rw [← Option.some.inj decoded]
    exact parseFrame_iff.mp whole

theorem extent_profinetFrame (frameId : UInt16) (level : Bool) :
    extent (profinetFrame frameId level) = 17 := by
  have type : beWord (profinetFrame frameId level) 12 = 0x8892 := beWord_bytes rfl rfl
  have link : linkEnd (profinetFrame frameId level) = 14 :=
    if_neg fun tagged => absurd (type.symm.trans tagged) (by decide)
  rw [extent_profinet (by rw [link]; exact type), link]

structure Built (event : CellEvent) (buf : List UInt8) : Prop where
  length : buf.length = event.length
  extent_eq : extent buf = event.extent
  decodes_iff : ∀ proto, Decodes buf proto ↔ event.decoded = some proto

theorem build_event_ok (profile : Profile) {event : CellEvent} (fits : event.length < 42 + 65528) :
    ∃ buf, event.build profile = .ok buf ∧ Built event buf := by
  cases event with
  | interlock frameId level =>
      refine ⟨_, rfl, ?_, extent_profinetFrame frameId level,
        fun proto => decodes_profinet frameId level⟩
      rw [profinetFrame_eq]
      rfl
  | datagram dstPort payload =>
      have small : payload.length < 65528 := Nat.lt_of_add_lt_add_left fits
      exact ⟨_, udpFrame_eq profile dstPort small, length_datagram dstPort,
        extent_datagram dstPort small, fun proto => decodes_datagram dstPort small⟩

theorem decodedAt_cut {event : CellEvent} {buf : List UInt8} (built : Built event buf)
    {kept : Nat} {t : Nat} (time : t < 2 ^ 64) : decodedAt (t, buf.take kept) =
      if event.extent ≤ kept then event.decoded.map (t, ·) else none := by
  have exact_ : (UInt64.ofNat t).toNat = t := UInt64.toNat_ofNat_of_lt' time
  unfold decodedAt
  dsimp only
  cases decoded : event.decoded with
  | none =>
      rcases parseFrame_cases (UInt64.ofNat t) buf with ⟨proto, parsed⟩ | ⟨error, failed⟩
      · have some_ := (built.decodes_iff proto).mp (parseFrame_iff.mp parsed)
        rw [decoded] at some_
        cases some_
      · obtain ⟨error', cut⟩ := parse_cut_rejected failed kept
        rw [cut, Option.map_none, ite_self]
  | some proto =>
      have parsed := parseFrame_of_decodes (UInt64.ofNat t) ((built.decodes_iff proto).mpr decoded)
      rw [← built.extent_eq]
      rcases parse_cut parsed kept with ⟨enough, cut⟩ | ⟨short, error, cut⟩
      · rw [cut, if_pos enough]
        exact congrArg (fun t => some (t, proto)) exact_
      · rw [cut, if_neg (Nat.not_le.mpr short)]

theorem request_ok (profile : Profile) {entry : ScriptEntry} (fits : entry.Fits) :
    ∃ request, entry.request profile = .ok request ∧ Writable request ∧
      decodedAt (request.1.toNat - request.1.toNat % 1000, keptOf request) = entry.decoded := by
  obtain ⟨buf, built, is⟩ := build_event_ok profile fits.payload
  refine ⟨(entry.tsNs, entry.kept, buf), ?_, ?_, ?_⟩
  · rw [ScriptEntry.request, built]
    rfl
  · have small := fits.payload
    refine ⟨fits.seconds, ?_, ?_⟩
    · rw [is.length]
      exact fits.kept
    · rw [is.length]
      omega
  · have bound := entry.tsNs.toNat_lt
    have time : entry.tsNs.toNat - entry.tsNs.toNat % 1000 < 2 ^ 64 := by omega
    rw [ScriptEntry.decoded, ← is.length]
    exact decodedAt_cut is time

theorem requests_ok (profile : Profile) {script : List ScriptEntry}
    (fits : ∀ entry ∈ script, entry.Fits) :
    ∃ requests, script.mapM (ScriptEntry.request profile) = .ok requests ∧
      (∀ request ∈ requests, Writable request) ∧
      (requests.map fun request => (request.1.toNat - request.1.toNat % 1000, keptOf request)
        ).filterMap decodedAt = script.filterMap ScriptEntry.decoded := by
  induction script with
  | nil => exact ⟨[], rfl, nofun, rfl⟩
  | cons entry script ih =>
      obtain ⟨here, others⟩ := List.forall_mem_cons.mp fits
      obtain ⟨request, made, writable, decoded⟩ := request_ok profile here
      obtain ⟨requests, rest, allWritable, allDecoded⟩ := ih others
      refine ⟨request :: requests, ?_, List.forall_mem_cons.mpr ⟨writable, allWritable⟩, ?_⟩
      · rw [List.mapM_cons, made, rest]
        rfl
      · rw [List.map_cons, List.filterMap_cons, List.filterMap_cons, decoded, allDecoded]

def synthScript : List ScriptEntry :=
  let fanuc := CellEvent.datagram fanucPosePort
    (u32ToLeBytes 0x42c80000 ++ u32ToLeBytes 0x43480000 ++ u32ToLeBytes 0x42480000)
  let ros2 := CellEvent.datagram amrPort (List.replicate 32 0)
  [⟨10000000, none, ros2⟩, ⟨12000000, none, fanuc⟩, ⟨14000000, none, .interlock 0x0002 true⟩,
    ⟨20000000, some 20, fanuc⟩, ⟨30000000, none, ros2⟩, ⟨40000000, none, fanuc⟩,
    ⟨42000000, none, .interlock 0x0002 false⟩]

end Proof
end CausalWorks
