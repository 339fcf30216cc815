import CausalWorks.Proof.Reparse

/-!
# What the discovery pass does with a frame

No frame stops the pass: it folds an accepted frame into the profile under its key, and counts
every other by its EtherType.
-/

namespace CausalWorks

namespace DecodedFieldbusFrame

def streamKey (f : DecodedFieldbusFrame) : StreamKey :=
  match f.proto with
  | .profinetIrt frameId _ _ => .profinet frameId
  | .ros2Udp topicPort _ => .udpPort topicPort
  | .fanucUdp _ _ _ => .udpPort ((rawPort f.raw).getD 0)
  | .s7commArrival port => .s7comm port

def watchedPayload (f : DecodedFieldbusFrame) : Option (List UInt8) :=
  match f.proto with
  | .profinetIrt _ _ _ => some (ioPayload f.raw)
  | _ => none

end DecodedFieldbusFrame

def StreamProfile.take (self : StreamProfile) (f : DecodedFieldbusFrame) : StreamProfile :=
  self.observe f.tapTsNs f.watchedPayload

namespace DiscoveryEngine

def observed (self : DiscoveryEngine) (f : DecodedFieldbusFrame) : DiscoveryEngine :=
  { self with
    totalFrames := self.totalFrames + 1
    streams := self.streams.accumulate (·.streamKey) .new .take f }

def discovered (self : DiscoveryEngine) (packet : Packet) : DiscoveryEngine :=
  match parseFrame packet.1 packet.2 with
  | .ok f => self.observed f
  | .error _ => self.observeUnclassified (rawEthertype packet.2)

end DiscoveryEngine

namespace Proof
variable {ε : Type}

theorem streamOf_ok (f : DecodedFieldbusFrame) :
    (DiscoveryEngine.streamOf f : Except (Stop ε) (StreamKey × Option (List UInt8))) =
      .ok (f.streamKey, f.watchedPayload) := by
  obtain ⟨ts, proto, raw⟩ := f
  cases proto with
  | profinetIrt => simp only [DiscoveryEngine.streamOf, profinetIoPayload_ok]; rfl
  | fanucUdp => simp only [DiscoveryEngine.streamOf, udpDstPort_ok]; rfl
  | ros2Udp | s7commArrival => rfl

theorem observe_eq (disc : DiscoveryEngine) (f : DecodedFieldbusFrame) :
    (disc.observe f : Except (Stop ε) DiscoveryEngine) = .ok (disc.observed f) := by
  simp only [DiscoveryEngine.observe, streamOf_ok]
  rfl

theorem discoverFrame_eq (disc : DiscoveryEngine) (packet : Packet) :
    (discoverFrame disc packet : Except (Stop ε) DiscoveryEngine) =
      .ok (disc.discovered packet) := by
  obtain ⟨ts, buf⟩ := packet
  unfold discoverFrame DiscoveryEngine.discovered tryParse
  simp only [ethertypeOf_ok, bind, Except.bind, observe_eq]
  rcases parseFrame_cases ts buf with ⟨proto, parsed⟩ | ⟨error, failed⟩
  · simp only [parsed]
  · simp only [failed]
    rfl

theorem discover_eq (disc : DiscoveryEngine) (packets : List Packet) :
    (packets.foldlM discoverFrame disc : Except (Stop ε) DiscoveryEngine) =
      .ok (packets.foldl DiscoveryEngine.discovered disc) := by
  have pass : (discoverFrame : _ → _ → Except (Stop ε) DiscoveryEngine) =
      fun disc packet => pure (disc.discovered packet) := by
    funext disc packet
    exact discoverFrame_eq disc packet
  rw [pass]
  exact List.foldlM_pure

theorem comparePayload_gaps (profile : StreamProfile) (payload : Option (List UInt8)) :
    (profile.comparePayload payload).lastTsNs = profile.lastTsNs ∧
      (profile.comparePayload payload).interarrival = profile.interarrival := by
  cases payload with
  | none => exact ⟨rfl, rfl⟩
  | some p =>
      simp only [StreamProfile.comparePayload]
      split
      · exact ⟨rfl, rfl⟩
      · exact ⟨rfl, rfl⟩

theorem take_lastTsNs (profile : StreamProfile) (f : DecodedFieldbusFrame) :
    (profile.take f).lastTsNs = some f.tapTsNs := (comparePayload_gaps _ _).1

theorem take_interarrival (profile : StreamProfile) (f : DecodedFieldbusFrame) :
    (profile.take f).interarrival = (profile.recordGap f.tapTsNs).interarrival :=
  (comparePayload_gaps _ _).2

end Proof
end CausalWorks
