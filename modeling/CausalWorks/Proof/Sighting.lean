import CausalWorks.Proof.Grammar
import CausalWorks.Proof.Overlap

/-!
# Which nodes a capture can sight

The parser keeps the port of the robot for poses, and the node that comes first in the table takes
every frame that it matches. A node that is neither deaf nor hidden is sighted by its own frame.
-/

namespace CausalWorks

def u16ToBeBytes (w : UInt16) : List UInt8 := [(w >>> 8).toUInt8, w.toUInt8]

def profinetBytes (frameId : UInt16) (status : UInt8) : List UInt8 :=
  List.replicate 12 0 ++ ([0x88, 0x92] ++ u16ToBeBytes frameId ++ [status])

def udpBytes (dstPort : UInt16) : List UInt8 :=
  List.replicate 12 0 ++ ([0x08, 0x00, 0x45, 0, 0, 0, 0, 0, 0, 0, 0, 17, 0, 0, 0, 0, 0, 0, 0, 0, 0,
    0, 0, 0] ++ u16ToBeBytes dstPort ++ [0, 20, 0, 0] ++ List.replicate 12 0)

def NodeMatcherCfg.wire (self : NodeMatcherCfg) (level : Bool) : List UInt8 :=
  match self with
  | .profinet frameId _ => profinetBytes frameId (Proof.statusOf level)
  | .ros2Port topicPort => udpBytes topicPort
  | .fanucPose => udpBytes fanucPosePort

def NodeMatcherCfg.reading (self : NodeMatcherCfg) (level : Bool) : Option Bool :=
  match self with
  | .profinet _ _ => some level
  | .ros2Port _ | .fanucPose => none

def DependencyManifest.Sighted (self : DependencyManifest) (profile : Profile) (node : NodeId) :
    Prop :=
  ∃ ts buf f interlock, parseFrame ts buf = .ok f ∧
    self.classify profile f = .ok (some (node, interlock))

/-- The matcher of the node is not that of the robot's port, `dev` can shift to its bit, and no node
that comes before it in the table overlaps with it. -/
def ManifestCfg.Sightable (self : ManifestCfg) (profile : Profile) (manifest : DependencyManifest)
    (node : NodeId) : Prop :=
  ∃ n ∈ self.nodes, n.id = node ∧ n.matcher ≠ .ros2Port fanucPosePort ∧
    (profile = .dev → n.matcher.Readable) ∧
    ∀ n' ∈ self.nodes, n'.matcher.Overlaps n.matcher →
      ¬ [n'.id, n.id].Sublist manifest.nodes.keys

namespace Proof
variable {profile : Profile} {order : IterationOrder} {cfg : ManifestCfg}
  {manifest : DependencyManifest} {node : NodeId}

theorem beWord_bytes {buf : List UInt8} {i : Nat} {w : UInt16}
    (hi : octet buf i = (w >>> 8).toUInt8) (lo : octet buf (i + 1) = w.toUInt8) :
    beWord buf i = w := by
  rw [beWord, hi, lo, ← UInt16.toNat_inj]
  have small := w.toNat_lt
  simp only [UInt16.toNat_toUInt8, UInt16.toNat_shiftRight, UInt16.toNat_ofNat',
    Nat.shiftRight_eq_div_pow, UInt16.reduceToNat, Nat.reduceMod]
  omega

theorem profinetBytes_decode (frameId : UInt16) (status : UInt8) :
    Decodes (profinetBytes frameId status)
      (.profinetIrt frameId (decide (status.toNat % 2 = 1)) status) := by
  have type : beWord (profinetBytes frameId status) 12 = 0x8892 := beWord_bytes rfl rfl
  have link : linkEnd (profinetBytes frameId status) = 14 :=
    if_neg fun tagged => absurd (type.symm.trans tagged) (by decide)
  have word : beWord (profinetBytes frameId status) 14 = frameId := beWord_bytes rfl rfl
  have length : (profinetBytes frameId status).length = 17 := rfl
  rw [Decodes, link, length]
  refine ⟨by decide, ?_⟩
  have here := @Grammar.profinet (profinetBytes frameId status) 14 type (by rw [length])
  rwa [word] at here

theorem udpBytes_decode (dstPort : UInt16) :
    dstPort = 60008 ∧ (∃ x y z, Decodes (udpBytes dstPort) (.fanucUdp x y z)) ∨
      dstPort ≠ 60008 ∧ Decodes (udpBytes dstPort) (.ros2Udp dstPort 12) := by
  have type : beWord (udpBytes dstPort) 12 = 0x0800 := beWord_bytes rfl rfl
  have link : linkEnd (udpBytes dstPort) = 14 :=
    if_neg fun tagged => absurd (type.symm.trans tagged) (by decide)
  have words : ihl (udpBytes dstPort) 14 = 5 := by
    have first : octet (udpBytes dstPort) 14 = 0x45 := rfl
    rw [ihl, first]
    decide
  have word : beWord (udpBytes dstPort) 36 = dstPort := beWord_bytes rfl rfl
  have size : beWord (udpBytes dstPort) 38 = 20 := beWord_bytes rfl rfl
  have length : (udpBytes dstPort).length = 54 := rfl
  have ip : Ipv4At (udpBytes dstPort) 14 17 :=
    ⟨type, by rw [words], by rw [words, length]; decide, rfl⟩
  have udp : UdpAt (udpBytes dstPort) 34 := ⟨by rw [size]; decide, by rw [size, length]; decide⟩
  have whole : linkEnd (udpBytes dstPort) ≤ (udpBytes dstPort).length := by
    rw [link, length]
    decide
  have decoded : ∀ {proto}, Grammar (udpBytes dstPort) 14 proto →
      Decodes (udpBytes dstPort) proto := fun accepted => ⟨whole, by rwa [link]⟩
  by_cases pose : dstPort = 60008
  · have here := Grammar.fanuc ip (by rwa [words]) (by rwa [words, word])
      (by rw [words, size]; decide)
    exact Or.inl ⟨pose, _, _, _, decoded here⟩
  · have here := Grammar.ros2 ip (by rwa [words]) (by rwa [words, word])
    rw [words, word, size] at here
    exact Or.inr ⟨pose, decoded here⟩

theorem parseFrame_of_decodes {buf : List UInt8} {proto : IndustrialProtocol} (ts : UInt64)
    (decodes : Decodes buf proto) : parseFrame ts buf = .ok ⟨ts, proto, buf⟩ :=
  ((parses_exactly ts buf).accepts _).mpr ⟨rfl, rfl, decodes⟩

theorem wire_parses {m : NodeMatcherCfg} (known : m ≠ .ros2Port fanucPosePort) (ts : UInt64)
    (level : Bool) : ∃ f, parseFrame ts (m.wire level) = .ok f ∧ f.tapTsNs = ts ∧
      m.into.claim f = some (m.reading level) := by
  cases m with
  | profinet frameId bitIndex =>
      refine ⟨_, parseFrame_of_decodes ts (profinetBytes_decode frameId (statusOf level)), rfl, ?_⟩
      simp [NodeMatcherCfg.into, NodeMatcher.claim, NodeMatcherCfg.reading, statusOf_bit]
  | ros2Port topicPort =>
      rcases udpBytes_decode topicPort with ⟨pose, -⟩ | ⟨-, decodes⟩
      · exact absurd (congrArg NodeMatcherCfg.ros2Port pose) known
      · refine ⟨_, parseFrame_of_decodes ts decodes, rfl, ?_⟩
        simp [NodeMatcherCfg.into, NodeMatcher.claim, NodeMatcherCfg.reading]
  | fanucPose =>
      rcases udpBytes_decode fanucPosePort with ⟨-, x, y, z, decodes⟩ | ⟨other, -⟩
      · exact ⟨_, parseFrame_of_decodes ts decodes, rfl, rfl⟩
      · exact absurd rfl other

theorem unclaimed_pose {buf : List UInt8} {f : DecodedFieldbusFrame} {ts : UInt64}
    (parsed : parseFrame ts buf = .ok f) :
    (NodeMatcherCfg.ros2Port fanucPosePort).into.claim f = none := by
  obtain ⟨-, -, -, accepted⟩ := ((parses_exactly ts buf).accepts f).mp parsed
  cases proto : f.proto with
  | profinetIrt | fanucUdp | s7commArrival => simp [NodeMatcherCfg.into, NodeMatcher.claim, proto]
  | ros2Udp topicPort payloadLen =>
      rw [proto] at accepted
      cases accepted with
      | ros2 ip udp port =>
          have other := Ne.symm port
          simp only [NodeMatcherCfg.into, NodeMatcher.claim, proto]
          exact if_neg other

theorem matchesFrame_some_iff {m : NodeMatcherCfg} {f : DecodedFieldbusFrame}
    {interlock : Option Bool} : m.into.matchesFrame profile f = .ok (some interlock) ↔
      m.into.claim f = some interlock ∧ (profile = .dev → m.Readable) := by
  constructor
  · intro claims
    rcases matchesFrame_cases profile m.into f with done | ⟨-, failed⟩
    · have claim := Except.ok.inj (done.symm.trans claims)
      refine ⟨claim, ?_⟩
      rintro rfl
      exact (matchesFrame_claimed claim).mp claims
    · cases failed.symm.trans claims
  · rintro ⟨claim, readable⟩
    cases profile with
    | release => rw [matchesFrame_release, claim]
    | dev => exact (matchesFrame_claimed claim).mpr (readable rfl)

theorem unclaimed_of_skipped {m : NodeMatcher} {f : DecodedFieldbusFrame}
    (skipped : m.matchesFrame profile f = .ok none) : m.claim f = none := by
  rcases matchesFrame_cases profile m f with done | ⟨-, failed⟩
  · exact Except.ok.inj (done.symm.trans skipped)
  · cases failed.symm.trans skipped

theorem before_iff {α : Type} {a b : α} {earlier later : List α}
    (distinct : (earlier ++ b :: later).Nodup) :
    [a, b].Sublist (earlier ++ b :: later) ↔ a ∈ earlier := by
  constructor
  · intro before
    obtain ⟨front, back, split, first, second⟩ := List.append_sublist_iff.mp
      (show ([a] ++ [b]).Sublist (earlier ++ b :: later) from before)
    have first := List.singleton_sublist.mp first
    have second := List.singleton_sublist.mp second
    rcases List.append_eq_append_iff.mp split with ⟨middle, rfl, rest⟩ | ⟨middle, rfl, rest⟩
    · cases middle with
      | nil => simpa using first
      | cons c middle =>
          obtain ⟨rfl, rfl⟩ := List.cons.inj rest
          have alone := (List.nodup_cons.mp (List.nodup_append.mp distinct).2.1).1
          exact absurd (List.mem_append_right _ second) alone
    · exact List.mem_append_left _ first
  · intro member
    exact (List.singleton_sublist.mpr member).append
      (List.singleton_sublist.mpr List.mem_cons_self)

theorem classify_some_iff (accepted : cfg.build order = .ok manifest) {f : DecodedFieldbusFrame}
    {interlock : Option Bool} : manifest.classify profile f = .ok (some (node, interlock)) ↔
      ∃ n ∈ cfg.nodes, n.id = node ∧ n.matcher.into.claim f = some interlock ∧
        (profile = .dev → n.matcher.Readable) ∧
        ∀ n' ∈ cfg.nodes, n'.matcher.Overlaps n.matcher →
          ¬ [n'.id, n.id].Sublist manifest.nodes.keys := by
  have built := built_of_build accepted
  have distinct := (wellFormed_of_build accepted).distinct
  have keys : ∀ {earlier m later n}, manifest.nodes.entries = earlier ++ ⟨n, m⟩ :: later →
      ∀ id, [id, n].Sublist manifest.nodes.keys ↔ id ∈ earlier.map Sigma.fst := by
    intro earlier m later n entries id
    have same : manifest.nodes.keys = earlier.map Sigma.fst ++ n :: later.map Sigma.fst := by
      rw [AList.keys, List.keys, entries, List.map_append, List.map_cons]
    rw [same]
    exact before_iff (same ▸ manifest.nodes.keys_nodup)
  unfold DependencyManifest.classify
  rw [classifyEntries_some_iff]
  constructor
  · rintro ⟨earlier, m, later, entries, skipped, claims⟩
    obtain ⟨n, declared, rfl, rfl⟩ := (mem_entries built).mp
      (entries ▸ List.mem_append_right _ List.mem_cons_self : ⟨node, m⟩ ∈ manifest.nodes.entries)
    obtain ⟨claim, readable⟩ := matchesFrame_some_iff.mp claims
    refine ⟨n, declared, rfl, claim, readable, ?_⟩
    intro n' declared' overlap before
    obtain ⟨⟨id', m'⟩, inside, same⟩ := List.mem_map.mp ((keys entries n'.id).mp before)
    obtain ⟨n'', declared'', same', rfl⟩ := (mem_entries built).mp
      (entries ▸ List.mem_append_left _ inside : ⟨id', m'⟩ ∈ manifest.nodes.entries)
    obtain rfl := List.inj_on_of_nodup_map distinct declared'' declared' (same'.trans same)
    have shared := claim_overlap overlap f
    rw [unclaimed_of_skipped (skipped _ inside), claim] at shared
    cases shared
  · rintro ⟨n, declared, rfl, claim, readable, first⟩
    obtain ⟨earlier, later, entries⟩ := List.append_of_mem
      ((mem_entries built).mpr ⟨n, declared, rfl, rfl⟩)
    refine ⟨earlier, _, later, entries, ?_, matchesFrame_some_iff.mpr ⟨claim, readable⟩⟩
    rintro ⟨id', m'⟩ member
    obtain ⟨n', declared', rfl, rfl⟩ := (mem_entries built).mp
      (entries ▸ List.mem_append_left _ member : ⟨id', m'⟩ ∈ manifest.nodes.entries)
    apply matchesFrame_unclaimed
    by_contra claims
    have overlap := overlaps_of_claims (Option.isSome_iff_ne_none.mpr claims)
      (Option.isSome_iff_exists.mpr ⟨interlock, claim⟩)
    exact first n' declared' overlap
      ((keys entries n'.id).mpr (List.mem_map.mpr ⟨_, member, rfl⟩))

theorem wire_classified (accepted : cfg.build order = .ok manifest)
    (sightable : cfg.Sightable profile manifest node) : ∃ n ∈ cfg.nodes, n.id = node ∧
      ∀ ts level, ∃ f, parseFrame ts (n.matcher.wire level) = .ok f ∧ f.tapTsNs = ts ∧
        manifest.classify profile f = .ok (some (node, n.matcher.reading level)) := by
  obtain ⟨n, declared, id, known, readable, first⟩ := sightable
  refine ⟨n, declared, id, fun ts level => ?_⟩
  obtain ⟨f, parsed, stamped, claim⟩ := wire_parses known ts level
  exact ⟨f, parsed, stamped,
    (classify_some_iff accepted).mpr ⟨n, declared, id, claim, readable, first⟩⟩

theorem sighted_iff (accepted : cfg.build order = .ok manifest) :
    manifest.Sighted profile node ↔ cfg.Sightable profile manifest node := by
  constructor
  · rintro ⟨ts, buf, f, interlock, parsed, classified⟩
    obtain ⟨n, declared, id, claim, readable, first⟩ := (classify_some_iff accepted).mp classified
    refine ⟨n, declared, id, ?_, readable, first⟩
    intro pose
    rw [pose, unclaimed_pose parsed] at claim
    cases claim
  · intro sightable
    obtain ⟨n, -, -, frames⟩ := wire_classified accepted sightable
    obtain ⟨f, parsed, -, classified⟩ := frames 0 true
    exact ⟨_, _, f, _, parsed, classified⟩

end Proof
end CausalWorks
