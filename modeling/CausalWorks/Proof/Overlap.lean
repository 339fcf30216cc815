import CausalWorks.Proof.Fork

/-!
# Nodes that claim the same frames

Two matchers either claim the same frames or have none in common. Where several nodes claim a frame,
the iteration order of the node map decides between them.
-/

namespace CausalWorks
open Relation

namespace NodeMatcherCfg

def Overlaps : NodeMatcherCfg → NodeMatcherCfg → Prop
  | .profinet frameId _, .profinet frameId' _ => frameId = frameId'
  | .ros2Port topicPort, .ros2Port topicPort' => topicPort = topicPort'
  | .fanucPose, .fanucPose => True
  | _, _ => False

instance : DecidableRel Overlaps := fun a b => by
  cases a <;> cases b <;> unfold Overlaps <;> infer_instance

def Readable : NodeMatcherCfg → Prop
  | .profinet _ bitIndex => bitIndex < 8
  | .ros2Port _ | .fanucPose => True

def sample (self : NodeMatcherCfg) (level : Bool) : DecodedFieldbusFrame :=
  match self with
  | .profinet frameId _ => ⟨0, .profinetIrt frameId level (Proof.statusOf level), []⟩
  | .ros2Port topicPort => ⟨0, .ros2Udp topicPort 32, []⟩
  | .fanucPose => ⟨0, .fanucUdp 0 0 0, []⟩

end NodeMatcherCfg

namespace ManifestCfg
variable (self : ManifestCfg)

def DisjointMatchers : Prop :=
  ∀ n ∈ self.nodes, ∀ n' ∈ self.nodes, n.matcher.Overlaps n'.matcher → n = n'

def AtMostOneClaim : Prop :=
  ∀ f, ∀ n ∈ self.nodes, ∀ n' ∈ self.nodes, (n.matcher.into.claim f).isSome →
    (n'.matcher.into.claim f).isSome → n = n'

end ManifestCfg

namespace Proof
variable {profile : Profile} {order : IterationOrder} {cfg : ManifestCfg} {m : DependencyManifest}
  {a b : NodeMatcherCfg} {f : DecodedFieldbusFrame}

theorem claim_overlap (overlap : a.Overlaps b) (f : DecodedFieldbusFrame) :
    (a.into.claim f).isSome = (b.into.claim f).isSome := by
  cases a <;> cases b <;> try exact overlap.elim
  · obtain rfl := overlap
    cases proto : f.proto <;> simp only [NodeMatcherCfg.into, NodeMatcher.claim, proto]
    split <;> rfl
  · obtain rfl := overlap
    rfl
  · rfl

theorem overlaps_of_claims (here : (a.into.claim f).isSome) (there : (b.into.claim f).isSome) :
    a.Overlaps b := by
  unfold NodeMatcherCfg.into NodeMatcher.claim at here there
  cases proto : f.proto <;> cases a <;> simp [proto] at here <;> cases b <;> simp [proto] at there
  · exact here.trans there.symm
  · exact here.trans there.symm
  · trivial

theorem overlaps_symm (overlap : a.Overlaps b) : b.Overlaps a := by
  cases a <;> cases b <;> first | exact overlap.elim | exact Eq.symm overlap | trivial

theorem claim_sample (a : NodeMatcherCfg) (level : Bool) :
    (a.into.claim (a.sample level)).isSome := by
  cases a <;> simp [NodeMatcherCfg.into, NodeMatcher.claim, NodeMatcherCfg.sample]

theorem atMostOneClaim_iff : cfg.AtMostOneClaim ↔ cfg.DisjointMatchers := by
  constructor
  · intro once n declared n' declared' overlap
    refine once (n.matcher.sample true) n declared n' declared' (claim_sample _ _) ?_
    rw [← claim_overlap overlap]
    exact claim_sample _ _
  · intro disjoint f n declared n' declared' here there
    exact disjoint n declared n' declared' (overlaps_of_claims here there)

theorem matchesFrame_unclaimed (unclaimed : a.into.claim f = none) :
    a.into.matchesFrame profile f = .ok none := by
  cases a <;> cases proto : f.proto <;>
    simp_all [NodeMatcherCfg.into, NodeMatcher.claim, NodeMatcher.matchesFrame]

theorem matchesFrame_claimed {interlock : Option Bool} (claims : a.into.claim f = some interlock) :
    a.into.matchesFrame .dev f = .ok (some interlock) ↔ a.Readable := by
  cases a with
  | ros2Port | fanucPose =>
      rw [matchesFrame_ok (fun _ _ other => by cases other) f, claims]
      exact ⟨fun _ => trivial, fun _ => rfl⟩
  | profinet frameId bitIndex =>
      by_cases small : bitIndex < 8
      · rw [matchesFrame_of_lt .dev (fun _ _ same => by cases same; exact small) f, claims]
        exact ⟨fun _ => small, fun _ => rfl⟩
      · cases proto : f.proto with
        | ros2Udp | fanucUdp | s7commArrival =>
            simp [NodeMatcherCfg.into, NodeMatcher.claim, proto] at claims
        | profinetIrt fid interlockBit rawStatusByte =>
            have same : frameId = fid := by
              by_contra other
              simp [NodeMatcherCfg.into, NodeMatcher.claim, proto, other] at claims
            rw [UInt8.not_lt] at small
            simp [NodeMatcherCfg.into, NodeMatcher.matchesFrame, proto, same, Profile.shrU8,
              Profile.overflowChecks, small, bind, Except.bind, NodeMatcherCfg.Readable]

theorem assign_some (built : cfg.Built m) {id : NodeId} {interlock : Option Bool}
    (assigned : m.assign f = some (id, interlock)) :
    ∃ n ∈ cfg.nodes, n.id = id ∧ n.matcher.into.claim f = some interlock := by
  obtain ⟨⟨_, matcher⟩, entry, claims⟩ := List.exists_of_findSome?_eq_some assigned
  obtain ⟨n, declared, rfl, rfl⟩ := (mem_entries built).mp entry
  obtain ⟨reading, claim, same⟩ := Option.map_eq_some_iff.mp claims
  obtain ⟨rfl, rfl⟩ := Prod.mk.inj same
  exact ⟨n, declared, rfl, claim⟩

theorem assign_headed {n : NodeCfg} (declared : n ∈ cfg.nodes)
    (accepted : cfg.build (.headed n.id) = .ok m) {interlock : Option Bool}
    (claims : n.matcher.into.claim f = some interlock) : m.assign f = some (n.id, interlock) := by
  obtain ⟨rest, entries⟩ := headed_entries declared accepted
  simp [DependencyManifest.assign, entries, claims]

theorem entry_matcher (accepted : cfg.build order = .ok m) {n : NodeCfg} (declared : n ∈ cfg.nodes)
    {matcher : NodeMatcher} (entry : ⟨n.id, matcher⟩ ∈ m.nodes.entries) :
    matcher = n.matcher.into := by
  obtain ⟨n', declared', same, rfl⟩ := (mem_entries (built_of_build accepted)).mp entry
  rw [List.inj_on_of_nodup_map (wellFormed_of_build accepted).distinct declared' declared same]

theorem classify_dev_iff (accepted : cfg.build order = .ok m) {n : NodeCfg}
    (declared : n ∈ cfg.nodes) {interlock : Option Bool}
    (assigned : m.assign f = some (n.id, interlock)) :
    m.classify .dev f = .ok (m.assign f) ↔ n.matcher.Readable := by
  rw [assigned]
  obtain ⟨earlier, ⟨id, matcher⟩, later, entries, found, skipped⟩ :=
    List.findSome?_eq_some_iff.mp assigned
  obtain ⟨reading, claims, same⟩ := Option.map_eq_some_iff.mp found
  obtain ⟨rfl, rfl⟩ := Prod.mk.inj same
  obtain rfl : matcher = n.matcher.into := entry_matcher accepted declared (by simp [entries])
  rw [← matchesFrame_claimed claims]
  constructor
  · intro classified
    obtain ⟨_, matcher, _, split, -, reads⟩ := (classifyEntries_some_iff _).mp classified
    obtain rfl : matcher = n.matcher.into := entry_matcher accepted declared (by simp [split])
    exact reads
  · intro reads
    refine (classifyEntries_some_iff _).mpr ⟨earlier, _, later, entries, fun e member => ?_, reads⟩
    obtain ⟨id, matcher⟩ := e
    have entry : ⟨id, matcher⟩ ∈ m.nodes.entries := by simp [entries, member]
    obtain ⟨n', -, -, rfl⟩ := (mem_entries (built_of_build accepted)).mp entry
    exact matchesFrame_unclaimed (by simpa using skipped _ member)

theorem classify_dev_unassigned (accepted : cfg.build order = .ok m)
    (unassigned : m.assign f = none) : m.classify .dev f = .ok none := by
  have each : ∀ entry ∈ m.nodes.entries, entry.2.matchesFrame .dev f = .ok (entry.2.claim f) := by
    rintro ⟨id, matcher⟩ entry
    have unclaimed := List.findSome?_eq_none_iff.mp unassigned _ entry
    obtain ⟨n', -, -, rfl⟩ := (mem_entries (built_of_build accepted)).mp entry
    rw [Option.map_eq_none_iff] at unclaimed
    rw [matchesFrame_unclaimed unclaimed, unclaimed]
  rw [← unassigned]
  exact classifyEntries_ok _ each

end Proof
end CausalWorks
