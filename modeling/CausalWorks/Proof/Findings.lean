import CausalWorks.Proof.Interleaved
import CausalWorks.Proof.SelfContained
import CausalWorks.Proof.Warnings
import CausalWorks.Report

/-!
# What a finding is worth

A finding warns exactly if the overrun of its root could be an artefact of the timestamps, which are
good up to the jitter floor of their source only.
-/

namespace CausalWorks

/-- The spans between the timestamps of the ring are off the true ones by at most `jitter`. -/
def TrueWithin (jitter : Nat) (window : History) (truth : StateTransition → Int) : Prop :=
  ∀ t ∈ window, ∀ u ∈ window,
    |(t.tsNs.toNat - u.tsNs.toNat : Int) - (truth t - truth u)| ≤ jitter

def OfFile (tsSource : TimestampSource) : Prop :=
  (∃ src : PcapReplaySource, tsSource = src.timestampSource) ∨
    ∃ src : StreamingPcapSource, tsSource = src.timestampSource

structure RootOf (manifest : DependencyManifest) (window : History) (trip : StateTransition)
    (tsSource : TimestampSource) (line : RootLine) (l : CausalLink) : Prop where
  chain : ∃ nearer, CausalChain manifest window trip (l :: nearer)
  edge : l.edge = ⟨line.edgeFrom, line.edgeTo, line.wcetNs⟩
  span : l.trigger.tsNs.toNat + line.observedDtNs.toNat = l.effect.tsNs.toNat
  overrun : line.wcetNs.toNat + line.overrunNs.toNat = line.observedDtNs.toNat
  positive : 0 < line.overrunNs.toNat
  warned : line.warned = true ↔ ∃ truth,
    TrueWithin tsSource.approxJitterFloorNs.toNat window truth ∧
      truth l.effect - truth l.trigger ≤ line.wcetNs.toNat
  silent : OfFile tsSource → line.warned = false

structure HonestFinding (manifest : DependencyManifest) (window : History) (packet : Packet)
    (trip : StateTransition) (tsSource : TimestampSource) (finding : Finding) : Prop where
  tripTs : finding.tripTsNs = packet.1
  unattributed : finding.root = none ↔
    ∀ x ∈ examined manifest window trip, ∀ l ∈ linksInto manifest window x, l.dt ≤ l.edge.wcetNs
  root : ∀ line ∈ finding.root, ∃ l, RootOf manifest window trip tsSource line l

def FindsHonestly (CAP : Nat) (profile : Profile) (manifest : DependencyManifest)
    (packets : List Packet) : Prop :=
  ∀ results, replayResults CAP profile manifest packets = .ok results →
    ∀ (i : Nat) analysis, results[i]? = some (some analysis) → ∃ packet, packets[i]? = some packet ∧
      ∀ tsSource applianceId events safetyFunctionId budgetNs,
        HonestFinding manifest (heldAt CAP manifest packets i) packet analysis.tripEvent tsSource
          (printFinding (.build applianceId analysis events safetyFunctionId budgetNs) tsSource)

namespace Proof
variable {manifest : DependencyManifest} {window : History} {trip : StateTransition}
  {tsSource : TimestampSource}

theorem doubtful_iff {l : CausalLink} (effect : l.effect ∈ window) (trigger : l.trigger ∈ window)
    {wcet overrun jitter : Nat} (late : 0 < overrun)
    (span : l.trigger.tsNs.toNat + (wcet + overrun) = l.effect.tsNs.toNat) :
    (∃ truth, TrueWithin jitter window truth ∧ truth l.effect - truth l.trigger ≤ wcet) ↔
      overrun ≤ jitter := by
  constructor
  · rintro ⟨truth, near, met⟩
    have apart := abs_le.mp (near l.effect effect l.trigger trigger)
    omega
  · intro small
    refine ⟨fun t => t.tsNs.toNat - if l.trigger.tsNs < t.tsNs then overrun else 0, ?_, ?_⟩
    · intro t _ u _
      rw [abs_le]
      dsimp only
      split <;> split <;> omega
    · have after : l.trigger.tsNs < l.effect.tsNs := UInt64.lt_iff_toNat_lt.mpr (by omega)
      have self : ¬ l.trigger.tsNs < l.trigger.tsNs := UInt64.lt_irrefl _
      simp only [if_pos after, if_neg self]
      omega

theorem rootOf_catalyst {c : CandidateCatalyst} (sound : SoundCatalyst manifest window trip c) :
    RootOf manifest window trip tsSource
      { edgeFrom := c.edge.edgeFrom
        edgeTo := c.edge.edgeTo
        observedDtNs := c.observedDtNs
        wcetNs := c.wcetNs
        overrunNs := saturatingSub c.observedDtNs c.wcetNs
        percent := c.normalizedOverrun * 100.0
        warned := !decide (tsSource.approxJitterFloorNs < saturatingSub c.observedDtNs c.wcetNs) }
      ⟨c.edge, c.trigger, c.effect⟩ := by
  obtain ⟨⟨nearer, chain⟩, span, violated, budget⟩ := sound
  obtain ⟨effect, trigger⟩ := chain.recent _ List.mem_cons_self
  have more := UInt64.lt_iff_toNat_lt.mp violated
  have overrun := @saturatingSub_toNat c.observedDtNs c.wcetNs
  rw [← budget] at more
  have late : 0 < (saturatingSub c.observedDtNs c.wcetNs).toNat := by omega
  have total : c.wcetNs.toNat + (saturatingSub c.observedDtNs c.wcetNs).toNat =
      c.observedDtNs.toNat := by omega
  refine ⟨⟨nearer, chain⟩, ?_, span, total, late, ?warned, ?silent⟩
  · rw [budget]
  case warned =>
    rw [doubtful_iff effect trigger late (total ▸ span), Bool.not_eq_true', decide_eq_false_iff_not,
      UInt64.not_lt, UInt64.le_iff_toNat_le]
  case silent =>
    intro file
    obtain rfl : tsSource = .replayFile := by
      rcases file with ⟨src, rfl⟩ | ⟨src, rfl⟩
      · rfl
      · rfl
    rw [Bool.not_eq_false', decide_eq_true_eq]
    exact UInt64.lt_iff_toNat_lt.mpr late

theorem finds_honestly {CAP : Nat} (positive : 0 < CAP) (profile : Profile) (nodes : NodeTable)
    (edges : List DependencyEdge) (tripNode : NodeId) (packets : List Packet) :
    FindsHonestly CAP profile (.new nodes edges tripNode) packets := by
  intro results done i analysis reported
  have indexed := new_indexed nodes edges tripNode
  generalize DependencyManifest.new nodes edges tripNode = manifest at indexed done ⊢
  obtain ⟨⟨packet, at_, time⟩, inside, attributed⟩ :=
    replayed_analysis positive indexed done reported
  refine ⟨packet, at_, fun tsSource applianceId events safetyFunctionId budgetNs => ?_⟩
  refine ⟨time, ?unattributed, ?root⟩
  case unattributed =>
    refine Iff.trans ?_ unattributed_iff
    rw [← attributed]
    exact Option.map_eq_none_iff.trans (Option.map_eq_none_iff.trans List.head?_eq_none_iff)
  case root =>
    intro line printed
    obtain ⟨_, root, rfl⟩ := Option.map_eq_some_iff.mp printed
    obtain ⟨c, head, rfl⟩ := Option.map_eq_some_iff.mp root
    have blamed := List.mem_of_head? head
    rw [attributed] at blamed
    exact ⟨_, rootOf_catalyst (attribution_sound inside c blamed)⟩

theorem finds_honestly_cell : FindsHonestly 4 .dev Cell.manifest Cell.inTurn :=
  finds_honestly (by decide) .dev _ _ Cell.plc _

end Proof
end CausalWorks
