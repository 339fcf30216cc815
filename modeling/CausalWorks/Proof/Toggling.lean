import CausalWorks.Proof.Coverage
import CausalWorks.Proof.Profiles
import CausalWorks.Proof.Safety
import CausalWorks.Proof.Staging
import Mathlib.Data.Nat.Bitwise

/-!
# Toggling bits and trips

The mask of a stream has a bit exactly when that bit differed between two of its payloads. A trip
needs both levels of the interlock bit, so its bit is in the mask.
-/

namespace CausalWorks

def bitAt (bytes : List UInt8) (i b : Nat) : Bool := (octet bytes i).toNat.testBit b

def levelsRead (profile : Profile) (m : NodeMatcher) :
    List DecodedFieldbusFrame → Except Fault (List Bool)
  | [] => .ok []
  | f :: frames => do
      let reading ← m.matchesFrame profile f
      let levels ← levelsRead profile m frames
      match reading with
      | some (some level) => return level :: levels
      | _ => return levels

def DiscoveryEngine.Toggles (self : DiscoveryEngine) (frameId : UInt16) (byteI : Nat)
    (bit : UInt8) : Prop :=
  ∃ stream, self.streams.value (.profinet frameId) = some stream ∧
    (byteI, bit) ∈ stream.togglingBits

structure InterlockSeen (packets : List Packet) (frameId : UInt16) (bit : UInt8)
    (engine : DiscoveryEngine) : Prop where
  levels : ∀ profile, ∃ levels, levelsRead profile (.profinetFrame frameId bit)
      (acceptedFrames packets) = .ok levels ∧
    (engine.Toggles frameId 0 bit ↔ ∃ x ∈ levels, ∃ y ∈ levels, x ≠ y)
  trips : ∀ (CAP : Nat) profile (manifest : DependencyManifest),
    manifest.nodes.lookup manifest.tripNode = some (.profinetFrame frameId bit) →
    (CausalGraphObserver.new manifest : CausalGraphObserver CAP).reports profile packets ≠ [] →
    engine.Toggles frameId 0 bit

namespace Proof

/-! ## Bits of the mask -/

theorem masked_bit (mask bit : UInt8) (small : bit < 8) :
    (mask &&& (1 <<< bit) != 0) = mask.toNat.testBit bit.toNat := by
  have few : bit.toNat < 8 := UInt8.lt_iff_toNat_lt.mp small
  have power : 2 ^ bit.toNat < 2 ^ 8 := Nat.pow_lt_pow_right (by decide) few
  have value : (mask &&& (1 <<< bit)).toNat =
      (mask.toNat.testBit bit.toNat).toNat * 2 ^ bit.toNat := by
    have shifted : (1 <<< bit : UInt8).toNat = 2 ^ bit.toNat := by
      rw [UInt8.toNat_shiftLeft, Nat.mod_eq_of_lt few, Nat.shiftLeft_eq]
      exact (Nat.mod_eq_of_lt (by simpa using power)).trans (Nat.one_mul _)
    rw [UInt8.toNat_and, shifted, Nat.and_two_pow]
  rw [Bool.eq_iff_iff, bne_iff_ne, ne_eq, ← UInt8.toNat_inj, value]
  cases mask.toNat.testBit bit.toNat with
  | false => simp
  | true => simp

theorem mem_togglingBits {profile : StreamProfile} {i : Nat} {bit : UInt8} (small : bit < 8) :
    (i, bit) ∈ profile.togglingBits ↔ bitAt profile.xorMask i bit.toNat = true := by
  have listed : bit ∈ ([0, 1, 2, 3, 4, 5, 6, 7] : List UInt8) := by
    have all : ∀ n : Fin 8, UInt8.ofNat n.val ∈ ([0, 1, 2, 3, 4, 5, 6, 7] : List UInt8) := by
      decide
    have here := all ⟨bit.toNat, UInt8.lt_iff_toNat_lt.mp small⟩
    rwa [UInt8.ofNat_toNat] at here
  unfold StreamProfile.togglingBits
  rw [List.mem_flatMap]
  constructor
  · rintro ⟨⟨mask, at_⟩, member, inside⟩
    obtain ⟨bit', set_, same⟩ := List.mem_map.mp inside
    obtain ⟨rfl, rfl⟩ := Prod.mk.inj same
    have set_ := (List.mem_filter.mp set_).2
    have place := List.mk_mem_zipIdx_iff_getElem?.mp member
    rw [masked_bit mask bit' small] at set_
    rwa [bitAt, octet, List.getD_eq_getElem?_getD, place, Option.getD_some]
  · intro set_
    cases place : profile.xorMask[i]? with
    | none =>
        rw [bitAt, octet, List.getD_eq_getElem?_getD, place] at set_
        exact absurd set_ (by simp)
    | some mask =>
        rw [bitAt, octet, List.getD_eq_getElem?_getD, place, Option.getD_some] at set_
        refine ⟨(mask, i), List.mk_mem_zipIdx_iff_getElem?.mpr place, ?_⟩
        refine List.mem_map.mpr ⟨bit, List.mem_filter.mpr ⟨listed, ?_⟩, rfl⟩
        exact (masked_bit mask bit small).trans set_

theorem bitAt_orDifferences {mask first payload : List UInt8}
    (aligned : mask.length = first.length) (i b : Nat) :
    bitAt (orDifferences mask first payload) i b =
      (bitAt mask i b || (decide (i < first.length ∧ i < payload.length) &&
        (bitAt first i b != bitAt payload i b))) := by
  induction mask, first, payload using orDifferences.induct generalizing i with
  | case1 m mask a first c payload ih =>
      cases i with
      | zero =>
          simp [orDifferences, bitAt, octet]
      | succ i =>
          have here := ih (Nat.succ.inj aligned) i
          simpa [orDifferences, bitAt, octet] using here
  | case2 mask first payload short =>
      have outside : ¬ (i < first.length ∧ i < payload.length) := by
        cases mask with
        | nil => simp [List.length_eq_zero_iff.mp aligned.symm]
        | cons m mask =>
            cases first with
            | nil => simp
            | cons a first =>
                cases payload with
                | nil => simp
                | cons c payload => exact (short m mask a first c payload rfl rfl rfl).elim
      rw [orDifferences.eq_2 _ _ _ short]
      simp [outside]

/-! ## The mask of a stream -/

theorem bitAt_blank (n i b : Nat) : bitAt (.replicate n 0) i b = false := by
  have zero : octet (.replicate n 0) i = 0 := by
    rw [octet, List.getD_eq_getElem?_getD, List.getElem?_replicate]
    split
    · rfl
    · rfl
  rw [bitAt, zero]
  exact Nat.zero_testBit b

theorem observe_mask (profile : StreamProfile) (ts : UInt64) (payload : Option (List UInt8)) :
    (profile.observe ts payload).firstPayload = (profile.comparePayload payload).firstPayload ∧
      (profile.observe ts payload).xorMask = (profile.comparePayload payload).xorMask := by
  have gap : (profile.recordGap ts).firstPayload = profile.firstPayload ∧
      (profile.recordGap ts).xorMask = profile.xorMask := by
    unfold StreamProfile.recordGap
    split
    · exact ⟨rfl, rfl⟩
    · exact ⟨rfl, rfl⟩
  unfold StreamProfile.observe StreamProfile.comparePayload
  cases payload with
  | none => exact gap
  | some p =>
      simp only [gap.1]
      split
      · exact ⟨rfl, rfl⟩
      · exact ⟨rfl, congrArg (orDifferences · _ _) gap.2⟩

theorem take_mask (profile : StreamProfile) (f : DecodedFieldbusFrame) :
    (profile.take f).firstPayload = (profile.comparePayload f.watchedPayload).firstPayload ∧
      (profile.take f).xorMask = (profile.comparePayload f.watchedPayload).xorMask :=
  observe_mask profile f.tapTsNs f.watchedPayload

theorem bitAt_take {profile : StreamProfile} (started : profile.firstPayload ≠ [])
    {frames : List DecodedFieldbusFrame}
    (watched : ∀ f ∈ frames, f.watchedPayload = some (ioPayload f.raw)) (i b : Nat) :
    (frames.foldl StreamProfile.take profile).firstPayload = profile.firstPayload ∧
      bitAt (frames.foldl StreamProfile.take profile).xorMask i b =
        (bitAt profile.xorMask i b || frames.any fun f =>
          decide (i < profile.firstPayload.length ∧ i < (ioPayload f.raw).length) &&
            (bitAt profile.firstPayload i b != bitAt (ioPayload f.raw) i b)) := by
  induction frames generalizing profile with
  | nil => exact ⟨rfl, (Bool.or_false _).symm⟩
  | cons f frames ih =>
      have compared : profile.comparePayload f.watchedPayload = { profile with
          xorMask := orDifferences profile.xorMask profile.firstPayload (ioPayload f.raw)
          aligned := (length_orDifferences _ _ _).trans profile.aligned } := by
        rw [watched f List.mem_cons_self]
        exact if_neg (by simpa using started)
      obtain ⟨first, mask⟩ := take_mask profile f
      rw [compared] at first mask
      simp only at first mask
      obtain ⟨kept, bits⟩ := ih (first ▸ started) fun g member =>
        watched g (List.mem_cons_of_mem _ member)
      rw [List.foldl_cons]
      refine ⟨kept.trans first, ?_⟩
      rw [bits, first, mask, bitAt_orDifferences profile.aligned, List.any_cons, Bool.or_assoc]

theorem bitAt_profile {key : StreamKey} {f : DecodedFieldbusFrame}
    {frames : List DecodedFieldbusFrame}
    (watched : ∀ g ∈ f :: frames, g.watchedPayload = some (ioPayload g.raw))
    (read : ioPayload f.raw ≠ []) (i b : Nat) :
    bitAt ((f :: frames).foldl StreamProfile.take (.new key)).xorMask i b =
      frames.any fun g => decide (i < (ioPayload f.raw).length ∧ i < (ioPayload g.raw).length) &&
        (bitAt (ioPayload f.raw) i b != bitAt (ioPayload g.raw) i b) := by
  obtain ⟨first, mask⟩ := take_mask (.new key) f
  rw [watched f List.mem_cons_self] at first mask
  have first : ((StreamProfile.new key).take f).firstPayload = ioPayload f.raw := first
  have mask : ((StreamProfile.new key).take f).xorMask =
      .replicate (ioPayload f.raw).length 0 := mask
  rw [List.foldl_cons, (bitAt_take (first ▸ read) (fun g member =>
    watched g (List.mem_cons_of_mem _ member)) i b).2, mask, first, bitAt_blank, Bool.false_or]

/-! ## The interlock bit -/

section
variable {frames : List DecodedFieldbusFrame} {frameId : UInt16} {bit : UInt8}

theorem levelsRead_ok {profile : Profile} {m : NodeMatcher}
    (reads : ∀ f, m.matchesFrame profile f = .ok (m.claim f)) :
    levelsRead profile m frames = .ok (frames.filterMap fun f => (m.claim f).join) := by
  induction frames with
  | nil => rfl
  | cons f frames ih =>
      simp only [levelsRead, reads, ih, bind, Except.bind, List.filterMap_cons]
      rcases m.claim f with _ | _ | level
      · rfl
      · rfl
      · rfl

theorem status_byte {f : DecodedFieldbusFrame} (decodes : Decodes f.raw f.proto)
    (here : f.streamKey = .profinet frameId) :
    ∃ interlockBit, f.proto = .profinetIrt frameId interlockBit (octet (ioPayload f.raw) 0) ∧
      f.watchedPayload = some (ioPayload f.raw) ∧ ioPayload f.raw ≠ [] := by
  rw [streamKey_eq decodes] at here
  obtain ⟨ts, proto, raw⟩ := f
  obtain ⟨whole, accepted⟩ : linkEnd raw ≤ raw.length ∧ Grammar raw (linkEnd raw) proto := decodes
  cases accepted with
  | profinet etherType size =>
      obtain rfl := StreamKey.profinet.inj here
      have payload : ioPayload raw = raw.drop (linkEnd raw + 2) := if_pos whole
      have first : octet (ioPayload raw) 0 = octet raw (linkEnd raw + 2) := by
        rw [payload, octet, octet, List.getD_eq_getElem?_getD, List.getElem?_drop,
          List.getD_eq_getElem?_getD, Nat.add_zero]
      refine ⟨_, by rw [first], rfl, ?_⟩
      intro empty
      have short := List.drop_eq_nil_iff.mp (payload.symm.trans empty)
      omega
  | s7comm | fanuc | ros2 => cases here

theorem claim_status {f : DecodedFieldbusFrame} (decodes : Decodes f.raw f.proto)
    (small : bit < 8) : ((NodeMatcher.profinetFrame frameId bit).claim f).join =
      if f.streamKey = .profinet frameId then some (bitAt (ioPayload f.raw) 0 bit.toNat)
      else none := by
  by_cases here : f.streamKey = .profinet frameId
  · obtain ⟨interlockBit, proto, -⟩ := status_byte decodes here
    rw [if_pos here]
    simp only [NodeMatcher.claim, proto, if_true, Option.join_some]
    exact congrArg some (shifted_bit _ bit small)
  · rw [if_neg here]
    rw [streamKey_eq decodes] at here
    cases proto : f.proto with
    | profinetIrt fid interlockBit rawStatusByte =>
        have other : frameId ≠ fid := by
          rintro rfl
          exact here (by rw [proto]; rfl)
        simp [NodeMatcher.claim, proto, other]
    | ros2Udp | fanucUdp | s7commArrival => simp [NodeMatcher.claim, proto]

theorem mem_levels (decoded : ∀ f ∈ frames, Decodes f.raw f.proto) (small : bit < 8)
    {level : Bool} :
    level ∈ frames.filterMap (fun f => ((NodeMatcher.profinetFrame frameId bit).claim f).join) ↔
      ∃ f ∈ Keyed.Table.own (·.streamKey) (.profinet frameId) frames,
        bitAt (ioPayload f.raw) 0 bit.toNat = level := by
  rw [List.mem_filterMap]
  constructor
  · rintro ⟨f, member, read⟩
    rw [claim_status (decoded f member) small] at read
    split at read
    · rename_i here
      exact ⟨f, (Keyed.Table.mem_own _).mpr ⟨member, here⟩, Option.some.inj read⟩
    · cases read
  · rintro ⟨f, own, read⟩
    obtain ⟨member, here⟩ := (Keyed.Table.mem_own _).mp own
    refine ⟨f, member, ?_⟩
    rw [claim_status (decoded f member) small, if_pos here, read]

theorem differs_from_first {α : Type} (level : α → Bool) (first : α) (rest : List α) :
    (∃ g ∈ rest, level first ≠ level g) ↔
      ∃ f ∈ first :: rest, ∃ g ∈ first :: rest, level f ≠ level g := by
  constructor
  · rintro ⟨g, member, differs⟩
    exact ⟨first, List.mem_cons_self, g, List.mem_cons_of_mem _ member, differs⟩
  · rintro ⟨f, inside, g, inside', differs⟩
    have other : ∀ h ∈ first :: rest, level first ≠ level h →
        ∃ x ∈ rest, level first ≠ level x := by
      intro h member differs
      rcases List.mem_cons.mp member with rfl | later
      · exact absurd rfl differs
      · exact ⟨h, later, differs⟩
    by_cases same : level first = level f
    · exact other g inside' fun is => differs (same.symm.trans is)
    · exact other f inside same

theorem mask_iff (small : bit < 8) {first : DecodedFieldbusFrame}
    {rest : List DecodedFieldbusFrame} (status : ∀ f ∈ first :: rest,
      f.watchedPayload = some (ioPayload f.raw) ∧ ioPayload f.raw ≠ []) :
    (0, bit) ∈ ((first :: rest).foldl StreamProfile.take
        (.new (.profinet frameId))).togglingBits ↔
      ∃ g ∈ rest, bitAt (ioPayload first.raw) 0 bit.toNat ≠
        bitAt (ioPayload g.raw) 0 bit.toNat := by
  have present : ∀ f ∈ first :: rest, 0 < (ioPayload f.raw).length := fun f member =>
    List.length_pos_iff.mpr (status f member).2
  rw [mem_togglingBits small, @bitAt_profile (.profinet frameId) first rest
    (fun f member => (status f member).1) (status first List.mem_cons_self).2 0 bit.toNat,
    List.any_eq_true]
  refine exists_congr fun g => and_congr_right fun member => ?_
  simp [present first List.mem_cons_self, present g (List.mem_cons_of_mem _ member)]

theorem toggles_iff (decoded : ∀ f ∈ frames, Decodes f.raw f.proto) (small : bit < 8)
    {engine : DiscoveryEngine} (fed : frames.foldlM DiscoveryEngine.observe .new =
      (.ok engine : Except (Stop Empty) _)) :
    engine.Toggles frameId 0 bit ↔
      ∃ f ∈ Keyed.Table.own (·.streamKey) (.profinet frameId) frames,
        ∃ g ∈ Keyed.Table.own (·.streamKey) (.profinet frameId) frames,
          bitAt (ioPayload f.raw) 0 bit.toNat ≠ bitAt (ioPayload g.raw) 0 bit.toNat := by
  rw [observe_foldl] at fed
  obtain rfl := Except.ok.inj fed
  have value := Keyed.Table.value_accumulated (·.streamKey) StreamProfile.new StreamProfile.take
    frames (.profinet frameId)
  have status : ∀ f ∈ Keyed.Table.own (·.streamKey) (.profinet frameId) frames,
      f.watchedPayload = some (ioPayload f.raw) ∧ ioPayload f.raw ≠ [] := by
    intro f own
    obtain ⟨member, here⟩ := (Keyed.Table.mem_own _).mp own
    obtain ⟨-, -, watched⟩ := status_byte (decoded f member) here
    exact watched
  unfold DiscoveryEngine.Toggles
  generalize Keyed.Table.own (·.streamKey) (.profinet frameId) frames = own at value status
  cases own with
  | nil =>
      rw [if_pos rfl] at value
      constructor
      · rintro ⟨stream, found, -⟩
        cases value.symm.trans found
      · rintro ⟨f, member, -⟩
        cases member
  | cons first rest =>
      rw [if_neg (List.cons_ne_nil _ _)] at value
      rw [← differs_from_first (fun f => bitAt (ioPayload f.raw) 0 bit.toNat) first rest,
        ← @mask_iff frameId _ small _ _ status]
      constructor
      · rintro ⟨stream, found, toggles⟩
        obtain rfl := Option.some.inj (value.symm.trans found)
        exact toggles
      · exact fun toggles => ⟨_, value, toggles⟩

end

/-! ## Trips -/

theorem detectTrip_levels {CAP : Nat} (s : CausalGraphObserver CAP) (node : NodeId)
    (interlock : Option Bool) :
    ((s.detectTrip node interlock).1 = true → s.lastInterlock s.manifest.tripNode = some true ∧
      node = s.manifest.tripNode ∧ interlock = some false) ∧
    ((s.detectTrip node interlock).2 s.manifest.tripNode = some true →
      s.lastInterlock s.manifest.tripNode = some true ∨
        node = s.manifest.tripNode ∧ interlock = some true) := by
  unfold CausalGraphObserver.detectTrip
  by_cases here : node = s.manifest.tripNode
  · subst here
    rw [if_pos rfl]
    cases interlock with
    | none => exact ⟨fun fires => Bool.noConfusion fires, Or.inl⟩
    | some level =>
        constructor
        · intro fires
          obtain ⟨before, low⟩ := Bool.and_eq_true_iff.mp fires
          exact ⟨beq_iff_eq.mp before, rfl, congrArg some (by simpa using low)⟩
        · intro after
          have after : Function.update s.lastInterlock s.manifest.tripNode (some level)
            s.manifest.tripNode = some true := after
          rw [Function.update_self] at after
          exact Or.inr ⟨rfl, after⟩
  · rw [if_neg here]
    cases interlock with
    | none => exact ⟨fun fires => Bool.noConfusion fires, Or.inl⟩
    | some level =>
        refine ⟨fun fires => Bool.noConfusion fires, fun after => Or.inl ?_⟩
        have after : Function.update s.lastInterlock node (some level) s.manifest.tripNode =
          some true := after
        rwa [Function.update_of_ne (Ne.symm here)] at after

theorem observe_levels {CAP : Nat} {profile : Profile} {s after : CausalGraphObserver CAP}
    {f : DecodedFieldbusFrame} {result : Option TripAnalysis}
    (done : s.observe profile f = .ok (after, result)) :
    after.manifest = s.manifest ∧
      (result ≠ none → s.lastInterlock s.manifest.tripNode = some true ∧
        s.manifest.classify profile f = .ok (some (s.manifest.tripNode, some false))) ∧
      (after.lastInterlock s.manifest.tripNode = some true →
        s.lastInterlock s.manifest.tripNode = some true ∨
          s.manifest.classify profile f = .ok (some (s.manifest.tripNode, some true))) := by
  rcases observe_inv done with ⟨-, rfl, rfl⟩ |
    ⟨node, interlock, seq, ring, classified, -, -, rfl, fired⟩
  · exact ⟨rfl, fun some_ => absurd rfl some_, Or.inl⟩
  · obtain ⟨trips, levels⟩ := detectTrip_levels s node interlock
    refine ⟨rfl, fun some_ => ?_, fun high => ?_⟩
    · rcases fired with ⟨-, rfl⟩ | ⟨fires, -⟩
      · exact absurd rfl some_
      · obtain ⟨before, rfl, rfl⟩ := trips fires
        exact ⟨before, classified⟩
    · refine (levels high).imp_right ?_
      rintro ⟨rfl, rfl⟩
      exact classified

section
variable {manifest : DependencyManifest} {frameId : UInt16} {bit : UInt8} {profile : Profile}

theorem tripNode_reading
    (trip : manifest.nodes.lookup manifest.tripNode = some (.profinetFrame frameId bit))
    {f : DecodedFieldbusFrame} {level : Bool}
    (classified : manifest.classify profile f = .ok (some (manifest.tripNode, some level))) :
    (NodeMatcher.profinetFrame frameId bit).matchesFrame profile f = .ok (some (some level)) := by
  obtain ⟨earlier, m, later, entries, -, claims⟩ := (classifyEntries_some_iff _).mp classified
  have member : ⟨manifest.tripNode, m⟩ ∈ manifest.nodes.entries := by
    rw [entries]
    exact List.mem_append_right _ List.mem_cons_self
  have same := (AList.mem_lookup_iff.mpr member).symm.trans trip
  rwa [Option.some.inj same] at claims

theorem reports_levels {CAP : Nat} {s : CausalGraphObserver CAP}
    {packets : List Packet} (tripped : s.reports profile packets ≠ []) :
    (∃ f ∈ acceptedFrames packets,
      s.manifest.classify profile f = .ok (some (s.manifest.tripNode, some false))) ∧
    (s.lastInterlock s.manifest.tripNode = some true ∨ ∃ f ∈ acceptedFrames packets,
      s.manifest.classify profile f = .ok (some (s.manifest.tripNode, some true))) := by
  induction packets generalizing s with
  | nil => exact absurd rfl tripped
  | cons packet packets ih =>
      unfold CausalGraphObserver.reports at tripped
      rcases parseFrame_cases packet.1 packet.2 with ⟨proto, parsed⟩ | ⟨error, failed⟩
      · rw [acceptedFrames_ok packets parsed]
        cases done : s.feed profile packet with
        | error fault => simp [done] at tripped
        | ok step =>
            obtain ⟨after, result⟩ := step
            simp only [done] at tripped
            have observed : s.observe profile ⟨packet.1, proto, packet.2⟩ =
                .ok (after, result) := by
              rw [← done, CausalGraphObserver.feed, parsed]
            obtain ⟨same, reported, raised⟩ := observe_levels observed
            have next : after.reports profile packets ≠ [] → _ := ih
            rw [same] at next
            constructor
            · cases result with
              | some analysis =>
                  exact ⟨_, List.mem_cons_self, (reported (Option.some_ne_none _)).2⟩
              | none =>
                  obtain ⟨f, member, low⟩ := (next tripped).1
                  exact ⟨f, List.mem_cons_of_mem _ member, low⟩
            · have later : (∃ f ∈ acceptedFrames packets, s.manifest.classify profile f =
                    .ok (some (s.manifest.tripNode, some true))) →
                  ∃ f ∈ (⟨packet.1, proto, packet.2⟩ : DecodedFieldbusFrame) ::
                      acceptedFrames packets,
                    s.manifest.classify profile f =
                      .ok (some (s.manifest.tripNode, some true)) := by
                rintro ⟨f, member, high⟩
                exact ⟨f, List.mem_cons_of_mem _ member, high⟩
              cases result with
              | some analysis => exact Or.inl (reported (Option.some_ne_none _)).1
              | none =>
                  -- Either this frame raised the level, or it was up before.
                  rcases (next tripped).2 with before | high
                  · refine (raised before).imp_right fun high => ?_
                    exact ⟨_, List.mem_cons_self, high⟩
                  · exact Or.inr (later high)
      · rw [acceptedFrames_err packets failed]
        have skipped : s.feed profile packet = .ok (s, none) := by
          rw [CausalGraphObserver.feed, failed]
        simp only [skipped, Option.toList_none, List.nil_append] at tripped
        exact ih tripped

end

theorem matchesFrame_small (profile : Profile) (frameId : UInt16) {bit : UInt8} (small : bit < 8)
    (f : DecodedFieldbusFrame) : (NodeMatcher.profinetFrame frameId bit).matchesFrame profile f =
      .ok ((NodeMatcher.profinetFrame frameId bit).claim f) := by
  refine matchesFrame_ok ?_ f
  intro frameId' bit' same byte
  obtain ⟨-, rfl⟩ := NodeMatcher.profinetFrame.inj same
  exact shrU8_of_lt profile byte bit small

theorem acceptedFrames_decode {packets : List Packet} {f : DecodedFieldbusFrame}
    (member : f ∈ acceptedFrames packets) : Decodes f.raw f.proto := by
  obtain ⟨packet, -, parsed⟩ := List.mem_filterMap.mp member
  cases result : parseFrame packet.1 packet.2 with
  | error stop =>
      rw [result] at parsed
      cases parsed
  | ok g =>
      rw [result] at parsed
      obtain rfl := Option.some.inj parsed
      obtain ⟨-, raw, decodes⟩ := ((parses_exactly packet.1 packet.2).accepts g).mp result
      rwa [raw]

theorem interlock_toggles (packets : List Packet) (frameId : UInt16) (bit : UInt8)
    (small : bit < 8) : ∃ engine,
      (acceptedFrames packets).foldlM DiscoveryEngine.observe .new =
        (.ok engine : Except (Stop Empty) _) ∧
      InterlockSeen packets frameId bit engine := by
  have decoded : ∀ f ∈ acceptedFrames packets, Decodes f.raw f.proto := fun _ =>
    acceptedFrames_decode
  have fed := @observe_foldl Empty .new (acceptedFrames packets)
  have toggles := @toggles_iff _ frameId bit decoded small _ fed
  have levels := @mem_levels _ frameId bit decoded small
  refine ⟨_, fed, ?_, ?_⟩
  · intro profile
    refine ⟨_, levelsRead_ok (matchesFrame_small profile frameId small), toggles.trans ?_⟩
    constructor
    · rintro ⟨f, own, g, own', differs⟩
      exact ⟨_, levels.mpr ⟨f, own, rfl⟩, _, levels.mpr ⟨g, own', rfl⟩, differs⟩
    · rintro ⟨x, read, y, read', differs⟩
      obtain ⟨f, own, rfl⟩ := levels.mp read
      obtain ⟨g, own', rfl⟩ := levels.mp read'
      exact ⟨f, own, g, own', differs⟩
  · intro CAP profile manifest trip tripped
    obtain ⟨⟨f, member, low⟩, before | ⟨g, member', high⟩⟩ := reports_levels tripped
    · cases before
    · have seen : ∀ h ∈ acceptedFrames packets, ∀ level,
          manifest.classify profile h = .ok (some (manifest.tripNode, some level)) →
          level ∈ (acceptedFrames packets).filterMap fun f =>
            ((NodeMatcher.profinetFrame frameId bit).claim f).join := by
        intro h member level classified
        refine List.mem_filterMap.mpr ⟨h, member, ?_⟩
        have reads := (matchesFrame_small profile frameId small h).symm.trans
          (tripNode_reading trip classified)
        rw [Except.ok.inj reads, Option.join_some]
      obtain ⟨x, own, isFalse⟩ := levels.mp (seen f member false low)
      obtain ⟨y, own', isTrue⟩ := levels.mp (seen g member' true high)
      exact toggles.mpr ⟨x, own, y, own', by rw [isFalse, isTrue]; decide⟩

theorem interlock_toggles_plc : ∃ engine,
    (acceptedFrames [(10, Cell.plcBytes true), (15, Cell.plcBytes false)]).foldlM
        DiscoveryEngine.observe .new = (.ok engine : Except (Stop Empty) _) ∧
      InterlockSeen [(10, Cell.plcBytes true), (15, Cell.plcBytes false)] 0x0002 0 engine :=
  interlock_toggles _ _ _ (by decide)

end Proof
end CausalWorks
