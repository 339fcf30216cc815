import CausalWorks.Proof.DiscoveryReport

/-!
# The EtherTypes that preflight lists

At most twelve of them, the most frequent first. Which ones are left out depends on the process only
when the last that is shown ties with one that is not.
-/

namespace CausalWorks
open Delivery (Response)

def framesOfType (packets : List Packet) (et : UInt16) : Nat :=
  (packets.map fun packet => rawEthertype packet.2).count (some et)

def Listed (lines : List TypeLine) (et : UInt16) : Prop := ∃ line ∈ lines, line.ethertype = et

structure MostFrequent (packets : List Packet) (lines : List TypeLine) : Prop where
  few : lines.length ≤ 12
  distinct : (lines.map (·.ethertype)).Nodup
  frequent : (lines.map (·.frames)).Pairwise (· ≥ ·)
  exact_ : ∀ line ∈ lines, 0 < line.frames ∧ line.frames = framesOfType packets line.ethertype ∧
    line.remark = preflightStatus line.ethertype
  leftOut : ∀ et, 0 < framesOfType packets et → ¬ Listed lines et →
    lines.length = 12 ∧ ∀ line ∈ lines, framesOfType packets et ≤ line.frames

structure AgreeButCut (packets : List Packet) (lines lines' : List TypeLine) : Prop where
  counts : lines'.map (·.frames) = lines.map (·.frames)
  clear : (∀ et, 0 < framesOfType packets et → ¬ Listed lines et → ∀ line ∈ lines,
    framesOfType packets et < line.frames) → lines'.Perm lines

namespace Proof
open Keyed
variable {packets : List Packet} (order order' : ReportOrder)

def shownTypes (order : ReportOrder) (packets : List Packet) : List (UInt16 × Nat) :=
  byCount order (Table.tally (packets.map fun packet => rawEthertype packet.2).reduceOption)

theorem mem_shownTypes {et : UInt16} {n : Nat} : (et, n) ∈ shownTypes order packets ↔
    0 < n ∧ n = framesOfType packets et := by
  rw [shownTypes, (byCount_perm _ _).mem_iff, Table.mem_entries, Table.tally_some,
    countP_reduceOption, framesOfType]

theorem shownTypes_distinct : ((shownTypes order packets).map Prod.fst).Nodup :=
  (((byCount_perm order _).map Prod.fst).nodup_iff).mpr (Table.distinct _)

theorem preflightTypes_eq {stats : PreflightStats} (types : stats.ethertypes =
    Table.tally (packets.map fun packet => rawEthertype packet.2).reduceOption) :
    preflightTypes order stats = ((shownTypes order packets).take 12).map fun (et, n) =>
      { ethertype := et, frames := n, remark := preflightStatus et } := by
  rw [preflightTypes, types]
  rfl

theorem behind_cut {et : UInt16} (some_ : 0 < framesOfType packets et)
    (hidden : (et, framesOfType packets et) ∉ (shownTypes order packets).take 12) :
    (et, framesOfType packets et) ∈ (shownTypes order packets).drop 12 := by
  have member := (@mem_shownTypes packets order et _).mpr ⟨some_, rfl⟩
  rw [← List.take_append_drop 12 (shownTypes order packets)] at member
  exact (List.mem_append.mp member).resolve_left hidden

section
variable {stats : PreflightStats} (types : stats.ethertypes =
  Table.tally (packets.map fun packet => rawEthertype packet.2).reduceOption)
include types

theorem mem_preflightTypes {line : TypeLine} : line ∈ preflightTypes order stats ↔
    (line.ethertype, line.frames) ∈ (shownTypes order packets).take 12 ∧
      line.remark = preflightStatus line.ethertype := by
  obtain ⟨et, n, remark⟩ := line
  rw [preflightTypes_eq order types, List.mem_map]
  constructor
  · rintro ⟨⟨et', n'⟩, member, is⟩
    cases is
    exact ⟨member, rfl⟩
  · rintro ⟨member, is⟩
    exact ⟨(et, n), member, congrArg (TypeLine.mk et n) is.symm⟩

theorem hidden_of_unlisted {et : UInt16} (unlisted : ¬ Listed (preflightTypes order stats) et)
    (n : Nat) : (et, n) ∉ (shownTypes order packets).take 12 := fun member =>
  unlisted ⟨⟨et, n, preflightStatus et⟩, (mem_preflightTypes order types).mpr ⟨member, rfl⟩, rfl⟩

theorem most_frequent : MostFrequent packets (preflightTypes order stats) := by
  have entry : ∀ {line}, line ∈ preflightTypes order stats →
      (line.ethertype, line.frames) ∈ (shownTypes order packets).take 12 :=
    fun member => ((mem_preflightTypes order types).mp member).1
  constructor
  case few =>
    rw [preflightTypes_eq order types, List.length_map]
    exact List.length_take_le _ _
  case distinct =>
    rw [preflightTypes_eq order types, List.map_map]
    have front := ((List.take_sublist 12 (shownTypes order packets)).map Prod.fst).nodup
      (shownTypes_distinct order)
    exact front
  case frequent =>
    rw [preflightTypes_eq order types, List.map_map, List.pairwise_map]
    exact (byCount_ordered order _).sublist (List.take_sublist 12 _)
  case exact_ =>
    intro line member
    obtain ⟨positive, count⟩ := (mem_shownTypes order).mp (List.mem_of_mem_take (entry member))
    exact ⟨positive, count, ((mem_preflightTypes order types).mp member).2⟩
  case leftOut =>
    intro et some_ unlisted
    have behind := behind_cut order some_ (hidden_of_unlisted order types unlisted _)
    refine ⟨?_, fun line member => ?_⟩
    · have long : 12 < (shownTypes order packets).length := by
        by_contra short
        rw [List.drop_eq_nil_of_le (Nat.not_lt.mp short)] at behind
        exact absurd behind List.not_mem_nil
      rw [preflightTypes_eq order types, List.length_map, List.length_take]
      omega
    · exact @Sorting.take_le_drop _ _ _ (fun entry : UInt16 × Nat => OrderDual.toDual entry.2) _ 12
        _ _ (entry member) behind

theorem agree_but_cut :
    AgreeButCut packets (preflightTypes order stats) (preflightTypes order' stats) := by
  have sections : ∀ order, (preflightTypes order stats).map (·.frames) =
      ((shownTypes order packets).map Prod.snd).take 12 := by
    intro order
    rw [preflightTypes_eq order types, List.map_map, ← List.map_take]
    rfl
  constructor
  case counts =>
    rw [sections, sections, shownTypes, shownTypes, byCount_counts order' order]
  case clear =>
    intro clear
    rw [preflightTypes_eq order types, preflightTypes_eq order' types]
    refine List.Perm.map _ (List.Perm.symm ?_)
    refine @Sorting.take_perm _ _ _ (fun entry : UInt16 × Nat => OrderDual.toDual entry.2) _ _ 12
      (orders_perm order order' _) ?_
    rintro ⟨et, n⟩ before ⟨et', n'⟩ behind
    obtain ⟨positive, count⟩ := (@mem_shownTypes packets order et' n').mp
      (List.mem_of_mem_drop behind)
    have shown := (@mem_preflightTypes packets order stats types ⟨et, n, preflightStatus et⟩).mpr
      ⟨before, rfl⟩
    refine (count ▸ clear et' (count ▸ positive) ?_ _ shown : n' < n)
    -- An EtherType has one entry, and it stands behind the cut.
    rintro ⟨line, member, same⟩
    have front := ((mem_preflightTypes order types).mp member).1
    have distinct := @shownTypes_distinct packets order
    rw [← List.take_append_drop 12 (shownTypes order packets), List.map_append,
      List.nodup_append] at distinct
    exact distinct.2.2 _ (List.mem_map_of_mem front) _ (List.mem_map_of_mem behind) same

end

theorem preflight_lists_top (profile : Profile) {bytes : List UInt8} {schedule : List Response}
    {s : StreamingPcapSource} (accepted : StreamingPcapSource.new ⟨bytes, schedule⟩ = .ok s)
    {fuel : Nat} (enough : bytes.length < fuel) :
    ∃ verdict stats, computePreflight profile fuel ⟨bytes, schedule⟩ = .ok (verdict, stats) ∧
      ∀ order, MostFrequent (yieldedFrames profile fuel s) (preflightTypes order stats) ∧
        ∀ order', AgreeButCut (yieldedFrames profile fuel s) (preflightTypes order stats)
          (preflightTypes order' stats) := by
  obtain ⟨fmt, long, magic, at_⟩ := stream_opened accepted
  obtain ⟨frames, ending, reads⟩ := reads_total fmt (bytes.drop 24)
  have few : frames.length < fuel := by
    have size := reads_length reads
    rw [List.length_drop] at size
    omega
  obtain ⟨src, scanned, -⟩ := eachFrame_eq profile
    (PreflightScan.scanFrame : _ → _ → Except (Stop Empty) _) reads at_ fuel few {}
  rw [scan_eq] at scanned
  have yielded : yieldedFrames profile fuel s = frames.map Prod.fst :=
    (stream_drain profile reads at_ fuel few).1
  have types := (stats_eq (frames.map Prod.fst)).ethertypes
  let scan := (frames.map Prod.fst).foldl PreflightScan.scanned {}
  refine ⟨(scan.finish src).verdict, scan.finish src, ?_, fun order => ?_⟩
  · rw [computePreflight, accepted]
    simp only [scanned]
    rfl
  · rw [yielded]
    exact ⟨most_frequent order types, fun order' => agree_but_cut order order' types⟩

theorem preflight_lists_top_down : ∃ s,
    StreamingPcapSource.new ⟨Cell.downCapture, []⟩ = .ok s ∧
    ∃ verdict stats, computePreflight .dev 91 ⟨Cell.downCapture, []⟩ = .ok (verdict, stats) ∧
      ∀ order, MostFrequent (yieldedFrames .dev 91 s) (preflightTypes order stats) ∧
        ∀ order', AgreeButCut (yieldedFrames .dev 91 s) (preflightTypes order stats)
          (preflightTypes order' stats) := by
  obtain ⟨s, accepted⟩ : ∃ s, StreamingPcapSource.new ⟨Cell.downCapture, []⟩ = .ok s := ⟨_, rfl⟩
  exact ⟨s, accepted, preflight_lists_top .dev accepted (by decide)⟩

end Proof
end CausalWorks
