import CausalWorks.Storage

/-!
# The evidence store is append-only

After any sequence of calls the in-memory sink has the rows whose `put` succeeded, each under its
key, and scans them in the order of their keys.
-/

namespace CausalWorks

def OrderKey.Precedes (a b : OrderKey) : Prop :=
  a.tsNs < b.tsNs ∨ a.tsNs = b.tsNs ∧ a.traceId < b.traceId

namespace InMemorySink
variable (JsonError : Type)

def putAll (self : InMemorySink) (rows : List TraceRow) : InMemorySink :=
  rows.foldl (fun sink row => (sink.put row : Except (StorageError JsonError) Unit × _).2) self

def stored (self : InMemorySink) : List TraceRow → List TraceRow
  | [] => []
  | row :: rows =>
      match (self.put row : Except (StorageError JsonError) Unit × _) with
      | (.ok (), after) => row :: after.stored rows
      | (.error _, after) => after.stored rows

end InMemorySink

structure AppendOnly (JsonError : Type) (sink : InMemorySink) (stored : List TraceRow) : Prop where
  accepts : ∀ row, (sink.put row : Except (StorageError JsonError) Unit × _).1 = .ok () ↔
    ∀ earlier ∈ stored, earlier.orderKey ≠ row.orderKey
  rejects : ∀ row error, (sink.put row : Except (StorageError JsonError) Unit × _).1 =
      .error error → error = .duplicateKey row.traceId ∧
    (sink.put row : Except (StorageError JsonError) Unit × _).2 = sink
  holds : ∀ (key : OrderKey) row, sink.rows[key]? = some row ↔ row ∈ stored ∧ row.orderKey = key
  keeps : ∀ later (key : OrderKey) row, sink.rows[key]? = some row →
    (sink.putAll JsonError later).rows[key]? = some row
  len : sink.len = stored.length
  range : ∀ startNs endNs, startNs ≤ endNs → ∃ found, sink.range startNs endNs = .ok found ∧
    (∀ row, row ∈ found ↔ row ∈ stored ∧ startNs ≤ row.tripTsNs ∧ row.tripTsNs < endNs) ∧
    found.Pairwise fun a b => a.orderKey.Precedes b.orderKey

namespace Proof

theorem compare_key (a b : OrderKey) :
    compare a b = (compare a.tsNs b.tsNs).then (compare a.traceId b.traceId) := rfl

instance : Std.TransOrd OrderKey := inferInstanceAs (Std.TransCmp (compareLex _ _))

instance : Std.LawfulEqOrd OrderKey where
  eq_of_compare {a b} same := by
    obtain ⟨ts, id⟩ := Ordering.then_eq_eq.mp same
    obtain ⟨ts', id'⟩ := a
    cases Std.LawfulEqOrd.eq_of_compare ts
    cases Std.LawfulEqOrd.eq_of_compare id
    rfl

theorem compare_lt_iff {a b : OrderKey} : compare a b = .lt ↔ a.Precedes b := by
  rw [compare_key, Ordering.then_eq_lt, Std.compare_eq_lt, Std.compare_eq_iff_eq,
    compare_lt_iff_lt]
  rfl

theorem not_lt_empty (s : String) : ¬ s < "" := by
  rw [String.lt_iff_toList_lt]
  exact List.not_lt_nil _

theorem precedes_boundary {key : OrderKey} {ts : UInt64} :
    key.Precedes { tsNs := ts, traceId := "" } ↔ key.tsNs < ts := by
  constructor
  · rintro (before | ⟨-, before⟩)
    · exact before
    · exact absurd before (not_lt_empty _)
  · exact Or.inl

theorem isLT_boundary {key : OrderKey} {ts : UInt64} :
    (compare key ⟨ts, ""⟩).isLT = true ↔ key.tsNs < ts := by
  rw [Ordering.isLT_iff_eq_lt, compare_lt_iff, precedes_boundary]

theorem isGE_boundary {key : OrderKey} {ts : UInt64} :
    (compare key ⟨ts, ""⟩).isGE = true ↔ ts ≤ key.tsNs := by
  rw [← UInt64.not_lt, ← isLT_boundary]
  cases compare key ⟨ts, ""⟩ <;> simp

theorem range_ok {sink : InMemorySink} {startNs endNs : UInt64} (forward : startNs ≤ endNs) :
    sink.range startNs endNs = .ok (WriteOnce.between sink.rows ⟨startNs, ""⟩ ⟨endNs, ""⟩) := by
  refine if_neg fun backward => ?_
  have lt := Std.OrientedCmp.gt_iff_lt.mp (Ordering.isGT_iff_eq_gt.mp backward)
  rw [compare_lt_iff, precedes_boundary] at lt
  exact absurd forward (UInt64.not_le.mpr lt)

section
variable {JsonError : Type} {sink : InMemorySink} {items : List TraceRow}

theorem put_new (holds : WriteOnce.Holds TraceRow.orderKey sink.rows items) {row : TraceRow}
    (new : row.orderKey ∉ items.map TraceRow.orderKey) :
    (sink.put row : Except (StorageError JsonError) Unit × _) =
      (.ok (), ⟨sink.rows.insert row.orderKey row⟩) :=
  if_neg fun here => new ((holds.contains_iff _).mp here)

theorem put_taken (holds : WriteOnce.Holds TraceRow.orderKey sink.rows items) {row : TraceRow}
    (taken : row.orderKey ∈ items.map TraceRow.orderKey) :
    (sink.put row : Except (StorageError JsonError) Unit × _) =
      (.error (.duplicateKey row.traceId), sink) :=
  if_pos ((holds.contains_iff _).mpr taken)

theorem holds_putAll (holds : WriteOnce.Holds TraceRow.orderKey sink.rows items)
    (rows : List TraceRow) : WriteOnce.Holds TraceRow.orderKey (sink.putAll JsonError rows).rows
      (items ++ sink.stored JsonError rows) := by
  induction rows generalizing sink items with
  | nil =>
      rw [InMemorySink.stored, List.append_nil]
      exact holds
  | cons row rows ih =>
      rw [InMemorySink.putAll, List.foldl_cons, InMemorySink.stored]
      by_cases taken : row.orderKey ∈ items.map TraceRow.orderKey
      · rw [put_taken holds taken]
        exact ih holds
      · rw [put_new holds taken]
        have rest := @ih ⟨sink.rows.insert row.orderKey row⟩ _ (holds.insert taken)
        rwa [List.append_assoc] at rest

end

theorem append_only (JsonError : Type) (rows : List TraceRow) :
    AppendOnly JsonError (InMemorySink.new.putAll JsonError rows)
      (InMemorySink.new.stored JsonError rows) := by
  have holds := @holds_putAll JsonError .new [] WriteOnce.holds_empty rows
  rw [List.nil_append] at holds
  generalize InMemorySink.new.putAll JsonError rows = sink at holds ⊢
  generalize InMemorySink.new.stored JsonError rows = stored at holds ⊢
  constructor
  case accepts =>
    intro row
    by_cases taken : row.orderKey ∈ stored.map TraceRow.orderKey
    · rw [put_taken holds taken]
      obtain ⟨earlier, member, same⟩ := List.mem_map.mp taken
      constructor
      · exact fun done => nomatch done
      · exact fun new => absurd same (new earlier member)
    · rw [put_new holds taken]
      constructor
      · exact fun _ earlier member same => taken (List.mem_map.mpr ⟨earlier, member, same⟩)
      · exact fun _ => rfl
  case rejects =>
    intro row error failed
    by_cases taken : row.orderKey ∈ stored.map TraceRow.orderKey
    · rw [put_taken holds taken] at failed ⊢
      exact ⟨(Except.error.inj failed).symm, rfl⟩
    · rw [put_new holds taken] at failed
      cases failed
  case holds => exact holds.found
  case keeps =>
    intro later key row here
    obtain ⟨member, same⟩ := (holds.found key row).mp here
    exact ((holds_putAll holds later).found key row).mpr ⟨List.mem_append_left _ member, same⟩
  case len => exact holds.size
  case range =>
    intro startNs endNs forward
    refine ⟨_, range_ok forward, fun row => ?_, ?_⟩
    · rw [holds.mem_between, isGE_boundary, isLT_boundary]
      rfl
    · refine (holds.between_ordered _ _).imp ?_
      intro a b lt
      exact compare_lt_iff.mp lt

end Proof
end CausalWorks
