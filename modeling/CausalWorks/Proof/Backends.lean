import CausalWorks.Proof.Evidence
import CausalWorks.Proof.KeyOrder

/-!
# The two stores agree

The binary key keeps the order of the in-memory sink, and the JSON of a row has all that is needed
to make the row again. So the stores answer alike, except that only one of them survives a range
that ends before it starts.
-/

namespace CausalWorks

inductive SinkCall {JsonError : Type} (toJson : CausalTrace → Except JsonError String) where
  | put (row : TraceRow) (made : ∃ trace, TraceRow.fromTrace toJson trace = .ok row)
  | range (startNs endNs : UInt64)

def SinkCall.Forward {JsonError : Type} {toJson : CausalTrace → Except JsonError String} :
    SinkCall toJson → Prop
  | .put _ _ => True
  | .range startNs endNs => startNs ≤ endNs

def SinksAgree {rocks : RocksDb} {JsonError : Type} (toJson : CausalTrace → Except JsonError String)
    (fromSlice : List UInt8 → Except JsonError CausalTrace) :
    InMemorySink → RocksDbSink rocks → List (SinkCall toJson) → Prop
  | memory, persistent, [] => memory.len = persistent.len
  | memory, persistent, .put row _ :: calls =>
      let (stored, memory') : Except (StorageError JsonError) Unit × _ := memory.put row
      let (stored', persistent') : RocksDbSink.Fallible rocks JsonError Unit × _ :=
        persistent.put row
      memory.len = persistent.len ∧ stored' = stored.mapError .base ∧
        SinksAgree toJson fromSlice memory' persistent' calls
  | memory, persistent, .range startNs endNs :: calls =>
      memory.len = persistent.len ∧
      (∃ rows, memory.range startNs endNs = .ok rows ∧
        persistent.range toJson fromSlice startNs endNs = .ok rows) ∧
      SinksAgree toJson fromSlice memory persistent calls

namespace Cell

def downTrace : CausalTrace :=
  { traceId := "APPL-REPLAY:0:1", applianceId := "APPL-REPLAY", tripTsNs := 0, rootCatalyst := none
    rankedCatalysts := [], eventSequence := [⟨1, 3, 0, 0, some false⟩]
    iso13849 := ⟨"SF-FROM-MANIFEST", 50000000, 0, false, .unattributedTrip⟩ }

def downRow : TraceRow :=
  { tripTsNs := 0, traceId := "APPL-REPLAY:0:1", applianceId := "APPL-REPLAY"
    safetyFnId := "SF-FROM-MANIFEST", attributed := false, rootOverrun := none
    evidenceJson := downJson }

def toJson (trace : CausalTrace) : Except Unit String :=
  if trace = downTrace then .ok downJson else .error ()

def fromSlice (bytes : List UInt8) : Except Unit CausalTrace :=
  if bytes = asBytes downJson then .ok downTrace else .error ()

end Cell

namespace Proof

section
variable {rocks : RocksDb} {contents : rocks.DB → List UInt8 → Option (List UInt8)}
  {JsonError : Type} {toJson : CausalTrace → Except JsonError String}
  {fromSlice : List UInt8 → Except JsonError CausalTrace} {memory : InMemorySink}
  {persistent : RocksDbSink rocks} {items : List TraceRow}

structure SameRows (contents : rocks.DB → List UInt8 → Option (List UInt8))
    (toJson : CausalTrace → Except JsonError String) (memory : InMemorySink)
    (persistent : RocksDbSink rocks) (items : List TraceRow) : Prop where
  holds : WriteOnce.Holds TraceRow.orderKey memory.rows items
  made : ∀ row ∈ items, ∃ trace, TraceRow.fromTrace toJson trace = .ok row
  stored : ∀ key value, contents persistent.db key = some value ↔
    ∃ row ∈ items, row.rocksdbKey = key ∧ asBytes row.evidenceJson = value
  count : persistent.count = items.length

theorem SameRows.len (same : SameRows contents toJson memory persistent items) :
    memory.len = persistent.len :=
  same.holds.size.trans same.count.symm

theorem SameRows.stores (same : SameRows contents toJson memory persistent items) :
    StoresRows contents persistent.db items :=
  ⟨same.holds.distinct, same.stored⟩

theorem sameRows_new (empty : contents persistent.db = fun _ => none)
    (none_ : persistent.count = 0) : SameRows contents toJson .new persistent [] where
  holds := WriteOnce.holds_empty
  made _ member := absurd member List.not_mem_nil
  stored := (storesRows_empty empty).stored
  count := none_

theorem SameRows.insert (same : SameRows contents toJson memory persistent items) {row : TraceRow}
    (made : ∃ trace, TraceRow.fromTrace toJson trace = .ok row)
    (absent : row.orderKey ∉ items.map TraceRow.orderKey) {after : rocks.DB}
    (updated : contents after = Function.update (contents persistent.db) row.rocksdbKey
      (some (asBytes row.evidenceJson))) :
    SameRows contents toJson ⟨memory.rows.insert row.orderKey row⟩ ⟨after, persistent.count + 1⟩
      (items ++ [row]) where
  holds := same.holds.insert absent
  made r member := by
    rcases List.mem_append.mp member with before | now
    · exact same.made r before
    · rw [List.mem_singleton.mp now]
      exact made
  stored := (StoresRows.insert same.stores absent updated).stored
  count := by
    rw [List.length_append, same.count]
    rfl

theorem put_same (map : rocks.OrderedByteMap contents)
    (same : SameRows contents toJson memory persistent items) {row : TraceRow}
    (made : ∃ trace, TraceRow.fromTrace toJson trace = .ok row) :
    ∃ (stored : Except (StorageError JsonError) Unit) (memory' : InMemorySink)
      (persistent' : RocksDbSink rocks) (items' : List TraceRow),
      memory.put row = (stored, memory') ∧
      persistent.put row = ((stored.mapError .base : RocksDbSink.Fallible rocks JsonError Unit),
        persistent') ∧
      SameRows contents toJson memory' persistent' items' := by
  by_cases taken : row.orderKey ∈ items.map TraceRow.orderKey
  · exact ⟨.error (.duplicateKey row.traceId), memory, persistent, items,
      put_taken same.holds taken, rocks_put_taken map same.stores taken, same⟩
  · obtain ⟨after, put, updated⟩ := rocks_put_new map same.stores taken
    exact ⟨.ok (), _, _, items ++ [row], put_new same.holds taken, put,
      same.insert made taken updated⟩

theorem rebuild_made
    (roundTrips : ∀ trace text, toJson trace = .ok text → fromSlice (asBytes text) = .ok trace)
    {row : TraceRow} (made : ∃ trace, TraceRow.fromTrace toJson trace = .ok row) :
    RocksDbSink.rebuild toJson fromSlice (asBytes row.evidenceJson) = .ok row := by
  obtain ⟨trace, made⟩ := made
  have text : toJson trace = .ok row.evidenceJson := by
    unfold TraceRow.fromTrace at made
    cases written : toJson trace with
    | error error => simp [written, bind, Except.bind] at made
    | ok json =>
        simp only [written, bind, Except.bind, pure, Except.pure, Except.ok.injEq] at made
        subst made
        rfl
  rw [RocksDbSink.rebuild, roundTrips trace _ text]
  exact made

theorem rebuild_all
    (roundTrips : ∀ trace text, toJson trace = .ok text → fromSlice (asBytes text) = .ok trace)
    {rows : List TraceRow}
    (made : ∀ row ∈ rows, ∃ trace, TraceRow.fromTrace toJson trace = .ok row) :
    (rows.mapM fun row => RocksDbSink.rebuild toJson fromSlice (asBytes row.evidenceJson)) =
      .ok rows := by
  rw [mapM_ok fun row member => rebuild_made roundTrips (made row member), List.map_id']

theorem range_rows (map : rocks.OrderedByteMap contents)
    (roundTrips : ∀ trace text, toJson trace = .ok text → fromSlice (asBytes text) = .ok trace)
    (same : SameRows contents toJson memory persistent items) (startNs endNs : UInt64) :
    ∃ rows, persistent.range toJson fromSlice startNs endNs = .ok rows ∧
      (rows.Pairwise fun a b => compare a.orderKey b.orderKey = .lt) ∧
      ∀ row, row ∈ rows ↔ row ∈ items ∧ startNs ≤ row.tripTsNs ∧ row.tripTsNs < endNs := by
  obtain ⟨rows, scanned, ordered, found⟩ :=
    range_visits toJson fromSlice map same.stores startNs endNs
  refine ⟨rows, ?_, ordered, found⟩
  rw [scanned, rebuild_all roundTrips fun row member => same.made row ((found row).mp member).1]
  rfl

theorem range_same (map : rocks.OrderedByteMap contents)
    (roundTrips : ∀ trace text, toJson trace = .ok text → fromSlice (asBytes text) = .ok trace)
    (same : SameRows contents toJson memory persistent items) {startNs endNs : UInt64}
    (forward : startNs ≤ endNs) : ∃ rows, memory.range startNs endNs = .ok rows ∧
      persistent.range toJson fromSlice startNs endNs = .ok rows := by
  obtain ⟨rows, scanned, ordered, found⟩ := range_rows map roundTrips same startNs endNs
  refine ⟨_, range_ok forward, scanned.trans (congrArg Except.ok ?_)⟩
  refine WriteOnce.ordered_ext ordered (same.holds.between_ordered _ _) fun row => ?_
  rw [same.holds.mem_between, isGE_boundary, isLT_boundary, found]
  rfl

theorem range_backward {startNs endNs : UInt64} (backward : ¬ startNs ≤ endNs) :
    memory.range startNs endNs =
      .error (.expectFailed "range start is greater than range end in BTreeMap") := by
  refine if_pos ?_
  rw [Ordering.isGT_iff_eq_gt, Std.OrientedCmp.gt_iff_lt, compare_lt_iff, precedes_boundary]
  exact UInt64.not_le.mp backward

theorem range_none (map : rocks.OrderedByteMap contents)
    (roundTrips : ∀ trace text, toJson trace = .ok text → fromSlice (asBytes text) = .ok trace)
    (same : SameRows contents toJson memory persistent items) {startNs endNs : UInt64}
    (backward : ¬ startNs ≤ endNs) : persistent.range toJson fromSlice startNs endNs = .ok [] := by
  obtain ⟨rows, scanned, -, found⟩ := range_rows map roundTrips same startNs endNs
  have none_ : rows = [] := by
    refine List.eq_nil_iff_forall_not_mem.mpr fun row member => backward ?_
    obtain ⟨-, late, early⟩ := (found row).mp member
    exact UInt64.le_of_lt (UInt64.lt_of_le_of_lt late early)
  rw [scanned, none_]

theorem agree_iff (map : rocks.OrderedByteMap contents)
    (roundTrips : ∀ trace text, toJson trace = .ok text → fromSlice (asBytes text) = .ok trace)
    (same : SameRows contents toJson memory persistent items) (calls : List (SinkCall toJson)) :
    SinksAgree toJson fromSlice memory persistent calls ↔ ∀ call ∈ calls, call.Forward := by
  induction calls generalizing memory persistent items with
  | nil => exact ⟨fun _ _ member => absurd member List.not_mem_nil, fun _ => same.len⟩
  | cons call calls ih =>
      rw [List.forall_mem_cons]
      cases call with
      | put row made =>
          obtain ⟨stored, memory', persistent', items', put, put', same'⟩ := put_same map same made
          rw [SinksAgree, put, put', ← ih same']
          exact ⟨fun agree => ⟨trivial, agree.2.2⟩, fun rest => ⟨same.len, rfl, rest.2⟩⟩
      | range startNs endNs =>
          rw [SinksAgree, ← ih same]
          constructor
          · rintro ⟨-, ⟨rows, inMemory, -⟩, rest⟩
            refine ⟨?_, rest⟩
            by_contra backward
            rw [range_backward backward] at inMemory
            cases inMemory
          · rintro ⟨forward, rest⟩
            exact ⟨same.len, range_same map roundTrips same forward, rest⟩

end

theorem backends_agree_iff {rocks : RocksDb}
    {contents : rocks.DB → List UInt8 → Option (List UInt8)} (map : rocks.OrderedByteMap contents)
    {JsonError : Type} {toJson : CausalTrace → Except JsonError String}
    {fromSlice : List UInt8 → Except JsonError CausalTrace}
    (roundTrips : ∀ trace text, toJson trace = .ok text → fromSlice (asBytes text) = .ok trace)
    {path : String} {sink : RocksDbSink rocks}
    (opened : (RocksDbSink.openSink path : RocksDbSink.Fallible rocks JsonError _) = .ok sink)
    (empty : contents sink.db = fun _ => none) (calls : List (SinkCall toJson)) :
    SinksAgree toJson fromSlice .new sink calls ↔ ∀ call ∈ calls, call.Forward := by
  refine agree_iff map roundTrips (sameRows_new empty ?_) calls
  unfold RocksDbSink.openSink at opened
  cases database : rocks.openDb path with
  | error error => simp [database] at opened
  | ok db =>
      simp only [database, Except.ok.injEq] at opened
      subst opened
      obtain ⟨entries, yields, -, found⟩ := map.iterator db .start
      have none_ : entries = [] := by
        refine List.eq_nil_iff_forall_not_mem.mpr fun entry member => ?_
        have there := ((found entry.1 entry.2).mp member).1
        rw [show contents db = _ from empty] at there
        cases there
      show (rocks.iterator db .start).length = 0
      rw [yields, none_]
      rfl

theorem cell_roundTrips (trace : CausalTrace) (text : String)
    (written : Cell.toJson trace = .ok text) : Cell.fromSlice (asBytes text) = .ok trace := by
  unfold Cell.toJson at written
  split at written
  · rename_i is
    rw [← Except.ok.inj written, is]
    exact if_pos rfl
  · cases written

theorem down_made : ∃ trace, TraceRow.fromTrace Cell.toJson trace = .ok Cell.downRow := by
  refine ⟨Cell.downTrace, ?_⟩
  rw [TraceRow.fromTrace, Cell.toJson, if_pos rfl]
  rfl

theorem backends_agree_iff_down : SinksAgree Cell.toJson Cell.fromSlice .new treeSink
    [.put Cell.downRow down_made, .range 0 1] := by
  have opened : (RocksDbSink.openSink "traces" : RocksDbSink.Fallible treeDb Unit _) =
      .ok treeSink := rfl
  refine (backends_agree_iff treeDb_ordered cell_roundTrips opened treeSink_empty _).mpr ?_
  simp [SinkCall.Forward]

/-- A range that ends before it starts ends the process of one sink, and is empty in the other. -/
theorem backward_range_panics : ∃ memory persistent,
    InMemorySink.new.put Cell.downRow = ((.ok () : Except (StorageError Unit) Unit), memory) ∧
    treeSink.put Cell.downRow =
      ((.ok () : RocksDbSink.Fallible treeDb Unit Unit), persistent) ∧
    memory.range 5 3 =
      .error (.expectFailed "range start is greater than range end in BTreeMap") ∧
    persistent.range Cell.toJson Cell.fromSlice 5 3 = .ok [] ∧
    ¬ SinksAgree Cell.toJson Cell.fromSlice .new treeSink
      [.put Cell.downRow down_made, .range 5 3] := by
  have empty : SameRows treeContents Cell.toJson .new treeSink [] :=
    sameRows_new treeSink_empty rfl
  obtain ⟨stored, memory, persistent, items, put, put', same⟩ :=
    put_same treeDb_ordered empty down_made
  have new := @put_new Unit .new [] WriteOnce.holds_empty Cell.downRow List.not_mem_nil
  obtain ⟨rfl, -⟩ := Prod.mk.inj (put.symm.trans new)
  refine ⟨memory, persistent, put, put', range_backward (by decide),
    range_none treeDb_ordered cell_roundTrips same (by decide), fun agree => ?_⟩
  have forward : (5 : UInt64) ≤ 3 :=
    (agree_iff treeDb_ordered cell_roundTrips empty _).mp agree (.range 5 3) (by simp)
  exact absurd forward (by decide)

end Proof
end CausalWorks
