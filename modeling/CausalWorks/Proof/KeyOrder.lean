import CausalWorks.Proof.AppendOnly
import CausalWorks.Proof.Evidence
import CausalWorks.RocksSink

/-!
# The binary key keeps the order

The big-endian timestamp has a fixed width and UTF-8 keeps the order of characters, so the bytes of
a key are ordered as the time and the id. An iterator that is placed at a time and left at another
visits what lies between them.
-/

namespace CausalWorks

def IteratorMode.admits : IteratorMode → List UInt8 → Bool
  | .start, _ => true
  | .fromForward first, key => (compare first key).isLE

/-- The database is a map on byte strings, iterated in unsigned lexicographic order. -/
structure RocksDb.OrderedByteMap (rocks : RocksDb)
    (contents : rocks.DB → List UInt8 → Option (List UInt8)) : Prop where
  get : ∀ db key, rocks.get db key = .ok (contents db key)
  put : ∀ db key value, ∃ after, rocks.put db key value = (.ok (), after) ∧
    contents after = Function.update (contents db) key (some value)
  iterator : ∀ db mode, ∃ entries : List (List UInt8 × List UInt8),
    rocks.iterator db mode = entries.map .ok ∧
    (entries.Pairwise fun a b => compare a.1 b.1 = .lt) ∧
    ∀ key value, (key, value) ∈ entries ↔ contents db key = some value ∧
      mode.admits key = true

namespace RocksDbSink
variable {rocks : RocksDb} (JsonError : Type)

def putAll (self : RocksDbSink rocks) (rows : List TraceRow) : RocksDbSink rocks :=
  rows.foldl (fun sink row => (sink.put row : Fallible rocks JsonError Unit × _).2) self

def stored (self : RocksDbSink rocks) : List TraceRow → List TraceRow
  | [] => []
  | row :: rows =>
      match (self.put row : Fallible rocks JsonError Unit × _) with
      | (.ok (), after) => row :: after.stored rows
      | (.error _, after) => after.stored rows

end RocksDbSink

def TraceRow.entry (self : TraceRow) : List UInt8 × List UInt8 :=
  (self.rocksdbKey, asBytes self.evidenceJson)

structure StoresRows {DB : Type} (contents : DB → List UInt8 → Option (List UInt8)) (db : DB)
    (rows : List TraceRow) : Prop where
  distinct : (rows.map TraceRow.orderKey).Nodup
  stored : ∀ key value, contents db key = some value ↔
    ∃ row ∈ rows, row.rocksdbKey = key ∧ asBytes row.evidenceJson = value

structure KeysEmbed (r s : TraceRow) : Prop where
  ordered : compare r.rocksdbKey s.rocksdbKey = compare r.orderKey s.orderKey
  distinct : r.rocksdbKey = s.rocksdbKey ↔ r.tripTsNs = s.tripTsNs ∧ r.traceId = s.traceId

abbrev ByteTree := Std.TreeMap (List UInt8) (List UInt8)

def treeDb : RocksDb where
  DB := ByteTree
  Error := Empty
  openDb _ := .ok ∅
  get db key := .ok db[key]?
  put db key value := (.ok (), db.insert key value)
  iterator db mode := (db.toList.filter fun entry => mode.admits entry.1).map .ok

def treeSink : RocksDbSink treeDb := { db := (∅ : ByteTree), count := 0 }

namespace Cell

def tripTrace (seq : UInt64) : CausalTrace :=
  { traceId := formatTraceId "APPL-REPLAY" 0 seq, applianceId := "APPL-REPLAY", tripTsNs := 0
    rootCatalyst := none, rankedCatalysts := [], eventSequence := [⟨seq, 3, 0, 0, some false⟩]
    iso13849 := ⟨"SF-FROM-MANIFEST", 50000000, 0, false, .unattributedTrip⟩ }

def tripJson (trace : CausalTrace) : Except Unit String :=
  match trace.eventSequence with
  | [event] => .ok (unattributed (toString event.seq.toNat))
  | _ => .error ()

def tripSlice (bytes : List UInt8) : Except Unit CausalTrace :=
  if bytes = asBytes (unattributed "1") then .ok (tripTrace 1)
  else if bytes = asBytes (unattributed "10") then .ok (tripTrace 10)
  else .error ()

def tripRow (seq : UInt64) : TraceRow :=
  { tripTsNs := 0, traceId := formatTraceId "APPL-REPLAY" 0 seq, applianceId := "APPL-REPLAY"
    safetyFnId := "SF-FROM-MANIFEST", attributed := false, rootOverrun := none
    evidenceJson := unattributed (toString seq.toNat) }

end Cell

namespace Proof

theorem compare_toBeBytes (x y : UInt64) (xs ys : List UInt8) :
    compare (toBeBytes x ++ xs) (toBeBytes y ++ ys) = (compare x y).then (compare xs ys) := by
  have number : compare x y = compare x.toNat y.toNat := by
    apply ByteOrder.compare_congr
    · rw [Std.compare_eq_lt, Nat.compare_eq_lt, UInt64.lt_iff_toNat_lt]
    · rw [Std.compare_eq_lt, Nat.compare_eq_lt, UInt64.lt_iff_toNat_lt]
  rw [number]
  exact ByteOrder.compare_bigEndian (UInt64.toNat_lt x) (UInt64.toNat_lt y) xs ys

theorem compare_asBytes (s t : String) : compare (asBytes s) (asBytes t) = compare s t := by
  have text : compare s t = compare s.toList t.toList := by
    apply ByteOrder.compare_congr
    · rw [compare_lt_iff_lt, ByteOrder.compare_lt_iff_lex (fun a b => compareOfLessAndEq_eq_lt),
        String.lt_iff_toList_lt]
    · rw [compare_lt_iff_lt, ByteOrder.compare_lt_iff_lex (fun a b => compareOfLessAndEq_eq_lt),
        String.lt_iff_toList_lt]
  rw [text]
  exact ByteOrder.utf8_ordered.compare_flatMap _ _

theorem compare_rocksdbKey (a b : TraceRow) :
    compare a.rocksdbKey b.rocksdbKey = compare a.orderKey b.orderKey := by
  rw [compare_key, TraceRow.rocksdbKey, TraceRow.rocksdbKey, compare_toBeBytes, compare_asBytes]
  rfl

theorem rocksdbKey_inj {a b : TraceRow} :
    a.rocksdbKey = b.rocksdbKey ↔ a.orderKey = b.orderKey := by
  rw [← Std.LawfulEqOrd.compare_eq_iff_eq, compare_rocksdbKey, Std.LawfulEqOrd.compare_eq_iff_eq]

theorem fromBeBytes_key (row : TraceRow) : fromBeBytes (row.rocksdbKey.take 8) = row.tripTsNs := by
  have front : (toBeBytes row.tripTsNs).length = 8 := ByteOrder.length_bigEndian 8 _
  rw [TraceRow.rocksdbKey, List.take_left' front, fromBeBytes, toBeBytes,
    ByteOrder.ofBigEndian_bigEndian (UInt64.toNat_lt row.tripTsNs), UInt64.ofNat_toNat]

theorem long_key (row : TraceRow) : ¬ row.rocksdbKey.length < 8 := by
  rw [TraceRow.rocksdbKey, List.length_append, toBeBytes, ByteOrder.length_bigEndian]
  omega

theorem admits_iff {row : TraceRow} {startNs : UInt64} :
    (IteratorMode.fromForward (toBeBytes startNs)).admits row.rocksdbKey = true ↔
      startNs ≤ row.tripTsNs := by
  have order := compare_toBeBytes startNs row.tripTsNs [] (asBytes row.traceId)
  rw [List.append_nil] at order
  rw [IteratorMode.admits, TraceRow.rocksdbKey, order]
  cases times : compare startNs row.tripTsNs with
  | lt => exact ⟨fun _ => UInt64.le_of_lt (Std.compare_eq_lt.mp times), fun _ => rfl⟩
  | gt =>
      have before := Std.compare_eq_lt.mp (Std.OrientedCmp.gt_iff_lt.mp times)
      exact ⟨nofun, fun after => absurd after (UInt64.not_le.mpr before)⟩
  | eq =>
      have same := Std.LawfulEqOrd.eq_of_compare times
      refine ⟨fun _ => UInt64.le_of_eq same, fun _ => ?_⟩
      cases asBytes row.traceId <;> rfl

section
variable {rocks : RocksDb} {contents : rocks.DB → List UInt8 → Option (List UInt8)}
  {JsonError : Type} {sink : RocksDbSink rocks} {rows : List TraceRow}

theorem storesRows_empty (empty : contents sink.db = fun _ => none) :
    StoresRows contents sink.db [] where
  distinct := List.nodup_nil
  stored key value := by
    rw [empty]
    exact ⟨nofun, fun ⟨_, member, _⟩ => absurd member List.not_mem_nil⟩

theorem StoresRows.insert (stores : StoresRows contents sink.db rows) {row : TraceRow}
    (absent : row.orderKey ∉ rows.map TraceRow.orderKey) {after : rocks.DB}
    (updated : contents after = Function.update (contents sink.db) row.rocksdbKey
      (some (asBytes row.evidenceJson))) : StoresRows contents after (rows ++ [row]) where
  distinct := by
    rw [List.map_append, List.map_singleton, ← List.concat_eq_append]
    exact List.Nodup.concat absent stores.distinct
  stored key value := by
    rw [updated, Function.update_apply]
    split
    · rename_i here
      subst here
      constructor
      · intro now
        exact ⟨row, List.mem_append_right _ (List.mem_singleton_self _), rfl, Option.some.inj now⟩
      · rintro ⟨r, member, key, rfl⟩
        rcases List.mem_append.mp member with before | now
        · exact absurd (List.mem_map.mpr ⟨r, before, rocksdbKey_inj.mp key⟩) absent
        · rw [List.mem_singleton.mp now]
    · rename_i other
      rw [stores.stored]
      constructor
      · rintro ⟨r, before, is⟩
        exact ⟨r, List.mem_append_left _ before, is⟩
      · rintro ⟨r, member, rfl, is⟩
        rcases List.mem_append.mp member with before | now
        · exact ⟨r, before, rfl, is⟩
        · exact absurd (congrArg TraceRow.rocksdbKey (List.mem_singleton.mp now)) other

theorem rocks_put_taken (map : rocks.OrderedByteMap contents)
    (stores : StoresRows contents sink.db rows) {row : TraceRow}
    (taken : row.orderKey ∈ rows.map TraceRow.orderKey) :
    (sink.put row : RocksDbSink.Fallible rocks JsonError Unit × _) =
      (.error (.base (.duplicateKey row.traceId)), sink) := by
  obtain ⟨earlier, member, key⟩ := List.mem_map.mp taken
  have there := (stores.stored _ _).mpr ⟨earlier, member, rocksdbKey_inj.mpr key, rfl⟩
  rw [RocksDbSink.put, map.get, there]

theorem rocks_put_new (map : rocks.OrderedByteMap contents)
    (stores : StoresRows contents sink.db rows) {row : TraceRow}
    (new : row.orderKey ∉ rows.map TraceRow.orderKey) : ∃ after,
    (sink.put row : RocksDbSink.Fallible rocks JsonError Unit × _) =
        (.ok (), ⟨after, sink.count + 1⟩) ∧
      contents after = Function.update (contents sink.db) row.rocksdbKey
        (some (asBytes row.evidenceJson)) := by
  have absent : contents sink.db row.rocksdbKey = none := by
    refine Option.eq_none_iff_forall_not_mem.mpr fun value there => ?_
    obtain ⟨earlier, member, key, -⟩ := (stores.stored _ _).mp there
    exact new (List.mem_map.mpr ⟨earlier, member, rocksdbKey_inj.mp key⟩)
  obtain ⟨after, put, updated⟩ := map.put sink.db row.rocksdbKey (asBytes row.evidenceJson)
  refine ⟨after, ?_, updated⟩
  rw [RocksDbSink.put, map.get, absent, put]

variable (JsonError) in
theorem storesRows_putAll (map : rocks.OrderedByteMap contents)
    (stores : StoresRows contents sink.db rows) (puts : List TraceRow) :
    StoresRows contents (sink.putAll JsonError puts).db (rows ++ sink.stored JsonError puts) := by
  induction puts generalizing sink rows with
  | nil =>
      rw [RocksDbSink.stored, List.append_nil]
      exact stores
  | cons row puts ih =>
      rw [RocksDbSink.putAll, List.foldl_cons, RocksDbSink.stored]
      by_cases taken : row.orderKey ∈ rows.map TraceRow.orderKey
      · rw [rocks_put_taken map stores taken]
        exact ih stores
      · obtain ⟨after, put, updated⟩ := @rocks_put_new _ _ JsonError _ _ map stores row taken
        rw [put]
        have rest := @ih ⟨after, sink.count + 1⟩ _ (StoresRows.insert stores taken updated)
        rwa [List.append_assoc] at rest

end

section
variable {rocks : RocksDb} {contents : rocks.DB → List UInt8 → Option (List UInt8)}
  {JsonError : Type} (toJson : CausalTrace → Except JsonError String)
  (fromSlice : List UInt8 → Except JsonError CausalTrace) {sink : RocksDbSink rocks}
  {rows : List TraceRow}

theorem scan_entries (endNs : UInt64) (rows out : List TraceRow) :
    (RocksDbSink.scan toJson fromSlice endNs ((rows.map TraceRow.entry).map .ok) out :
        RocksDbSink.Fallible rocks JsonError (List TraceRow)) =
      (((rows.takeWhile fun row => decide (row.tripTsNs < endNs)).mapM fun row =>
        RocksDbSink.rebuild toJson fromSlice (asBytes row.evidenceJson)).map (out ++ ·)).mapError
          fun error => .base (.serde error) := by
  induction rows generalizing out with
  | nil =>
      show _ = Except.ok (out ++ [])
      rw [List.append_nil]
      rfl
  | cons row rows ih =>
      rw [List.map_cons, List.map_cons, TraceRow.entry, RocksDbSink.scan, if_neg (long_key row),
        fromBeBytes_key, List.takeWhile_cons]
      by_cases before : row.tripTsNs < endNs
      · rw [if_neg (UInt64.not_le.mpr before), if_pos (decide_eq_true before), List.mapM_cons]
        cases RocksDbSink.rebuild toJson fromSlice (asBytes row.evidenceJson) with
        | error error => rfl
        | ok made =>
            simp only [ih, bind, Except.bind]
            cases (rows.takeWhile fun row => decide (row.tripTsNs < endNs)).mapM fun row =>
                RocksDbSink.rebuild toJson fromSlice (asBytes row.evidenceJson) with
            | error error => rfl
            | ok rest => simp [Except.map, Except.mapError, pure, Except.pure]
      · rw [if_pos (UInt64.not_lt.mp before), if_neg (by simpa using before)]
        show _ = Except.ok (out ++ [])
        rw [List.append_nil]

theorem exists_map {α β : Type} {f : α → β} {P : α → Prop} {ys : List β}
    (all : ∀ y ∈ ys, ∃ x, P x ∧ f x = y) : ∃ xs : List α, xs.map f = ys ∧ ∀ x ∈ xs, P x := by
  induction ys with
  | nil => exact ⟨[], rfl, fun _ member => absurd member List.not_mem_nil⟩
  | cons y ys ih =>
      obtain ⟨first, rest⟩ := List.forall_mem_cons.mp all
      obtain ⟨x, holds, rfl⟩ := first
      obtain ⟨xs, rfl, each⟩ := ih rest
      exact ⟨x :: xs, rfl, List.forall_mem_cons.mpr ⟨holds, each⟩⟩

theorem before_of_precedes {a b : TraceRow} {endNs : UInt64}
    (lt : compare a.orderKey b.orderKey = .lt) (before : b.tripTsNs < endNs) :
    a.tripTsNs < endNs := by
  rcases compare_lt_iff.mp lt with earlier | ⟨together, -⟩
  · exact UInt64.lt_trans earlier before
  · have together : a.tripTsNs = b.tripTsNs := together
    rw [together]
    exact before

theorem iterator_rows (map : rocks.OrderedByteMap contents)
    (stores : StoresRows contents sink.db rows) (startNs : UInt64) :
    ∃ found : List TraceRow, rocks.iterator sink.db (.fromForward (toBeBytes startNs)) =
        (found.map TraceRow.entry).map .ok ∧
      (found.Pairwise fun a b => compare a.orderKey b.orderKey = .lt) ∧
      ∀ row, row ∈ found ↔ row ∈ rows ∧ startNs ≤ row.tripTsNs := by
  obtain ⟨entries, yields, ordered, listed⟩ :=
    map.iterator sink.db (.fromForward (toBeBytes startNs))
  obtain ⟨found, rfl, inside⟩ := @exists_map _ _ TraceRow.entry
    (fun row => row ∈ rows ∧ startNs ≤ row.tripTsNs) entries (by
      rintro ⟨key, value⟩ member
      obtain ⟨there, admitted⟩ := (listed key value).mp member
      obtain ⟨row, stored, rfl, rfl⟩ := (stores.stored key value).mp there
      exact ⟨row, ⟨stored, admits_iff.mp admitted⟩, rfl⟩)
  refine ⟨found, yields, ?_, fun row => ⟨inside row, ?_⟩⟩
  · refine (List.pairwise_map.mp ordered).imp ?_
    intro a b lt
    rw [← compare_rocksdbKey]
    exact lt
  · rintro ⟨stored, late⟩
    have yielded := (listed row.rocksdbKey (asBytes row.evidenceJson)).mpr
      ⟨(stores.stored _ _).mpr ⟨row, stored, rfl, rfl⟩, admits_iff.mpr late⟩
    obtain ⟨other, member, is⟩ := List.mem_map.mp yielded
    -- Of the rows that are held, only this one has its key.
    have key := rocksdbKey_inj.mp (congrArg Prod.fst is)
    obtain rfl := List.inj_on_of_nodup_map stores.distinct (inside other member).1 stored key
    exact member

theorem range_visits (map : rocks.OrderedByteMap contents)
    (stores : StoresRows contents sink.db rows) (startNs endNs : UInt64) :
    ∃ visited : List TraceRow, sink.range toJson fromSlice startNs endNs =
        (visited.mapM fun row => RocksDbSink.rebuild toJson fromSlice
          (asBytes row.evidenceJson)).mapError (fun error => .base (.serde error)) ∧
      (visited.Pairwise fun a b => compare a.orderKey b.orderKey = .lt) ∧
      ∀ row, row ∈ visited ↔ row ∈ rows ∧ startNs ≤ row.tripTsNs ∧ row.tripTsNs < endNs := by
  obtain ⟨found, yields, ordered, listed⟩ := iterator_rows map stores startNs
  have filtered := @WriteOnce.takeWhile_eq_filter _ (fun row => decide (row.tripTsNs < endNs)) found
    (ordered.imp fun lt before =>
      decide_eq_true (before_of_precedes lt (of_decide_eq_true before)))
  refine ⟨found.takeWhile fun row => decide (row.tripTsNs < endNs), ?_, ?_, fun row => ?_⟩
  · rw [RocksDbSink.range, yields, scan_entries]
    congr 1
    cases (found.takeWhile fun row => decide (row.tripTsNs < endNs)).mapM fun row =>
        RocksDbSink.rebuild toJson fromSlice (asBytes row.evidenceJson) <;> rfl
  · rw [filtered]
    exact ordered.filter _
  · rw [filtered, List.mem_filter, listed, and_assoc, decide_eq_true_eq]

end

theorem keysEmbed (r s : TraceRow) : KeysEmbed r s where
  ordered := compare_rocksdbKey r s
  distinct := by
    rw [rocksdbKey_inj, TraceRow.orderKey, TraceRow.orderKey, OrderKey.mk.injEq]

theorem key_embeds_order {rocks : RocksDb}
    {contents : rocks.DB → List UInt8 → Option (List UInt8)} (map : rocks.OrderedByteMap contents)
    {sink : RocksDbSink rocks} (empty : contents sink.db = fun _ => none) {JsonError : Type}
    (toJson : CausalTrace → Except JsonError String)
    (fromSlice : List UInt8 → Except JsonError CausalTrace) (puts : List TraceRow)
    (startNs endNs : UInt64) : (∀ r s, KeysEmbed r s) ∧
    ∃ visited : List TraceRow, (sink.putAll JsonError puts).range toJson fromSlice startNs endNs =
        (visited.mapM fun row => RocksDbSink.rebuild toJson fromSlice
          (asBytes row.evidenceJson)).mapError (fun error => .base (.serde error)) ∧
      (visited.Pairwise fun a b => compare a.orderKey b.orderKey = .lt) ∧
      ∀ row, row ∈ visited ↔
        row ∈ sink.stored JsonError puts ∧ startNs ≤ row.tripTsNs ∧ row.tripTsNs < endNs := by
  have stores := storesRows_putAll JsonError map (storesRows_empty empty) puts
  rw [List.nil_append] at stores
  exact ⟨keysEmbed, range_visits toJson fromSlice map stores startNs endNs⟩

def treeContents (db : ByteTree) (key : List UInt8) : Option (List UInt8) := db[key]?

theorem treeContents_insert (db : ByteTree) (key value : List UInt8) :
    treeContents (db.insert key value) = Function.update (treeContents db) key (some value) := by
  funext other
  rw [treeContents, Std.TreeMap.getElem?_insert, Function.update_apply]
  by_cases here : other = key
  · rw [here, if_pos Std.ReflOrd.compare_self, if_pos rfl]
  · rw [if_neg fun same => here (Std.LawfulEqOrd.eq_of_compare same).symm, if_neg here]
    rfl

theorem mem_treeIterator (db : ByteTree) (mode : IteratorMode) (key value : List UInt8) :
    (key, value) ∈ db.toList.filter (fun entry => mode.admits entry.1) ↔
      treeContents db key = some value ∧ mode.admits key = true := by
  rw [List.mem_filter, Std.TreeMap.mem_toList_iff_getElem?_eq_some]
  rfl

theorem treeDb_ordered : treeDb.OrderedByteMap treeContents where
  get _ _ := rfl
  put db key value := ⟨_, rfl, treeContents_insert db key value⟩
  iterator db mode :=
    ⟨_, rfl, Std.TreeMap.ordered_keys_toList.filter _, mem_treeIterator db mode⟩

theorem treeSink_empty : treeContents treeSink.db = fun _ => none := by
  funext key
  exact Std.TreeMap.getElem?_emptyc

theorem asBytes_inj {s t : String} (same : asBytes s = asBytes t) : s = t := by
  have equal := compare_asBytes s t
  rw [same, Std.ReflOrd.compare_self] at equal
  exact Std.LawfulEqOrd.eq_of_compare equal.symm

theorem trip_rebuilt : ∀ row ∈ [Cell.tripRow 10, Cell.tripRow 1],
    RocksDbSink.rebuild Cell.tripJson Cell.tripSlice (asBytes row.evidenceJson) = .ok row := by
  have parsed : Cell.tripSlice (asBytes (Cell.unattributed "1")) = .ok (Cell.tripTrace 1) :=
    if_pos rfl
  have differ : asBytes (Cell.unattributed "10") ≠ asBytes (Cell.unattributed "1") := fun same =>
    absurd (asBytes_inj same) (by decide +kernel)
  have parsed' : Cell.tripSlice (asBytes (Cell.unattributed "10")) = .ok (Cell.tripTrace 10) :=
    (if_neg differ).trans (if_pos rfl)
  intro row member
  rcases List.mem_pair.mp member with rfl | rfl
  · rw [RocksDbSink.rebuild, show (Cell.tripRow 10).evidenceJson = Cell.unattributed "10" from rfl,
      parsed']
    rfl
  · rw [RocksDbSink.rebuild, show (Cell.tripRow 1).evidenceJson = Cell.unattributed "1" from rfl,
      parsed]
    rfl

theorem key_embeds_order_two : (∀ r s, KeysEmbed r s) ∧ ∃ visited : List TraceRow,
    (treeSink.putAll Unit [Cell.tripRow 10, Cell.tripRow 1]).range Cell.tripJson Cell.tripSlice
        0 1 = .ok visited ∧
      (visited.Pairwise fun a b => compare a.orderKey b.orderKey = .lt) ∧
      ∀ row, row ∈ visited ↔ row = Cell.tripRow 10 ∨ row = Cell.tripRow 1 := by
  have stored : treeSink.stored Unit [Cell.tripRow 10, Cell.tripRow 1] =
      [Cell.tripRow 10, Cell.tripRow 1] := rfl
  obtain ⟨embed, visited, scanned, ordered, are⟩ := key_embeds_order treeDb_ordered treeSink_empty
    Cell.tripJson Cell.tripSlice [Cell.tripRow 10, Cell.tripRow 1] 0 1
  rw [stored] at are
  rw [mapM_ok fun row member => trip_rebuilt row ((are row).mp member).1, List.map_id'] at scanned
  refine ⟨embed, visited, scanned, ordered, fun row => (are row).trans ?_⟩
  rw [List.mem_pair, and_iff_left_iff_imp]
  rintro (rfl | rfl)
  · decide
  · decide

end Proof
end CausalWorks
