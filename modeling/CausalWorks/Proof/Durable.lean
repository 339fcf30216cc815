import CausalWorks.Proof.Backends

/-!
# The persistent store across restarts

A service goes down at any time and comes back with what the database kept. `open` counts the
rows again, so that the store goes on as one that never stopped.
-/

namespace CausalWorks

def RocksDb.finding (rocks : RocksDb) (db : rocks.DB) : RocksDb :=
  { rocks with openDb := fun _ => .ok db }

/-- A process that dies inside a `put` restarts before it or after it. -/
inductive SinkEvent {JsonError : Type} (toJson : CausalTrace → Except JsonError String) where
  | used (call : SinkCall toJson)
  | restart (path : String)

def SinkEvent.Forward {JsonError : Type} {toJson : CausalTrace → Except JsonError String} :
    SinkEvent toJson → Prop
  | .used call => call.Forward
  | .restart _ => True

namespace SinkCall
variable {rocks : RocksDb} {JsonError : Type} {toJson : CausalTrace → Except JsonError String}

def inMemory (memory : InMemorySink) : SinkCall toJson → InMemorySink
  | .put row _ => (memory.put row : Except (StorageError JsonError) Unit × _).2
  | .range _ _ => memory

def onDisk (persistent : RocksDbSink rocks) : SinkCall toJson → RocksDbSink rocks
  | .put row _ => (persistent.put row : RocksDbSink.Fallible rocks JsonError Unit × _).2
  | .range _ _ => persistent

end SinkCall

/-- Only the persistent sink goes down; `recover` is what the next process finds. -/
def AgreeAcross {rocks : RocksDb} {JsonError : Type} (recover : rocks.DB → rocks.DB)
    (toJson : CausalTrace → Except JsonError String)
    (fromSlice : List UInt8 → Except JsonError CausalTrace) :
    InMemorySink → RocksDbSink rocks → List (SinkEvent toJson) → Prop
  | memory, persistent, [] => memory.len = persistent.len
  | memory, persistent, .used call :: events =>
      SinksAgree toJson fromSlice memory persistent [call] ∧
      AgreeAcross recover toJson fromSlice (call.inMemory memory) (call.onDisk persistent) events
  | memory, persistent, .restart path :: events =>
      memory.len = persistent.len ∧
      ∃ sink : RocksDbSink (rocks.finding (recover persistent.db)),
        (RocksDbSink.openSink path : RocksDbSink.Fallible _ JsonError _) = .ok sink ∧
        AgreeAcross recover toJson fromSlice memory ⟨sink.db, sink.count⟩ events

namespace Proof

section
variable {rocks : RocksDb} {contents : rocks.DB → List UInt8 → Option (List UInt8)}
  {JsonError : Type} {toJson : CausalTrace → Except JsonError String}
  {fromSlice : List UInt8 → Except JsonError CausalTrace} {memory : InMemorySink}
  {persistent : RocksDbSink rocks} {items : List TraceRow}

theorem SameRows.after (map : rocks.OrderedByteMap contents)
    (same : SameRows contents toJson memory persistent items) (call : SinkCall toJson) :
    ∃ items', SameRows contents toJson (call.inMemory memory) (call.onDisk persistent) items' := by
  cases call with
  | range startNs endNs => exact ⟨items, same⟩
  | put row made =>
      obtain ⟨stored, memory', persistent', items', put, put', same'⟩ := put_same map same made
      refine ⟨items', ?_⟩
      rw [SinkCall.inMemory, SinkCall.onDisk, put, put']
      exact same'

theorem StoresRows.counted (map : rocks.OrderedByteMap contents) {db : rocks.DB}
    (stores : StoresRows contents db items) :
    (rocks.iterator db .start).length = items.length := by
  obtain ⟨entries, yields, ordered, listed⟩ := map.iterator db .start
  have once : entries.Nodup := by
    refine ordered.imp fun {a b} lt same => ?_
    rw [same, Std.ReflOrd.compare_self] at lt
    cases lt
  have rows : (items.map TraceRow.entry).Nodup := by
    refine List.Nodup.map_on ?_ (List.Nodup.of_map _ stores.distinct)
    intro row there other member same
    have key := rocksdbKey_inj.mp (congrArg Prod.fst same)
    exact List.inj_on_of_nodup_map stores.distinct there member key
  have perm : entries.Perm (items.map TraceRow.entry) := by
    refine (List.perm_ext_iff_of_nodup once rows).mpr fun ⟨key, value⟩ => ?_
    rw [listed, stores.stored, List.mem_map]
    constructor
    · rintro ⟨⟨row, there, rfl, rfl⟩, -⟩
      exact ⟨row, there, rfl⟩
    · rintro ⟨row, there, is⟩
      obtain ⟨rfl, rfl⟩ := Prod.mk.inj is
      exact ⟨⟨row, there, rfl, rfl⟩, rfl⟩
  rw [yields, List.length_map, perm.length_eq, List.length_map]

theorem SameRows.reopened (map : rocks.OrderedByteMap contents)
    (same : SameRows contents toJson memory persistent items) {db : rocks.DB}
    (kept : contents db = contents persistent.db) :
    SameRows contents toJson memory ⟨db, (rocks.iterator db .start).length⟩ items := by
  have stored : ∀ key value, contents db key = some value ↔
      ∃ row ∈ items, row.rocksdbKey = key ∧ asBytes row.evidenceJson = value := by
    rw [kept]
    exact same.stored
  exact ⟨same.holds, same.made, stored, StoresRows.counted map ⟨same.holds.distinct, stored⟩⟩

theorem agreeAcross_iff (map : rocks.OrderedByteMap contents) {recover : rocks.DB → rocks.DB}
    (kept : ∀ db, contents (recover db) = contents db)
    (roundTrips : ∀ trace text, toJson trace = .ok text → fromSlice (asBytes text) = .ok trace)
    (same : SameRows contents toJson memory persistent items) (events : List (SinkEvent toJson)) :
    AgreeAcross recover toJson fromSlice memory persistent events ↔
      ∀ event ∈ events, event.Forward := by
  induction events generalizing memory persistent items with
  | nil => exact ⟨fun _ _ member => absurd member List.not_mem_nil, fun _ => same.len⟩
  | cons event events ih =>
      rw [List.forall_mem_cons]
      cases event with
      | used call =>
          obtain ⟨items', same'⟩ := same.after map call
          rw [AgreeAcross, ih same', agree_iff map roundTrips same, List.forall_mem_singleton]
          rfl
      | restart path =>
          have reopened := same.reopened map (kept persistent.db)
          rw [AgreeAcross]
          constructor
          · rintro ⟨-, sink, opened, rest⟩
            cases opened
            exact ⟨trivial, (ih reopened).mp rest⟩
          · rintro ⟨-, rest⟩
            exact ⟨same.len, _, rfl, (ih reopened).mpr rest⟩

end

theorem restarts_lose_nothing {rocks : RocksDb}
    {contents : rocks.DB → List UInt8 → Option (List UInt8)} (map : rocks.OrderedByteMap contents)
    {recover : rocks.DB → rocks.DB} (kept : ∀ db, contents (recover db) = contents db)
    {JsonError : Type} {toJson : CausalTrace → Except JsonError String}
    {fromSlice : List UInt8 → Except JsonError CausalTrace}
    (roundTrips : ∀ trace text, toJson trace = .ok text → fromSlice (asBytes text) = .ok trace)
    {path : String} {sink : RocksDbSink rocks}
    (opened : (RocksDbSink.openSink path : RocksDbSink.Fallible rocks JsonError _) = .ok sink)
    (empty : contents sink.db = fun _ => none) (events : List (SinkEvent toJson)) :
    AgreeAcross recover toJson fromSlice .new sink events ↔ ∀ event ∈ events, event.Forward := by
  unfold RocksDbSink.openSink at opened
  cases database : rocks.openDb path with
  | error error => simp [database] at opened
  | ok db =>
      simp only [database, Except.ok.injEq] at opened
      subst opened
      have count := StoresRows.counted map (@storesRows_empty rocks contents ⟨db, 0⟩ empty)
      exact agreeAcross_iff map kept roundTrips (sameRows_new empty count) events

theorem restarts_lose_nothing_down : AgreeAcross id Cell.toJson Cell.fromSlice .new treeSink
    [.used (.put Cell.downRow down_made), .restart "traces",
      .used (.put Cell.downRow down_made), .used (.range 0 1)] := by
  have opened : (RocksDbSink.openSink "traces" : RocksDbSink.Fallible treeDb Unit _) =
      .ok treeSink := rfl
  refine (restarts_lose_nothing treeDb_ordered (fun _ => rfl) cell_roundTrips opened
    treeSink_empty _).mpr ?_
  simp [SinkEvent.Forward, SinkCall.Forward]

end Proof
end CausalWorks
