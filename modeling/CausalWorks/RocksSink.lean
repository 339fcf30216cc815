import CausalWorks.Lib.ByteOrder
import CausalWorks.Storage

/-!
# The persistent evidence store (`storage.rs`, feature `rocksdb-sink`)

The `rocksdb` package and the deserializer are parameters. The store keeps the JSON of a row under
a binary key, and makes the row again when it is read.
-/

namespace CausalWorks

def asBytes (s : String) : List UInt8 := s.toList.flatMap String.utf8EncodeChar

def toBeBytes (x : UInt64) : List UInt8 := ByteOrder.bigEndian 8 x.toNat

def fromBeBytes (bytes : List UInt8) : UInt64 := .ofNat (ByteOrder.ofBigEndian bytes)

def TraceRow.rocksdbKey (self : TraceRow) : List UInt8 :=
  toBeBytes self.tripTsNs ++ asBytes self.traceId

/-! ## The package -/

inductive IteratorMode where
  | start
  | fromForward (key : List UInt8)
  deriving DecidableEq, Repr

/-- The part of `rocksdb::DB` that is used. `put` returns the database after the call. -/
structure RocksDb where
  DB : Type
  Error : Type
  openDb : String → Except Error DB
  get : DB → List UInt8 → Except Error (Option (List UInt8))
  put : DB → List UInt8 → List UInt8 → Except Error Unit × DB
  iterator : DB → IteratorMode → List (Except Error (List UInt8 × List UInt8))

inductive RocksStorageError (JsonError RocksError : Type) where
  | base (error : StorageError JsonError)
  | rocksDb (error : RocksError)
  deriving DecidableEq, Repr

/-! ## The sink -/

structure RocksDbSink (rocks : RocksDb) where
  db : rocks.DB
  count : Nat

namespace RocksDbSink
variable {rocks : RocksDb} {JsonError : Type}

abbrev Fallible (rocks : RocksDb) (JsonError : Type) :=
  Except (RocksStorageError JsonError rocks.Error)

def openSink (path : String) : Fallible rocks JsonError (RocksDbSink rocks) :=
  match rocks.openDb path with
  | .error error => .error (.rocksDb error)
  | .ok db => .ok { db, count := (rocks.iterator db .start).length }

def put (self : RocksDbSink rocks) (row : TraceRow) :
    Fallible rocks JsonError Unit × RocksDbSink rocks :=
  let key := row.rocksdbKey
  match rocks.get self.db key with
  | .error error => (.error (.rocksDb error), self)
  | .ok (some _) => (.error (.base (.duplicateKey row.traceId)), self)
  | .ok none =>
    match rocks.put self.db key (asBytes row.evidenceJson) with
    | (.error error, db) => (.error (.rocksDb error), { self with db })
    | (.ok (), db) => (.ok (), { db, count := self.count + 1 })

section
variable (toJson : CausalTrace → Except JsonError String)
  (fromSlice : List UInt8 → Except JsonError CausalTrace)

def rebuild (value : List UInt8) : Except JsonError TraceRow := do
  let trace ← fromSlice value
  TraceRow.fromTrace toJson trace

/-- The `for` loop of `range`; an error of the iterator or of the serializer ends it. -/
def scan (endNs : UInt64) : List (Except rocks.Error (List UInt8 × List UInt8)) →
    List TraceRow → Fallible rocks JsonError (List TraceRow)
  | [], out => .ok out
  | .error error :: _, _ => .error (.rocksDb error)
  | .ok (k, v) :: items, out =>
      if k.length < 8 then scan endNs items out
      else if endNs ≤ fromBeBytes (k.take 8) then .ok out
      else
        match rebuild toJson fromSlice v with
        | .error error => .error (.base (.serde error))
        | .ok row => scan endNs items (out ++ [row])

def range (self : RocksDbSink rocks) (startNs endNs : UInt64) :
    Fallible rocks JsonError (List TraceRow) :=
  scan toJson fromSlice endNs (rocks.iterator self.db (.fromForward (toBeBytes startNs))) []

end

def len (self : RocksDbSink rocks) : Nat := self.count

end RocksDbSink

end CausalWorks
