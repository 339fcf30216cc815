import CausalWorks.Lib.WriteOnce
import CausalWorks.Trace

/-!
# The evidence store (`storage.rs`)

The `BTreeMap` of the in-memory sink is an ordered map. Strings are compared by their characters,
which is the order of their UTF-8 bytes.
-/

namespace CausalWorks

inductive StorageError (JsonError : Type) where
  | serde (error : JsonError)
  | duplicateKey (traceId : String)
  deriving DecidableEq, Repr

structure OrderKey where
  tsNs : UInt64
  traceId : String
  deriving DecidableEq, Repr

instance : Ord OrderKey := ⟨compareLex (compareOn OrderKey.tsNs) (compareOn OrderKey.traceId)⟩

def TraceRow.orderKey (row : TraceRow) : OrderKey :=
  { tsNs := row.tripTsNs, traceId := row.traceId }

structure InMemorySink where
  rows : Std.TreeMap OrderKey TraceRow

namespace InMemorySink

def new : InMemorySink := { rows := ∅ }

def put {JsonError : Type} (self : InMemorySink) (row : TraceRow) :
    Except (StorageError JsonError) Unit × InMemorySink :=
  let key := row.orderKey
  if self.rows.contains key then (.error (.duplicateKey row.traceId), self)
  else (.ok (), { self with rows := self.rows.insert key row })

/-- `BTreeMap::range` is documented to panic when the range starts behind its end. Its implementation
does not look at the bounds of a map that nothing was inserted in. -/
def range (self : InMemorySink) (startNs endNs : UInt64) : Except Fault (List TraceRow) :=
  let lo : OrderKey := { tsNs := startNs, traceId := "" }
  let hi : OrderKey := { tsNs := endNs, traceId := "" }
  if (compare lo hi).isGT then
    .error (.expectFailed "range start is greater than range end in BTreeMap")
  else .ok (WriteOnce.between self.rows lo hi)

def len (self : InMemorySink) : Nat := self.rows.size

end InMemorySink

end CausalWorks
