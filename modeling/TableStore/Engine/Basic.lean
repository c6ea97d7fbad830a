import TableStore.Engine.Batch
import TableStore.Key.Range
import TableStore.Error

/-!
# What an engine can do

An engine keeps rows under physical keys and knows nothing of tables. It answers point
reads and ordered walks, applies batches, and may hand out a snapshot, which is the
rows as they were.

An engine is a value. A write returns the engine after it, also when it fails, because
failing may use up a fault that was armed.

What a store may rely on is said in terms of `StorageEngine.rows`. An `AtomicEngine`
makes a batch as a whole or not at all. An `HonestEngine` may fail to read, but a walk
that it finishes is the right one. An engine that `Answers` fails at no read, and one
that is `Healthy` fails at nothing. The first two are about a type of engines, the other
two about one engine at one time, since faults come and go.
-/

namespace TableStore

/-- A row with its physical key. -/
abbrev Entry := Bytes × Bytes

/-- A walk over rows; an entry of it may turn out unreadable. -/
abbrev Walk := List (Except StoreError Entry)

/-- Number of rows of a walk, or the first error met on it. -/
def Walk.count : Walk → Except StoreError Nat
  | [] => .ok 0
  | .error e :: _ => .error e
  | .ok _ :: rest => (count rest).map (· + 1)

/-- The operations of a storage engine. -/
class StorageEngine (ε : Type) where
  /-- The name of the engine. -/
  name : ε → String
  /-- The rows that the engine holds, whatever its operations answer. -/
  rows : ε → Rows
  /-- The value under a key. -/
  get : ε → Bytes → Except StoreError (Option Bytes)
  /-- Whether there is a value under a key. -/
  contains : ε → Bytes → Except StoreError Bool :=
    fun engine key => (get engine key).map Option.isSome
  /-- The rows of a range, in order. -/
  scan : ε → KeyRange → ScanOrder → Except StoreError Walk
  /-- Whether a walk shows the rows of the time when its first is asked for, and not
  those of the time when it was opened. -/
  walksLate : ε → Bool := fun _ => false
  /-- Number of rows of a range. -/
  count : ε → KeyRange → Except StoreError Nat :=
    fun engine range =>
      match scan engine range .ascending with
      | .ok walk => walk.count
      | .error e => .error e
  /-- Apply a batch, and with `sync` make it durable first. -/
  write : ε → WriteBatch → (sync : Bool) → Except StoreError Unit × ε
  /-- The rows as they are now, from an engine that can keep them. -/
  snapshot : ε → Except StoreError (Option Rows)
  /-- Make every write durable. -/
  flush : ε → Except StoreError Unit

/-- Entries in the direction of a walk. -/
def ScanOrder.arrange {α : Type} (order : ScanOrder) (ascending : List α) : List α :=
  match order with
  | .ascending => ascending
  | .descending => ascending.reverse

/-- The rows of a range, in order: those whose key the range contains. -/
def Rows.within (rows : Rows) (range : KeyRange) (order : ScanOrder) : List Entry :=
  order.arrange (rows.toList.filter (fun e => range.contains e.1))

/-- An engine whose reads work: every answer is read off its rows. -/
structure StorageEngine.Answers {ε : Type} [StorageEngine ε] (engine : ε) : Prop where
  /-- A point read finds the row. -/
  get_eq (key : Bytes) :
    StorageEngine.get engine key = .ok ((StorageEngine.rows engine).get? key)
  /-- A key is there when a row is. -/
  contains_eq (key : Bytes) :
    StorageEngine.contains engine key = .ok ((StorageEngine.rows engine).contains key)
  /-- A walk visits the rows of its range, each once, in order. -/
  scan_eq (range : KeyRange) (order : ScanOrder) :
    StorageEngine.scan engine range order =
      .ok (((StorageEngine.rows engine).within range order).map .ok)
  /-- The count of a range is the number of its rows. -/
  count_eq (range : KeyRange) :
    StorageEngine.count engine range =
      .ok ((StorageEngine.rows engine).within range .ascending).length
  /-- A snapshot, from an engine that has them, is the rows. -/
  snapshot_eq : StorageEngine.snapshot engine = .ok none ∨
    StorageEngine.snapshot engine = .ok (some (StorageEngine.rows engine))

/-- An engine that fails at nothing. -/
structure StorageEngine.Healthy {ε : Type} [StorageEngine ε] (engine : ε) : Prop
    extends StorageEngine.Answers engine where
  /-- Every batch is applied. -/
  write_ok (batch : WriteBatch) (sync : Bool) : (StorageEngine.write engine batch sync).1 = .ok ()

/-- An engine that makes a batch as a whole or not at all. -/
class AtomicEngine (ε : Type) [StorageEngine ε] : Prop where
  /-- A batch that succeeds has its effect on the rows. -/
  rows_write_ok (engine : ε) (batch : WriteBatch) (sync : Bool) :
    (StorageEngine.write engine batch sync).1 = .ok () →
      StorageEngine.rows (StorageEngine.write engine batch sync).2 =
        batch.applyTo (StorageEngine.rows engine)
  /-- A batch that fails changes no row. -/
  rows_write_error (engine : ε) (batch : WriteBatch) (sync : Bool) (e : StoreError) :
    (StorageEngine.write engine batch sync).1 = .error e →
      StorageEngine.rows (StorageEngine.write engine batch sync).2 = StorageEngine.rows engine

/-- An atomic engine whose walks may break off, but never lie. -/
class HonestEngine (ε : Type) [StorageEngine ε] : Prop extends AtomicEngine ε where
  /-- A walk without an error on it visits the rows of its range, each once, in order. -/
  scan_honest (engine : ε) (range : KeyRange) (order : ScanOrder) (entries : List Entry) :
    StorageEngine.scan engine range order = .ok (entries.map .ok) →
      entries = (StorageEngine.rows engine).within range order

end TableStore
