import TableStore.SortedMap
import TableStore.Key.Order

/-!
# Batches of writes

What an engine is asked to change at once: puts and deletes of physical keys, in the
order in which they take effect. `WriteBatch.applyTo` is their effect on the rows.
-/

namespace TableStore

/-- The rows of an engine, by physical key. -/
abbrev Rows := SortedMap Bytes Bytes

/-- One change of one row. -/
inductive BatchOp where
  | put (key value : Bytes)
  | delete (key : Bytes)
  deriving DecidableEq, Repr

/-- The key that a change is about. -/
def BatchOp.key : BatchOp → Bytes
  | put key _ => key
  | delete key => key

/-- Whether a change puts a row. -/
def BatchOp.isPut : BatchOp → Bool
  | put _ _ => true
  | delete _ => false

/-- The effect of one change on the rows. -/
def BatchOp.applyTo (op : BatchOp) (rows : Rows) : Rows :=
  match op with
  | put key value => rows.insert key value
  | delete key => rows.erase key

/-- Changes that are made together or not at all, in order. -/
abbrev WriteBatch := List BatchOp

namespace WriteBatch

/-- Number of puts. -/
def puts (batch : WriteBatch) : Nat := batch.countP BatchOp.isPut

/-- Number of deletes. -/
def deletes (batch : WriteBatch) : Nat := batch.length - batch.puts

/-- The rows after every change of the batch. -/
def applyTo (batch : WriteBatch) (rows : Rows) : Rows :=
  batch.foldl (fun rows op => op.applyTo rows) rows

end WriteBatch

end TableStore
