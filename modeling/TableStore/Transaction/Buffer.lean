import TableStore.Engine.Basic

/-!
# What a transaction means to write

Until it commits, a transaction keeps its changes to itself: for each table it touched
the new value or the removal of each row, the latest for each key, and the set of
tables it cleared. Clearing a table forgets the changes made to it before.

`WriteBuffer.changeBatch` is the part of the commit that the buffer alone decides;
`sweep` is the part that deletes the rows of a cleared table, and needs the engine.
-/

namespace TableStore

/-- The pending changes of one table: new values, and `none` for removals. -/
abbrev TableChanges := SortedMap Bytes (Option Bytes)

/-- The pending changes of a transaction. -/
structure WriteBuffer where
  /-- The changes of each table, by its slot. -/
  changes : SortedMap UInt8 TableChanges := .empty
  /-- The slots of the tables that were cleared. -/
  cleared : SortedMap UInt8 Unit := .empty

namespace WriteBuffer

/-- No changes. -/
def empty : WriteBuffer := {}

def ofTable (b : WriteBuffer) (slot : UInt8) : TableChanges := (b.changes.get? slot).getD .empty

/-- Note the new value of a row, or its removal. -/
def stage (b : WriteBuffer) (slot : UInt8) (key : Bytes) (value : Option Bytes) : WriteBuffer :=
  { b with changes := b.changes.insert slot ((b.ofTable slot).insert key value) }

/-- Forget the changes of a table and note that it is cleared. -/
def clear (b : WriteBuffer) (slot : UInt8) : WriteBuffer :=
  ⟨b.changes.erase slot, b.cleared.insert slot ()⟩

def isCleared (b : WriteBuffer) (slot : UInt8) : Bool := b.cleared.contains slot

/-- The pending change of a row, if it has one. -/
def get? (b : WriteBuffer) (slot : UInt8) (key : Bytes) : Option (Option Bytes) :=
  (b.ofTable slot).get? key

/-- Number of pending changes of rows. -/
def pending (b : WriteBuffer) : Nat := b.changes.toList.foldr (fun t n => t.2.size + n) 0

/-- Whether anything would be written. -/
def isDirty (b : WriteBuffer) : Bool :=
  !b.cleared.isEmpty || b.changes.toList.any (fun t => !t.2.isEmpty)

/-- The pending changes of a table within a range, in order. -/
def within (b : WriteBuffer) (slot : UInt8) (range : KeyRange) (order : ScanOrder) :
    List (Bytes × Option Bytes) :=
  order.arrange ((b.ofTable slot).toList.filter (fun c => range.contains c.1))

def changeOp (slot : UInt8) (change : Bytes × Option Bytes) : BatchOp :=
  match change.2 with
  | some value => .put (physicalKey slot change.1) value
  | none => .delete (physicalKey slot change.1)

/-- The writes of every pending change, by table and by key. -/
def changeBatch (b : WriteBuffer) : WriteBatch :=
  b.changes.toList.flatMap (fun t => t.2.toList.map (changeOp t.1))

/-- The deletes of the rows on a walk over a cleared table. A row that has a pending
change of its own is left to that change. -/
def sweep (changes : TableChanges) : Walk → Except StoreError WriteBatch
  | [] => .ok []
  | .error e :: _ => .error e
  | .ok (key, _) :: rest =>
    match sweep changes rest with
    | .error e => .error e
    | .ok ops => .ok (if changes.contains key.tail then ops else .delete key :: ops)

/-- The deletes of the rows of cleared tables, table after table. -/
def sweepAll {ε : Type} [StorageEngine ε] (b : WriteBuffer) (engine : ε) :
    (slots : List UInt8) → Except StoreError WriteBatch
  | [] => .ok []
  | slot :: slots =>
    match StorageEngine.scan engine (KeyRange.ofSlot slot) .ascending with
    | .error e => .error e
    | .ok walk =>
      match sweep (b.ofTable slot) walk with
      | .error e => .error e
      | .ok ops =>
        match b.sweepAll engine slots with
        | .error e => .error e
        | .ok rest => .ok (ops ++ rest)

/-- The one batch that makes every change: cleared tables first, then the changes. -/
def batch {ε : Type} [StorageEngine ε] (b : WriteBuffer) (engine : ε) :
    Except StoreError WriteBatch :=
  match b.sweepAll engine b.cleared.keys with
  | .error e => .error e
  | .ok deletes => .ok (deletes ++ b.changeBatch)

end WriteBuffer

end TableStore
