import TableStore.Engine.Memory

/-!
# An engine that fails on request

A memory engine behind a list of faults, to see what a store makes of an engine that
breaks. A fault on an operation makes it fail before it does anything; faults on rows
spoil one row of every walk. A snapshot, once taken, is free of faults.
-/

namespace TableStore

/-- What fails, and with which words. -/
structure Faults where
  get : Option String := none
  scan : Option String := none
  count : Option String := none
  write : Option String := none
  /-- Batches that are to be durable. -/
  writeSync : Option String := none
  /-- Batches that need not be durable. -/
  writeNoSync : Option String := none
  snapshot : Option String := none
  flush : Option String := none
  /-- The row of a walk that cannot be read. -/
  rowErrorAt : Option Nat := none
  /-- The row of a walk whose key begins with the largest byte. -/
  foreignAt : Option Nat := none
  /-- What counting answers. -/
  countIs : Option Nat := none
  /-- Whether there are no snapshots. -/
  noSnapshot : Bool := false

/-- A memory engine behind faults. -/
structure FaultyEngine where
  inner : MemoryEngine := {}
  faults : Faults := {}

namespace FaultyEngine

/-- Fail with the words of a fault, or go on. -/
def guard {α : Type} (fault : Option String) (answer : Except StoreError α) :
    Except StoreError α :=
  match fault with
  | some text => .error (.storage (.other text))
  | none => answer

/-- The key of a row under the largest first byte. -/
def foreignKey : Bytes → Bytes
  | [] => []
  | _ :: rest => 255 :: rest

/-- A row of a walk, with the faults on rows. -/
def spoil (faults : Faults) (index : Nat) (entry : Except StoreError Entry) :
    Except StoreError Entry :=
  if faults.rowErrorAt = some index then .error (.storage (.unreadableRow index))
  else if faults.foreignAt = some index then entry.map (fun e => (foreignKey e.1, e.2))
  else entry

/-- Walk over rows, with the faults on rows. -/
def scan (engine : FaultyEngine) (range : KeyRange) (order : ScanOrder) :
    Except StoreError Walk :=
  guard engine.faults.scan
    ((StorageEngine.scan engine.inner range order).map
      (fun walk => walk.mapIdx (spoil engine.faults)))

/-- Count rows; without a fault on counting, the faults of walks apply. -/
def count (engine : FaultyEngine) (range : KeyRange) : Except StoreError Nat :=
  guard engine.faults.count
    (match engine.faults.countIs with
      | some n => .ok n
      | none =>
        match engine.scan range .ascending with
        | .ok walk => walk.count
        | .error e => .error e)

/-- Apply a batch unless a fault on writing holds for it. -/
def write (engine : FaultyEngine) (batch : WriteBatch) (sync : Bool) :
    Except StoreError Unit × FaultyEngine :=
  let fault := engine.faults.write.or
    (if sync then engine.faults.writeSync else engine.faults.writeNoSync)
  match fault with
  | some text => (.error (.storage (.other text)), engine)
  | none =>
    let (answer, inner) := engine.inner.write batch
    (answer, { engine with inner := inner })

instance : StorageEngine FaultyEngine where
  name _ := "shim"
  rows engine := engine.inner.rows
  get engine key := guard engine.faults.get (StorageEngine.get engine.inner key)
  scan := scan
  count := count
  write := write
  snapshot engine :=
    guard engine.faults.snapshot
      (if engine.faults.noSnapshot then .ok none else StorageEngine.snapshot engine.inner)
  flush engine := guard engine.faults.flush (.ok ())

end FaultyEngine

end TableStore
