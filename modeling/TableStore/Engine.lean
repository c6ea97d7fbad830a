import TableStore.Config
import TableStore.Engine.Disk
import TableStore.Engine.Faulty
import TableStore.Repository

/-!
# Engines of any kind

A program chooses its engine when it runs, by the config. `Engine` is any one of the
engines, and does what the one inside does (`StorageEngine Engine`). `Engine.ofBackend`
is the choice.
-/

namespace TableStore

inductive Engine where
  | memory (engine : MemoryEngine)
  | disk (engine : DiskEngine)
  | faulty (engine : FaultyEngine)

namespace Engine

instance : StorageEngine Engine where
  name
    | memory e => StorageEngine.name e
    | disk e => StorageEngine.name e
    | faulty e => StorageEngine.name e
  rows
    | memory e => StorageEngine.rows e
    | disk e => StorageEngine.rows e
    | faulty e => StorageEngine.rows e
  get
    | memory e => StorageEngine.get e
    | disk e => StorageEngine.get e
    | faulty e => StorageEngine.get e
  contains
    | memory e => StorageEngine.contains e
    | disk e => StorageEngine.contains e
    | faulty e => StorageEngine.contains e
  scan
    | memory e => StorageEngine.scan e
    | disk e => StorageEngine.scan e
    | faulty e => StorageEngine.scan e
  walksLate
    | memory e => StorageEngine.walksLate e
    | disk e => StorageEngine.walksLate e
    | faulty e => StorageEngine.walksLate e
  count
    | memory e => StorageEngine.count e
    | disk e => StorageEngine.count e
    | faulty e => StorageEngine.count e
  write
    | memory e, batch, sync => (StorageEngine.write e batch sync).map id memory
    | disk e, batch, sync => (StorageEngine.write e batch sync).map id disk
    | faulty e, batch, sync => (StorageEngine.write e batch sync).map id faulty
  snapshot
    | memory e => StorageEngine.snapshot e
    | disk e => StorageEngine.snapshot e
    | faulty e => StorageEngine.snapshot e
  flush
    | memory e => StorageEngine.flush e
    | disk e => StorageEngine.flush e
    | faulty e => StorageEngine.flush e

/-- The engine that a config asks for. A store in memory begins without rows, and one
on disk with those found in its directory. -/
def ofBackend (backend : Backend) (found : Rows) : Except StoreError Engine :=
  match backend with
  | .memory => .ok (memory {})
  | .sled => .ok (disk ⟨found⟩)
  | .rocksdb => .error (.invalidOperation (.missingBackend backend.name))

/-- Write below every fault but the armed one. -/
def writeBelow (engine : Engine) (batch : WriteBatch) : Except StoreError Unit × Engine :=
  match engine with
  | memory e => (e.write batch).map id memory
  | disk e => (StorageEngine.write e batch false).map id disk
  | faulty e => (e.inner.write batch).map id (fun inner => faulty { e with inner := inner })

/-- Arm the fault of the memory engine, where there is one. -/
def failWritesAfter (engine : Engine) (ops : Nat) : Engine :=
  match engine with
  | memory e => memory (e.failWritesAfter ops)
  | disk e => disk e
  | faulty e => faulty { e with inner := e.inner.failWritesAfter ops }

/-- Replace the faults, where there are any. -/
def setFaults (engine : Engine) (faults : Faults) : Engine :=
  match engine with
  | faulty e => faulty { e with faults := faults }
  | other => other

end Engine

/-- Open a store on the engine that its config asks for. -/
def Repository.ofConfig (config : StoreConfig) (found : Rows) :
    Except StoreError (Repository Engine) :=
  match Engine.ofBackend config.backend found with
  | .error e => .error e
  | .ok engine => Repository.onEngine engine config

end TableStore
