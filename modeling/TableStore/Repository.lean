import TableStore.Event.Basic
import TableStore.Metrics.Basic
import TableStore.Registry
import TableStore.Transaction.Buffer

/-!
# Repositories

A repository is an engine with its table registry, the writer lock, and what it counts
and reports. It makes tables, gives the lock out, and turns the buffer of a transaction
into one batch.

A step returns the repository after it, also when it fails: a failed commit is counted,
and a wait for the lock is counted whether the lock was gained or not.
-/

namespace TableStore

/-- An open store. -/
structure Repository (ε : Type) where
  engine : ε
  registry : Registry
  config : StoreConfig
  /-- Whether some transaction holds the writer lock. -/
  lockHeld : Bool := false
  metrics : Metrics := {}
  /-- What was reported, the latest first. -/
  events : List Event := []

namespace Repository

variable {ε : Type}

def report (r : Repository ε) (e : Event) : Repository ε := { r with events := e :: r.events }

/-- What was reported, in order. -/
def journal (r : Repository ε) : List Event := r.events.reverse

/-- All tables, in the order of their slots. -/
def tables (r : Repository ε) : List Table := r.registry.tables

def slot? (r : Repository ε) (name : String) : Option UInt8 := r.registry.get? name

def table? (r : Repository ε) (name : String) : Option Table :=
  (r.slot? name).map (fun slot => ⟨name, slot⟩)

/-- Wait for the writer lock. A step does not let time pass, so the wait is over at
once: the lock is free, or the time is up. -/
def acquireWriter (r : Repository ε) : Except StoreError Unit × Repository ε :=
  let waited := { r with metrics.writerWait := r.metrics.writerWait.observe 0 }
  if r.lockHeld then
    (.error (.lockTimeout ((r.config.writerWait.timeoutMs?.getD 0).toNat)), waited)
  else (.ok (), { waited with lockHeld := true })

/-- Give the writer lock back. -/
def releaseWriter (r : Repository ε) : Repository ε := { r with lockHeld := false }

/-- Count and report the end of a transaction that is rolled back. -/
def noteRollback (r : Repository ε) (mode : TransactionMode) : Repository ε :=
  { r with metrics.rollbacks := r.metrics.rollbacks + 1 }.report (.rolledBack mode)

/-- Count and report a commit that succeeded. -/
def noteCommit (r : Repository ε) (puts deletes cleared : Nat) : Repository ε :=
  { r with
    metrics.commits := r.metrics.commits + 1
    metrics.written := r.metrics.written + puts
    metrics.deleted := r.metrics.deleted + deletes
    metrics.commitDuration := r.metrics.commitDuration.observe 0 }.report
    (.committed puts deletes cleared)

/-- Count and report a commit that failed. -/
def noteFailure (r : Repository ε) (cause : StoreError) : Repository ε :=
  { r with metrics.failures := r.metrics.failures + 1 }.report (.commitFailed cause)

variable [StorageEngine ε]

def onEngine (engine : ε) (config : StoreConfig) : Except StoreError (Repository ε) :=
  match Registry.load engine with
  | .error e => .error e
  | .ok registry =>
    let r : Repository ε :=
      { engine := engine
        registry := registry
        config := config
        metrics := { tables := registry.size } }
    .ok (r.report (.repositoryOpened (StorageEngine.name engine) config.path registry.size))

/-- Make every write durable. -/
def flush (r : Repository ε) : Except StoreError Unit := StorageEngine.flush r.engine

/-- The slot of a table, which is made if there is none of the name. -/
def openTable (r : Repository ε) (name : String) : Except StoreError UInt8 × Repository ε :=
  match r.registry.reserve name with
  | .error e => (.error e, r)
  | .ok (.existing slot) => (.ok slot, r)
  | .ok (.new slot) =>
    match StorageEngine.write r.engine (Registry.rowBatch name slot) r.config.syncOnCommit with
    | (.error e, engine) => (.error e, { r with engine := engine })
    | (.ok (), engine) =>
      let registry := r.registry.publish name slot
      (.ok slot,
        ({ r with
          engine := engine
          registry := registry
          metrics.tables := registry.size }).report (.tableCreated name slot))

/-- Write a buffer as one batch. A batch without operations is not written. -/
def writeBuffer (r : Repository ε) (b : WriteBuffer) :
    Except StoreError WriteBatch × Repository ε :=
  match b.batch r.engine with
  | .error e => (.error e, r)
  | .ok batch =>
    if batch.isEmpty then (.ok batch, r)
    else
      match StorageEngine.write r.engine batch r.config.syncOnCommit with
      | (.error e, engine) => (.error e, { r with engine := engine })
      | (.ok (), engine) => (.ok batch, { r with engine := engine })

/-- Write a buffer, and count and report how it went. -/
def commit (r : Repository ε) (b : WriteBuffer) : Except StoreError Unit × Repository ε :=
  match r.writeBuffer b with
  | (.error e, r) => (.error e, r.noteFailure e)
  | (.ok batch, r) => (.ok (), r.noteCommit batch.puts batch.deletes b.cleared.size)

/-- The repository as diagnostics show it. -/
def describe (r : Repository ε) : String :=
  "Repository \x7b backend: " ++ Quoted.text (StorageEngine.name r.engine) ++ ", path: "
    ++ Quoted.text r.config.path ++ ", tables: " ++ toString r.registry.size ++ " \x7d"

end Repository

end TableStore
