import TableStore.Cursor
import TableStore.Repository

/-!
# Transactions

A transaction keeps its changes in a buffer and answers every read by asking the buffer
first. For a row of a table: a pending change decides; otherwise a cleared table has no
row; otherwise the engine decides, or the snapshot that the transaction took when it
began. Other transactions see nothing of it before it commits.

A transaction ends once, by commit or by rollback, and then refuses every call. A
commit that fails ends nothing: the buffer stays, the lock is given back, and the next
commit asks for the lock again.
-/

namespace TableStore

/-- Where a transaction reads rows that it did not change. -/
inductive ReadSource where
  /-- The engine as it is. -/
  | live
  /-- The rows as they were when the transaction began. -/
  | snapshot (rows : Rows)

namespace ReadSource

variable {ε : Type} [StorageEngine ε]

/-- The value under a physical key. -/
def get (s : ReadSource) (engine : ε) (key : Bytes) : Except StoreError (Option Bytes) :=
  match s with
  | live => StorageEngine.get engine key
  | snapshot rows => .ok (rows.get? key)

/-- Whether there is a value under a physical key. -/
def contains (s : ReadSource) (engine : ε) (key : Bytes) : Except StoreError Bool :=
  match s with
  | live => StorageEngine.contains engine key
  | snapshot rows => .ok (rows.contains key)

/-- The rows of a physical range, in order. -/
def scan (s : ReadSource) (engine : ε) (range : KeyRange) (order : ScanOrder) :
    Except StoreError Walk :=
  match s with
  | live => StorageEngine.scan engine range order
  | snapshot rows => .ok ((rows.within range order).map .ok)

/-- Number of rows of a physical range. -/
def count (s : ReadSource) (engine : ε) (range : KeyRange) : Except StoreError Nat :=
  match s with
  | live => StorageEngine.count engine range
  | snapshot rows => .ok (rows.within range .ascending).length

end ReadSource

/-- A unit of work on a repository. -/
structure Transaction where
  mode : TransactionMode
  state : TransactionState := .active
  buffer : WriteBuffer := .empty
  source : ReadSource := .live
  /-- Whether the transaction holds the writer lock. -/
  holdsWriter : Bool := false

namespace Transaction

variable {ε : Type}

/-- Whether reads are answered from a snapshot. -/
def usesSnapshot (t : Transaction) : Bool :=
  match t.source with
  | .snapshot _ => true
  | .live => false

/-- Whether anything is pending. -/
def isDirty (t : Transaction) : Bool := t.buffer.isDirty

/-- Number of pending changes of rows. -/
def pending (t : Transaction) : Nat := t.buffer.pending

/-- Refuse unless the transaction is active. -/
def requireActive (t : Transaction) : Except StoreError Unit :=
  match t.state with
  | .active => .ok ()
  | ended => .error (.invalidOperation (.ended ended))

/-- Refuse unless the transaction is active and may write. -/
def requireWritable (t : Transaction) : Except StoreError Unit :=
  match t.requireActive with
  | .error e => .error e
  | .ok () =>
    match t.mode with
    | .readWrite => .ok ()
    | .read => .error (.invalidOperation .readOnly)

/-- The transaction after its end: nothing pending, no snapshot, no lock. -/
def finished (t : Transaction) (state : TransactionState) : Transaction :=
  { mode := t.mode, state := state }

/-- The repository without the transaction's hold on the lock. -/
def release (t : Transaction) (r : Repository ε) : Repository ε :=
  if t.holdsWriter then r.releaseWriter else r

/-- End by rollback. -/
def rollback (t : Transaction) (r : Repository ε) :
    Except StoreError Unit × Transaction × Repository ε :=
  match t.requireActive with
  | .error e => (.error e, t, r)
  | .ok () => (.ok (), t.finished .rolledBack, (t.release r).noteRollback t.mode)

/-- The repository after a transaction is let go. One that is still active is rolled
back, with a report if it had changes. -/
def drop (t : Transaction) (r : Repository ε) : Repository ε :=
  let noted :=
    if t.state = .active ∧ t.isDirty then r.report (.droppedDirty t.pending) else r
  (t.rollback noted).2.2

variable [StorageEngine ε]

/-- Begin a transaction. A reader takes a snapshot where the engine has them and the
config wants them; a writer waits for the lock. -/
def begin (mode : TransactionMode) (r : Repository ε) :
    Except StoreError Transaction × Repository ε :=
  match mode with
  | .read =>
    if r.config.useSnapshots then
      match StorageEngine.snapshot r.engine with
      | .error e => (.error e, r)
      | .ok (some rows) => (.ok { mode := .read, source := .snapshot rows }, r)
      | .ok none => (.ok { mode := .read }, r)
    else (.ok { mode := .read }, r)
  | .readWrite =>
    match r.acquireWriter with
    | (.error e, r) => (.error e, r)
    | (.ok (), r) => (.ok { mode := .readWrite, holdsWriter := true }, r.report .writeStarted)

/-! ## Changes -/

/-- Change the buffer at a table, which is made if it is not there. -/
def edit (t : Transaction) (r : Repository ε) (table : String)
    (change : UInt8 → WriteBuffer → WriteBuffer) :
    Except StoreError Unit × Transaction × Repository ε :=
  match t.requireWritable with
  | .error e => (.error e, t, r)
  | .ok () =>
    match r.openTable table with
    | (.error e, r) => (.error e, t, r)
    | (.ok slot, r) => (.ok (), { t with buffer := change slot t.buffer }, r)

/-- Set a row. -/
def put (t : Transaction) (r : Repository ε) (table : String) (key value : Bytes) :
    Except StoreError Unit × Transaction × Repository ε :=
  t.edit r table (fun slot b => b.stage slot key (some value))

/-- Remove a row. -/
def remove (t : Transaction) (r : Repository ε) (table : String) (key : Bytes) :
    Except StoreError Unit × Transaction × Repository ε :=
  t.edit r table (fun slot b => b.stage slot key none)

/-- Remove every row of a table; rows set later stay. -/
def clear (t : Transaction) (r : Repository ε) (table : String) :
    Except StoreError Unit × Transaction × Repository ε :=
  t.edit r table (fun slot b => b.clear slot)

/-- Set rows one after the other, up to the first that fails. -/
def putAll (t : Transaction) (r : Repository ε) (table : String) :
    (rows : List (Bytes × Bytes)) → Except StoreError Unit × Transaction × Repository ε
  | [] => (.ok (), t, r)
  | (key, value) :: rows =>
    match t.put r table key value with
    | (.error e, t, r) => (.error e, t, r)
    | (.ok (), t, r) => t.putAll r table rows

/-- Set a typed value under a typed key. -/
def insert (t : Transaction) (r : Repository ε) (table : String) {k : KeyShape} (key : k.Value)
    {s : ValueShape} (value : s.Value) : Except StoreError Unit × Transaction × Repository ε :=
  t.put r table (k.encode key) (s.encode value)

/-! ## Reads of single rows -/

/-- The value of a row of the table with a slot. -/
def lookup (t : Transaction) (r : Repository ε) (slot : UInt8) (key : Bytes) :
    Except StoreError (Option Bytes) :=
  match t.buffer.get? slot key with
  | some entry => .ok entry
  | none =>
    if t.buffer.isCleared slot then .ok none
    else t.source.get r.engine (physicalKey slot key)

/-- Whether the table with a slot has a row. -/
def hasKey (t : Transaction) (r : Repository ε) (slot : UInt8) (key : Bytes) :
    Except StoreError Bool :=
  match t.buffer.get? slot key with
  | some entry => .ok entry.isSome
  | none =>
    if t.buffer.isCleared slot then .ok false
    else t.source.contains r.engine (physicalKey slot key)

/-- Answer a read of a table; a table that is not there has an answer of its own. -/
def readTable {α : Type} (t : Transaction) (r : Repository ε) (table : String) (missing : α)
    (answer : UInt8 → Except StoreError α) : Except StoreError α :=
  match t.requireActive with
  | .error e => .error e
  | .ok () =>
    match r.slot? table with
    | none => .ok missing
    | some slot => answer slot

/-- The value of a row. -/
def get (t : Transaction) (r : Repository ε) (table : String) (key : Bytes) :
    Except StoreError (Option Bytes) :=
  t.readTable r table none (fun slot => t.lookup r slot key)

/-- Whether a row is there. -/
def contains (t : Transaction) (r : Repository ε) (table : String) (key : Bytes) :
    Except StoreError Bool :=
  t.readTable r table false (fun slot => t.hasKey r slot key)

/-- The value of each row in a list of keys, up to the first that cannot be read. -/
def lookupAll (t : Transaction) (r : Repository ε) (slot : UInt8) :
    (keys : List Bytes) → Except StoreError (List (Option Bytes))
  | [] => .ok []
  | key :: keys =>
    match t.lookup r slot key with
    | .error e => .error e
    | .ok v =>
      match t.lookupAll r slot keys with
      | .error e => .error e
      | .ok vs => .ok (v :: vs)

/-- One value for each key, in the order of the keys. -/
def getMany (t : Transaction) (r : Repository ε) (table : String) (keys : List Bytes) :
    Except StoreError (List (Option Bytes)) :=
  t.readTable r table (keys.map (fun _ => none)) (fun slot => t.lookupAll r slot keys)

def decodeOptional (s : ValueShape) (value : Option Bytes) : Except StoreError (Option s.Value) :=
  match value with
  | none => .ok none
  | some bytes =>
    match s.decode bytes with
    | .ok v => .ok (some v)
    | .error e => .error (.serialization (.value e))

/-- The typed value of a row. -/
def select (t : Transaction) (r : Repository ε) (table : String) (key : Bytes) (s : ValueShape) :
    Except StoreError (Option s.Value) :=
  match t.get r table key with
  | .error e => .error e
  | .ok value => decodeOptional s value

/-- Optional values as typed values, up to the first that cannot be read. -/
def decodeAll (s : ValueShape) : List (Option Bytes) → Except StoreError (List (Option s.Value))
  | [] => .ok []
  | value :: values =>
    match decodeOptional s value with
    | .error e => .error e
    | .ok v =>
      match decodeAll s values with
      | .error e => .error e
      | .ok vs => .ok (v :: vs)

/-- One typed value for each key, in the order of the keys. -/
def selectMany (t : Transaction) (r : Repository ε) (table : String) (keys : List Bytes)
    (s : ValueShape) : Except StoreError (List (Option s.Value)) :=
  match t.getMany r table keys with
  | .error e => .error e
  | .ok values => decodeAll s values

/-- Fail unless the value of a row is the expected one; `none` stands for no row. -/
def ensure (t : Transaction) (r : Repository ε) (table : String) (key : Bytes)
    (expected : Option Bytes) : Except StoreError Unit :=
  match t.get r table key with
  | .error e => .error e
  | .ok found =>
    if found = expected then .ok ()
    else .error (.contractViolation (.unexpectedValue table key expected found))

/-! ## Counting -/

/-- The largest count. -/
def countLimit : Nat := 18446744073709551615

/-- A count after one pending change: a new row adds one, a removed row takes one away.
The count stays between zero and the largest. -/
def adjust (count : Nat) (isPut inEngine : Bool) : Nat :=
  match isPut, inEngine with
  | true, false => min (count + 1) countLimit
  | false, true => count - 1
  | _, _ => count

/-- A count after pending changes of a table. -/
def adjustAll (t : Transaction) (r : Repository ε) (slot : UInt8) (count : Nat) :
    (changes : List (Bytes × Option Bytes)) → Except StoreError Nat
  | [] => .ok count
  | (key, entry) :: rest =>
    if t.buffer.isCleared slot then t.adjustAll r slot (adjust count entry.isSome false) rest
    else
      match t.source.contains r.engine (physicalKey slot key) with
      | .error e => .error e
      | .ok inEngine => t.adjustAll r slot (adjust count entry.isSome inEngine) rest

/-- Number of rows that a table would have after a commit. -/
def count (t : Transaction) (r : Repository ε) (table : String) : Except StoreError Nat :=
  t.readTable r table 0 (fun slot =>
    let stored : Except StoreError Nat :=
      if t.buffer.isCleared slot then .ok 0 else t.source.count r.engine (KeyRange.ofSlot slot)
    match stored with
    | .error e => .error e
    | .ok n => t.adjustAll r slot n (t.buffer.ofTable slot).toList)

/-! ## Reads of ranges -/

/-- The physical range of a read that follows the engine until its first row. -/
def followed (t : Transaction) (r : Repository ε) (slot : UInt8) (range : KeyRange) :
    Option KeyRange :=
  if t.usesSnapshot || t.buffer.isCleared slot then none
  else if StorageEngine.walksLate r.engine then some (range.toPhysical slot)
  else none

/-- A cursor over the rows of a table within a range. -/
def scan (t : Transaction) (r : Repository ε) (table : String) (range : KeyRange)
    (order : ScanOrder) (keysOnly : Bool) : Except StoreError MergeCursor :=
  t.readTable r table .empty (fun slot =>
    if range.isEmpty then .ok .empty
    else
      let stored : Except StoreError Walk :=
        if t.buffer.isCleared slot then .ok []
        else t.source.scan r.engine (range.toPhysical slot) order
      match stored with
      | .error e => .error e
      | .ok walk =>
        .ok { MergeCursor.start walk (t.buffer.within slot range order) slot order keysOnly with
          following := t.followed r slot range })

/-! ## The end -/

/-- End by commit. A reader has nothing to write. A writer whose last commit failed has
to get the lock back first. Whether the write succeeds or not, the lock is given back. -/
def commit (t : Transaction) (r : Repository ε) :
    Except StoreError Unit × Transaction × Repository ε :=
  match t.requireActive with
  | .error e => (.error e, t, r)
  | .ok () =>
    match t.mode with
    | .read => (.ok (), t.finished .committed, t.release r)
    | .readWrite =>
      let (gained, r) := if t.holdsWriter then (.ok (), r) else r.acquireWriter
      match gained with
      | .error e => (.error e, t, r)
      | .ok () =>
        match r.commit t.buffer with
        | (.error e, r) => (.error e, { t with holdsWriter := false }, r.releaseWriter)
        | (.ok (), r) => (.ok (), t.finished .committed, r.releaseWriter)

/-- The transaction as diagnostics show it. -/
def describe (t : Transaction) : String :=
  let cleared := String.intercalate ", " (t.buffer.cleared.keys.map (fun s => toString s.toNat))
  "Transaction \x7b mode: " ++ t.mode.describe ++ ", state: " ++ t.state.describe
    ++ ", pending_writes: " ++ toString t.pending ++ ", cleared: \x7b" ++ cleared
    ++ "\x7d, holds_writer: " ++ toString t.holdsWriter ++ " \x7d"

end Transaction

end TableStore
