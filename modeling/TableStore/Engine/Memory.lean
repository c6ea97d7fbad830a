import TableStore.Engine.Basic

/-!
# The memory engine

Rows in memory, for tests and tools. A walk keeps the rows it was opened on and seeks
anew at each step: it takes the first row inside its bounds, then moves the bound past
it (`Seek.next`). A snapshot is the rows.

A fault can be armed: the first batch with more operations than the fault allows is
refused as a whole, and the fault is spent. Shorter batches pass under it.
-/

namespace TableStore

/-- A walk under way: the rows it was opened on and the bounds still ahead. -/
structure Seek where
  rows : Rows
  /-- What is still to be visited. -/
  ahead : KeyRange
  order : ScanOrder
  /-- Whether the walk has ended. -/
  done : Bool

namespace Seek

/-- Begin a walk. Bounds that rule every key out end it at once. -/
def start (rows : Rows) (range : KeyRange) (order : ScanOrder) : Seek :=
  ⟨rows, range, order, range.isEmpty⟩

/-- The nearest row ahead. -/
def nearest? (s : Seek) : Option Entry :=
  let inside := s.rows.toList.filter (fun e => s.ahead.contains e.1)
  match s.order with
  | .ascending => inside.head?
  | .descending => inside.getLast?

/-- The bounds once the row of a key is behind. -/
def narrowed (s : Seek) (key : Bytes) : KeyRange :=
  match s.order with
  | .ascending => ⟨.excluded key, s.ahead.stop⟩
  | .descending => ⟨s.ahead.start, .excluded key⟩

/-- Visit the nearest row ahead. The walk ends when there is none, or when the bounds
left over rule every key out. -/
def next (s : Seek) : Option Entry × Seek :=
  if s.done then (none, s)
  else
    match s.nearest? with
    | none => (none, { s with done := true })
    | some e =>
      let ahead := s.narrowed e.1
      (some e, { s with ahead := ahead, done := ahead.isEmpty })

/-- The rows of at most `fuel` steps. -/
def take (s : Seek) : (fuel : Nat) → List Entry
  | 0 => []
  | fuel + 1 =>
    match s.next with
    | (none, _) => []
    | (some e, rest) => e :: rest.take fuel

/-- All rows ahead. A walk visits no row twice, so the number of rows bounds its steps. -/
def drain (s : Seek) : List Entry := s.take (s.rows.size + 1)

end Seek

/-- An engine that keeps its rows in memory. -/
structure MemoryEngine where
  /-- What is stored. -/
  rows : Rows := .empty
  /-- When armed, the first batch of more operations than this fails. -/
  failAfter : Option Nat := none

namespace MemoryEngine

/-- Arm the fault. -/
def failWritesAfter (engine : MemoryEngine) (ops : Nat) : MemoryEngine :=
  { engine with failAfter := some ops }

/-- Apply a batch, unless the armed fault fires on it. -/
def write (engine : MemoryEngine) (batch : WriteBatch) : Except StoreError Unit × MemoryEngine :=
  match engine.failAfter with
  | some n =>
    if n < batch.length then
      (.error (.storage (.armedFault n)), { engine with failAfter := none })
    else (.ok (), { engine with rows := batch.applyTo engine.rows })
  | none => (.ok (), { engine with rows := batch.applyTo engine.rows })

instance : StorageEngine MemoryEngine where
  name _ := "memory"
  rows engine := engine.rows
  get engine key := .ok (engine.rows.get? key)
  scan engine range order := .ok ((Seek.start engine.rows range order).drain.map .ok)
  write engine batch _ := engine.write batch
  snapshot engine := .ok (some engine.rows)
  flush _ := .ok ()

end MemoryEngine

end TableStore
