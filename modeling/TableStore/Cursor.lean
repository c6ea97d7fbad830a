import TableStore.Engine.Basic
import TableStore.Key.Shape
import TableStore.Value.Shape

/-!
# Merging rows and pending changes

A range read inside a transaction has two sources, the engine's walk and the
transaction's own changes, both in the same order:

    engine:   a=1        c=3        e=5
    changes:        b=2  c removed       f=6
    result:   a=1   b=2             e=5  f=6

`MergeCursor.next` takes the nearer of the two heads. On equal keys the change wins and
the engine's row is passed over; a removal is passed over without a row. An error of
the engine's walk, or a key of another table on it, ends the cursor: it is the last
thing the cursor returns.

Some engines read nothing before the first row is asked for. A cursor on such an engine
follows its writes until then (`MergeCursor.catchUp`).
-/

namespace TableStore

/-- A row that a range read returns, under its key within the table. -/
structure Row where
  key : Bytes
  /-- The value, unless only keys were asked for. -/
  value : Option Bytes
  deriving DecidableEq, Repr

namespace Row

def keyAs (row : Row) (shape : KeyShape) : Except StoreError shape.Value :=
  shape.decode row.key

def valueAs (row : Row) (shape : ValueShape) : Except StoreError shape.Value :=
  match row.value with
  | none => .error (.invalidOperation .keysOnly)
  | some bytes =>
    match shape.decode bytes with
    | .ok v => .ok v
    | .error e => .error (.serialization (.value e))

end Row

/-- A pending change of one row: its new value, or `none` for a removal. -/
abbrev Change := Bytes × Option Bytes

/-- Which source a step takes from. -/
inductive MergeStep where
  | engine
  | change
  | both
  deriving DecidableEq, Repr

/-- A range read under way. -/
structure MergeCursor where
  /-- What is left of the engine's walk. -/
  engine : Walk
  /-- What is left of the pending changes. -/
  changes : List Change
  /-- The slot of the table. -/
  slot : UInt8
  order : ScanOrder
  /-- Whether rows come without their values. -/
  keysOnly : Bool
  /-- Whether the cursor has ended. -/
  done : Bool
  /-- The physical range of a walk that still follows its engine, for no row of it has
  been asked for. -/
  following : Option KeyRange := none

namespace MergeCursor

/-- A cursor before its first row. -/
def start (engine : Walk) (changes : List Change) (slot : UInt8) (order : ScanOrder)
    (keysOnly : Bool) : MergeCursor :=
  ⟨engine, changes, slot, order, keysOnly, false, none⟩

/-- A cursor without rows, for a table that does not exist. -/
def empty : MergeCursor := start [] [] 0 .ascending false

def row (c : MergeCursor) (key value : Bytes) : Row :=
  ⟨key, if c.keysOnly then none else some value⟩

/-- Which source to take from when both have a row. -/
def choose (c : MergeCursor) (engineKey changeKey : Bytes) : MergeStep :=
  let ord := match c.order with
    | .ascending => compareKeys engineKey changeKey
    | .descending => compareKeys changeKey engineKey
  match ord with
  | .lt => .engine
  | .gt => .change
  | .eq => .both

/-- The next row, `none` at the end, or the error that ends the read. The sources that
are left come with it. -/
def advance (c : MergeCursor) : Walk → List Change →
    Option (Except StoreError Row) × Walk × List Change
  | .error e :: walk, changes => (some (.error e), walk, changes)
  | [], [] => (none, [], [])
  | [], (k, some v) :: changes => (some (.ok (c.row k v)), [], changes)
  | [], (_, none) :: changes => c.advance [] changes
  | .ok ([], v) :: walk, changes =>
    (some (.error (.contractViolation (.foreignKey c.slot []))), .ok ([], v) :: walk, changes)
  | .ok (b :: key, v) :: walk, changes =>
    if b ≠ c.slot then
      (some (.error (.contractViolation (.foreignKey c.slot (b :: key)))),
        .ok (b :: key, v) :: walk, changes)
    else
      match changes with
      | [] => (some (.ok (c.row key v)), walk, [])
      | (k, entry) :: rest =>
        match c.choose key k with
        | .engine => (some (.ok (c.row key v)), walk, (k, entry) :: rest)
        | .change =>
          match entry with
          | some w => (some (.ok (c.row k w)), .ok (b :: key, v) :: walk, rest)
          | none => c.advance (.ok (b :: key, v) :: walk) rest
        | .both =>
          match entry with
          | some w => (some (.ok (c.row k w)), walk, rest)
          | none => c.advance walk rest
  termination_by walk changes => walk.length + changes.length

/-- The next row or the error that ends the cursor; `none` once it has ended. -/
def next (c : MergeCursor) : Option (Except StoreError Row) × MergeCursor :=
  if c.done then (none, c)
  else
    match c.advance c.engine c.changes with
    | (none, walk, changes) =>
      (none, { c with engine := walk, changes := changes, done := true, following := none })
    | (some (.error e), walk, changes) =>
      (some (.error e),
        { c with engine := walk, changes := changes, done := true, following := none })
    | (some (.ok row), walk, changes) =>
      (some (.ok row), { c with engine := walk, changes := changes, following := none })

/-- The cursor when its engine has become `engine`: a walk that still follows it shows
the rows of now, any other is left as it is. -/
def catchUp {ε : Type} [StorageEngine ε] (c : MergeCursor) (engine : ε) : MergeCursor :=
  match c.following with
  | none => c
  | some range =>
    match StorageEngine.scan engine range c.order with
    | .ok walk => { c with engine := walk }
    | .error e => { c with engine := [.error e] }

/-- What at most `n` steps return, and the cursor after them. -/
def takeRows (c : MergeCursor) : (n : Nat) → List (Except StoreError Row) × MergeCursor
  | 0 => ([], c)
  | n + 1 =>
    match c.next with
    | (none, c) => ([], c)
    | (some r, c) =>
      let (rows, c) := c.takeRows n
      (r :: rows, c)

/-- Steps that are enough to reach the end. -/
def stepsLeft (c : MergeCursor) : Nat := c.engine.length + c.changes.length + 1

/-- Everything that is left, an error last. -/
def rest (c : MergeCursor) : List (Except StoreError Row) := (c.takeRows c.stepsLeft).1

end MergeCursor

end TableStore
