import TableStore.Config
import TableStore.Engine.Basic

/-!
# The table registry

Many named tables share one engine. Each owns a byte, its slot, and keeps its rows
under keys that begin with it. Slot zero holds the registry itself: the row under
`[0, slot]` is the name of the table with that slot.

Slots are given out in order, from one on, and never again. The registry in memory is
a copy: opening a store reads it back from the rows (`Registry.load`). A new table is
made in three steps, so that a failing write leaves no trace: a slot is reserved, its
row is written, and only then is the table published.
-/

namespace TableStore

/-- A named table and the byte in front of its keys. -/
structure Table where
  name : String
  slot : UInt8
  deriving DecidableEq, Repr

/-- What a name is reserved as. -/
inductive Reservation where
  /-- The table is there already. -/
  | existing (slot : UInt8)
  /-- The table would get this slot. -/
  | new (slot : UInt8)
  deriving DecidableEq, Repr

structure Registry where
  /-- The slot of each name. -/
  byName : SortedMap String UInt8 := .empty
  /-- The highest slot given out so far, and the registry's own when there is none. -/
  lastGiven : UInt8 := registrySlot

namespace Registry

def rowKey (slot : UInt8) : Bytes := [registrySlot, slot]

def slotOf? (key : Bytes) : Option UInt8 :=
  match key with
  | [r, slot] =>
    if r = registrySlot ∧ firstSlot ≤ slot ∧ slot ≤ lastSlot then some slot else none
  | _ => none

/-- The slot of a name. -/
def get? (r : Registry) (name : String) : Option UInt8 := r.byName.get? name

/-- Number of tables. -/
def size (r : Registry) : Nat := r.byName.size

/-- Make a table known. -/
def publish (r : Registry) (name : String) (slot : UInt8) : Registry :=
  ⟨r.byName.insert name slot, max r.lastGiven slot⟩

/-- Take one registry row in. -/
def absorb (r : Registry) (entry : Entry) : Except StoreError Registry :=
  match slotOf? entry.1 with
  | none => .error (.corruption (.registryKey entry.1))
  | some slot =>
    match Utf8.decode entry.2 with
    | .error _ => .error (.corruption (.registryNameNotText slot))
    | .ok name =>
      if name = "" then .error (.corruption (.registryNameEmpty slot))
      else
        match r.get? name with
        | some first => .error (.corruption (.registryNameTwice name first slot))
        | none => .ok (r.publish name slot)

/-- Take the rows of a walk in, one after the other. -/
def absorbAll (r : Registry) : Walk → Except StoreError Registry
  | [] => .ok r
  | .error e :: _ => .error e
  | .ok entry :: rest =>
    match r.absorb entry with
    | .error e => .error e
    | .ok r => r.absorbAll rest

/-- Read the registry back from the rows of an engine. -/
def load {ε : Type} [StorageEngine ε] (engine : ε) : Except StoreError Registry :=
  match StorageEngine.scan engine (KeyRange.ofSlot registrySlot) .ascending with
  | .error e => .error e
  | .ok walk => absorbAll {} walk

/-- The slot that a name has or would get. -/
def reserve (r : Registry) (name : String) : Except StoreError Reservation :=
  match r.get? name with
  | some slot => .ok (.existing slot)
  | none =>
    if name = "" then .error (.invalidOperation .emptyTableName)
    else if lastSlot ≤ r.lastGiven then .error (.resourceExhausted (.slots name))
    else .ok (.new (r.lastGiven + 1))

def rowBatch (name : String) (slot : UInt8) : WriteBatch :=
  [.put (rowKey slot) (Utf8.encode name)]

/-- All tables, in the order of their slots. -/
def tables (r : Registry) : List Table :=
  (r.byName.toList.map (fun b => Table.mk b.1 b.2)).mergeSort (fun a b => a.slot ≤ b.slot)

end Registry

end TableStore
