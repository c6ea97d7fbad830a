/-!
# The order of keys

Keys are sequences of bytes. One order serves the whole store: the engines list
their rows in it, the buffers of transactions are sorted by it, and a merge of the
two compares their heads in it. It is the lexicographic order of bytes, in which a
proper prefix of a key comes before the key.

`compareKeys_eq_compare` says that this is the order that lists of bytes carry
anyway, so every law of that order is a law of `compareKeys`.
-/

namespace TableStore

/-- A sequence of bytes: a key or a value as it is stored. -/
abbrev Bytes := List UInt8

/-- Lexicographic order of keys; the shorter key comes first when one begins the other. -/
def compareKeys : Bytes → Bytes → Ordering
  | [], [] => .eq
  | [], _ :: _ => .lt
  | _ :: _, [] => .gt
  | a :: as, b :: bs => (compare a b).then (compareKeys as bs)

/-- The order of keys is the order of lists over the order of bytes. -/
theorem compareKeys_eq_compare (a b : Bytes) : compareKeys a b = compare a b := by
  show compareKeys a b = List.compareLex compare a b
  induction a generalizing b with
  | nil => cases b <;> simp [compareKeys, List.compareLex_nil_nil, List.compareLex_nil_cons]
  | cons x xs ih =>
    cases b with
    | nil => simp [compareKeys, List.compareLex_cons_nil]
    | cons y ys => simp [compareKeys, List.compareLex_cons_cons, ih ys]

/-- Keyed things in the order of their keys; equal keys stay in their places. -/
def sortByKey {α : Type} (keyed : List (Bytes × α)) : List (Bytes × α) :=
  keyed.mergeSort (fun a b => compareKeys a.1 b.1 != .gt)

/-- The key under which a table with byte `slot` keeps its row `key`. -/
def physicalKey (slot : UInt8) (key : Bytes) : Bytes := slot :: key

/-- A common first byte does not change the order of two keys. -/
theorem compareKeys_physicalKey (slot : UInt8) (a b : Bytes) :
    compareKeys (physicalKey slot a) (physicalKey slot b) = compareKeys a b := by
  simp [physicalKey, compareKeys]

end TableStore
