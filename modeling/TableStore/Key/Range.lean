import TableStore.Key.Order
import TableStore.Text.Hex

/-!
# Ranges of keys

A range has two sides, each open-ended, inclusive or exclusive. The same type serves
the keys of one table and the physical keys of the engine: `KeyRange.toPhysical` maps
the first to the second, clamping an open end to the keys that carry the table's byte.

A range is called empty by its bounds alone (`KeyRange.isEmpty`); no key is looked at.
-/

namespace TableStore

/-- One side of a range. -/
inductive Bound where
  /-- No limit on this side. -/
  | unbounded
  /-- The limit belongs to the range. -/
  | included (key : Bytes)
  /-- The limit does not belong to the range. -/
  | excluded (key : Bytes)
  deriving DecidableEq, Repr

/-- The direction of a walk over keys. -/
inductive ScanOrder where
  | ascending
  | descending
  deriving DecidableEq, Repr

/-- The keys between two bounds. -/
structure KeyRange where
  /-- The lower side. -/
  start : Bound
  /-- The upper side. -/
  stop : Bound
  deriving DecidableEq, Repr

namespace Bound

/-- An inclusive or an exclusive limit. -/
def of (key : Bytes) (inclusive : Bool) : Bound :=
  if inclusive then .included key else .excluded key

/-- Whether a key is on the right side of a lower bound. -/
def below : Bound → Bytes → Bool
  | unbounded, _ => true
  | included s, k => compareKeys k s != .lt
  | excluded s, k => compareKeys k s == .gt

/-- Whether a key is on the right side of an upper bound. -/
def above : Bound → Bytes → Bool
  | unbounded, _ => true
  | included e, k => compareKeys k e != .gt
  | excluded e, k => compareKeys k e == .lt

end Bound

namespace KeyRange

def all : KeyRange := ⟨.unbounded, .unbounded⟩

/-- Every key from `first` on. -/
def startingAt (first : Bytes) (inclusive : Bool) : KeyRange := ⟨.of first inclusive, .unbounded⟩

/-- Every key up to `last`. -/
def upTo (last : Bytes) (inclusive : Bool) : KeyRange := ⟨.unbounded, .of last inclusive⟩

/-- The keys from `first` to `last`, each limit in or out of the range. -/
def between (first : Bytes) (withFirst : Bool) (last : Bytes) (withLast : Bool) : KeyRange :=
  ⟨.of first withFirst, .of last withLast⟩

/-- Every key whose first byte is `slot`. The largest byte has no successor, and its
range is open above. -/
def ofSlot (slot : UInt8) : KeyRange :=
  ⟨.included [slot], if slot = 255 then .unbounded else .excluded [slot + 1]⟩

/-- Whether a key is at or past the lower side. -/
def aboveStart (r : KeyRange) (key : Bytes) : Bool := r.start.below key

/-- Whether a key is at or before the upper side. -/
def belowEnd (r : KeyRange) (key : Bytes) : Bool := r.stop.above key

/-- Whether a key falls inside the range. -/
def contains (r : KeyRange) (key : Bytes) : Bool := r.aboveStart key && r.belowEnd key

/-- Whether the bounds alone rule every key out: the start lies after the end, or the
two are one key and not both inclusive. -/
def isEmpty (r : KeyRange) : Bool :=
  match r.start, r.stop with
  | .unbounded, _ => false
  | _, .unbounded => false
  | .included s, .included e => compareKeys s e == .gt
  | .included s, .excluded e => compareKeys s e != .lt
  | .excluded s, .included e => compareKeys s e != .lt
  | .excluded s, .excluded e => compareKeys s e != .lt

/-- The physical keys of a table's keys in the range. An open side is clamped to the
table's own byte, so that a walk never reaches the neighbouring table. -/
def toPhysical (r : KeyRange) (slot : UInt8) : KeyRange where
  start :=
    match r.start with
    | .unbounded => .included [slot]
    | .included k => .included (physicalKey slot k)
    | .excluded k => .excluded (physicalKey slot k)
  stop :=
    match r.stop with
    | .unbounded => .excluded [slot + 1]
    | .included k => .included (physicalKey slot k)
    | .excluded k => .excluded (physicalKey slot k)

end KeyRange

/-- A key as diagnostics show it. -/
def describeKey (key : Bytes) : String := "ByteKey(" ++ Hex.encode key ++ ")"

/-- A side of a range as diagnostics show it. -/
def Bound.describe : Bound → String
  | unbounded => "Unbounded"
  | included k => "Included(" ++ describeKey k ++ ")"
  | excluded k => "Excluded(" ++ describeKey k ++ ")"

/-- A range as diagnostics show it. -/
def KeyRange.describe (r : KeyRange) : String :=
  "KeyRange \x7b start: " ++ r.start.describe ++ ", end: " ++ r.stop.describe ++ " \x7d"

end TableStore
