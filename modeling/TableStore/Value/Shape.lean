import TableStore.SortedMap
import TableStore.Value.Error

/-!
# Typed values

A value type is a shape. Numbers take as many bytes as their width, least significant
first; texts, lists and maps begin with their length in eight bytes; an optional value
begins with a byte that is zero or one, and a choice with the four-byte number of its
variant. The encoding of a pair is that of its parts in order.

A reader takes the bytes of one value off the front and leaves the rest, so reading
back (`ValueShape.decode`) ignores what follows the value.
-/

namespace TableStore

/-- A number as `width` bytes, least significant first. -/
def toLittleEndian (n : Nat) : (width : Nat) → Bytes
  | 0 => []
  | width + 1 => UInt8.ofNat (n % 256) :: toLittleEndian (n / 256) width

/-- The number that bytes stand for, least significant first. -/
def ofLittleEndian : Bytes → Nat
  | [] => 0
  | b :: rest => b.toNat + 256 * ofLittleEndian rest

/-- The types of values. -/
inductive ValueShape where
  | u8
  | u16
  | u32
  | u64
  | i8
  | i32
  | i64
  | bool
  | char
  | unit
  | text
  /-- Bytes of one length, which is not written. -/
  | array (length : Nat)
  | option (item : ValueShape)
  | list (item : ValueShape)
  | pair (first second : ValueShape)
  /-- From text to numbers. -/
  | map
  /-- One of several variants. -/
  | choice (count : Nat) (variant : Fin count → ValueShape)

namespace ValueShape

@[reducible] def Value : ValueShape → Type
  | u8 => UInt8
  | u16 => UInt16
  | u32 => UInt32
  | u64 => UInt64
  | i8 => Int8
  | i32 => Int32
  | i64 => Int64
  | bool => Bool
  | char => Char
  | unit => Unit
  | text => String
  | array n => { bytes : Bytes // bytes.length = n }
  | option s => Option s.Value
  | list s => List s.Value
  | pair a b => a.Value × b.Value
  | map => SortedMap String UInt64
  | choice n variant => (i : Fin n) × (variant i).Value

/-- A text with its length in bytes in front. -/
def encodeText (s : String) : Bytes :=
  let bytes := Utf8.encode s
  toLittleEndian bytes.length 8 ++ bytes

def encode : (s : ValueShape) → s.Value → Bytes
  | u8, v => toLittleEndian v.toNat 1
  | u16, v => toLittleEndian v.toNat 2
  | u32, v => toLittleEndian v.toNat 4
  | u64, v => toLittleEndian v.toNat 8
  | i8, v => toLittleEndian v.toUInt8.toNat 1
  | i32, v => toLittleEndian v.toUInt32.toNat 4
  | i64, v => toLittleEndian v.toUInt64.toNat 8
  | bool, v => [if v then 1 else 0]
  | char, c => Utf8.encodeChar c
  | unit, _ => []
  | text, s => encodeText s
  | array _, v => v.1
  | option _, none => [0]
  | option s, some v => 1 :: s.encode v
  | list s, vs => toLittleEndian vs.length 8 ++ vs.flatMap s.encode
  | pair a b, v => a.encode v.1 ++ b.encode v.2
  | map, m =>
    toLittleEndian m.size 8
      ++ m.toList.flatMap (fun e => encodeText e.1 ++ toLittleEndian e.2.toNat 8)
  | choice _ variant, v => toLittleEndian v.1.val 4 ++ (variant v.1).encode v.2

/-- A step of reading: what it took off the front, and the rest. -/
abbrev Reader (α : Type) := Bytes → Except ValueError (α × Bytes)

/-- Take bytes off the front. -/
def readBytes (n : Nat) (onEnd : ValueError) : Reader Bytes := fun input =>
  if input.length < n then .error onEnd else .ok (input.take n, input.drop n)

/-- Take a number of `width` bytes off the front. -/
def readNat (width : Nat) : Reader Nat := fun input =>
  match readBytes width .endOfInput input with
  | .ok (bytes, rest) => .ok (ofLittleEndian bytes, rest)
  | .error e => .error e

/-- Take a text with its length off the front. -/
def readText : Reader String := fun input =>
  match readNat 8 input with
  | .error e => .error e
  | .ok (length, rest) =>
    match readBytes length .textCutShort rest with
    | .error e => .error e
    | .ok (bytes, rest) =>
      match Utf8.decode bytes with
      | .ok s => .ok (s, rest)
      | .error e => .error (.notText e)

/-- Take a character off the front. -/
def readChar : Reader Char := fun input =>
  match input with
  | [] => .error .endOfInput
  | first :: rest =>
    match Utf8.headChar first rest with
    | .char c more => .ok (c, rest.drop more)
    | _ => .error .notChar

/-- Take a number of items off the front, one after the other. -/
def readList {α : Type} (item : Reader α) : (count : Nat) → Reader (List α)
  | 0, input => .ok ([], input)
  | count + 1, input =>
    match item input with
    | .error e => .error e
    | .ok (v, rest) =>
      match readList item count rest with
      | .error e => .error e
      | .ok (vs, rest) => .ok (v :: vs, rest)

/-- Take a binding of a map off the front. -/
def readBinding : Reader (String × UInt64) := fun input =>
  match readText input with
  | .error e => .error e
  | .ok (key, rest) =>
    match readNat 8 rest with
    | .error e => .error e
    | .ok (n, rest) => .ok ((key, UInt64.ofNat n), rest)

/-- Take a value off the front. -/
def read : (s : ValueShape) → Reader s.Value
  | u8, input => (readNat 1 input).map (fun (n, rest) => (UInt8.ofNat n, rest))
  | u16, input => (readNat 2 input).map (fun (n, rest) => (UInt16.ofNat n, rest))
  | u32, input => (readNat 4 input).map (fun (n, rest) => (UInt32.ofNat n, rest))
  | u64, input => (readNat 8 input).map (fun (n, rest) => (UInt64.ofNat n, rest))
  | i8, input => (readNat 1 input).map (fun (n, rest) => ((UInt8.ofNat n).toInt8, rest))
  | i32, input => (readNat 4 input).map (fun (n, rest) => ((UInt32.ofNat n).toInt32, rest))
  | i64, input => (readNat 8 input).map (fun (n, rest) => ((UInt64.ofNat n).toInt64, rest))
  | bool, input =>
    match input with
    | [] => .error .endOfInput
    | b :: rest =>
      if b = 0 then .ok (false, rest)
      else if b = 1 then .ok (true, rest)
      else .error (.badBool b)
  | char, input => readChar input
  | unit, input => .ok ((), input)
  | text, input => readText input
  | array n, input =>
    if h : n ≤ input.length then
      .ok (⟨input.take n, by rw [List.length_take]; omega⟩, input.drop n)
    else .error .endOfInput
  | option s, input =>
    match input with
    | [] => .error .endOfInput
    | b :: rest =>
      if b = 0 then .ok (none, rest)
      else if b = 1 then (s.read rest).map (fun (v, rest) => (some v, rest))
      else .error (.badOption b)
  | list s, input =>
    match readNat 8 input with
    | .error e => .error e
    | .ok (count, rest) => readList s.read count rest
  | pair a b, input =>
    match a.read input with
    | .error e => .error e
    | .ok (v, rest) => (b.read rest).map (fun (w, rest) => ((v, w), rest))
  | map, input =>
    match readNat 8 input with
    | .error e => .error e
    | .ok (count, rest) =>
      (readList readBinding count rest).map (fun (pairs, rest) => (SortedMap.ofList pairs, rest))
  | choice n variant, input =>
    match readNat 4 input with
    | .error e => .error e
    | .ok (i, rest) =>
      if h : i < n then ((variant ⟨i, h⟩).read rest).map (fun (v, rest) => (⟨⟨i, h⟩, v⟩, rest))
      else .error (.badVariant i n)

/-- The value at the front of bytes; what follows it is ignored. -/
def decode (s : ValueShape) (input : Bytes) : Except ValueError s.Value :=
  (s.read input).map Prod.fst

/-- Bytes with their length in front. -/
def bytes : ValueShape := list u8

end ValueShape

end TableStore
