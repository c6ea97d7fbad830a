import TableStore.Error

/-!
# Typed keys

A key type is a shape: a fixed-width component, text, bytes, or a fixed-width head in
front of another shape. Numbers are written with the most significant byte first,
signed ones shifted to start at zero, so that the order of encodings is the order of
keys; text is UTF-8 and bytes stand for themselves.

A pair is its head's encoding followed by its tail's. It can be read back because the
head has one width. `WriteOnlyKey` holds the pairs that can be written and not read:
their heads may have any shape.
-/

namespace TableStore

/-- The number that bytes stand for, most significant first. -/
def ofBigEndian (bytes : Bytes) : Nat := bytes.foldl (fun n b => n * 256 + b.toNat) 0

/-- The last `width` digits of a number to the base 256 as bytes, most significant first. -/
def toBigEndian (n : Nat) : (width : Nat) → Bytes
  | 0 => []
  | width + 1 => toBigEndian (n / 256) width ++ [UInt8.ofNat (n % 256)]

/-- What a signed number is shifted by: the distance of the least one from zero. -/
def signShift : Int := 9223372036854775808

/-- A component whose encodings all have one length. -/
inductive FixedKey where
  | u8
  | u16
  | u32
  | u64
  | i64
  | array (length : Nat)
  deriving DecidableEq, Repr

namespace FixedKey

/-- The keys of a component. -/
abbrev Value : FixedKey → Type
  | u8 => UInt8
  | u16 => UInt16
  | u32 => UInt32
  | u64 => UInt64
  | i64 => Int64
  | array n => { bytes : Bytes // bytes.length = n }

/-- The length of every encoding. -/
def width : FixedKey → Nat
  | u8 => 1
  | u16 => 2
  | u32 => 4
  | u64 => 8
  | i64 => 8
  | array n => n

/-- The encoding of a component. -/
def encode : (k : FixedKey) → k.Value → Bytes
  | u8, v => toBigEndian v.toNat 1
  | u16, v => toBigEndian v.toNat 2
  | u32, v => toBigEndian v.toNat 4
  | u64, v => toBigEndian v.toNat 8
  | i64, v => toBigEndian (v.toInt + signShift).toNat 8
  | array _, v => v.1

/-- The component that bytes of the right length encode. -/
def ofBytes : (k : FixedKey) → (bytes : Bytes) → bytes.length = k.width → k.Value
  | u8, bytes, _ => UInt8.ofNat (ofBigEndian bytes)
  | u16, bytes, _ => UInt16.ofNat (ofBigEndian bytes)
  | u32, bytes, _ => UInt32.ofNat (ofBigEndian bytes)
  | u64, bytes, _ => UInt64.ofNat (ofBigEndian bytes)
  | i64, bytes, _ => Int64.ofInt ((ofBigEndian bytes : Int) - signShift)
  | array _, bytes, h => ⟨bytes, h⟩

/-- Read a component; every length but its width is refused. -/
def decode (k : FixedKey) (bytes : Bytes) : Except StoreError k.Value :=
  if h : bytes.length = k.width then .ok (k.ofBytes bytes h)
  else .error (.corruption (.keyWidth bytes.length k.width))

end FixedKey

/-- The types of keys that can be read back. -/
inductive KeyShape where
  | fixed (component : FixedKey)
  | text
  | bytes
  | pair (head : FixedKey) (tail : KeyShape)
  deriving DecidableEq, Repr

namespace KeyShape

abbrev Value : KeyShape → Type
  | fixed k => k.Value
  | text => String
  | bytes => Bytes
  | pair head tail => head.Value × tail.Value

def encode : (k : KeyShape) → k.Value → Bytes
  | fixed k, v => k.encode v
  | text, s => Utf8.encode s
  | bytes, b => b
  | pair head tail, (a, b) => head.encode a ++ tail.encode b

/-- Read a key. A pair splits its bytes at the width of its head. -/
def decode : (k : KeyShape) → Bytes → Except StoreError k.Value
  | fixed k, input => k.decode input
  | text, input =>
    match Utf8.decode input with
    | .ok s => .ok s
    | .error e => .error (.corruption (.keyNotText e))
  | bytes, input => .ok input
  | pair head tail, input =>
    if input.length < head.width then
      .error (.corruption (.keyWidth input.length head.width))
    else
      match head.decode (input.take head.width) with
      | .error e => .error e
      | .ok a =>
        match tail.decode (input.drop head.width) with
        | .error e => .error e
        | .ok b => .ok (a, b)

end KeyShape

/-- The types of keys that can be written, pairs of any two among them. -/
inductive WriteOnlyKey where
  | of (key : KeyShape)
  | pair (head tail : WriteOnlyKey)
  deriving DecidableEq, Repr

namespace WriteOnlyKey

abbrev Value : WriteOnlyKey → Type
  | of k => k.Value
  | pair head tail => head.Value × tail.Value

def encode : (k : WriteOnlyKey) → k.Value → Bytes
  | of k, v => k.encode v
  | pair head tail, (a, b) => head.encode a ++ tail.encode b

end WriteOnlyKey

end TableStore
