import TableStore.Key.Order
import TableStore.Text.Utf8

/-!
# Bytes as hexadecimal text

Two lower-case digits a byte, the high half first. Reading takes digits of either
case, and says which byte of the text it could not read.
-/

namespace TableStore.Hex

/-- Why a text is not hexadecimal. -/
inductive DecodeError where
  /-- The text has half a byte too much. -/
  | oddLength
  /-- This byte of the text is no digit. -/
  | badDigit (byte : UInt8) (index : Nat)
  deriving DecidableEq, Repr

/-- The lower-case digit of a number below sixteen. -/
def digit (n : UInt8) : Char := Char.ofNat (if n < 10 then 48 + n.toNat else 87 + n.toNat)

def byteDigits (b : UInt8) : List Char := [digit (b / 16), digit (b % 16)]

/-- The digits of bytes, in order. -/
def encodeChars (bytes : Bytes) : List Char := bytes.flatMap byteDigits

def encode (bytes : Bytes) : String := String.ofList (encodeChars bytes)

/-- The number that a digit of either case stands for. -/
def digitValue? (b : UInt8) : Option UInt8 :=
  if 48 ≤ b ∧ b ≤ 57 then some (b - 48)
  else if 97 ≤ b ∧ b ≤ 102 then some (b - 87)
  else if 65 ≤ b ∧ b ≤ 70 then some (b - 55)
  else none

/-- Read pairs of digits; `index` counts the bytes of text already read. -/
def decodePairs (index : Nat) : Bytes → Except DecodeError Bytes
  | [] => .ok []
  | [_] => .error .oddLength
  | hi :: lo :: rest =>
    match digitValue? hi with
    | none => .error (.badDigit hi index)
    | some h =>
      match digitValue? lo with
      | none => .error (.badDigit lo (index + 1))
      | some l => (decodePairs (index + 2) rest).map (fun bytes => (h * 16 + l) :: bytes)

/-- The bytes of a text. An odd number of digits is found before a wrong digit. -/
def decode (text : String) : Except DecodeError Bytes :=
  let bytes := Utf8.encode text
  if bytes.length % 2 = 1 then .error .oddLength else decodePairs 0 bytes

end TableStore.Hex
