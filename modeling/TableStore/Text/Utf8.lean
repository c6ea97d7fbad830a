import TableStore.Key.Order

/-!
# Text as UTF-8 bytes

A character takes one to four bytes, in the shortest form only. `headChar` reads the
first character of a sequence, or says how many bytes of it can begin none; strict
reading stops there with the index, lenient reading puts the replacement character in
their place and goes on.

Both readers walk the list of bytes one at a time, with a count of bytes that belong
to a character already read.
-/

namespace TableStore.Utf8

/-- Where and how a sequence of bytes stops being text. -/
structure DecodeError where
  /-- The number of bytes before the trouble, all of them text. -/
  index : Nat
  /-- The length of the piece that begins no character, or `none` if the sequence ends
  inside one. -/
  length : Option Nat
  deriving DecidableEq, Repr

/-- The error in words. -/
def DecodeError.message (e : DecodeError) : String :=
  match e.length with
  | some n =>
    "invalid utf-8 sequence of " ++ toString n ++ " bytes from index " ++ toString e.index
  | none => "incomplete utf-8 byte sequence from index " ++ toString e.index

def encodeChar (c : Char) : Bytes :=
  let n := c.toNat
  if n < 0x80 then [UInt8.ofNat n]
  else if n < 0x800 then [UInt8.ofNat (0xC0 + n / 64), UInt8.ofNat (0x80 + n % 64)]
  else if n < 0x10000 then
    [UInt8.ofNat (0xE0 + n / 4096), UInt8.ofNat (0x80 + n / 64 % 64), UInt8.ofNat (0x80 + n % 64)]
  else
    [UInt8.ofNat (0xF0 + n / 262144), UInt8.ofNat (0x80 + n / 4096 % 64),
      UInt8.ofNat (0x80 + n / 64 % 64), UInt8.ofNat (0x80 + n % 64)]

def encodeChars (cs : List Char) : Bytes := cs.flatMap encodeChar

def encode (s : String) : Bytes := encodeChars s.toList

/-- What stands at the head of a sequence of bytes. -/
inductive Head where
  /-- A character, of which `more` bytes follow the first. -/
  | char (c : Char) (more : Nat)
  /-- The first byte and `more` after it begin no character. -/
  | malformed (more : Nat)
  /-- The sequence ends inside a character. -/
  | truncated
  deriving DecidableEq, Repr

/-- A byte that continues a character. -/
def isTail (b : UInt8) : Bool := 0x80 ≤ b && b ≤ 0xBF

/-- The six bits that a continuing byte carries. -/
def tailBits (b : UInt8) : Nat := b.toNat % 64

/-- Whether `second` may follow `first` in a character of three bytes: the short forms
and the surrogates are left out. -/
def isSecondOfThree (first second : UInt8) : Bool :=
  if first = 0xE0 then 0xA0 ≤ second && second ≤ 0xBF
  else if first = 0xED then 0x80 ≤ second && second ≤ 0x9F
  else isTail second

/-- Whether `second` may follow `first` in a character of four bytes: the short forms
and what lies past the last character are left out. -/
def isSecondOfFour (first second : UInt8) : Bool :=
  if first = 0xF0 then 0x90 ≤ second && second ≤ 0xBF
  else if first = 0xF4 then 0x80 ≤ second && second ≤ 0x8F
  else isTail second

def headTwo (a : UInt8) : Bytes → Head
  | [] => .truncated
  | b :: _ =>
    if isTail b then .char (Char.ofNat (a.toNat % 32 * 64 + tailBits b)) 1 else .malformed 0

def headThree (a : UInt8) : Bytes → Head
  | [] => .truncated
  | b :: rest =>
    if isSecondOfThree a b then
      match rest with
      | [] => .truncated
      | c :: _ =>
        if isTail c then
          .char (Char.ofNat (a.toNat % 16 * 4096 + tailBits b * 64 + tailBits c)) 2
        else .malformed 1
    else .malformed 0

def headFour (a : UInt8) : Bytes → Head
  | [] => .truncated
  | b :: rest =>
    if isSecondOfFour a b then
      match rest with
      | [] => .truncated
      | c :: rest =>
        if isTail c then
          match rest with
          | [] => .truncated
          | d :: _ =>
            if isTail d then
              .char (Char.ofNat
                (a.toNat % 8 * 262144 + tailBits b * 4096 + tailBits c * 64 + tailBits d)) 3
            else .malformed 2
        else .malformed 1
    else .malformed 0

/-- The number of bytes of a character that begins with a byte, or zero if none does. -/
def width (first : UInt8) : Nat :=
  if first < 0x80 then 1
  else if first < 0xC2 then 0
  else if first < 0xE0 then 2
  else if first < 0xF0 then 3
  else if first < 0xF5 then 4
  else 0

/-- What stands at the head of `first :: rest`. -/
def headChar (first : UInt8) (rest : Bytes) : Head :=
  match width first with
  | 1 => .char (Char.ofNat first.toNat) 0
  | 2 => headTwo first rest
  | 3 => headThree first rest
  | 4 => headFour first rest
  | _ => .malformed 0

/-- Read characters; `skip` bytes belong to the last one, and `index` bytes were read. -/
def decodeFrom (index skip : Nat) : Bytes → Except DecodeError (List Char)
  | [] => .ok []
  | first :: rest =>
    match skip with
    | skip + 1 => decodeFrom (index + 1) skip rest
    | 0 =>
      match headChar first rest with
      | .char c more => (decodeFrom (index + 1) more rest).map (fun cs => c :: cs)
      | .malformed more => .error ⟨index, some (more + 1)⟩
      | .truncated => .error ⟨index, none⟩

def decodeChars (bytes : Bytes) : Except DecodeError (List Char) := decodeFrom 0 0 bytes

def decode (bytes : Bytes) : Except DecodeError String := (decodeChars bytes).map String.ofList

/-- Read characters, with the replacement character for each piece that is none. -/
def decodeLenientFrom (skip : Nat) : Bytes → List Char
  | [] => []
  | first :: rest =>
    match skip with
    | skip + 1 => decodeLenientFrom skip rest
    | 0 =>
      match headChar first rest with
      | .char c more => c :: decodeLenientFrom more rest
      | .malformed more => '\uFFFD' :: decodeLenientFrom more rest
      | .truncated => ['\uFFFD']

/-- The text of any bytes; pieces that are no text become the replacement character. -/
def decodeLenient (bytes : Bytes) : String := String.ofList (decodeLenientFrom 0 bytes)

end TableStore.Utf8
