import TableStore.Json.Error

/-!
# Reading JSON

Readers of one piece of JSON at the front of a text. Each says what type it wants, and
what it says when it meets another type depends on that wish, so a text with two
mistakes fails on the one that comes first. Pieces that nobody wants are passed over by
`skipValue`, which checks the grammar and nothing else.

A reader returns the rest of the text.
-/

namespace TableStore.Json

/-- A reader: the value at the front, and the rest of the text. -/
abbrev Reader (α : Type) := List Char → Except Error (α × List Char)

def isBlank (c : Char) : Bool := c = ' ' || c = '\n' || c = '\t' || c = '\r'

/-- The text after its leading blanks. -/
def dropBlanks (input : List Char) : List Char := input.dropWhile isBlank

/-- A decimal digit. -/
def isDigit (c : Char) : Bool := '0' ≤ c && c ≤ '9'

def digitValue (c : Char) : Nat := c.toNat - 48

/-- The value of a hexadecimal digit of either case. -/
def hexValue? (c : Char) : Option Nat :=
  if isDigit c then some (c.toNat - 48)
  else if 'a' ≤ c && c ≤ 'f' then some (c.toNat - 87)
  else if 'A' ≤ c && c ≤ 'F' then some (c.toNat - 55)
  else none

/-- The rest of a word whose first letter was read. -/
def readWord : (word : List Char) → Reader Unit
  | [], input => .ok ((), input)
  | _ :: _, [] => .error .endInValue
  | w :: word, c :: rest => if c = w then readWord word rest else .error .expectedWord

/-! ## Text -/

/-- What is wrong with a text that does not begin with four hexadecimal digits: it ends
too early if fewer than four bytes of it are left, whatever they spell. -/
def hexEscapeError (input : List Char) : Error :=
  if ((input.take 4).map Char.utf8Size).foldr (· + ·) 0 < 4 then .endInString else .invalidEscape

/-- Four hexadecimal digits. -/
def readHex4 : Reader Nat
  | a :: b :: c :: d :: rest =>
    match hexValue? a, hexValue? b, hexValue? c, hexValue? d with
    | some x, some y, some z, some w => .ok (((x * 16 + y) * 16 + z) * 16 + w, rest)
    | _, _, _, _ => .error .invalidEscape
  | input => .error (hexEscapeError input)

/-- The second half of a surrogate pair, its escape included. -/
def readLowSurrogate (high : Nat) : Reader Char
  | [] => .error .endInString
  | '\\' :: [] => .error .endInString
  | '\\' :: 'u' :: rest =>
    match readHex4 rest with
    | .error e => .error e
    | .ok (low, rest) =>
      if 0xDC00 ≤ low && low ≤ 0xDFFF then
        .ok (Char.ofNat (0x10000 + (high - 0xD800) * 1024 + (low - 0xDC00)), rest)
      else .error .loneSurrogate
  | _ => .error .endOfHexEscape

/-- A character given by its code point, after the letter of the escape. -/
def readCodePoint : Reader Char := fun input =>
  match readHex4 input with
  | .error e => .error e
  | .ok (n, rest) =>
    if 0xDC00 ≤ n && n ≤ 0xDFFF then .error .loneSurrogate
    else if 0xD800 ≤ n && n ≤ 0xDBFF then readLowSurrogate n rest
    else .ok (Char.ofNat n, rest)

/-- A character after a backslash. -/
def readEscape : Reader Char
  | [] => .error .endInString
  | c :: rest =>
    if c = '"' then .ok ('"', rest)
    else if c = '\\' then .ok ('\\', rest)
    else if c = '/' then .ok ('/', rest)
    else if c = 'b' then .ok ('\x08', rest)
    else if c = 'f' then .ok ('\x0c', rest)
    else if c = 'n' then .ok ('\n', rest)
    else if c = 'r' then .ok ('\r', rest)
    else if c = 't' then .ok ('\t', rest)
    else if c = 'u' then readCodePoint rest
    else .error .invalidEscape

/-- The characters of a text up to its closing quote, with one step of `fuel` for each. -/
def readChars : (fuel : Nat) → Reader (List Char)
  | 0, _ => .error .endInString
  | _ + 1, [] => .error .endInString
  | fuel + 1, c :: rest =>
    if c = '"' then .ok ([], rest)
    else if c = '\\' then
      match readEscape rest with
      | .error e => .error e
      | .ok (c, rest) => (readChars fuel rest).map (fun (cs, rest) => (c :: cs, rest))
    else if c.toNat < 0x20 then .error .controlCharacter
    else (readChars fuel rest).map (fun (cs, rest) => (c :: cs, rest))

/-- A text after its opening quote. -/
def readText : Reader String := fun input =>
  (readChars (input.length + 1) input).map (fun (cs, rest) => (String.ofList cs, rest))

/-! ## Numbers -/

/-- A number as it was written: whole within sixty-four bits, or rounded. -/
inductive Number where
  | whole (value : Int)
  | rounded (value : Float)

/-- What a number counts as when another type is wanted. -/
def Number.found : Number → Found
  | whole n => .integer n
  | rounded x => .float (.of x)

/-- Ten to a power that a double can hold, rounded. -/
def powerOfTen (n : Nat) : Float := Float.ofScientific 1 false n

/-- A power of ten times a double: one division or multiplication within three hundred
and eight places, and further divisions below. -/
def scaleFloat (f : Float) : (fuel : Nat) → (exponent : Int) → Except Error Float
  | 0, _ => .ok f
  | fuel + 1, exponent =>
    if exponent.natAbs ≤ 308 then
      if 0 ≤ exponent then
        let g := f * powerOfTen exponent.natAbs
        if g.isInf then .error .numberOutOfRange else .ok g
      else .ok (f / powerOfTen exponent.natAbs)
    else if f == 0.0 then .ok f
    else if 0 ≤ exponent then .error .numberOutOfRange
    else scaleFloat (f / powerOfTen 308) fuel (exponent + 308)

/-- The double of a sign, digits and a power of ten. -/
def makeFloat (positive : Bool) (significand : Nat) (exponent : Int) : Except Error Number :=
  match scaleFloat (UInt64.ofNat significand).toFloat 16 exponent with
  | .error e => .error e
  | .ok f => .ok (.rounded (if positive then f else -f))

def exponentLimit : Int := 2147483647

/-- The digits of an exponent; `none` once it is past the limit, however many follow. -/
def exponentDigits (exponent : Int) : List Char → Option Int × List Char
  | [] => (some exponent, [])
  | c :: rest =>
    if isDigit c then
      let next := exponent * 10 + digitValue c
      if exponentLimit < next then (none, rest.dropWhile isDigit) else exponentDigits next rest
    else (some exponent, c :: rest)

/-- An exponent after its letter, and the number it ends. -/
def readExponent (positive : Bool) (significand : Nat) (start : Int) : Reader Number := fun input =>
  let (up, input) : Bool × List Char :=
    match input with
    | '+' :: rest => (true, rest)
    | '-' :: rest => (false, rest)
    | _ => (true, input)
  match input with
  | [] => .error .endInValue
  | c :: rest =>
    if !isDigit c then .error .invalidNumber
    else
      match exponentDigits (digitValue c) rest with
      | (some e, rest) =>
        let total :=
          if up then min (start + e) exponentLimit else max (start - e) (-exponentLimit - 1)
        (makeFloat positive significand total).map (fun n => (n, rest))
      | (none, rest) =>
        if significand != 0 && up then .error .numberOutOfRange
        else .ok (.rounded (if positive then 0.0 else -0.0), rest)

/-- The largest number of sixty-four bits. -/
def maxWord : Nat := 18446744073709551615

/-- The distance of the least signed number of sixty-four bits from zero. -/
def maxBelowZero : Nat := 9223372036854775808

/-- The end of a number with a power of ten: an exponent, or nothing. -/
def finishFloat (positive : Bool) (significand : Nat) (exponent : Int) : Reader Number :=
  fun input =>
  match input with
  | 'e' :: rest => readExponent positive significand exponent rest
  | 'E' :: rest => readExponent positive significand exponent rest
  | _ => (makeFloat positive significand exponent).map (fun n => (n, input))

/-- The digits after a point. Digits that no longer fit the word are dropped. -/
def readFraction (positive : Bool) (significand : Nat) (before after : Int) : Reader Number
  | [] =>
    if after = 0 then .error .endInValue
    else finishFloat positive significand (before + after) []
  | c :: rest =>
    if isDigit c then
      let next := significand * 10 + digitValue c
      if maxWord < next then
        finishFloat positive significand (before + after) ((c :: rest).dropWhile isDigit)
      else readFraction positive next before (after - 1) rest
    else if after = 0 then .error .invalidNumber
    else finishFloat positive significand (before + after) (c :: rest)

/-- The end of a number whose whole part fits the word. -/
def finishWhole (positive : Bool) (significand : Nat) : Reader Number := fun input =>
  match input with
  | '.' :: rest => readFraction positive significand 0 0 rest
  | 'e' :: rest => readExponent positive significand 0 rest
  | 'E' :: rest => readExponent positive significand 0 rest
  | _ =>
    if positive then .ok (.whole significand, input)
    else if significand = 0 then .ok (.rounded (-0.0), input)
    else if significand ≤ maxBelowZero then .ok (.whole (-(significand : Int)), input)
    else .ok (.rounded (-(UInt64.ofNat significand).toFloat), input)

/-- The rest of a whole part that no longer fits the word. -/
def readLong (positive : Bool) (significand : Nat) (exponent : Int) : Reader Number
  | [] => finishFloat positive significand exponent []
  | c :: rest =>
    if isDigit c then readLong positive significand (exponent + 1) rest
    else if c = '.' then readFraction positive significand exponent 0 rest
    else finishFloat positive significand exponent (c :: rest)

/-- The digits of a whole part after the first, which was not zero. -/
def readWhole (positive : Bool) (significand : Nat) : Reader Number
  | [] => finishWhole positive significand []
  | c :: rest =>
    if isDigit c then
      let next := significand * 10 + digitValue c
      if maxWord < next then readLong positive significand 0 (c :: rest)
      else readWhole positive next rest
    else finishWhole positive significand (c :: rest)

/-- A number after its sign. Zero stands alone before a point. -/
def readNumber (positive : Bool) : Reader Number
  | [] => .error .endInValue
  | c :: rest =>
    if c = '0' then
      match rest with
      | d :: _ => if isDigit d then .error .invalidNumber else finishWhole positive 0 rest
      | [] => finishWhole positive 0 rest
    else if isDigit c then readWhole positive (digitValue c) rest
    else .error .invalidNumber

/-! ## A piece of another type -/

/-- The error for a piece of JSON of another type than the one wanted. -/
def wrongType (input : List Char) (expected : String) : Error :=
  match input with
  | [] => .expectedValue
  | c :: rest =>
    let found (f : Except Error Found) : Error :=
      match f with
      | .ok f => .invalidType f expected
      | .error e => e
    if c = 'n' then found ((readWord "ull".toList rest).map (fun _ => .null))
    else if c = 't' then found ((readWord "rue".toList rest).map (fun _ => .bool true))
    else if c = 'f' then found ((readWord "alse".toList rest).map (fun _ => .bool false))
    else if c = '-' then found ((readNumber false rest).map (fun (n, _) => n.found))
    else if isDigit c then found ((readNumber true input).map (fun (n, _) => n.found))
    else if c = '"' then found ((readText rest).map (fun (s, _) => .text s))
    else if c = '[' then .invalidType .sequence expected
    else if c = '\x7b' then .invalidType .map expected
    else .expectedValue

/-- A text, for which callers have a name of their own. -/
def readTextOr (expected : String) : Reader String := fun input =>
  match dropBlanks input with
  | [] => .error .endInValue
  | '"' :: rest => readText rest
  | other => .error (wrongType other expected)

/-- A truth value. -/
def readBool : Reader Bool := fun input =>
  match dropBlanks input with
  | [] => .error .endInValue
  | 't' :: rest => (readWord "rue".toList rest).map (fun (_, rest) => (true, rest))
  | 'f' :: rest => (readWord "alse".toList rest).map (fun (_, rest) => (false, rest))
  | other => .error (wrongType other "a boolean")

/-- The word for nothing. -/
def readNull : Reader Unit := fun input =>
  match dropBlanks input with
  | [] => .error .endInValue
  | 'n' :: rest => readWord "ull".toList rest
  | other => .error (wrongType other "unit")

/-- A whole number of sixty-four bits without sign. -/
def readWord64 : Reader Nat := fun input =>
  let expected := "u64"
  let check (r : Except Error (Number × List Char)) : Except Error (Nat × List Char) :=
    match r with
    | .error e => .error e
    | .ok (.whole (.ofNat n), rest) => .ok (n, rest)
    | .ok (.whole n, _) => .error (.invalidValue (.integer n) expected)
    | .ok (n, _) => .error (.invalidType n.found expected)
  match dropBlanks input with
  | [] => .error .endInValue
  | c :: rest =>
    if c = '-' then check (readNumber false rest)
    else if isDigit c then check (readNumber true (c :: rest))
    else .error (wrongType (c :: rest) expected)

/-! ## Pieces that nobody wants -/

/-- Pass over the characters of a text up to its closing quote. -/
def skipChars : (fuel : Nat) → Reader Unit
  | 0, _ => .error .endInString
  | _ + 1, [] => .error .endInString
  | fuel + 1, c :: rest =>
    if c = '"' then .ok ((), rest)
    else if c = '\\' then
      match rest with
      | [] => .error .endInString
      | 'u' :: rest =>
        match readHex4 rest with
        | .error e => .error e
        | .ok (_, rest) => skipChars fuel rest
      | d :: rest =>
        if "\"\\/bfnrt".toList.contains d then skipChars fuel rest else .error .invalidEscape
    else if c.toNat < 0x20 then .error .controlCharacter
    else skipChars fuel rest

/-- Pass over a text after its opening quote. -/
def skipText : Reader Unit := fun input => skipChars (input.length + 1) input

/-- Pass over an exponent after its letter. -/
def skipExponent : Reader Unit := fun input =>
  let input := match input with
    | '+' :: rest => rest
    | '-' :: rest => rest
    | _ => input
  match input with
  | c :: rest => if isDigit c then .ok ((), rest.dropWhile isDigit) else .error .invalidNumber
  | [] => .error .invalidNumber

/-- Pass over an exponent if there is one. -/
def skipOptionalExponent : Reader Unit := fun input =>
  match input with
  | 'e' :: rest => skipExponent rest
  | 'E' :: rest => skipExponent rest
  | _ => .ok ((), input)

/-- Pass over a number after its sign. -/
def skipNumber : Reader Unit := fun input =>
  let afterWhole : Except Error (List Char) :=
    match input with
    | '0' :: d :: rest => if isDigit d then .error .invalidNumber else .ok (d :: rest)
    | '0' :: [] => .ok []
    | c :: rest => if isDigit c then .ok (rest.dropWhile isDigit) else .error .invalidNumber
    | [] => .error .invalidNumber
  match afterWhole with
  | .error e => .error e
  | .ok ('.' :: d :: rest) =>
    if isDigit d then skipOptionalExponent (rest.dropWhile isDigit) else .error .invalidNumber
  | .ok ['.'] => .error .invalidNumber
  | .ok rest => skipOptionalExponent rest

/-- A list or an object under way. -/
inductive Frame where
  | list
  | object
  deriving DecidableEq, Repr

/-- What passing over a value expects next. -/
inductive Expect where
  /-- A value. -/
  | value
  /-- What follows a value, or, after an opening bracket, its first item or its end. -/
  | more (afterValue : Bool)
  /-- The name of a member. -/
  | name

/-- Pass over values, with the lists and objects under way, innermost first. -/
def skip : (fuel : Nat) → Expect → List Frame → Reader Unit
  | 0, _, _, _ => .error .endInValue
  | fuel + 1, .value, frames, input =>
    let next (r : Except Error (Unit × List Char)) : Except Error (Unit × List Char) :=
      match r with
      | .error e => .error e
      | .ok (_, rest) => skip fuel (.more true) frames rest
    match dropBlanks input with
    | [] => .error .endInValue
    | c :: rest =>
      if c = 'n' then next (readWord "ull".toList rest)
      else if c = 't' then next (readWord "rue".toList rest)
      else if c = 'f' then next (readWord "alse".toList rest)
      else if c = '-' then next (skipNumber rest)
      else if isDigit c then next (skipNumber (c :: rest))
      else if c = '"' then next (skipText rest)
      else if c = '[' then skip fuel (.more false) (.list :: frames) rest
      else if c = '\x7b' then skip fuel (.more false) (.object :: frames) rest
      else .error .expectedValue
  | _ + 1, .more _, [], input => .ok ((), input)
  | fuel + 1, .more afterValue, frame :: frames, input =>
    let item : Expect := match frame with
      | .list => .value
      | .object => .name
    match dropBlanks input with
    | [] =>
      .error (match frame with
        | .list => .endInList
        | .object => .endInObject)
    | c :: rest =>
      if c = ',' && afterValue then skip fuel item (frame :: frames) rest
      else if (frame = .list && c = ']') || (frame = .object && c = '\x7d') then
        skip fuel (.more true) frames rest
      else if afterValue then
        .error (match frame with
          | .list => .expectedListEnd
          | .object => .expectedObjectEnd)
      else skip fuel item (frame :: frames) (c :: rest)
  | fuel + 1, .name, frames, input =>
    match dropBlanks input with
    | [] => .error .endInObject
    | '"' :: rest =>
      match skipText rest with
      | .error e => .error e
      | .ok (_, rest) =>
        match dropBlanks rest with
        | [] => .error .endInObject
        | ':' :: rest => skip fuel .value frames rest
        | _ => .error .expectedColon
    | _ => .error .keyNotString

/-- Pass over one value. Every step but the first two of each bracket takes a character,
so twice the length of the text is steps enough. -/
def skipValue : Reader Unit := fun input => skip (2 * input.length + 2) .value [] input

/-! ## Objects -/

/-- The colon between a name and its value. -/
def readColon : Reader Unit := fun input =>
  match dropBlanks input with
  | [] => .error .endInObject
  | ':' :: rest => .ok ((), rest)
  | _ => .error .expectedColon

/-- The name of the next member of an object, or `none` at its end, which is taken. -/
def readName? (first : Bool) : Reader (Option String) := fun input =>
  let name : Reader (Option String) := fun input =>
    match input with
    | [] => .error .endInValue
    | '"' :: rest => (readText rest).map (fun (s, rest) => (some s, rest))
    | '\x7d' :: _ => .error .trailingComma
    | _ => .error .keyNotString
  match dropBlanks input with
  | [] => .error .endInObject
  | '\x7d' :: rest => .ok (none, rest)
  | c :: rest =>
    if first then name (c :: rest)
    else if c = ',' then name (dropBlanks rest)
    else .error .expectedObjectEnd

/-- Whether a list has another item; its end is left. -/
def readMore (first : Bool) : Reader Bool := fun input =>
  match dropBlanks input with
  | [] => .error .endInList
  | ']' :: rest => .ok (false, ']' :: rest)
  | c :: rest =>
    if first then .ok (true, c :: rest)
    else if c = ',' then
      match dropBlanks rest with
      | [] => .error .endInValue
      | ']' :: _ => .error .trailingComma
      | rest => .ok (true, rest)
    else .error .expectedListEnd

def readListEnd : Reader Unit := fun input =>
  match dropBlanks input with
  | [] => .error .endInList
  | ']' :: rest => .ok ((), rest)
  | ',' :: rest =>
    match dropBlanks rest with
    | ']' :: _ => .error .trailingComma
    | _ => .error .trailingCharacters
  | _ => .error .trailingCharacters

/-- A variant: its name as a text, or an object with one member that holds its value.
`bare` reads the variant from a name alone, `holding` reads its value. An object without
a member is no variant. -/
def readVariant {α : Type} (bare : String → Except Error α)
    (holding : String → Except Error (Reader α)) :
    Reader α := fun input =>
  match dropBlanks input with
  | [] => .error .endInValue
  | '"' :: rest =>
    match readText rest with
    | .error e => .error e
    | .ok (name, rest) => (bare name).map (fun v => (v, rest))
  | '\x7b' :: rest =>
    match readName? true rest with
    | .error e => .error e
    | .ok (none, _) => .error .expectedValue
    | .ok (some name, rest) =>
      match holding name with
      | .error e => .error e
      | .ok reader =>
        match readColon rest with
        | .error e => .error e
        | .ok (_, rest) =>
          match reader rest with
          | .error e => .error e
          | .ok (v, rest) =>
            match dropBlanks rest with
            | [] => .error .endInObject
            | '\x7d' :: rest => .ok (v, rest)
            | _ => .error .expectedValue
  | _ => .error .expectedValue

end TableStore.Json
