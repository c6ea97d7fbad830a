import TableStore.Text.Utf8

/-!
# Why bytes are no value

The cause alone; `ValueError.message` has the words.
-/

namespace TableStore

/-- Why bytes are no value of a shape. -/
inductive ValueError where
  /-- The bytes end before the value does. -/
  | endOfInput
  /-- The bytes end inside a text whose length was read. -/
  | textCutShort
  /-- The bytes of a text are not text. -/
  | notText (cause : Utf8.DecodeError)
  /-- The bytes begin no character. -/
  | notChar
  /-- A truth value is zero or one. -/
  | badBool (found : UInt8)
  /-- An optional value begins with zero or one. -/
  | badOption (found : UInt8)
  /-- There are fewer variants. -/
  | badVariant (found count : Nat)
  deriving DecidableEq, Repr

/-- The cause in words. -/
def ValueError.message : ValueError → String
  | endOfInput => "io error: unexpected end of file"
  | textCutShort => "io error: "
  | notText cause => "string is not valid utf8: " ++ cause.message
  | notChar => "char is not valid"
  | badBool found =>
    "invalid u8 while decoding bool, expected 0 or 1, found " ++ toString found.toNat
  | badOption found => "tag for enum is not valid, found " ++ toString found.toNat
  | badVariant found count =>
    "invalid value: integer `" ++ toString found ++ "`, expected variant index 0 <= i < "
      ++ toString count

end TableStore
