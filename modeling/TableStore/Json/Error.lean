import TableStore.Text.Quoted
import TableStore.Decimal.Shortest

/-!
# Why a text is not the expected JSON

Two sorts of causes: the text breaks the grammar, or it is JSON of another type than
the reader wants. The second sort names what was found and what was expected.
-/

namespace TableStore.Json

/-- A piece of JSON of the wrong type. -/
inductive Found where
  | null
  | bool (value : Bool)
  | integer (value : Int)
  | float (value : Decimal.Shortest)
  | text (value : String)
  | sequence
  | map
  /-- A variant named by a text alone, where one with a value is wanted. -/
  | bareVariant
  deriving DecidableEq, Repr

/-- Why a text is not the expected JSON. -/
inductive Error where
  | endInValue
  | endInList
  | endInObject
  | endInString
  | expectedColon
  | expectedListEnd
  | expectedObjectEnd
  | expectedWord
  | expectedValue
  | invalidEscape
  | invalidNumber
  | numberOutOfRange
  | controlCharacter
  | keyNotString
  | loneSurrogate
  | trailingComma
  | trailingCharacters
  | endOfHexEscape
  | invalidType (found : Found) (expected : String)
  | invalidValue (found : Found) (expected : String)
  | unknownVariant (name : String) (expected : List String)
  | duplicateField (name : String)
  deriving DecidableEq, Repr

/-- What was found, in words. -/
def Found.message : Found → String
  | null => "null"
  | bool b => "boolean `" ++ toString b ++ "`"
  | integer n => "integer `" ++ toString n ++ "`"
  | float d => "floating point `" ++ d.scientific ++ "`"
  | text s => "string " ++ Quoted.text s
  | sequence => "sequence"
  | map => "map"
  | bareVariant => "unit variant"

/-- The variants that would have been right, in words. -/
def expectedVariants : List String → String
  | [] => "there are no variants"
  | [a] => "expected `" ++ a ++ "`"
  | [a, b] => "expected `" ++ a ++ "` or `" ++ b ++ "`"
  | names => "expected one of " ++ String.intercalate ", " (names.map (fun n => "`" ++ n ++ "`"))

/-- The cause in words. -/
def Error.message : Error → String
  | endInValue => "EOF while parsing a value"
  | endInList => "EOF while parsing a list"
  | endInObject => "EOF while parsing an object"
  | endInString => "EOF while parsing a string"
  | expectedColon => "expected `:`"
  | expectedListEnd => "expected `,` or `]`"
  | expectedObjectEnd => "expected `,` or `\x7d`"
  | expectedWord => "expected ident"
  | expectedValue => "expected value"
  | invalidEscape => "invalid escape"
  | invalidNumber => "invalid number"
  | numberOutOfRange => "number out of range"
  | controlCharacter => "control character (\\u0000-\\u001F) found while parsing a string"
  | keyNotString => "key must be a string"
  | loneSurrogate => "lone leading surrogate in hex escape"
  | trailingComma => "trailing comma"
  | trailingCharacters => "trailing characters"
  | endOfHexEscape => "unexpected end of hex escape"
  | invalidType found expected => "invalid type: " ++ found.message ++ ", expected " ++ expected
  | invalidValue found expected => "invalid value: " ++ found.message ++ ", expected " ++ expected
  | unknownVariant name expected =>
    "unknown variant `" ++ name ++ "`, " ++ expectedVariants expected
  | duplicateField name => "duplicate field `" ++ name ++ "`"

end TableStore.Json
