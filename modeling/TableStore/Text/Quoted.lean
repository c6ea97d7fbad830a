import TableStore.Text.Printable

/-!
# Quoted text

Diagnostics show a text between double quotes, and a character between single ones. A
backslash stands before what would end or blur it: the quote of the same kind and the
backslash, the named controls, and, by its code point, every character that prints
nothing or extends its neighbour.
-/

namespace TableStore.Quoted

/-- Which optional escapes a quoted form uses. -/
structure Form where
  /-- Whether a single quote is escaped. -/
  singleQuote : Bool
  /-- Whether a double quote is escaped. -/
  doubleQuote : Bool

/-- Text between double quotes. -/
def Form.text : Form := ⟨false, true⟩

/-- A character between single quotes. -/
def Form.char : Form := ⟨true, false⟩

/-- A code point in lower-case hexadecimal. -/
def codePoint (c : Char) : String :=
  "\\u\x7b" ++ String.ofList (Nat.toDigits 16 c.toNat) ++ "\x7d"

/-- A character as it stands inside a quoted form. -/
def escapeChar (form : Form) (c : Char) : String :=
  if c = '\x00' then "\\0"
  else if c = '\t' then "\\t"
  else if c = '\r' then "\\r"
  else if c = '\n' then "\\n"
  else if c = '\\' then "\\\\"
  else if c = '"' then (if form.doubleQuote then "\\\"" else "\"")
  else if c = '\'' then (if form.singleQuote then "\\'" else "'")
  else if Printable.isExtending c || !Printable.isPrintable c then codePoint c
  else c.toString

def escape (form : Form) (s : String) : String := String.join (s.toList.map (escapeChar form))

/-- A text as diagnostics show it. -/
def text (s : String) : String := "\"" ++ escape .text s ++ "\""

/-- A character as diagnostics show it. -/
def char (c : Char) : String := "'" ++ escapeChar .char c ++ "'"

end TableStore.Quoted
