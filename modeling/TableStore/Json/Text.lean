/-!
# Writing JSON

The few shapes of JSON that the library prints: quoted text, numbers, and objects and
lists without blanks. A control character is written by its code point, five of them
by a letter; every character from the blank on stands for itself, the quote and the
backslash apart.
-/

namespace TableStore.Json

/-- A digit of a code point, in lower case. -/
def hexDigit (n : Nat) : Char := Nat.digitChar n

/-- A character as it stands inside a quoted text. -/
def escapeChar (c : Char) : List Char :=
  if c = '"' then ['\\', '"']
  else if c = '\\' then ['\\', '\\']
  else if c = '\x08' then ['\\', 'b']
  else if c = '\x0c' then ['\\', 'f']
  else if c = '\n' then ['\\', 'n']
  else if c = '\r' then ['\\', 'r']
  else if c = '\t' then ['\\', 't']
  else if c.toNat < 0x20 then
    ['\\', 'u', '0', '0', hexDigit (c.toNat / 16), hexDigit (c.toNat % 16)]
  else [c]

def quoteChars (s : List Char) : List Char := '"' :: s.flatMap escapeChar ++ ['"']

def quote (s : String) : String := String.ofList (quoteChars s.toList)

inductive Printed where
  | null
  | bool (value : Bool)
  | number (value : Nat)
  | text (value : String)
  | list (items : List Printed)
  | object (members : List (String × Printed))

/-- JSON text without blanks; the members of an object come in the order given. -/
def Printed.render : Printed → String
  | null => "null"
  | bool b => toString b
  | number n => toString n
  | text s => quote s
  | list items => "[" ++ String.intercalate "," (renderItems items) ++ "]"
  | object members => "\x7b" ++ String.intercalate "," (renderMembers members) ++ "\x7d"
where
  /-- The items of a list, each as text. -/
  renderItems : List Printed → List String
    | [] => []
    | item :: rest => item.render :: renderItems rest
  /-- The members of an object, each as text. -/
  renderMembers : List (String × Printed) → List String
    | [] => []
    | (name, item) :: rest => (quote name ++ ":" ++ item.render) :: renderMembers rest

end TableStore.Json
