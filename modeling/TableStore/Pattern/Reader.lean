import TableStore.Pattern.Basic
import TableStore.Text.Hex
import TableStore.Text.Letters

/-!
# Reading patterns

A pattern is read from left to right, with the groups that are open around the place
(`Pattern.OpenGroup`), and a class with the brackets that are open around it
(`CharSet.OpenBracket`). With verbose settings blanks and comments are skipped between
parts, and inside of classes and of spelled characters too.

Every step takes a character, so the length of the text is enough fuel.
-/

namespace TableStore

namespace Pattern

/-! ## Blanks -/

/-- Skip blanks, and comments up to the ends of their lines. -/
def skipBlanks (inComment : Bool) : List Char → List Char
  | [] => []
  | c :: rest =>
    if inComment then skipBlanks (c ≠ '\n') rest
    else if c = '#' then skipBlanks true rest
    else if Letters.isBlank c then skipBlanks false rest
    else c :: rest

def skip (verbose : Bool) (cs : List Char) : List Char :=
  if verbose then skipBlanks false cs else cs

/-- The character ahead. Unlike `skip` this takes the text of a comment for a part of the
pattern. -/
def ahead? (verbose : Bool) (cs : List Char) : Option Char :=
  if verbose then
    match cs.dropWhile Letters.isBlank with
    | '#' :: rest => (rest.dropWhile Letters.isBlank).head?
    | rest => rest.head?
  else cs.head?

/-! ## Escapes -/

/-- The value of a hexadecimal digit. -/
def hexValue? (c : Char) : Option Nat :=
  if c.isAlphanum then (Hex.digitValue? (UInt8.ofNat c.toNat)).map UInt8.toNat else none

/-- The number that some hexadecimal digits spell, `value` being that of those before. -/
def readHex (verbose : Bool) (value : Nat) : (count : Nat) → List Char → Option (Nat × List Char)
  | 0, cs => some (value, cs)
  | _ + 1, [] => none
  | count + 1, c :: rest =>
    match hexValue? c with
    | some digit => readHex verbose (value * 16 + digit) count (skip verbose rest)
    | none => none

/-- The character that some hexadecimal digits spell. -/
def readSpelled (verbose : Bool) (count : Nat) (cs : List Char) :
    Option (PatternAtom × List Char) :=
  match readHex verbose 0 count (skip verbose cs) with
  | some (value, rest) =>
    if value.isValidChar then some (.char ⟨Char.ofNat value, count = 2⟩, rest) else none
  | none => none

/-- Whether a character that is escaped stands for itself. -/
def isEscapable (c : Char) : Bool :=
  c.toNat < 128 && !c.isAlphanum && c ≠ '<' && c ≠ '>'

/-- What an escape stands for, after its backslash. -/
def readEscape (verbose : Bool) : List Char → Option (PatternAtom × List Char)
  | [] => none
  | c :: rest =>
    match c with
    | 'x' => readSpelled verbose 2 rest
    | 'u' => readSpelled verbose 4 rest
    | 'U' => readSpelled verbose 8 rest
    | 'd' | 's' | 'w' => some (.kind false, rest)
    | 'D' | 'S' | 'W' => some (.kind true, rest)
    | 'A' | 'z' => some (.edge, rest)
    | 'b' | 'B' | '<' | '>' => some (.wordBorder, rest)
    | 'a' => some (.char ⟨'\x07', false⟩, rest)
    | 'f' => some (.char ⟨'\x0c', false⟩, rest)
    | 't' => some (.char ⟨'\t', false⟩, rest)
    | 'n' => some (.char ⟨'\n', false⟩, rest)
    | 'r' => some (.char ⟨'\r', false⟩, rest)
    | 'v' => some (.char ⟨'\x0b', false⟩, rest)
    | _ => if isEscapable c then some (.char ⟨c, false⟩, rest) else none

end Pattern

/-! ## Classes -/

namespace CharSet

open Pattern (skip ahead? readEscape)

structure OpenBracket where
  negated : Bool := false
  /-- What the operators so far put together, and the last of them. -/
  left : Option (CharSet × SetOperator) := none
  /-- The sets since the last operator, the latest first. -/
  sets : List CharSet := []
  /-- Nothing but hyphens was read: more hyphens stand for themselves, and so does a
  bracket in the first place. -/
  isFresh : Bool := true

namespace OpenBracket

def add (b : OpenBracket) (set : CharSet) : OpenBracket :=
  { b with sets := set :: b.sets, isFresh := false }

def soFar (b : OpenBracket) : CharSet :=
  let right := CharSet.ofList b.sets.reverse
  match b.left with
  | none => right
  | some (left, op) => .combined op left right

/-- Put what was read before an operator. -/
def operate (b : OpenBracket) (op : SetOperator) : OpenBracket :=
  { b with left := some (b.soFar, op), sets := [], isFresh := false }

/-- The class, once its bracket is closed. -/
def close (b : OpenBracket) : CharSet := .bracketed b.negated b.soFar

/-- What opens a class after its bracket. -/
def ofText (verbose : Bool) (cs : List Char) : OpenBracket × List Char :=
  match skip verbose cs with
  | '^' :: rest => ({ negated := true }, rest)
  | cs => ({}, cs)

end OpenBracket

/-- The names of classes. -/
def names : List String :=
  ["alnum", "alpha", "ascii", "blank", "cntrl", "digit", "graph", "lower", "print", "punct",
    "space", "upper", "word", "xdigit"]

/-- The class of a name between colons, after its bracket. -/
def readNamed? (cs : List Char) : Option (CharSet × List Char) :=
  match cs with
  | ':' :: rest =>
    let negated := rest.head? = some '^'
    let rest := if negated then rest.drop 1 else rest
    let name := rest.takeWhile (· ≠ ':')
    match rest.drop name.length with
    | ':' :: ']' :: rest =>
      if names.contains (String.ofList name) then some (.named negated, rest) else none
    | _ => none
  | _ => none

/-- An atom of a class. -/
def readAtom (verbose : Bool) : List Char → Option (PatternAtom × List Char)
  | [] => none
  | '\\' :: rest => readEscape verbose rest
  | c :: rest => some (.char ⟨c, false⟩, rest)

/-- The set that an atom of a class stands for. A place in the text is no character. -/
def ofAtom? : PatternAtom → Option CharSet
  | .char c => some (.char c)
  | .kind negated => some (.kind negated)
  | _ => none

/-- A range, or a set of one atom. A hyphen makes no range before a closing bracket or
another hyphen. -/
def readRange (verbose : Bool) (cs : List Char) : Option (CharSet × List Char) := do
  let (low, rest) ← readAtom verbose cs
  let rest := skip verbose rest
  match rest with
  | '-' :: more =>
    if ahead? verbose more = some ']' || ahead? verbose more = some '-' then
      return (← ofAtom? low, rest)
    else
      match low, ← readAtom verbose (skip verbose more) with
      | .char low, (.char high, rest) =>
        if low.char ≤ high.char then some (.range low high, rest) else none
      | _, _ => none
  | _ => return (← ofAtom? low, rest)

/-- A class from inside its bracket, with the brackets open around it. -/
def read (verbose : Bool) : (fuel : Nat) → OpenBracket → (around : List OpenBracket) →
    List Char → Option (CharSet × List Char)
  | 0, _, _, _ => none
  | fuel + 1, here, around, cs =>
    match skip verbose cs with
    | [] => none
    | c :: rest =>
      if here.isFresh && c = '-' then
        read verbose fuel { here.add (.char ⟨c, false⟩) with isFresh := true } around rest
      else if here.isFresh && here.sets.isEmpty && c = ']' then
        read verbose fuel (here.add (.char ⟨c, false⟩)) around rest
      else
        match c, rest with
        | '[', rest =>
          match readNamed? rest with
          | some (set, rest) => read verbose fuel (here.add set) around rest
          | none =>
            let (inner, rest) := OpenBracket.ofText verbose rest
            read verbose fuel inner (here :: around) rest
        | ']', rest =>
          match around with
          | [] => some (here.close, rest)
          | outer :: around => read verbose fuel (outer.add here.close) around rest
        | '&', '&' :: rest => read verbose fuel (here.operate .intersection) around rest
        | '-', '-' :: rest => read verbose fuel (here.operate .difference) around rest
        | '~', '~' :: rest => read verbose fuel (here.operate .symmetricDifference) around rest
        | c, rest =>
          match readRange verbose (c :: rest) with
          | some (set, rest) => read verbose fuel (here.add set) around rest
          | none => none

/-- A class, after its bracket. -/
def ofText? (verbose : Bool) (cs : List Char) : Option (CharSet × List Char) :=
  let (here, rest) := OpenBracket.ofText verbose cs
  read verbose (rest.length + 1) here [] rest

end CharSet

/-! ## Groups -/

namespace Pattern

/-- The part of a group that was read. -/
structure Branches where
  /-- The alternatives before, the latest first. -/
  before : List Pattern := []
  /-- The row that goes on, its latest part first. -/
  row : List Pattern := []

namespace Branches

def add (b : Branches) (p : Pattern) : Branches := { b with row := p :: b.row }

/-- Begin another alternative. -/
def split (b : Branches) : Branches := { before := ofRow b.row.reverse :: b.before }

def all (b : Branches) : Pattern := ofChoice b.split.before.reverse

end Branches

structure OpenGroup where
  /-- The switches of the group itself. -/
  flags : PatternSwitches
  /-- What was read of the pattern around. -/
  outside : Branches
  /-- Whether the pattern around is verbose. -/
  verboseOutside : Bool

/-- The switches up to a colon or a closing parenthesis, which is where the rest begins.
What follows a minus is switched off. -/
def readSwitches (on : Bool) (before : PatternSwitches) :
    List Char → Option (PatternSwitches × List Char)
  | [] => none
  | c :: rest =>
    if c = ':' || c = ')' then some (before, c :: rest)
    else if c = '-' then
      if on && rest.head? ≠ some ':' && rest.head? ≠ some ')' then readSwitches false before rest
      else none
    else
      match PatternFlag.ofChar? c with
      | some flag =>
        if before.any (·.1 = flag) then none else readSwitches on (before ++ [(flag, on)]) rest
      | none => none

/-- Whether a text names a group. -/
def isGroupName : List Char → Bool
  | [] => false
  | c :: rest =>
    (c = '_' || Letters.isLetter c)
      && rest.all (fun c => "_.[]".toList.contains c || Letters.isLetterOrNumber c)

/-- What a parenthesis begins. -/
inductive Opening where
  | group (flags : PatternSwitches) (name : Option String)
  /-- Switches for the rest of the group around. -/
  | switches (flags : PatternSwitches)

/-- The opening of a group with a name, from the name on. -/
def readName (cs : List Char) : Option (Opening × List Char) :=
  let name := cs.takeWhile (· ≠ '>')
  match cs.drop name.length with
  | _ :: rest => if isGroupName name then some (.group [] (String.ofList name), rest) else none
  | [] => none

/-- What a parenthesis begins, from the character after it. -/
def readOpening : List Char → Option (Opening × List Char)
  | '?' :: 'P' :: '<' :: rest => readName rest
  | '?' :: '<' :: rest => readName rest
  | '?' :: rest =>
    match readSwitches true [] rest with
    | some (flags, ':' :: rest) => some (.group flags none, rest)
    | some (flags, _ :: rest) => if flags.isEmpty then none else some (.switches flags, rest)
    | _ => none
  | cs => some (.group [] none, cs)

/-- A pattern that is read up to here, with the names of its groups and the groups open
around. -/
def read : (fuel : Nat) → (verbose : Bool) → (names : List String) → Branches →
    (around : List OpenGroup) → List Char → Option Pattern
  | 0, _, _, _, _, _ => none
  | fuel + 1, verbose, names, here, around, cs =>
    match skip verbose cs with
    | [] => if around.isEmpty then some here.all else none
    | c :: rest =>
      match c with
      | '(' =>
        match readOpening (skip verbose rest) with
        | none => none
        | some (.switches flags, rest) =>
          read fuel (flags.state .verbose verbose) names (here.add (.switches flags)) around rest
        | some (.group flags name, rest) =>
          if name.any names.contains then none
          else
            read fuel (flags.state .verbose verbose) (name.toList ++ names) {}
              (⟨flags, here, verbose⟩ :: around) rest
      | ')' =>
        match around with
        | [] => none
        | g :: around =>
          read fuel g.verboseOutside names (g.outside.add (.group g.flags here.all)) around rest
      | '|' => read fuel verbose names here.split around rest
      | '*' | '+' | '?' =>
        match here.row with
        | p :: before =>
          if p.isRepeatable then
            read fuel verbose names { here with row := .repeated p :: before } around
              (if rest.head? = some '?' then rest.drop 1 else rest)
          else none
        | [] => none
      | '\x7b' => none
      | '[' =>
        match CharSet.ofText? verbose rest with
        | some (set, rest) => read fuel verbose names (here.add (.oneOf set)) around rest
        | none => none
      | '\\' =>
        match readEscape verbose rest with
        | some (a, rest) => read fuel verbose names (here.add (.atom a)) around rest
        | none => none
      | '.' => read fuel verbose names (here.add (.atom .any)) around rest
      | '^' | '$' => read fuel verbose names (here.add (.atom .edge)) around rest
      | c => read fuel verbose names (here.add (.atom (.char ⟨c, false⟩))) around rest

def ofText? (cs : List Char) : Option Pattern := read (cs.length + 1) false [] {} [] cs

end Pattern

end TableStore
