/-!
# Patterns

The parts of regular expressions. Nothing in this library matches one, but a filter may
hold one, and a filter with a text that is no pattern is wrong as a whole. So what counts
here is which texts are patterns: how they are read, how deep they nest
(`Pattern.depth`), and what their settings allow.

A class is a set of characters in brackets, put together by set operations (`CharSet`).
Around classes stands the pattern itself: characters, places and classes, in rows and in
alternatives, repeated and grouped. Counted repetition is no part of it, since a filter
ends a pattern at a brace.
-/

namespace TableStore

/-! ## Settings -/

/-- What a letter in a group's opening switches on or off. -/
inductive PatternFlag where
  | ignoreCase
  | manyLines
  | dotMatchesNewline
  | swapGreed
  | carriageReturns
  | unicode
  /-- Blanks and comments are no part of the pattern. -/
  | verbose
  deriving DecidableEq, Repr

namespace PatternFlag

/-- The flag of a letter. -/
def ofChar? : Char → Option PatternFlag
  | 'i' => some ignoreCase
  | 'm' => some manyLines
  | 's' => some dotMatchesNewline
  | 'U' => some swapGreed
  | 'R' => some carriageReturns
  | 'u' => some unicode
  | 'x' => some verbose
  | _ => none

end PatternFlag

/-- Flags and whether each is switched on. No flag is named twice. -/
abbrev PatternSwitches := List (PatternFlag × Bool)

/-- The state of a flag after switches, from the state before them. -/
def PatternSwitches.state (switches : PatternSwitches) (flag : PatternFlag) (before : Bool) :
    Bool :=
  (switches.lookup flag).getD before

/-! ## Characters -/

structure PatternChar where
  char : Char
  /-- It is spelled as a byte, by two digits. -/
  isByte : Bool := false
  deriving DecidableEq, Repr

/-- The smallest part of a pattern. -/
inductive PatternAtom where
  | char (c : PatternChar)
  /-- Any character, or any but the end of a line. -/
  | any
  /-- The start or the end of the text or of a line. -/
  | edge
  /-- The start or the end of a word, or neither. -/
  | wordBorder
  /-- The digits, the blanks or the letters of words; negated, all other characters. -/
  | kind (negated : Bool)
  deriving DecidableEq, Repr

/-! ## Classes -/

/-- How two sets of characters are put together. -/
inductive SetOperator where
  | intersection
  | difference
  | symmetricDifference
  deriving DecidableEq, Repr

/-- What stands in brackets. -/
inductive CharSet where
  | empty
  | char (c : PatternChar)
  | range (low high : PatternChar)
  /-- One of the classes with a name between colons. -/
  | named (negated : Bool)
  | kind (negated : Bool)
  | union (sets : List CharSet)
  | combined (op : SetOperator) (left right : CharSet)
  /-- A set in brackets of its own. -/
  | bracketed (negated : Bool) (inner : CharSet)

namespace CharSet

/-- The union of sets; one set stands for itself. -/
def ofList : List CharSet → CharSet
  | [] => .empty
  | [set] => set
  | sets => .union sets

mutual

/-- How many unions, operations and brackets stand inside each other. -/
def depth : CharSet → Nat
  | .union sets => depthOfAll sets + 1
  | .combined _ left right => max left.depth right.depth + 1
  | .bracketed _ inner => inner.depth + 1
  | _ => 0

/-- The largest depth of some sets. -/
def depthOfAll : List CharSet → Nat
  | [] => 0
  | set :: sets => max set.depth (depthOfAll sets)

end

end CharSet

/-! ## Patterns -/

/-- A regular expression. -/
inductive Pattern where
  | empty
  | atom (a : PatternAtom)
  /-- A set of characters in brackets. -/
  | oneOf (set : CharSet)
  /-- Switches for the rest of the group around them. -/
  | switches (flags : PatternSwitches)
  | repeated (p : Pattern)
  /-- A group with switches of its own. -/
  | group (flags : PatternSwitches) (p : Pattern)
  /-- Patterns one after another. -/
  | row (ps : List Pattern)
  /-- Patterns one of which has to match. -/
  | choice (ps : List Pattern)

namespace Pattern

/-- Patterns one after another; one pattern stands for itself. -/
def ofRow : List Pattern → Pattern
  | [] => .empty
  | [p] => p
  | ps => .row ps

/-- Alternatives; one pattern stands for itself. -/
def ofChoice : List Pattern → Pattern
  | [] => .empty
  | [p] => p
  | ps => .choice ps

/-- Whether a repetition may follow: what switches flags stands for no text. -/
def isRepeatable : Pattern → Bool
  | .switches _ => false
  | _ => true

mutual

/-- How many repetitions, groups, rows, alternatives and parts of classes stand inside
each other. -/
def depth : Pattern → Nat
  | .oneOf set => set.depth
  | .repeated p => p.depth + 1
  | .group _ p => p.depth + 1
  | .row ps => depthOfAll ps + 1
  | .choice ps => depthOfAll ps + 1
  | _ => 0

/-- The largest depth of some patterns. -/
def depthOfAll : List Pattern → Nat
  | [] => 0
  | p :: ps => max p.depth (depthOfAll ps)

end

end Pattern

end TableStore
