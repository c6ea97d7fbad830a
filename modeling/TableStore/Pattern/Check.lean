import TableStore.Pattern.Reader

/-!
# Which patterns can be matched

Patterns are matched without tables of the properties of characters. So with Unicode
switched on, a pattern is refused that needs one: for a kind of characters, the border of
a word, or letters of either case. And what matches has to be whole characters. So with
Unicode switched off, a pattern is refused that could match bytes beyond ASCII.

Switches last to the end of the group around them (`Pattern.after?`), also in the
alternatives that follow.
-/

namespace TableStore

/-- The settings that decide what a pattern may hold. -/
structure PatternSettings where
  unicode : Bool := true
  ignoreCase : Bool := false
  deriving DecidableEq, Repr

namespace PatternSettings

def after (s : PatternSettings) (switches : PatternSwitches) : PatternSettings where
  unicode := switches.state .unicode s.unicode
  ignoreCase := switches.state .ignoreCase s.ignoreCase

/-- Whether an atom may be matched. -/
def allowsAtom (s : PatternSettings) : PatternAtom → Bool
  | .char c => if s.unicode then !s.ignoreCase else !c.isByte || c.char.toNat < 128
  | .any => s.unicode
  | .edge => true
  | .wordBorder => !s.unicode
  | .kind negated => !s.unicode && !negated

end PatternSettings

namespace CharSet

mutual

/-- Whether a set holds the bytes beyond ASCII. It holds all of them or none, if it may be
matched without Unicode. -/
def reachesBytes : CharSet → Bool
  | .named negated => negated
  | .union sets => anyReachesBytes sets
  | .combined .intersection left right => left.reachesBytes && right.reachesBytes
  | .combined .difference left right => left.reachesBytes && !right.reachesBytes
  | .combined .symmetricDifference left right => left.reachesBytes != right.reachesBytes
  | .bracketed negated inner => inner.reachesBytes != negated
  | _ => false

/-- Whether one of some sets holds the bytes beyond ASCII. -/
def anyReachesBytes : List CharSet → Bool
  | [] => false
  | set :: sets => set.reachesBytes || anyReachesBytes sets

end

mutual

/-- Whether a set may be matched. -/
def isAllowed (s : PatternSettings) : CharSet → Bool
  | .empty => true
  | .char c => if s.unicode then !s.ignoreCase else c.char.toNat < 128
  | .range low high =>
    if s.unicode then !s.ignoreCase else low.char.toNat < 128 && high.char.toNat < 128
  | .named _ => !s.unicode || !s.ignoreCase
  | .kind negated => !s.unicode && !negated
  | .union sets => areAllowed s sets
  | .combined _ left right => left.isAllowed s && right.isAllowed s
  | .bracketed negated inner =>
    inner.isAllowed s && (s.unicode || inner.reachesBytes == negated)

/-- Whether some sets may be matched. -/
def areAllowed (s : PatternSettings) : List CharSet → Bool
  | [] => true
  | set :: sets => set.isAllowed s && areAllowed s sets

end

end CharSet

namespace Pattern

mutual

/-- The settings after a pattern, if it may be matched. -/
def after? (s : PatternSettings) : Pattern → Option PatternSettings
  | .empty => some s
  | .atom a => if s.allowsAtom a then some s else none
  | .oneOf set => if set.isAllowed s then some s else none
  | .switches flags => some (s.after flags)
  | .repeated p => after? s p
  | .group flags p => (after? (s.after flags) p).map (fun _ => s)
  | .row ps => afterAll? s ps
  | .choice ps => afterAll? s ps

/-- The settings after some patterns, if they may be matched. -/
def afterAll? (s : PatternSettings) : List Pattern → Option PatternSettings
  | [] => some s
  | p :: ps =>
    match after? s p with
    | some s => afterAll? s ps
    | none => none

end

/-- A pattern nests no deeper than this. -/
def depthLimit : Nat := 250

/-- Whether a text is a pattern that can be matched. -/
def isPattern (cs : List Char) : Bool :=
  match ofText? cs with
  | some p => p.depth ≤ depthLimit && (after? {} p).isSome
  | none => false

end Pattern

end TableStore
