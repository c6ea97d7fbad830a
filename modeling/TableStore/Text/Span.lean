/-!
# Ranges of code points

Properties of characters are given by the ranges of code points that have them.
-/

namespace TableStore

/-- Code points from the first to the second. -/
abbrev Span := Nat × Nat

/-- Whether some span holds a code point. -/
def Span.anyHolds (spans : Array Span) (n : Nat) : Bool :=
  spans.any (fun s => s.1 ≤ n && n ≤ s.2)

end TableStore
