import TableStore.Event.Basic
import TableStore.Pattern.Check
import TableStore.Text.Letters
import TableStore.Text.Utf8

/-!
# Which events are shown

A filter is a list of directives between commas. The parts of a directive are all
optional: a target, which stands for every target that begins with it; a span in
brackets and in it, between braces, a test of a field; and after an equality sign the
most talkative level that is shown. A level may also stand alone.

    warn
    nova_store=debug
    nova_store[{puts}]=off
    [request{id=7}]=trace

Of the directives that fit an event the most specific one decides
(`Directive.givesWay`); without one the event is not shown. The events of this library
stand in no span, so a directive for a span, or for the content of a span's field, fits
none of them.
-/

namespace TableStore

/-- A test of a field: that it is there, or that its content matches. -/
structure FieldTest where
  name : String
  /-- What the content has to match. Spans alone are asked for it. -/
  content : Option String
  deriving DecidableEq, Repr

structure Directive where
  /-- What targets begin with; the empty target stands for all. -/
  target : String
  /-- The span that events stand in. -/
  span : Option String := none
  /-- The field that events have. -/
  field : Option FieldTest := none
  /-- The most talkative level that is shown; `none` shows nothing. -/
  most : Option Level
  deriving DecidableEq, Repr

/-- Directives in the order in which they were given. -/
abbrev EventFilter := List Directive

/-! ## Reading levels and tests -/

namespace FieldTest

/-- Whether a text is a positive decimal number, of which a sign was read. -/
def isNumber (cs : List Char) : Bool :=
  let word := String.ofList (cs.map Char.toLower)
  let afterWhole := cs.dropWhile Char.isDigit
  let (fraction, rest) : List Char × List Char :=
    match afterWhole with
    | '.' :: rest => (rest.takeWhile Char.isDigit, rest.dropWhile Char.isDigit)
    | _ => ([], afterWhole)
  let digits := cs.takeWhile Char.isDigit ++ fraction
  let isExponent (cs : List Char) : Bool := cs ≠ [] && cs.all Char.isDigit
  word = "inf" || word = "infinity" || word = "nan" ||
    (digits ≠ [] && match rest with
      | [] => true
      | e :: '+' :: rest => (e = 'e' || e = 'E') && isExponent rest
      | e :: '-' :: rest => (e = 'e' || e = 'E') && isExponent rest
      | e :: rest => (e = 'e' || e = 'E') && isExponent rest)

/-- Whether a content can be matched: it is a pattern, as most numbers are, or a number
with a plus in front. -/
def isMatchable (content : String) : Bool :=
  match content.toList with
  | '+' :: rest => isNumber rest
  | cs => Pattern.isPattern cs

/-- The test of a text, if it is one. What follows a second equality sign counts for
nothing. -/
def ofText? (text : String) : Option FieldTest :=
  match text.splitOn "=" with
  | name :: content :: _ => if isMatchable content then some ⟨name, some content⟩ else none
  | _ => some ⟨text, none⟩

end FieldTest

namespace Directive

/-- The number of some digits, which a plus may precede. -/
def numberOf? (name : String) : Option Nat :=
  let digits := match name.toList with
    | '+' :: rest => rest
    | cs => cs
  if digits ≠ [] && digits.all Char.isDigit then
    some (digits.foldl (fun n c => n * 10 + (c.toNat - 48)) 0)
  else none

/-- The level of a name of either case, or of a number. The outer `none` is for other
names, the inner one for showing nothing. -/
def levelOf? (name : String) : Option (Option Level) :=
  let lower := name.map Char.toLower
  let number := numberOf? name
  if lower = "off" || number = some 0 then some none
  else if lower = "error" || number = some 1 then some (some .error)
  else if lower = "warn" || number = some 2 then some (some .warn)
  else if lower = "info" || number = some 3 then some (some .info)
  else if lower = "debug" || number = some 4 then some (some .debug)
  else if lower = "trace" || number = some 5 then some (some .trace)
  else none

/-! ## Reading directives -/

/-- Where the parts of a directive are, as counts of bytes. -/
structure Outline where
  target : Option (Nat × Nat) := none
  span : Option (Nat × Nat) := none
  field : Option (Nat × Nat) := none
  /-- Where the level begins; it goes on to the end. -/
  level : Option Nat := none

/-- Number of bytes of some characters. -/
def bytesOf (cs : List Char) : Nat := (cs.map Char.utf8Size).foldr (· + ·) 0

/-- A character that a target or a level may begin with. -/
def isStart (c : Char) : Bool :=
  c = '-' || c = ':' || c = '_' || Letters.isLetterOrNumber c

/-- The end of an outline, after a bracket or at the very end. -/
def outlineEnd (o : Outline) (start : Nat) : List Char → Option Outline
  | [] => some o
  | '=' :: _ => some { o with level := some (start + 1) }
  | _ => none

/-- The outline of a span, after its bracket. -/
def outlineSpan (o : Outline) (start : Nat) (input : List Char) : Option Outline :=
  let name := input.takeWhile (fun c => c ≠ ']' && c ≠ '\x7b')
  let stop := start + bytesOf name
  match input.drop name.length with
  | ']' :: rest => outlineEnd { o with span := some (start, stop) } (stop + 1) rest
  | '\x7b' :: rest =>
    let field := rest.takeWhile (· ≠ '\x7d')
    let fieldStop := stop + 1 + bytesOf field
    let o := { o with
      span := if name = [] then none else some (start, stop)
      field := some (stop + 1, fieldStop) }
    match rest.drop field.length with
    | '\x7d' :: ']' :: rest => if field = [] then none else outlineEnd o (fieldStop + 2) rest
    | _ => none
  | _ => none

/-- The outline of a directive. It has no part if the directive is a word alone. -/
def outline? (input : List Char) : Option Outline :=
  match input with
  | [] => none
  | '[' :: rest => outlineSpan {} 1 rest
  | c :: _ =>
    if !isStart c then none
    else
      let word := input.takeWhile (fun c => c ≠ '=' && c ≠ '[')
      let stop := bytesOf word
      match input.drop word.length with
      | [] => some {}
      | '[' :: rest => outlineSpan { target := some (0, stop) } (stop + 1) rest
      | _ => some { target := some (0, stop), level := some (stop + 1) }

/-- A stretch of the bytes of a text; there is none if it splits a character. -/
def cut? (text : String) (stretch : Nat × Nat) : Option String :=
  (Utf8.decode (((Utf8.encode text).drop stretch.1).take (stretch.2 - stretch.1))).toOption

def cutOptional? (text : String) : (stretch : Option (Nat × Nat)) → Option (Option String)
  | none => some none
  | some stretch => (cut? text stretch).map some

/-- The directive of a text, if it is one. The blanks around it are no part of its
outline, but its parts are cut out as if the first blank were its first character: with
a blank in front they are shifted, and a level or a target alone keeps its blanks. -/
def ofText? (text : String) : Option Directive := do
  let o ← outline? (Letters.trim text.toList)
  let target ← cutOptional? text o.target
  let span ← cutOptional? text o.span
  let field ← match ← cutOptional? text o.field with
    | none => pure none
    | some test => (FieldTest.ofText? test).map some
  let most ← match ← cutOptional? text (o.level.map (fun start => (start, text.utf8ByteSize))) with
    | none => pure (some Level.trace)
    | some name => if name = "" then pure (some Level.trace) else levelOf? name
  if target.isNone && span.isNone && field.isNone && o.level.isNone then
    match levelOf? text with
    | some most => return { target := "", most := most }
    | none => return { target := text, most := some .trace }
  return { target := target.getD "", span := span, field := field, most := most }

/-! ## Deciding -/

def fits (d : Directive) (e : Event) : Bool :=
  d.span.isNone && d.target.toList.isPrefixOf e.target.toList
    && match d.field with
      | none => true
      | some test => test.content.isNone && e.fieldNames.contains test.name

/-- Whether a directive gives way to another: to one with a longer target, or with a
test of a field where it has none, or with a later name of the field. Of two that are
alike in all that the earlier gives way. Both are taken to fit one event, so targets of
one length are the same. -/
def givesWay (a b : Directive) : Bool :=
  if a.target.length = b.target.length then
    match a.field, b.field with
    | none, _ => true
    | some _, none => false
    | some x, some y => x.name ≤ y.name
  else a.target.length < b.target.length

end Directive

namespace EventFilter

/-- The filter of a text, or `none` if a directive of it is wrong. A text without
directives shows errors. -/
def parse? (text : String) : Option EventFilter :=
  let pieces := (text.splitOn ",").filter (· ≠ "")
  if pieces.isEmpty then some [{ target := "", most := some .error }]
  else pieces.mapM Directive.ofText?

def decisive? (filter : EventFilter) (e : Event) : Option Directive :=
  (filter.filter (·.fits e)).foldl
    (fun best d => some (best.elim d (fun b => if b.givesWay d then d else b))) none

def shows (filter : EventFilter) (e : Event) : Bool :=
  match (filter.decisive? e).bind Directive.most with
  | some most => e.level.rank ≤ most.rank
  | none => false

/-- The filter of a program that was given none, or a wrong one. -/
def standard : EventFilter :=
  [{ target := "nova_storectl", most := some .info },
    { target := "nova_store", most := some .warn }]

def ofText? (text : Option String) : EventFilter :=
  match text with
  | none => standard
  | some text => (parse? text).getD standard

end EventFilter

end TableStore
