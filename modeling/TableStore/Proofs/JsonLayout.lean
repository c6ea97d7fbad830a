import TableStore.Proofs.JsonText

/-!
# JSON however it is laid out

A piece of JSON is a row of tokens (`Printed.tokens`): brackets, commas, colons, words, numbers and
quoted texts. Blanks may stand between them and do not matter, so one piece has many texts, those
in which its tokens follow each other with nothing else than blanks between (`Printed.LaidOut`).
What the library prints is the one without any blank (`laidOut_render`); a file that somebody wrote
by hand may have one member on a line.

Reading is followed token by token. A reader takes the tokens of a value if it returns the value
and stops where the token behind it is still to come (`Takes`). This is put together like the
readers are: what takes a value can be what a variant holds (`takes_holding`).
-/

namespace TableStore.Json

/-- A bracket, a comma, a colon, a word, a number or a quoted text. -/
abbrev Token := List Char

namespace Printed

/-- What stands between two items of a list or an object, and not before the first. -/
def comma (first : Bool) : List Token := if first then [] else [[',']]

/-- The tokens of a piece of JSON. -/
def tokens : Printed → List Token
  | null => ["null".toList]
  | bool b => [(toString b).toList]
  | number n => [(toString n).toList]
  | text s => [(quote s).toList]
  | list items => ['['] :: (itemTokens true items ++ [[']']])
  | object members => ['\x7b'] :: (memberTokens true members ++ [['\x7d']])
where
  /-- The tokens of items, with what separates them. -/
  itemTokens : (first : Bool) → List Printed → List Token
    | _, [] => []
    | first, item :: rest => comma first ++ (item.tokens ++ itemTokens false rest)
  /-- The tokens of members, with what separates them. -/
  memberTokens : (first : Bool) → List (String × Printed) → List Token
    | _, [] => []
    | first, (name, item) :: rest =>
      comma first ++ ((quote name).toList :: [':'] :: (item.tokens ++ memberTokens false rest))

/-! ## What is printed -/

/-- Texts with commas between them, and before the first one where others went ahead. -/
def commaSeparated : (first : Bool) → List String → List Char
  | _, [] => []
  | first, t :: ts => (comma first).flatten ++ (t.toList ++ commaSeparated false ts)

theorem toList_intercalate_comma (ts : List String) :
    (String.intercalate "," ts).toList = commaSeparated true ts := by
  induction ts with
  | nil => rfl
  | cons t ts ih =>
      cases ts with
      | nil => simp [commaSeparated, comma]
      | cons u us =>
          rw [String.intercalate_cons_cons, String.toList_append, String.toList_append, ih]
          simp [commaSeparated, comma]

mutual

/-- **What is printed is the tokens** and nothing between them. -/
theorem toList_render : (v : Printed) → v.render.toList = v.tokens.flatten
  | null => rfl
  | bool b => (List.flatten_singleton).symm
  | number n => (List.flatten_singleton).symm
  | text s => (List.flatten_singleton).symm
  | list items => by
      rw [render, tokens, String.toList_append, String.toList_append, toList_intercalate_comma,
        ← flatten_itemTokens true items]
      simp
  | object members => by
      rw [render, tokens, String.toList_append, String.toList_append, toList_intercalate_comma,
        ← flatten_memberTokens true members]
      simp

theorem flatten_itemTokens : (first : Bool) → (items : List Printed) →
    (tokens.itemTokens first items).flatten = commaSeparated first (render.renderItems items)
  | _, [] => rfl
  | first, item :: rest => by
      rw [tokens.itemTokens, render.renderItems, commaSeparated, toList_render item,
        ← flatten_itemTokens false rest]
      simp

theorem flatten_memberTokens : (first : Bool) → (members : List (String × Printed)) →
    (tokens.memberTokens first members).flatten
      = commaSeparated first (render.renderMembers members)
  | _, [] => rfl
  | first, (name, item) :: rest => by
      rw [tokens.memberTokens, render.renderMembers, commaSeparated, String.toList_append,
        String.toList_append, toList_render item, ← flatten_memberTokens false rest]
      simp

end

end Printed

/-! ## Blanks between tokens -/

/-- Tokens one after the other, with any blanks before each of them and behind the last. -/
inductive Spaced : List Token → List Char → Prop where
  | done {blanks : List Char} : blanks.all isBlank = true → Spaced [] blanks
  | next {blanks rest : List Char} {t : Token} {ts : List Token} :
      blanks.all isBlank = true → Spaced ts rest → Spaced (t :: ts) (blanks ++ (t ++ rest))

/-- A text spells a piece of JSON, with blanks between its tokens as its writer liked. -/
def Printed.LaidOut (v : Printed) (text : String) : Prop := Spaced v.tokens text.toList

theorem spaced_flatten (ts : List Token) : Spaced ts ts.flatten := by
  induction ts with
  | nil => exact .done rfl
  | cons t ts ih => exact @Spaced.next [] ts.flatten t ts rfl ih

/-- What is printed is laid out without blanks. -/
theorem Printed.laidOut_render (v : Printed) : v.LaidOut v.render := by
  unfold LaidOut
  rw [toList_render]
  exact spaced_flatten v.tokens

namespace Spaced

variable {ts : List Token} {input : List Char}

theorem length_le (h : Spaced ts input) : ts.flatten.length ≤ input.length := by
  induction h with
  | done _ => exact Nat.zero_le _
  | next _ _ ih =>
      simp only [List.flatten_cons, List.length_append]
      omega

/-- Behind the last token is nothing but blanks. -/
theorem dropBlanks_done (h : Spaced [] input) : Json.dropBlanks input = [] := by
  cases h with
  | done hblanks =>
      unfold Json.dropBlanks
      rw [← List.append_nil input, List.dropWhile_append_of_pos (List.all_eq_true.mp hblanks)]
      rfl

/-- Past the blanks stands the next token. -/
theorem dropBlanks {c : Char} {cs : Token} (hc : isBlank c = false)
    (h : Spaced ((c :: cs) :: ts) input) :
    ∃ rest, Json.dropBlanks input = c :: (cs ++ rest) ∧ Spaced ts rest := by
  cases h with
  | next hblanks hrest =>
      refine ⟨_, ?_, hrest⟩
      unfold Json.dropBlanks
      rw [List.dropWhile_append_of_pos (List.all_eq_true.mp hblanks), List.cons_append,
        List.dropWhile_cons_of_neg (by rw [hc]; decide)]

/-- A quoted text comes next: its quote, and then what reads as the text. -/
theorem quoted {s : String} (h : Spaced ((quote s).toList :: ts) input) :
    ∃ behind rest, Json.dropBlanks input = '"' :: behind ∧ readText behind = .ok (s, rest)
      ∧ Spaced ts rest := by
  have hquote : (quote s).toList = '"' :: (s.toList.flatMap escapeChar ++ ['"']) := by
    unfold quote quoteChars
    exact String.toList_ofList
  rw [hquote] at h
  obtain ⟨rest, hdrop, hrest⟩ := h.dropBlanks rfl
  rw [List.append_assoc, List.singleton_append] at hdrop
  exact ⟨_, rest, hdrop, readText_escaped s rest, hrest⟩

end Spaced

/-! ## Parts of an object -/

theorem readColon_spaced {ts : List Token} {input : List Char} (h : Spaced ([':'] :: ts) input) :
    ∃ rest, readColon input = .ok ((), rest) ∧ Spaced ts rest := by
  obtain ⟨rest, hdrop, hrest⟩ := h.dropBlanks rfl
  refine ⟨rest, ?_, hrest⟩
  unfold readColon
  rw [hdrop]
  rfl

theorem readName?_spaced (first : Bool) {name : String} {ts : List Token} {input : List Char}
    (h : Spaced (Printed.comma first ++ (quote name).toList :: ts) input) :
    ∃ rest, readName? first input = .ok (some name, rest) ∧ Spaced ts rest := by
  cases first with
  | true =>
      obtain ⟨behind, rest, hdrop, htext, hrest⟩ := Spaced.quoted h
      refine ⟨rest, ?_, hrest⟩
      unfold readName?
      simp [hdrop, htext, Except.map]
  | false =>
      have hin : Spaced ([','] :: (quote name).toList :: ts) input := h
      obtain ⟨input', hcomma, hname⟩ := hin.dropBlanks rfl
      obtain ⟨behind, rest, hdrop, htext, hrest⟩ := hname.quoted
      refine ⟨rest, ?_, hrest⟩
      unfold readName?
      simp [hcomma, hdrop, htext, Except.map]

theorem readName?_end (first : Bool) {ts : List Token} {input : List Char}
    (h : Spaced (['\x7d'] :: ts) input) :
    ∃ rest, readName? first input = .ok (none, rest) ∧ Spaced ts rest := by
  obtain ⟨rest, hdrop, hrest⟩ := h.dropBlanks rfl
  refine ⟨rest, ?_, hrest⟩
  unfold readName?
  rw [hdrop]
  rfl

/-! ## Values -/

/-- What comes next is what may stand behind the value of a member. -/
def EndsValue : List Token → Prop
  | [] => False
  | t :: _ => t = [','] ∨ t = ['\x7d']

/-- A reader takes tokens for a value, and stops in front of what follows. -/
def Takes {α : Type} (read : Reader α) (ts : List Token) (v : α) : Prop :=
  ∀ (after : List Token) (input : List Char), EndsValue after → Spaced (ts ++ after) input →
    ∃ rest, read input = .ok (v, rest) ∧ Spaced after rest

section Takes

variable {α β : Type} {v : α} {ts : List Token}

theorem Takes.map {read : Reader α} (h : Takes read ts v) (f : α → β) :
    Takes (fun input => (read input).map (fun (v, rest) => (f v, rest))) ts (f v) := by
  intro after input hends hin
  obtain ⟨rest, hread, hrest⟩ := h after input hends hin
  refine ⟨rest, ?_, hrest⟩
  dsimp only
  rw [hread]
  rfl

theorem takes_text (expected s : String) :
    Takes (readTextOr expected) (Printed.text s).tokens s := by
  intro after input _ hin
  obtain ⟨behind, rest, hdrop, htext, hrest⟩ := Spaced.quoted hin
  refine ⟨rest, ?_, hrest⟩
  unfold readTextOr
  rw [hdrop]
  exact htext

theorem takes_bool (b : Bool) : Takes readBool (Printed.bool b).tokens b := by
  intro after input _ hin
  cases b with
  | true =>
      have hword : Spaced (('t' :: "rue".toList) :: after) input := hin
      obtain ⟨rest, hdrop, hrest⟩ := hword.dropBlanks rfl
      refine ⟨rest, ?_, hrest⟩
      unfold readBool
      rw [hdrop]
      rfl
  | false =>
      have hword : Spaced (('f' :: "alse".toList) :: after) input := hin
      obtain ⟨rest, hdrop, hrest⟩ := hword.dropBlanks rfl
      refine ⟨rest, ?_, hrest⟩
      unfold readBool
      rw [hdrop]
      rfl

theorem EndsValue.endsNumber {after : List Token} {rest : List Char} (h : EndsValue after)
    (hrest : Spaced after rest) : EndsNumber rest := by
  have hmark : ∀ c, c = ',' ∨ c = '\x7d' ∨ isBlank c = true →
      isDigit c = false ∧ c ≠ '.' ∧ c ≠ 'e' ∧ c ≠ 'E' := by
    intro c hc
    simp only [isBlank, Bool.or_eq_true, decide_eq_true_eq] at hc
    rcases hc with rfl | rfl | ((rfl | rfl) | rfl) | rfl <;> decide
  intro c hc
  -- in front stands a blank, if there are any, and the first character of the next token otherwise
  cases hrest with
  | done _ => exact absurd h (by simp [EndsValue])
  | @next blanks rest t ts hblanks _ =>
      cases blanks with
      | nil =>
          rcases h with rfl | rfl
          · exact hmark c (Or.inl (Option.some.inj hc).symm)
          · exact hmark c (Or.inr (Or.inl (Option.some.inj hc).symm))
      | cons b blanks =>
          have hb := List.all_eq_true.mp hblanks b List.mem_cons_self
          obtain rfl := Option.some.inj hc
          exact hmark b (Or.inr (Or.inr hb))

theorem not_blank_of_isDigit {c : Char} (h : c.isDigit = true) : isBlank c = false ∧ c ≠ '-' := by
  constructor
  · refine Bool.eq_false_iff.mpr (fun hblank => ?_)
    simp only [isBlank, Bool.or_eq_true, decide_eq_true_eq] at hblank
    rcases hblank with ((rfl | rfl) | rfl) | rfl <;> exact absurd h (by decide)
  · intro hsign
    subst hsign
    exact absurd h (by decide)

theorem takes_number {n : Nat} (h : n ≤ maxWord) :
    Takes readWord64 (Printed.number n).tokens n := by
  intro after input hends hin
  have hdigits : (toString n).toList = Nat.toDigits 10 n := Nat.toList_repr
  have hin' : Spaced (Nat.toDigits 10 n :: after) input := hdigits ▸ hin
  obtain ⟨c, ds, hds⟩ := List.exists_cons_of_ne_nil (Nat.toDigits_ne_nil : Nat.toDigits 10 n ≠ [])
  have hc : c.isDigit = true :=
    Nat.isDigit_of_mem_toDigits (by decide) (by decide)
      (hds ▸ List.mem_cons_self : c ∈ Nat.toDigits 10 n)
  obtain ⟨hblank, hsign⟩ := not_blank_of_isDigit hc
  rw [hds] at hin'
  obtain ⟨rest, hdrop, hrest⟩ := hin'.dropBlanks hblank
  have hnumber := readNumber_toDigits h (hends.endsNumber hrest)
  rw [hds, List.cons_append] at hnumber
  refine ⟨rest, ?_, hrest⟩
  unfold readWord64
  rw [hdrop]
  dsimp only
  rw [if_neg hsign, if_pos ((isDigit_eq c).trans hc), hnumber]

/-! ## Variants -/

variable {bare : String → Except Error α} {holding : String → Except Error (Reader α)}
  {name : String}

theorem takes_bare (h : bare name = .ok v) :
    Takes (readVariant bare holding) (Printed.text name).tokens v := by
  intro after input _ hin
  obtain ⟨behind, rest, hdrop, htext, hrest⟩ := Spaced.quoted hin
  refine ⟨rest, ?_, hrest⟩
  unfold readVariant
  simp [hdrop, htext, h, Except.map]

theorem takes_holding {read : Reader α} {item : Printed} (h : holding name = .ok read)
    (hread : Takes read item.tokens v) :
    Takes (readVariant bare holding) (Printed.object [(name, item)]).tokens v := by
  intro after input _ hin
  have htokens : (Printed.object [(name, item)]).tokens ++ after
      = ['\x7b'] :: (quote name).toList :: [':'] :: (item.tokens ++ ['\x7d'] :: after) := by
    simp [Printed.tokens, Printed.tokens.memberTokens, Printed.comma]
  rw [htokens] at hin
  -- the bracket, the name, the colon, the value and the other bracket, one after the other
  obtain ⟨inside, hopen, hinside⟩ := hin.dropBlanks rfl
  obtain ⟨behindName, hname, hbehindName⟩ := readName?_spaced true hinside
  obtain ⟨behindColon, hcolon, hbehindColon⟩ := readColon_spaced hbehindName
  obtain ⟨behindValue, hvalue, hbehindValue⟩ :=
    hread (['\x7d'] :: after) behindColon (Or.inr rfl) hbehindColon
  obtain ⟨rest, hclose, hrest⟩ := hbehindValue.dropBlanks rfl
  refine ⟨rest, ?_, hrest⟩
  unfold readVariant
  simp [hopen, hname, h, hcolon, hvalue, hclose]

end Takes

end TableStore.Json
