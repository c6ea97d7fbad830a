import TableStore.Json.Reader
import TableStore.Json.Text

/-!
# Texts and numbers that were printed are read back

A text is printed between quotes, with escapes for what could not stand there. Reading undoes one
escape at a time (`readChars_escapeChar`), so it finds the closing quote where the printed text
ends, whatever stands behind it, and gives back the text (`readText_escaped`). A number is printed
in decimal, without a zero in front. Reading gathers its digits and stops at the first character
that cannot belong to a number; up to sixty-four bits nothing is rounded on the way, so the number
is the one that was printed (`readNumber_toDigits`).
-/

namespace TableStore.Json

/-! ## Text -/

theorem hexValue?_hexDigit {n : Nat} (h : n < 16) : hexValue? (hexDigit n) = some n := by
  have hall : (List.range 16).all (fun k => hexValue? (hexDigit k) == some k) = true := by decide
  exact eq_of_beq (List.all_eq_true.mp hall n (List.mem_range.mpr h))

/-- The code point of a control character, as it is printed, is the character's. -/
theorem readCodePoint_control {c : Char} (h : c.toNat < 0x20) (rest : List Char) :
    readCodePoint ('0' :: '0' :: hexDigit (c.toNat / 16) :: hexDigit (c.toNat % 16) :: rest)
      = .ok (c, rest) := by
  have hzero : hexValue? '0' = some 0 := by decide
  have hhigh := hexValue?_hexDigit (n := c.toNat / 16) (by omega)
  have hlow := hexValue?_hexDigit (n := c.toNat % 16) (by omega)
  have hcode : ((0 * 16 + 0) * 16 + c.toNat / 16) * 16 + c.toNat % 16 = c.toNat := by omega
  unfold readCodePoint readHex4
  dsimp only
  rw [hzero, hhigh, hlow]
  dsimp only
  -- below the blank there are no halves of a pair
  rw [hcode, if_neg (by grind), if_neg (by grind), Char.ofNat_toNat]

/-- An escape is read as the character that it was printed for. -/
theorem readChars_escapeChar (c : Char) (fuel : Nat) (rest : List Char) :
    readChars (fuel + 1) (escapeChar c ++ rest)
      = (readChars fuel rest).map (fun (cs, rest) => (c :: cs, rest)) := by
  have hescape : ∀ esc, readEscape esc = .ok (c, rest) →
      readChars (fuel + 1) ('\\' :: esc)
        = (readChars fuel rest).map (fun (cs, rest) => (c :: cs, rest)) := by
    intro esc hesc
    rw [readChars, if_neg (by decide), if_pos rfl, hesc]
  unfold escapeChar
  split
  · exact hescape ('"' :: rest) (by subst_vars; rfl)
  split
  · exact hescape ('\\' :: rest) (by subst_vars; rfl)
  split
  · exact hescape ('b' :: rest) (by subst_vars; rfl)
  split
  · exact hescape ('f' :: rest) (by subst_vars; rfl)
  split
  · exact hescape ('n' :: rest) (by subst_vars; rfl)
  split
  · exact hescape ('r' :: rest) (by subst_vars; rfl)
  split
  · exact hescape ('t' :: rest) (by subst_vars; rfl)
  split
  · rename_i hcontrol
    exact hescape _ (readCodePoint_control hcontrol rest)
  · rename_i hquote hslash _ _ _ _ _ hshown
    rw [List.singleton_append, readChars, if_neg hquote, if_neg hslash, if_neg hshown]

theorem readChars_escaped (s : List Char) {fuel : Nat} (h : s.length < fuel) (rest : List Char) :
    readChars fuel (s.flatMap escapeChar ++ '"' :: rest) = .ok (s, rest) := by
  -- each step undoes the escape of one character, however long the escape is
  induction s generalizing fuel with
  | nil =>
      obtain ⟨fuel, rfl⟩ := Nat.exists_eq_succ_of_ne_zero (Nat.ne_of_gt h)
      rfl
  | cons c s ih =>
      obtain ⟨fuel, rfl⟩ := Nat.exists_eq_succ_of_ne_zero (Nat.ne_zero_of_lt h)
      rw [List.flatMap_cons, List.append_assoc, readChars_escapeChar,
        ih (Nat.lt_of_succ_lt_succ h)]
      rfl

theorem length_le_escaped (s : List Char) : s.length ≤ (s.flatMap escapeChar).length := by
  have hone : ∀ c, 1 ≤ (escapeChar c).length := by
    intro c
    unfold escapeChar
    (repeat' split) <;> simp
  induction s with
  | nil => exact Nat.le_refl 0
  | cons c s ih =>
      have hc := hone c
      rw [List.flatMap_cons, List.length_append, List.length_cons]
      omega

/-- **A printed text is read back,** whatever stands behind its closing quote. -/
theorem readText_escaped (s : String) (rest : List Char) :
    readText (s.toList.flatMap escapeChar ++ '"' :: rest) = .ok (s, rest) := by
  have hfuel : s.toList.length
      < (s.toList.flatMap escapeChar ++ '"' :: rest).length + 1 := by
    have hlen := length_le_escaped s.toList
    rw [List.length_append]
    omega
  unfold readText
  rw [readChars_escaped s.toList hfuel]
  exact congrArg (fun t => Except.ok (t, rest)) (String.ofList_toList)

/-! ## Numbers -/

/-- Nothing in front of this text can belong to a number. -/
def EndsNumber (rest : List Char) : Prop :=
  ∀ c ∈ rest.head?, isDigit c = false ∧ c ≠ '.' ∧ c ≠ 'e' ∧ c ≠ 'E'

theorem finishWhole_of_endsNumber {rest : List Char} (h : EndsNumber rest) (n : Nat) :
    finishWhole true n rest = .ok (.whole n, rest) := by
  cases rest with
  | nil => rfl
  | cons c rest =>
      obtain ⟨_, hpoint, he, hE⟩ := h c rfl
      unfold finishWhole
      split
      · rename_i heq
        exact absurd (List.cons.inj heq).1 hpoint
      · rename_i heq
        exact absurd (List.cons.inj heq).1 he
      · rename_i heq
        exact absurd (List.cons.inj heq).1 hE
      · rfl

theorem isDigit_eq (c : Char) : isDigit c = c.isDigit := rfl

theorem le_ofDigitChars (ds : List Char) (n : Nat) : n ≤ Nat.ofDigitChars 10 ds n := by
  rw [Nat.ofDigitChars_eq_ofDigitChars_zero]
  exact Nat.le_trans (Nat.le_mul_of_pos_left n (Nat.pow_pos (by decide))) (Nat.le_add_right _ _)

/-- Digits whose value fits the word are gathered without a loss. -/
theorem readWhole_digits {ds : List Char} (hds : ∀ c ∈ ds, c.isDigit = true) {n : Nat}
    (hfits : Nat.ofDigitChars 10 ds n ≤ maxWord) {rest : List Char} (hrest : EndsNumber rest) :
    readWhole true n (ds ++ rest) = .ok (.whole (Nat.ofDigitChars 10 ds n), rest) := by
  induction ds generalizing n with
  | nil =>
      rw [List.nil_append, Nat.ofDigitChars_nil]
      cases rest with
      | nil => rfl
      | cons c rest =>
          rw [readWhole, if_neg (by rw [(hrest c rfl).1]; decide),
            finishWhole_of_endsNumber hrest]
  | cons c ds ih =>
      have hc : isDigit c = true := (isDigit_eq c).trans (hds c List.mem_cons_self)
      have hnext : n * 10 + digitValue c = 10 * n + (c.toNat - '0'.toNat) := by
        rw [Nat.mul_comm]
        rfl
      rw [Nat.ofDigitChars_cons] at hfits ⊢
      -- what is gathered so far is at most the whole number, so it never leaves the word
      have hle := Nat.le_trans (le_ofDigitChars ds (10 * n + (c.toNat - '0'.toNat))) hfits
      rw [List.cons_append, readWhole, if_pos hc, hnext]
      dsimp only
      rw [if_neg (Nat.not_lt.mpr hle)]
      exact ih (fun d hd => hds d (List.mem_cons_of_mem c hd)) hfits

/-- No number but zero is printed with a zero in front. -/
theorem head?_toDigits_ne {n : Nat} (h : n ≠ 0) : (Nat.toDigits 10 n).head? ≠ some '0' := by
  induction n using Nat.base_induction 10 (by decide) with
  | single m hm =>
      rw [Nat.toDigits_of_lt_base hm]
      simp [h]
  | digit m k hk hm ih =>
      have hfront := ih (Nat.ne_of_gt hm)
      rw [← Nat.toDigits_append_toDigits (by decide) hm hk]
      obtain ⟨d, ds, hds⟩ := List.exists_cons_of_ne_nil (Nat.toDigits_ne_nil : Nat.toDigits 10 m ≠ [])
      rw [hds] at hfront ⊢
      exact hfront

/-- **A printed number is read back,** if it fits sixty-four bits. -/
theorem readNumber_toDigits {n : Nat} (h : n ≤ maxWord) {rest : List Char}
    (hrest : EndsNumber rest) :
    readNumber true (Nat.toDigits 10 n ++ rest) = .ok (.whole n, rest) := by
  by_cases hzero : n = 0
  · subst hzero
    rw [Nat.toDigits_zero, List.singleton_append]
    unfold readNumber
    dsimp only
    rw [if_pos rfl]
    cases rest with
    | nil => rfl
    | cons c rest =>
        dsimp only
        rw [if_neg (by rw [(hrest c rfl).1]; decide), finishWhole_of_endsNumber hrest]
  · -- the first digit is not a zero, and all that follow are gathered behind it
    have hdigits : ∀ c ∈ Nat.toDigits 10 n, c.isDigit = true :=
      fun c hc => Nat.isDigit_of_mem_toDigits (by decide) (by decide) hc
    have hvalue : Nat.ofDigitChars 10 (Nat.toDigits 10 n) 0 = n := Nat.ofDigitChars_ten_toDigits
    have hhead := head?_toDigits_ne hzero
    obtain ⟨c, ds, hds⟩ := List.exists_cons_of_ne_nil (Nat.toDigits_ne_nil : Nat.toDigits 10 n ≠ [])
    rw [hds] at hdigits hvalue hhead ⊢
    have hc : isDigit c = true := (isDigit_eq c).trans (hdigits c List.mem_cons_self)
    have hfirst : 10 * 0 + (c.toNat - '0'.toNat) = digitValue c := Nat.zero_add _
    rw [Nat.ofDigitChars_cons, hfirst] at hvalue
    rw [List.cons_append]
    unfold readNumber
    dsimp only
    rw [if_neg (fun he => hhead (congrArg some he)), if_pos hc,
      readWhole_digits (fun d hd => hdigits d (List.mem_cons_of_mem c hd)) (hvalue ▸ h) hrest,
      hvalue]

end TableStore.Json
