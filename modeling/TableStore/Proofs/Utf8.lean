import TableStore.Text.Utf8

/-!
# Text is read back from its bytes

`decode_encode`: strict reading undoes writing, for every text. The first byte of a character
says how many bytes follow it, and the rest of the sequence is not looked at before they are
passed over; so it is enough to read one written character at the head of any bytes
(`headChar_encodeChar`).

The four lengths are four cases. In each the second byte needs a word of its own: the short
forms, the surrogates and what lies past the last character are left out by the reader, and a
character is none of them (`toNat_range`).

The converse is `decode_eq_ok_iff`: what is read at all is a text written. Here the words about
the second byte are what keeps a character from having two written forms. Lenient reading replaces
nothing in a written text (`decodeLenient_encode`). The bytes themselves are those that the standard
library has for each character (`encode_eq_flatMap`).
-/

namespace TableStore.Utf8

theorem toNat_range (c : Char) :
    c.toNat < 0xD800 ∨ (0xDFFF < c.toNat ∧ c.toNat < 0x110000) := by
  have h := c.valid
  simp only [UInt32.isValidChar, Nat.isValidChar] at h
  show c.val.toNat < _ ∨ (_ < c.val.toNat ∧ c.val.toNat < _)
  omega

theorem toNat_ofNat_of_lt {n : Nat} (h : n < 256) : (UInt8.ofNat n).toNat = n :=
  UInt8.toNat_ofNat_of_lt' h

/-! ## Bytes that continue a character -/

theorem isTail_iff {b : UInt8} : isTail b = true ↔ 0x80 ≤ b.toNat ∧ b.toNat ≤ 0xBF := by
  simp [isTail, UInt8.le_iff_toNat_le]

theorem isTail_ofNat {k : Nat} (h : k < 64) : isTail (UInt8.ofNat (0x80 + k)) = true := by
  rw [isTail_iff, toNat_ofNat_of_lt (by omega)]
  omega

theorem tailBits_ofNat {k : Nat} (h : k < 64) : tailBits (UInt8.ofNat (0x80 + k)) = k := by
  unfold tailBits
  rw [toNat_ofNat_of_lt (by omega)]
  omega

theorem isSecondOfThree_ofNat {n : Nat} (hlow : 0x800 ≤ n) (hhigh : n < 0x10000)
    (hno : n < 0xD800 ∨ 0xDFFF < n) :
    isSecondOfThree (UInt8.ofNat (0xE0 + n / 4096)) (UInt8.ofNat (0x80 + n / 64 % 64)) = true := by
  have hfirst : (UInt8.ofNat (0xE0 + n / 4096)).toNat = 0xE0 + n / 4096 :=
    toNat_ofNat_of_lt (by omega)
  have hsecond : (UInt8.ofNat (0x80 + n / 64 % 64)).toNat = 0x80 + n / 64 % 64 :=
    toNat_ofNat_of_lt (by omega)
  unfold isSecondOfThree
  split
  · -- no short form
    rename_i he
    have he' : 0xE0 + n / 4096 = 0xE0 := hfirst.symm.trans (congrArg UInt8.toNat he)
    simp only [Bool.and_eq_true, decide_eq_true_eq, UInt8.le_iff_toNat_le, hsecond]
    simp only [UInt8.reduceToNat]
    omega
  · split
    · -- no surrogate
      rename_i he
      have he' : 0xE0 + n / 4096 = 0xED := hfirst.symm.trans (congrArg UInt8.toNat he)
      simp only [Bool.and_eq_true, decide_eq_true_eq, UInt8.le_iff_toNat_le, hsecond]
      simp only [UInt8.reduceToNat]
      omega
    · exact isTail_ofNat (Nat.mod_lt _ (by decide))

theorem isSecondOfFour_ofNat {n : Nat} (hlow : 0x10000 ≤ n) (hhigh : n < 0x110000) :
    isSecondOfFour (UInt8.ofNat (0xF0 + n / 262144)) (UInt8.ofNat (0x80 + n / 4096 % 64))
      = true := by
  have hfirst : (UInt8.ofNat (0xF0 + n / 262144)).toNat = 0xF0 + n / 262144 :=
    toNat_ofNat_of_lt (by omega)
  have hsecond : (UInt8.ofNat (0x80 + n / 4096 % 64)).toNat = 0x80 + n / 4096 % 64 :=
    toNat_ofNat_of_lt (by omega)
  unfold isSecondOfFour
  split
  · rename_i he
    have he' : 0xF0 + n / 262144 = 0xF0 := hfirst.symm.trans (congrArg UInt8.toNat he)
    simp only [Bool.and_eq_true, decide_eq_true_eq, UInt8.le_iff_toNat_le, hsecond]
    simp only [UInt8.reduceToNat]
    omega
  · split
    · -- nothing past the last character
      rename_i he
      have he' : 0xF0 + n / 262144 = 0xF4 := hfirst.symm.trans (congrArg UInt8.toNat he)
      simp only [Bool.and_eq_true, decide_eq_true_eq, UInt8.le_iff_toNat_le, hsecond]
      simp only [UInt8.reduceToNat]
      omega
    · exact isTail_ofNat (Nat.mod_lt _ (by decide))

/-! ## One character -/

theorem width_eq (b : UInt8) :
    width b = if b.toNat < 0x80 then 1 else if b.toNat < 0xC2 then 0
      else if b.toNat < 0xE0 then 2 else if b.toNat < 0xF0 then 3
      else if b.toNat < 0xF5 then 4 else 0 := by
  simp only [width, UInt8.lt_iff_toNat_lt, UInt8.reduceToNat]

theorem headChar_one {n : Nat} (h : n < 0x80) (rest : Bytes) :
    headChar (UInt8.ofNat n) rest = .char (Char.ofNat n) 0 := by
  have hfirst : (UInt8.ofNat n).toNat = n := toNat_ofNat_of_lt (by omega)
  have hwidth : width (UInt8.ofNat n) = 1 := by
    rw [width_eq, hfirst, if_pos h]
  unfold headChar
  simp only [hwidth, hfirst]

theorem headChar_two {n : Nat} (hlow : 0x80 ≤ n) (hhigh : n < 0x800) (rest : Bytes) :
    headChar (UInt8.ofNat (0xC0 + n / 64)) (UInt8.ofNat (0x80 + n % 64) :: rest)
      = .char (Char.ofNat n) 1 := by
  have hfirst : (UInt8.ofNat (0xC0 + n / 64)).toNat = 0xC0 + n / 64 :=
    toNat_ofNat_of_lt (by omega)
  have hwidth : width (UInt8.ofNat (0xC0 + n / 64)) = 2 := by
    rw [width_eq, hfirst, if_neg (by omega), if_neg (by omega), if_pos (by omega)]
  have htail : n % 64 < 64 := Nat.mod_lt _ (by decide)
  have hvalue : (0xC0 + n / 64) % 32 * 64 + n % 64 = n := by omega
  unfold headChar
  simp only [hwidth]
  rw [headTwo, if_pos (isTail_ofNat htail), tailBits_ofNat htail, hfirst, hvalue]

theorem headChar_three {n : Nat} (hlow : 0x800 ≤ n) (hhigh : n < 0x10000)
    (hno : n < 0xD800 ∨ 0xDFFF < n) (rest : Bytes) :
    headChar (UInt8.ofNat (0xE0 + n / 4096))
        (UInt8.ofNat (0x80 + n / 64 % 64) :: UInt8.ofNat (0x80 + n % 64) :: rest)
      = .char (Char.ofNat n) 2 := by
  have hfirst : (UInt8.ofNat (0xE0 + n / 4096)).toNat = 0xE0 + n / 4096 :=
    toNat_ofNat_of_lt (by omega)
  have hwidth : width (UInt8.ofNat (0xE0 + n / 4096)) = 3 := by
    rw [width_eq, hfirst, if_neg (by omega), if_neg (by omega), if_neg (by omega),
      if_pos (by omega)]
  have hsecond : n / 64 % 64 < 64 := Nat.mod_lt _ (by decide)
  have hthird : n % 64 < 64 := Nat.mod_lt _ (by decide)
  have hvalue : (0xE0 + n / 4096) % 16 * 4096 + n / 64 % 64 * 64 + n % 64 = n := by omega
  unfold headChar
  simp only [hwidth]
  simp only [headThree, isSecondOfThree_ofNat hlow hhigh hno, isTail_ofNat hthird, if_true,
    tailBits_ofNat hsecond, tailBits_ofNat hthird, hfirst, hvalue]

theorem headChar_four {n : Nat} (hlow : 0x10000 ≤ n) (hhigh : n < 0x110000) (rest : Bytes) :
    headChar (UInt8.ofNat (0xF0 + n / 262144))
        (UInt8.ofNat (0x80 + n / 4096 % 64) :: UInt8.ofNat (0x80 + n / 64 % 64)
          :: UInt8.ofNat (0x80 + n % 64) :: rest)
      = .char (Char.ofNat n) 3 := by
  have hfirst : (UInt8.ofNat (0xF0 + n / 262144)).toNat = 0xF0 + n / 262144 :=
    toNat_ofNat_of_lt (by omega)
  have hwidth : width (UInt8.ofNat (0xF0 + n / 262144)) = 4 := by
    rw [width_eq, hfirst, if_neg (by omega), if_neg (by omega), if_neg (by omega),
      if_neg (by omega), if_pos (by omega)]
  have hsecond : n / 4096 % 64 < 64 := Nat.mod_lt _ (by decide)
  have hthird : n / 64 % 64 < 64 := Nat.mod_lt _ (by decide)
  have hfourth : n % 64 < 64 := Nat.mod_lt _ (by decide)
  have hvalue : (0xF0 + n / 262144) % 8 * 262144 + n / 4096 % 64 * 4096 + n / 64 % 64 * 64
      + n % 64 = n := by omega
  unfold headChar
  simp only [hwidth]
  simp only [headFour, isSecondOfFour_ofNat hlow hhigh, isTail_ofNat hthird,
    isTail_ofNat hfourth, if_true, tailBits_ofNat hsecond, tailBits_ofNat hthird,
    tailBits_ofNat hfourth, hfirst, hvalue]

/-- **A written character is read at the head of any bytes,** with the number of bytes that
follow its first. -/
theorem headChar_encodeChar (c : Char) (rest : Bytes) : ∃ first tail,
    encodeChar c = first :: tail ∧ headChar first (tail ++ rest) = .char c tail.length := by
  have hrange := toNat_range c
  unfold encodeChar
  dsimp only
  by_cases h1 : c.toNat < 0x80
  · rw [if_pos h1]
    refine ⟨_, [], rfl, (headChar_one h1 rest).trans ?_⟩
    rw [Char.ofNat_toNat]
    rfl
  rw [if_neg h1]
  by_cases h2 : c.toNat < 0x800
  · rw [if_pos h2]
    refine ⟨_, [_], rfl, (headChar_two (by omega) h2 rest).trans ?_⟩
    rw [Char.ofNat_toNat]
    rfl
  rw [if_neg h2]
  by_cases h3 : c.toNat < 0x10000
  · rw [if_pos h3]
    refine ⟨_, [_, _], rfl, (headChar_three (by omega) h3 (by omega) rest).trans ?_⟩
    rw [Char.ofNat_toNat]
    rfl
  · rw [if_neg h3]
    refine ⟨_, [_, _, _], rfl, (headChar_four (by omega) (by omega) rest).trans ?_⟩
    rw [Char.ofNat_toNat]
    rfl

/-! ## Whole texts -/

/-- Bytes that belong to a character already read are passed over. -/
theorem decodeFrom_length (index : Nat) (tail rest : Bytes) :
    decodeFrom index tail.length (tail ++ rest) = decodeFrom (index + tail.length) 0 rest := by
  induction tail generalizing index with
  | nil => rfl
  | cons b tail ih =>
      show decodeFrom (index + 1) tail.length (tail ++ rest) = _
      rw [ih, List.length_cons]
      congr 1
      omega

theorem decodeFrom_encodeChars (index : Nat) (cs : List Char) :
    decodeFrom index 0 (encodeChars cs) = .ok cs := by
  induction cs generalizing index with
  | nil => rfl
  | cons c cs ih =>
      obtain ⟨first, tail, hc, hhead⟩ := headChar_encodeChar c (encodeChars cs)
      have hsplit : encodeChars (c :: cs) = first :: (tail ++ encodeChars cs) := by
        show encodeChar c ++ encodeChars cs = _
        rw [hc]
        rfl
      rw [hsplit, decodeFrom, hhead]
      dsimp only
      rw [decodeFrom_length, ih]
      rfl

/-- **Reading undoes writing.** -/
theorem decode_encode (s : String) : decode (encode s) = .ok s := by
  unfold decode decodeChars encode
  rw [decodeFrom_encodeChars]
  show Except.ok (String.ofList s.toList) = _
  rw [String.ofList_toList]

/-! ## Reading is exact -/

theorem toNat_ofNat_char {n : Nat} (h : n < 0xD800 ∨ (0xDFFF < n ∧ n < 0x110000)) :
    (Char.ofNat n).toNat = n := by
  have hvalid : n.isValidChar := by
    unfold Nat.isValidChar
    omega
  unfold Char.ofNat
  rw [dif_pos hvalid]
  rfl

theorem ofNat_of_toNat {b : UInt8} {n : Nat} (h : b.toNat = n) : UInt8.ofNat n = b := by
  rw [← h]
  exact UInt8.ofNat_toNat

theorem encodeChar_of_headTwo {a : UInt8} {rest : Bytes} {c : Char} {more : Nat}
    (hlow : 0xC2 ≤ a.toNat) (hhigh : a.toNat < 0xE0) (h : headTwo a rest = .char c more) :
    ∃ tail rest', rest = tail ++ rest' ∧ tail.length = more ∧ encodeChar c = a :: tail := by
  cases rest with
  | nil => exact absurd h (by simp [headTwo])
  | cons b rest' =>
      rw [headTwo] at h
      split at h
      · rename_i hb
        injection h with hc hmore
        have hb' := isTail_iff.mp hb
        unfold tailBits at hc
        have hn : c.toNat = a.toNat % 32 * 64 + b.toNat % 64 := by
          rw [← hc]
          exact toNat_ofNat_char (by omega)
        refine ⟨[b], rest', rfl, hmore, ?_⟩
        unfold encodeChar
        dsimp only
        rw [if_neg (by omega), if_pos (by omega), ofNat_of_toNat (b := a) (by omega),
          ofNat_of_toNat (b := b) (by omega)]
      · exact absurd h (by simp)

theorem isSecondOfThree_iff {a b : UInt8} : isSecondOfThree a b = true
    ↔ 0x80 ≤ b.toNat ∧ b.toNat ≤ 0xBF ∧ (a.toNat = 0xE0 → 0xA0 ≤ b.toNat)
      ∧ (a.toNat = 0xED → b.toNat ≤ 0x9F) := by
  unfold isSecondOfThree
  split
  · rename_i he
    have ha : a.toNat = 0xE0 := congrArg UInt8.toNat he
    simp only [Bool.and_eq_true, decide_eq_true_eq, UInt8.le_iff_toNat_le, UInt8.reduceToNat]
    omega
  · rename_i hE0
    have ha : a.toNat ≠ 0xE0 := fun h => hE0 (UInt8.toNat_inj.mp h)
    split
    · rename_i he
      have ha' : a.toNat = 0xED := congrArg UInt8.toNat he
      simp only [Bool.and_eq_true, decide_eq_true_eq, UInt8.le_iff_toNat_le, UInt8.reduceToNat]
      omega
    · rename_i hED
      have ha' : a.toNat ≠ 0xED := fun h => hED (UInt8.toNat_inj.mp h)
      rw [isTail_iff]
      omega

theorem isSecondOfFour_iff {a b : UInt8} : isSecondOfFour a b = true
    ↔ 0x80 ≤ b.toNat ∧ b.toNat ≤ 0xBF ∧ (a.toNat = 0xF0 → 0x90 ≤ b.toNat)
      ∧ (a.toNat = 0xF4 → b.toNat ≤ 0x8F) := by
  unfold isSecondOfFour
  split
  · rename_i he
    have ha : a.toNat = 0xF0 := congrArg UInt8.toNat he
    simp only [Bool.and_eq_true, decide_eq_true_eq, UInt8.le_iff_toNat_le, UInt8.reduceToNat]
    omega
  · rename_i hF0
    have ha : a.toNat ≠ 0xF0 := fun h => hF0 (UInt8.toNat_inj.mp h)
    split
    · rename_i he
      have ha' : a.toNat = 0xF4 := congrArg UInt8.toNat he
      simp only [Bool.and_eq_true, decide_eq_true_eq, UInt8.le_iff_toNat_le, UInt8.reduceToNat]
      omega
    · rename_i hF4
      have ha' : a.toNat ≠ 0xF4 := fun h => hF4 (UInt8.toNat_inj.mp h)
      rw [isTail_iff]
      omega

theorem encodeChar_of_headThree {a : UInt8} {rest : Bytes} {c : Char} {more : Nat}
    (hlow : 0xE0 ≤ a.toNat) (hhigh : a.toNat < 0xF0) (h : headThree a rest = .char c more) :
    ∃ tail rest', rest = tail ++ rest' ∧ tail.length = more ∧ encodeChar c = a :: tail := by
  unfold headThree at h
  split at h
  · exact absurd h (by simp)
  · rename_i b rest'
    split at h
    · rename_i hb
      split at h
      · exact absurd h (by simp)
      · rename_i d rest''
        split at h
        · rename_i hd
          injection h with hc hmore
          have hb' := isSecondOfThree_iff.mp hb
          have hd' := isTail_iff.mp hd
          unfold tailBits at hc
          have hn : c.toNat = a.toNat % 16 * 4096 + b.toNat % 64 * 64 + d.toNat % 64 := by
            rw [← hc]
            exact toNat_ofNat_char (by omega)
          refine ⟨[b, d], rest'', rfl, hmore, ?_⟩
          unfold encodeChar
          dsimp only
          rw [if_neg (by omega), if_neg (by omega), if_pos (by omega),
            ofNat_of_toNat (b := a) (by omega), ofNat_of_toNat (b := b) (by omega),
            ofNat_of_toNat (b := d) (by omega)]
        · exact absurd h (by simp)
    · exact absurd h (by simp)

theorem encodeChar_of_headFour {a : UInt8} {rest : Bytes} {c : Char} {more : Nat}
    (hlow : 0xF0 ≤ a.toNat) (hhigh : a.toNat < 0xF5) (h : headFour a rest = .char c more) :
    ∃ tail rest', rest = tail ++ rest' ∧ tail.length = more ∧ encodeChar c = a :: tail := by
  unfold headFour at h
  split at h
  · exact absurd h (by simp)
  · rename_i b rest'
    split at h
    · rename_i hb
      split at h
      · exact absurd h (by simp)
      · rename_i d rest''
        split at h
        · rename_i hd
          split at h
          · exact absurd h (by simp)
          · rename_i e after
            split at h
            · rename_i he
              injection h with hc hmore
              have hb' := isSecondOfFour_iff.mp hb
              have hd' := isTail_iff.mp hd
              have he' := isTail_iff.mp he
              unfold tailBits at hc
              have hn : c.toNat = a.toNat % 8 * 262144 + b.toNat % 64 * 4096 + d.toNat % 64 * 64
                  + e.toNat % 64 := by
                rw [← hc]
                exact toNat_ofNat_char (by omega)
              refine ⟨[b, d, e], after, rfl, hmore, ?_⟩
              unfold encodeChar
              dsimp only
              rw [if_neg (by omega), if_neg (by omega), if_neg (by omega),
                ofNat_of_toNat (b := a) (by omega), ofNat_of_toNat (b := b) (by omega),
                ofNat_of_toNat (b := d) (by omega), ofNat_of_toNat (b := e) (by omega)]
            · exact absurd h (by simp)
        · exact absurd h (by simp)
    · exact absurd h (by simp)

theorem width_cases (b : UInt8) :
    width b = 0 ∨ (width b = 1 ∧ b.toNat < 0x80)
    ∨ (width b = 2 ∧ 0xC2 ≤ b.toNat ∧ b.toNat < 0xE0)
    ∨ (width b = 3 ∧ 0xE0 ≤ b.toNat ∧ b.toNat < 0xF0)
    ∨ (width b = 4 ∧ 0xF0 ≤ b.toNat ∧ b.toNat < 0xF5) := by
  have hwidth := width_eq b
  generalize width b = w at hwidth
  grind

/-- **What is read as a character is that character written.** -/
theorem encodeChar_of_headChar {first : UInt8} {rest : Bytes} {c : Char} {more : Nat}
    (h : headChar first rest = .char c more) :
    ∃ tail rest', rest = tail ++ rest' ∧ tail.length = more ∧ encodeChar c = first :: tail := by
  unfold headChar at h
  rcases width_cases first with hw | ⟨hw, hlt⟩ | ⟨hw, hlow, hhigh⟩ | ⟨hw, hlow, hhigh⟩
    | ⟨hw, hlow, hhigh⟩ <;> simp only [hw] at h
  · exact absurd h (by simp)
  · injection h with hc hmore
    have hn : c.toNat = first.toNat := by
      rw [← hc]
      exact toNat_ofNat_char (by omega)
    refine ⟨[], rest, rfl, hmore, ?_⟩
    unfold encodeChar
    dsimp only
    rw [if_pos (by omega), hn, UInt8.ofNat_toNat]
  · exact encodeChar_of_headTwo hlow hhigh h
  · exact encodeChar_of_headThree hlow hhigh h
  · exact encodeChar_of_headFour hlow hhigh h

theorem eq_encodeChars_of_decodeFrom {bytes : Bytes} {index : Nat} {cs : List Char}
    (h : decodeFrom index 0 bytes = .ok cs) : bytes = encodeChars cs := by
  -- the induction is on the length: a character takes several bytes at once
  induction hlen : bytes.length using Nat.strongRecOn generalizing bytes index cs with
  | ind n ih =>
      cases bytes with
      | nil =>
          rw [decodeFrom] at h
          rw [← Except.ok.inj h]
          rfl
      | cons first rest =>
          rw [decodeFrom] at h
          split at h
          · rename_i c more hhead
            obtain ⟨tail, rest', hrest, hmore, hc⟩ := encodeChar_of_headChar hhead
            rw [hrest, ← hmore, decodeFrom_length] at h
            cases hd : decodeFrom (index + 1 + tail.length) 0 rest' with
            | error e =>
                rw [hd] at h
                exact absurd h (by simp [Except.map])
            | ok ds =>
                rw [hd] at h
                have hshort : rest'.length < n := by
                  rw [← hlen, hrest, List.length_cons, List.length_append]
                  omega
                have htail := ih rest'.length hshort hd rfl
                rw [← Except.ok.inj h, hrest, htail]
                show first :: (tail ++ encodeChars ds) = encodeChar c ++ encodeChars ds
                rw [hc]
                rfl
          · exact absurd h (by simp)
          · exact absurd h (by simp)

/-- **Reading accepts exactly what writing produces.** -/
theorem decode_eq_ok_iff {bytes : Bytes} {s : String} :
    decode bytes = .ok s ↔ encode s = bytes := by
  constructor
  · intro h
    unfold decode decodeChars at h
    cases hd : decodeFrom 0 0 bytes with
    | error e =>
        rw [hd] at h
        exact absurd h (by simp [Except.map])
    | ok cs =>
        rw [hd] at h
        have hs : String.ofList cs = s := Except.ok.inj h
        rw [← hs]
        unfold encode
        rw [String.toList_ofList, eq_encodeChars_of_decodeFrom hd]
  · intro h
    rw [← h]
    exact decode_encode s

theorem encode_injective {s s' : String} (h : encode s = encode s') : s = s' :=
  Except.ok.inj ((decode_encode s).symm.trans (decode_eq_ok_iff.mpr h.symm))

/-! ## Lenient reading -/

theorem decodeLenientFrom_length (tail rest : Bytes) :
    decodeLenientFrom tail.length (tail ++ rest) = decodeLenientFrom 0 rest := by
  induction tail with
  | nil => rfl
  | cons b tail ih => exact ih

theorem decodeLenientFrom_encodeChars (cs : List Char) :
    decodeLenientFrom 0 (encodeChars cs) = cs := by
  induction cs with
  | nil => rfl
  | cons c cs ih =>
      obtain ⟨first, tail, hc, hhead⟩ := headChar_encodeChar c (encodeChars cs)
      have hsplit : encodeChars (c :: cs) = first :: (tail ++ encodeChars cs) := by
        show encodeChar c ++ encodeChars cs = _
        rw [hc]
        rfl
      rw [hsplit, decodeLenientFrom, hhead]
      dsimp only
      rw [decodeLenientFrom_length, ih]

/-- **In the bytes of a text nothing is replaced.** -/
theorem decodeLenient_encode (s : String) : decodeLenient (encode s) = s := by
  unfold decodeLenient encode
  rw [decodeLenientFrom_encodeChars, String.ofList_toList]

/-! ## The standard library's bytes -/

/-- A character has the bytes that the standard library gives it. -/
theorem encodeChar_eq (c : Char) : encodeChar c = String.utf8EncodeChar c := by
  have hrange := toNat_range c
  have hval : c.val.toNat = c.toNat := rfl
  unfold encodeChar String.utf8EncodeChar
  dsimp only
  rw [hval]
  refine ite_congr (propext (by omega)) (fun _ => rfl) (fun _ => ?_)
  refine ite_congr (propext (by omega)) (fun _ => ?_) (fun _ => ?_)
  · -- the bits in front are few enough, so no remainder has to be taken of them
    have hfront : c.toNat / 64 % 32 = c.toNat / 64 := Nat.mod_eq_of_lt (by omega)
    rw [hfront, Nat.add_comm 0xC0, Nat.add_comm 0x80]
  refine ite_congr (propext (by omega)) (fun _ => ?_) (fun _ => ?_)
  · have hfront : c.toNat / 4096 % 16 = c.toNat / 4096 := Nat.mod_eq_of_lt (by omega)
    rw [hfront, Nat.add_comm 0xE0, Nat.add_comm 0x80, Nat.add_comm 0x80]
  · have hfront : c.toNat / 262144 % 8 = c.toNat / 262144 := Nat.mod_eq_of_lt (by omega)
    rw [hfront, Nat.add_comm 0xF0, Nat.add_comm 0x80, Nat.add_comm 0x80, Nat.add_comm 0x80]

theorem encode_eq_flatMap (s : String) : encode s = s.toList.flatMap String.utf8EncodeChar := by
  unfold encode encodeChars
  rw [funext encodeChar_eq]

end TableStore.Utf8
