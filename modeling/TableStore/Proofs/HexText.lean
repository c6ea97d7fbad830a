import TableStore.Command.Execution
import TableStore.Proofs.KeyOrder

/-!
# Hexadecimal text says which bytes it stands for

Bytes are written as digits, and a text is read as bytes of UTF-8. In between are numbers below
sixteen, two for each byte (`halves`), and both directions are stated on them: written are the
digits of the halves (`encodeChars_eq`), and read is what has these halves as the values of its
bytes (`decodePairs_eq_ok_iff`).

So what remains is one character. It is a digit, of one byte, and the number that this byte stands
for is written as the character in lower case; or it is no digit, and then none of its bytes stands
for a number, since the bytes of a longer character are all past the digits
(`digitValue?_encodeChar`). From it come the three laws of the codec: reading undoes writing,
writing what was read gives the text in lower case, and what is not read has a character that is
no digit or an odd number of them (`decode_encode`, `encode_of_decode`, `decode_fails_iff`). They
hold of keys and values on the command line too (`TextForm.lossless_of_hex`). Together they tell by
writing alone which texts are read (`decode_eq_ok_iff_encode`).
-/

namespace TableStore

namespace Hex

/-- The characters that stand for a number, of either case. -/
def digits : List Char :=
  ['0', '1', '2', '3', '4', '5', '6', '7', '8', '9', 'a', 'b', 'c', 'd', 'e', 'f',
    'A', 'B', 'C', 'D', 'E', 'F']

/-- The halves of bytes, the high one first. -/
def halves (bytes : Bytes) : List UInt8 := bytes.flatMap (fun b => [b / 16, b % 16])

/-! ## Halves of bytes -/

theorem high_lt (b : UInt8) : b / 16 < 16 := by
  have hb := b.toNat_lt
  rw [UInt8.lt_iff_toNat_lt, UInt8.toNat_div]
  show b.toNat / 16 < 16
  omega

theorem low_lt (b : UInt8) : b % 16 < 16 := by
  rw [UInt8.lt_iff_toNat_lt, UInt8.toNat_mod]
  exact Nat.mod_lt _ (by decide)

theorem lt_of_mem_halves {bytes : Bytes} {n : UInt8} (h : n ∈ halves bytes) : n < 16 := by
  obtain ⟨b, _, hn⟩ := List.mem_flatMap.mp h
  rcases List.mem_cons.mp hn with he | hn
  · rw [he]
    exact high_lt b
  · rw [List.mem_singleton.mp hn]
    exact low_lt b

/-- A byte is put together from its halves. -/
theorem join_halves (b : UInt8) : b / 16 * 16 + b % 16 = b := by
  refine UInt8.toNat_inj.mp ?_
  have hb := b.toNat_lt
  rw [UInt8.toNat_add, UInt8.toNat_mul, UInt8.toNat_div, UInt8.toNat_mod]
  show (b.toNat / 16 * 16 % 256 + b.toNat % 16) % 256 = b.toNat
  omega

/-- Two halves are the halves of the byte that is put together from them. -/
theorem split_join {high low : UInt8} (hh : high < 16) (hl : low < 16) :
    (high * 16 + low) / 16 = high ∧ (high * 16 + low) % 16 = low := by
  have hh' : high.toNat < 16 := UInt8.lt_iff_toNat_lt.mp hh
  have hl' : low.toNat < 16 := UInt8.lt_iff_toNat_lt.mp hl
  have hjoin : (high * 16 + low).toNat = high.toNat * 16 + low.toNat := by
    rw [UInt8.toNat_add, UInt8.toNat_mul]
    show (high.toNat * 16 % 256 + low.toNat) % 256 = _
    omega
  constructor
  · refine UInt8.toNat_inj.mp ?_
    rw [UInt8.toNat_div, hjoin]
    show (high.toNat * 16 + low.toNat) / 16 = _
    omega
  · refine UInt8.toNat_inj.mp ?_
    rw [UInt8.toNat_mod, hjoin]
    show (high.toNat * 16 + low.toNat) % 16 = _
    omega

/-! ## One digit -/

/-- A fact about numbers below a bound is one about as many numbers. -/
theorem forall_byte_lt (bound : Nat) {P : UInt8 → Prop} (h : ∀ k < bound, P (UInt8.ofNat k))
    {n : UInt8} (hn : n.toNat < bound) : P n := by
  have hn' := h n.toNat hn
  rw [UInt8.ofNat_toNat] at hn'
  exact hn'

/-- The digit of a number has one byte, which stands for the number. -/
theorem digit_spec {n : UInt8} (h : n < 16) :
    digit n ∈ digits ∧ Utf8.encodeChar (digit n) = [UInt8.ofNat (digit n).toNat]
      ∧ digitValue? (UInt8.ofNat (digit n).toNat) = some n :=
  forall_byte_lt 16 (P := fun n => digit n ∈ digits
      ∧ Utf8.encodeChar (digit n) = [UInt8.ofNat (digit n).toNat]
      ∧ digitValue? (UInt8.ofNat (digit n).toNat) = some n)
    (by decide +kernel) (UInt8.lt_iff_toNat_lt.mp h)

theorem digitValue?_lt {b n : UInt8} (h : digitValue? b = some n) : n < 16 := by
  have hall : (digitValue? b).all (fun n => n < 16) = true :=
    forall_byte_lt 256 (P := fun b => (digitValue? b).all (fun n => n < 16) = true)
      (by decide +kernel) b.toNat_lt
  rw [h] at hall
  exact of_decide_eq_true hall

/-- Bytes past the letters stand for nothing. -/
theorem digitValue?_of_ge {b : UInt8} (h : 0x80 ≤ b.toNat) : digitValue? b = none := by
  unfold digitValue?
  simp only [UInt8.le_iff_toNat_le, UInt8.reduceToNat]
  rw [if_neg (by omega), if_neg (by omega), if_neg (by omega)]

/-- A character that is longer than a byte has no byte of a digit, and is none. -/
theorem not_digit_of_ge {c : Char} (h : 0x80 ≤ c.toNat) :
    c ∉ digits ∧ Utf8.encodeChar c ≠ [] ∧ ∀ b ∈ Utf8.encodeChar c, digitValue? b = none := by
  have hsmall : digits.all (fun d => d.toNat < 0x80) = true := by decide
  have hbyte : ∀ n, 0x80 ≤ n → n < 256 → digitValue? (UInt8.ofNat n) = none := by
    intro n hlow hhigh
    exact digitValue?_of_ge (by rw [Utf8.toNat_ofNat_of_lt hhigh]; exact hlow)
  refine ⟨fun hc => absurd (of_decide_eq_true (List.all_eq_true.mp hsmall c hc)) (by omega), ?_⟩
  rcases Utf8.encodeChar_cases c with ⟨hc, _⟩ | ⟨_, hc, he⟩ | ⟨_, hc, he⟩ | ⟨_, hc, he⟩
  · exact absurd hc (by omega)
  all_goals
    rw [he]
    refine ⟨List.cons_ne_nil _ _, fun b hb => ?_⟩
    simp only [List.mem_cons, List.not_mem_nil, or_false] at hb
  · rcases hb with hb | hb <;> rw [hb] <;> exact hbyte _ (by omega) (by omega)
  · rcases hb with hb | hb | hb <;> rw [hb] <;> exact hbyte _ (by omega) (by omega)
  · rcases hb with hb | hb | hb | hb <;> rw [hb] <;> exact hbyte _ (by omega) (by omega)

/-- **A character is a digit or it is not.** A digit has one byte, and the number that the byte
stands for is written as the character in lower case. No byte of another character stands for a
number. -/
theorem digitValue?_encodeChar (c : Char) :
    (c ∈ digits ∧ ∃ b n, Utf8.encodeChar c = [b] ∧ digitValue? b = some n ∧ c.toLower = digit n)
    ∨ (c ∉ digits ∧ Utf8.encodeChar c ≠ [] ∧ ∀ b ∈ Utf8.encodeChar c, digitValue? b = none) := by
  rcases Nat.lt_or_ge c.toNat 0x80 with hlt | hge
  · -- the short characters are looked at one by one
    have hall : ∀ k < 0x80,
        (Char.ofNat k ∈ digits ∧ ∃ n : Fin 16,
          digitValue? (UInt8.ofNat k) = some (UInt8.ofNat n)
            ∧ (Char.ofNat k).toLower = digit (UInt8.ofNat n))
        ∨ (Char.ofNat k ∉ digits ∧ digitValue? (UInt8.ofNat k) = none) := by
      decide +kernel
    have hbyte : Utf8.encodeChar c = [UInt8.ofNat c.toNat] := by
      rcases Utf8.encodeChar_cases c with ⟨_, he⟩ | ⟨hc, _⟩ | ⟨hc, _⟩ | ⟨hc, _⟩
      · exact he
      all_goals exact absurd hc (by omega)
    have hc := hall c.toNat hlt
    rw [Char.ofNat_toNat] at hc
    rcases hc with ⟨hmem, n, hvalue, hlower⟩ | ⟨hmem, hvalue⟩
    · exact Or.inl ⟨hmem, _, _, hbyte, hvalue, hlower⟩
    · refine Or.inr ⟨hmem, by simp [hbyte], fun b hb => ?_⟩
      rw [hbyte] at hb
      rw [List.mem_singleton.mp hb]
      exact hvalue
  · exact Or.inr (not_digit_of_ge hge)

/-! ## Reading pairs -/

theorem length_halves (bytes : Bytes) : (halves bytes).length = 2 * bytes.length := by
  induction bytes with
  | nil => rfl
  | cons b rest ih =>
      show (halves rest).length + 2 = 2 * (rest.length + 1)
      omega

/-- Numbers below sixteen, taken in pairs, are the halves of bytes. -/
theorem exists_halves {ns : List UInt8} (h : ∀ n ∈ ns, n < 16) (heven : ns.length % 2 = 0) :
    ∃ bytes, halves bytes = ns := by
  induction ns using List.twoStepInduction with
  | nil => exact ⟨[], rfl⟩
  | singleton n => exact absurd heven (by simp)
  | cons_cons high low rest ih _ =>
      have hrest : rest.length % 2 = 0 := by
        rw [List.length_cons, List.length_cons] at heven
        omega
      obtain ⟨bytes, hbytes⟩ := ih (fun n hn => h n (by simp [hn])) hrest
      obtain ⟨hdiv, hmod⟩ := split_join (h high (by simp)) (h low (by simp))
      refine ⟨(high * 16 + low) :: bytes, ?_⟩
      show _ :: _ :: halves bytes = _
      rw [hbytes, hdiv, hmod]

/-- **Pairs of digits are read as the bytes whose halves they are.** -/
theorem decodePairs_eq_ok_iff {index : Nat} {text bytes : Bytes} :
    decodePairs index text = .ok bytes ↔ text.map digitValue? = (halves bytes).map some := by
  induction index, text using decodePairs.induct generalizing bytes with
  | case1 index => cases bytes <;> simp [decodePairs, halves]
  | case2 index d => cases bytes <;> simp [decodePairs, halves]
  | case3 index hi lo rest hhi => cases bytes <;> simp [decodePairs, halves, hhi]
  | case4 index hi lo rest high hhi hlo => cases bytes <;> simp [decodePairs, halves, hhi, hlo]
  | case5 index hi lo rest high hhi low hlo ih =>
      obtain ⟨hdiv, hmod⟩ := split_join (digitValue?_lt hhi) (digitValue?_lt hlo)
      -- two digits are a byte, whose halves they are
      rw [decodePairs, hhi, hlo, List.map_cons, List.map_cons, hhi, hlo]
      dsimp only
      constructor
      · intro h
        cases hrest : decodePairs (index + 2) rest with
        | error e =>
            rw [hrest] at h
            exact absurd h (by simp [Except.map])
        | ok read =>
            rw [hrest] at h
            rw [← Except.ok.inj h, ih.mp hrest]
            show _ = some _ :: some _ :: (halves read).map some
            rw [hdiv, hmod]
      · intro h
        cases bytes with
        | nil => exact absurd h (by simp [halves])
        | cons b bytes =>
            obtain ⟨hhigh, htail⟩ := List.cons.inj h
            obtain ⟨hlow, hrest⟩ := List.cons.inj htail
            rw [ih.mpr hrest, Option.some.inj hhigh, Option.some.inj hlow]
            show Except.ok (_ :: bytes) = _
            rw [join_halves]

theorem decode_eq_ok_iff {text : String} {bytes : Bytes} :
    decode text = .ok bytes
      ↔ (Utf8.encode text).map digitValue? = (halves bytes).map some := by
  unfold decode
  dsimp only
  split
  · -- an odd number of digits is not the number of halves
    rename_i hodd
    refine ⟨fun h => absurd h (by simp), fun h => ?_⟩
    have hlength := congrArg List.length h
    rw [List.length_map, List.length_map, length_halves] at hlength
    omega
  · exact decodePairs_eq_ok_iff

/-! ## Texts of digits -/

theorem encodeChars_eq (bytes : Bytes) : encodeChars bytes = (halves bytes).map digit := by
  unfold encodeChars halves
  rw [List.map_flatMap]
  rfl

theorem toList_encode (bytes : Bytes) : (encode bytes).toList = (halves bytes).map digit := by
  unfold encode
  rw [String.toList_ofList, encodeChars_eq]

/-- What is written consists of digits. -/
theorem mem_digits_of_mem_encode {bytes : Bytes} {c : Char} (h : c ∈ (encode bytes).toList) :
    c ∈ digits := by
  rw [toList_encode] at h
  obtain ⟨n, hn, he⟩ := List.mem_map.mp h
  rw [← he]
  exact (digit_spec (lt_of_mem_halves hn)).1

/-- Written numbers are read as these numbers. -/
theorem values_of_digits {ns : List UInt8} (h : ∀ n ∈ ns, n < 16) :
    (Utf8.encodeChars (ns.map digit)).map digitValue? = ns.map some := by
  induction ns with
  | nil => rfl
  | cons n rest ih =>
      obtain ⟨_, hbyte, hvalue⟩ := digit_spec (h n List.mem_cons_self)
      show (Utf8.encodeChar (digit n) ++ Utf8.encodeChars (rest.map digit)).map _ = _
      rw [hbyte, List.map_append, ih (fun m hm => h m (List.mem_cons_of_mem _ hm)), List.map_cons,
        hvalue]
      rfl

/-- What is read as numbers consists of digits, and the numbers are written as it in lower
case. -/
theorem digits_of_values {cs : List Char} {ns : List UInt8}
    (h : (Utf8.encodeChars cs).map digitValue? = ns.map some) :
    (∀ c ∈ cs, c ∈ digits) ∧ cs.map Char.toLower = ns.map digit := by
  induction cs generalizing ns with
  | nil =>
      have hns : ns = [] := List.map_eq_nil_iff.mp h.symm
      exact ⟨fun c hc => absurd hc List.not_mem_nil, by rw [hns]; rfl⟩
  | cons c cs ih =>
      have hsplit : Utf8.encodeChars (c :: cs) = Utf8.encodeChar c ++ Utf8.encodeChars cs := rfl
      rw [hsplit, List.map_append] at h
      rcases digitValue?_encodeChar c with ⟨hc, b, m, hbyte, hvalue, hlower⟩ | ⟨_, hne, hnone⟩
      · rw [hbyte, List.map_singleton, hvalue] at h
        cases ns with
        | nil => exact absurd h (by simp)
        | cons n ns =>
            obtain ⟨hn, hrest⟩ := List.cons.inj h
            obtain ⟨hcs, htail⟩ := ih hrest
            refine ⟨fun d hd => ?_, ?_⟩
            · rcases List.mem_cons.mp hd with he | hd
              · rw [he]
                exact hc
              · exact hcs d hd
            · rw [List.map_cons, List.map_cons, hlower, htail, Option.some.inj hn]
      · -- a character that is no digit has a byte without a value
        obtain ⟨b, hb⟩ := List.exists_mem_of_ne_nil _ hne
        have hmem : none ∈ ns.map some := by
          rw [← h]
          exact List.mem_append_left _ (List.mem_map.mpr ⟨b, hb, hnone b hb⟩)
        exact absurd hmem (by simp)

/-- Digits have values, one each. -/
theorem exists_values_of_digits {cs : List Char} (h : ∀ c ∈ cs, c ∈ digits) :
    ∃ ns : List UInt8, (∀ n ∈ ns, n < 16) ∧ ns.length = cs.length
      ∧ (Utf8.encodeChars cs).map digitValue? = ns.map some := by
  induction cs with
  | nil => exact ⟨[], by simp, rfl, rfl⟩
  | cons c cs ih =>
      obtain ⟨ns, hsmall, hlength, hvalues⟩ := ih (fun d hd => h d (List.mem_cons_of_mem _ hd))
      rcases digitValue?_encodeChar c with ⟨_, b, n, hbyte, hvalue, _⟩ | ⟨hc, _⟩
      · refine ⟨n :: ns, fun m hm => ?_, congrArg Nat.succ hlength, ?_⟩
        · rcases List.mem_cons.mp hm with he | hm
          · rw [he]
            exact digitValue?_lt hvalue
          · exact hsmall m hm
        · show (Utf8.encodeChar c ++ Utf8.encodeChars cs).map digitValue? = _
          rw [hbyte, List.map_append, hvalues, List.map_singleton, hvalue]
          rfl
      · exact absurd (h c List.mem_cons_self) hc

/-! ## The laws -/

/-- **Reading undoes writing.** -/
theorem decode_encode (bytes : Bytes) : decode (encode bytes) = .ok bytes := by
  refine decode_eq_ok_iff.mpr ?_
  unfold Utf8.encode
  rw [toList_encode]
  exact values_of_digits (fun n hn => lt_of_mem_halves hn)

theorem encode_injective {bytes bytes' : Bytes} (h : encode bytes = encode bytes') :
    bytes = bytes' :=
  Except.ok.inj ((decode_encode bytes).symm.trans (h ▸ decode_encode bytes'))

/-- **What was read is written as the text in lower case.** -/
theorem encode_of_decode {text : String} {bytes : Bytes} (h : decode text = .ok bytes) :
    encode bytes = text.toLower := by
  obtain ⟨_, hlower⟩ := digits_of_values (decode_eq_ok_iff.mp h)
  refine String.toList_inj.mp ?_
  unfold String.toLower
  rw [toList_encode, String.toList_map, hlower]

/-- **A text is not read** when its length is odd or one of its characters is no digit, and only
then. -/
theorem decode_fails_iff {text : String} :
    (∃ e, decode text = .error e) ↔ text.length % 2 = 1 ∨ ∃ c ∈ text.toList, c ∉ digits := by
  constructor
  · rintro ⟨e, he⟩
    refine or_iff_not_imp_left.mpr (fun heven => ?_)
    refine Classical.byContradiction (fun hno => ?_)
    have hdigits : ∀ c ∈ text.toList, c ∈ digits :=
      fun c hc => Classical.not_not.mp (fun hn => hno ⟨c, hc, hn⟩)
    obtain ⟨ns, hsmall, hlength, hvalues⟩ := exists_values_of_digits hdigits
    rw [String.length_toList] at hlength
    obtain ⟨bytes, hbytes⟩ := exists_halves hsmall (by omega)
    rw [← hbytes] at hvalues
    rw [decode_eq_ok_iff.mpr hvalues] at he
    exact absurd he (by simp)
  · intro hbad
    cases hd : decode text with
    | error e => exact ⟨e, rfl⟩
    | ok bytes =>
        obtain ⟨hdigits, hlower⟩ := digits_of_values (decode_eq_ok_iff.mp hd)
        rcases hbad with hodd | ⟨c, hc, hno⟩
        · have hlength := congrArg List.length hlower
          rw [List.length_map, List.length_map, length_halves, String.length_toList] at hlength
          omega
        · exact absurd (hdigits c hc) hno

theorem length_encode (bytes : Bytes) : (encode bytes).length = 2 * bytes.length := by
  rw [← String.length_toList, toList_encode, List.length_map, length_halves]

theorem mem_digits_of_toLower {c : Char} (h : c.toLower ∈ digits) : c ∈ digits := by
  rcases Nat.lt_or_ge c.toNat 0x80 with hlt | hge
  · have hall : ∀ k < 0x80, (Char.ofNat k).toLower ∈ digits → Char.ofNat k ∈ digits := by
      decide +kernel
    have hc := hall c.toNat hlt
    rw [Char.ofNat_toNat] at hc
    exact hc h
  · -- past the letters there is no upper case
    have hsame : c.toLower = c := by
      unfold Char.toLower
      refine dif_neg (fun hupper => ?_)
      have hle : c.toNat ≤ 90 := UInt32.le_iff_toNat_le.mp hupper.2
      omega
    exact hsame ▸ h

/-- **A text is read as the bytes that are written as it is in lower case,** if there are any. -/
theorem decode_eq_ok_iff_encode {text : String} {bytes : Bytes} :
    decode text = .ok bytes ↔ encode bytes = text.toLower := by
  refine ⟨encode_of_decode, fun hlower => ?_⟩
  cases hd : decode text with
  | ok bytes' => rw [encode_injective ((encode_of_decode hd).trans hlower.symm)]
  | error e =>
      rcases decode_fails_iff.mp ⟨e, hd⟩ with hodd | ⟨c, hc, hno⟩
      · have hlength := congrArg String.length hlower
        unfold String.toLower at hlength
        rw [length_encode, String.length_map] at hlength
        omega
      · have hmem : c.toLower ∈ (encode bytes).toList := by
          rw [hlower]
          unfold String.toLower
          rw [String.toList_map]
          exact List.mem_map_of_mem hc
        exact absurd (mem_digits_of_toLower (mem_digits_of_mem_encode hmem)) hno

end Hex

/-! ## Keys and values on the command line -/

/-- A codec that loses nothing: what it writes it reads, what it reads it writes in lower case, and
it reads every text of an even number of digits. -/
structure TextForm.Lossless (form : TextForm) : Prop where
  decode_encode : ∀ bytes, form.decode (form.encode bytes) = .ok bytes
  encode_decode : ∀ text bytes, form.decode text = .ok bytes → form.encode bytes = text.toLower
  fails_iff : ∀ text, (∃ e, form.decode text = .error e)
    ↔ text.length % 2 = 1 ∨ ∃ c ∈ text.toList, c ∉ Hex.digits

theorem TextForm.encode_of_hex {form : TextForm} (h : form.hex = true) (bytes : Bytes) :
    form.encode bytes = Hex.encode bytes := if_pos h

theorem TextForm.decode_of_hex {form : TextForm} (h : form.hex = true) (text : String) :
    form.decode text = (Hex.decode text).mapError (CommandError.invalidHex text) := by
  unfold TextForm.decode
  rw [if_pos h]
  cases Hex.decode text <;> rfl

theorem TextForm.lossless_of_hex {form : TextForm} (h : form.hex = true) : form.Lossless where
  decode_encode bytes := by
    rw [decode_of_hex h, encode_of_hex h, Hex.decode_encode]
    rfl
  encode_decode text bytes hread := by
    rw [decode_of_hex h] at hread
    cases hd : Hex.decode text with
    | error e =>
        rw [hd] at hread
        exact absurd hread (by simp [Except.mapError])
    | ok bytes' =>
        rw [hd] at hread
        rw [← Except.ok.inj hread, encode_of_hex h, Hex.encode_of_decode hd]
  fails_iff text := by
    rw [← Hex.decode_fails_iff, decode_of_hex h]
    cases Hex.decode text <;> simp [Except.mapError]

end TableStore
