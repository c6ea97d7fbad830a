import TableStore.Proofs.KeyRange
import TableStore.Proofs.KeyShape

/-!
# Written keys are in the order of keys

The engine knows bytes, and the caller knows numbers, texts and pairs. `KeyShape.compare` is the
caller's order: numbers by size, negative ones before zero; texts by their code points, one after
the other; bytes by bytes; pairs by their heads and then by their tails. `compareKeys_encode` says
that the order of bytes that the engine keeps is this order, for every type of keys.

What makes it true differs from part to part. Digits are compared from the most significant on,
which is why they are written in that order. A character of more bytes begins with a larger byte,
so texts compare like their characters although these differ in length. And a pair may be written
without anything between its parts because all heads are equally long: the comparison cannot run
past the end of one head while it is still inside the other (`compareKeys_append`).

With the order go its laws: a type of keys is ordered as lawfully as bytes are, and two keys that
compare equal are one key. So keys can be the keys of a `SortedMap`.
-/

namespace TableStore

/-! ## Comparing bytes -/

theorem compareKeys_cons_of_lt {a b : UInt8} (h : a.toNat < b.toNat) (as bs : Bytes) :
    compareKeys (a :: as) (b :: bs) = .lt := by
  have hlt : compare a b = .lt := Std.compare_eq_lt.mpr (UInt8.lt_iff_toNat_lt.mpr h)
  rw [compareKeys, hlt]
  rfl

theorem compareKeys_cons_of_eq {a b : UInt8} (h : a.toNat = b.toNat) (as bs : Bytes) :
    compareKeys (a :: as) (b :: bs) = compareKeys as bs := by
  rw [UInt8.toNat_inj.mp h, compareKeys, Std.ReflOrd.compare_self]
  rfl

/-- Equally long fronts are compared before what follows them. -/
theorem compareKeys_append {a b : Bytes} (h : a.length = b.length) (x y : Bytes) :
    compareKeys (a ++ x) (b ++ y) = (compareKeys a b).then (compareKeys x y) := by
  induction a generalizing b with
  | nil =>
      have hb : b = [] := List.length_eq_zero_iff.mp h.symm
      rw [hb, compareKeys_self]
      rfl
  | cons c as ih =>
      cases b with
      | nil => exact absurd h (by simp)
      | cons d bs =>
          have hrest := ih (Nat.succ.inj h)
          show (compare c d).then (compareKeys (as ++ x) (bs ++ y))
            = ((compare c d).then (compareKeys as bs)).then (compareKeys x y)
          rw [hrest]
          cases compare c d <;> rfl

/-! ## Numbers -/

theorem compare_digits (m n : Nat) :
    compare m n = (compare (m / 256) (n / 256)).then (compare (m % 256) (n % 256)) := by
  rcases Nat.lt_trichotomy (m / 256) (n / 256) with hlt | heq | hgt
  · have hmn : m < n := by omega
    rw [Nat.compare_eq_lt.mpr hlt, Nat.compare_eq_lt.mpr hmn]
    rfl
  · rw [Nat.compare_eq_eq.mpr heq]
    show _ = compare (m % 256) (n % 256)
    rcases Nat.lt_trichotomy (m % 256) (n % 256) with hlt | heq' | hgt
    · have hmn : m < n := by omega
      rw [Nat.compare_eq_lt.mpr hlt, Nat.compare_eq_lt.mpr hmn]
    · have hmn : m = n := by omega
      rw [hmn, Std.ReflOrd.compare_self, Std.ReflOrd.compare_self]
    · have hmn : n < m := by omega
      rw [Nat.compare_eq_gt.mpr hgt, Nat.compare_eq_gt.mpr hmn]
  · have hmn : n < m := by omega
    rw [Nat.compare_eq_gt.mpr hgt, Nat.compare_eq_gt.mpr hmn]
    rfl

theorem compareKeys_singleton (a b : UInt8) : compareKeys [a] [b] = compare a.toNat b.toNat := by
  rcases Nat.lt_trichotomy a.toNat b.toNat with hlt | heq | hgt
  · rw [compareKeys_cons_of_lt hlt, Nat.compare_eq_lt.mpr hlt]
  · rw [compareKeys_cons_of_eq heq, Nat.compare_eq_eq.mpr heq]
    rfl
  · rw [compareKeys_gt_iff.mpr (compareKeys_cons_of_lt hgt [] []), Nat.compare_eq_gt.mpr hgt]

/-- **Digits are in the order of numbers.** -/
theorem compareKeys_toBigEndian {m n width : Nat} (hm : m < 256 ^ width) (hn : n < 256 ^ width) :
    compareKeys (toBigEndian m width) (toBigEndian n width) = compare m n := by
  induction width generalizing m n with
  | zero =>
      have hm' : m = 0 := by simpa using hm
      have hn' : n = 0 := by simpa using hn
      rw [hm', hn']
      rfl
  | succ width ih =>
      rw [Nat.pow_succ] at hm hn
      have hrest := ih (Nat.div_lt_of_lt_mul (by omega) : m / 256 < 256 ^ width)
        (Nat.div_lt_of_lt_mul (by omega) : n / 256 < 256 ^ width)
      have hlast : ∀ k : Nat, (UInt8.ofNat (k % 256)).toNat = k % 256 :=
        fun k => Utf8.toNat_ofNat_of_lt (Nat.mod_lt k (by decide))
      rw [toBigEndian, toBigEndian, compareKeys_append (by simp), hrest, compareKeys_singleton,
        hlast, hlast, ← compare_digits]

/-! ## Texts -/

namespace Utf8

theorem encodeChar_cases (c : Char) :
    (c.toNat < 0x80 ∧ encodeChar c = [UInt8.ofNat c.toNat])
    ∨ (0x80 ≤ c.toNat ∧ c.toNat < 0x800
      ∧ encodeChar c = [UInt8.ofNat (0xC0 + c.toNat / 64), UInt8.ofNat (0x80 + c.toNat % 64)])
    ∨ (0x800 ≤ c.toNat ∧ c.toNat < 0x10000
      ∧ encodeChar c = [UInt8.ofNat (0xE0 + c.toNat / 4096),
        UInt8.ofNat (0x80 + c.toNat / 64 % 64), UInt8.ofNat (0x80 + c.toNat % 64)])
    ∨ (0x10000 ≤ c.toNat ∧ c.toNat < 0x110000
      ∧ encodeChar c = [UInt8.ofNat (0xF0 + c.toNat / 262144),
        UInt8.ofNat (0x80 + c.toNat / 4096 % 64), UInt8.ofNat (0x80 + c.toNat / 64 % 64),
        UInt8.ofNat (0x80 + c.toNat % 64)]) := by
  have hrange := toNat_range c
  unfold encodeChar
  dsimp only
  by_cases h1 : c.toNat < 0x80
  · rw [if_pos h1]
    exact Or.inl ⟨h1, rfl⟩
  by_cases h2 : c.toNat < 0x800
  · rw [if_neg h1, if_pos h2]
    exact Or.inr (Or.inl ⟨by omega, h2, rfl⟩)
  by_cases h3 : c.toNat < 0x10000
  · rw [if_neg h1, if_neg h2, if_pos h3]
    exact Or.inr (Or.inr (Or.inl ⟨by omega, h3, rfl⟩))
  · rw [if_neg h1, if_neg h2, if_neg h3]
    exact Or.inr (Or.inr (Or.inr ⟨by omega, by omega, rfl⟩))

/-- One byte further in a comparison: the bytes are given as numbers. -/
theorem compareKeys_cons_of_le {m n : Nat} {as bs : Bytes} (hn : n < 256) (hle : m ≤ n)
    (hrest : m = n → compareKeys as bs = .lt) :
    compareKeys (UInt8.ofNat m :: as) (UInt8.ofNat n :: bs) = .lt := by
  have hm' : (UInt8.ofNat m).toNat = m := toNat_ofNat_of_lt (by omega)
  have hn' : (UInt8.ofNat n).toNat = n := toNat_ofNat_of_lt hn
  rcases Nat.lt_or_eq_of_le hle with hlt | heq
  · exact compareKeys_cons_of_lt (by omega) as bs
  · rw [compareKeys_cons_of_eq (by omega), hrest heq]

/-- **A lesser character is written before a greater one,** whatever follows them. -/
theorem compareKeys_encodeChar_of_lt {c d : Char} (h : c.toNat < d.toNat) (x y : Bytes) :
    compareKeys (encodeChar c ++ x) (encodeChar d ++ y) = .lt := by
  -- with fewer bytes the first decides, with equally many the first that differs
  rcases encodeChar_cases c with ⟨hc, ec⟩ | ⟨hc, hc', ec⟩ | ⟨hc, hc', ec⟩ | ⟨hc, hc', ec⟩
  · rcases encodeChar_cases d with ⟨_, ed⟩ | ⟨_, _, ed⟩ | ⟨_, _, ed⟩ | ⟨_, _, ed⟩ <;> rw [ec, ed]
    · exact compareKeys_cons_of_le (by omega) (by omega) (by omega)
    · exact compareKeys_cons_of_le (by omega) (by omega) (by omega)
    · exact compareKeys_cons_of_le (by omega) (by omega) (by omega)
    · exact compareKeys_cons_of_le (by omega) (by omega) (by omega)
  · rcases encodeChar_cases d with ⟨_, ed⟩ | ⟨_, _, ed⟩ | ⟨_, _, ed⟩ | ⟨_, _, ed⟩ <;> rw [ec, ed]
    · omega
    · refine compareKeys_cons_of_le (by omega) (by omega) (fun hfirst => ?_)
      exact compareKeys_cons_of_le (by omega) (by omega) (by omega)
    · exact compareKeys_cons_of_le (by omega) (by omega) (by omega)
    · exact compareKeys_cons_of_le (by omega) (by omega) (by omega)
  · rcases encodeChar_cases d with ⟨_, ed⟩ | ⟨_, _, ed⟩ | ⟨_, _, ed⟩ | ⟨_, _, ed⟩ <;> rw [ec, ed]
    · omega
    · omega
    · refine compareKeys_cons_of_le (by omega) (by omega) (fun hfirst => ?_)
      refine compareKeys_cons_of_le (by omega) (by omega) (fun hsecond => ?_)
      exact compareKeys_cons_of_le (by omega) (by omega) (by omega)
    · exact compareKeys_cons_of_le (by omega) (by omega) (by omega)
  · rcases encodeChar_cases d with ⟨_, ed⟩ | ⟨_, _, ed⟩ | ⟨_, _, ed⟩ | ⟨_, _, ed⟩ <;> rw [ec, ed]
    · omega
    · omega
    · omega
    · refine compareKeys_cons_of_le (by omega) (by omega) (fun hfirst => ?_)
      refine compareKeys_cons_of_le (by omega) (by omega) (fun hsecond => ?_)
      refine compareKeys_cons_of_le (by omega) (by omega) (fun hthird => ?_)
      exact compareKeys_cons_of_le (by omega) (by omega) (by omega)

/-- The code points of a text. -/
def codePoints (s : String) : List Nat := s.toList.map Char.toNat

theorem compareKeys_encodeChars (cs ds : List Char) :
    compareKeys (encodeChars cs) (encodeChars ds)
      = compare (cs.map Char.toNat) (ds.map Char.toNat) := by
  show _ = List.compareLex compare (cs.map Char.toNat) (ds.map Char.toNat)
  induction cs generalizing ds with
  | nil =>
      cases ds with
      | nil => rfl
      | cons d ds =>
          obtain ⟨first, tail, hd, _⟩ := headChar_encodeChar d []
          show compareKeys [] (encodeChar d ++ encodeChars ds) = .lt
          rw [hd]
          rfl
  | cons c cs ih =>
      cases ds with
      | nil =>
          obtain ⟨first, tail, hc, _⟩ := headChar_encodeChar c []
          show compareKeys (encodeChar c ++ encodeChars cs) [] = .gt
          rw [hc]
          rfl
      | cons d ds =>
          show compareKeys (encodeChar c ++ encodeChars cs) (encodeChar d ++ encodeChars ds) = _
          rw [List.map_cons, List.map_cons, List.compareLex_cons_cons, ← ih ds]
          rcases Nat.lt_trichotomy c.toNat d.toNat with hlt | heq | hgt
          · rw [compareKeys_encodeChar_of_lt hlt, Nat.compare_eq_lt.mpr hlt]
            rfl
          · rw [Char.toNat_inj.mp heq, compareKeys_append rfl, compareKeys_self,
              Std.ReflOrd.compare_self]
          · rw [compareKeys_gt_iff.mpr (compareKeys_encodeChar_of_lt hgt _ _),
              Nat.compare_eq_gt.mpr hgt]
            rfl

/-- **Texts are written in the order of their code points.** -/
theorem compareKeys_encode (s s' : String) :
    compareKeys (encode s) (encode s') = compare (codePoints s) (codePoints s') :=
  compareKeys_encodeChars s.toList s'.toList

end Utf8

/-! ## Keys -/

/-- The natural order of a component's keys. -/
def FixedKey.compare : (k : FixedKey) → k.Value → k.Value → Ordering
  | u8, a, b => Ord.compare a.toNat b.toNat
  | u16, a, b => Ord.compare a.toNat b.toNat
  | u32, a, b => Ord.compare a.toNat b.toNat
  | u64, a, b => Ord.compare a.toNat b.toNat
  | i64, a, b => Ord.compare a.toInt b.toInt
  | array _, a, b => Ord.compare a.1 b.1

theorem FixedKey.compareKeys_encode (k : FixedKey) (a b : k.Value) :
    compareKeys (k.encode a) (k.encode b) = k.compare a b := by
  cases k with
  | u8 => exact compareKeys_toBigEndian a.toNat_lt b.toNat_lt
  | u16 => exact compareKeys_toBigEndian a.toNat_lt b.toNat_lt
  | u32 => exact compareKeys_toBigEndian a.toNat_lt b.toNat_lt
  | u64 => exact compareKeys_toBigEndian a.toNat_lt b.toNat_lt
  | i64 =>
      obtain ⟨ha, ha'⟩ := shift_range a
      obtain ⟨hb, hb'⟩ := shift_range b
      have hcompare : Ord.compare (a.toInt + signShift).toNat (b.toInt + signShift).toNat
          = Ord.compare a.toInt b.toInt := by
        -- the shift leaves the order of numbers as it is
        rcases Int.lt_trichotomy a.toInt b.toInt with hlt | heq | hgt
        · rw [Std.compare_eq_lt.mpr hlt, Nat.compare_eq_lt.mpr (by omega)]
        · rw [heq, Std.ReflOrd.compare_self, Std.ReflOrd.compare_self]
        · rw [Std.compare_eq_gt.mpr hgt, Nat.compare_eq_gt.mpr (by omega)]
      exact (compareKeys_toBigEndian (by omega) (by omega)).trans hcompare
  | array n => exact compareKeys_eq_compare a.1 b.1

namespace KeyShape

/-- The natural order of keys. -/
def compare : (k : KeyShape) → k.Value → k.Value → Ordering
  | fixed k, a, b => k.compare a b
  | text, a, b => Ord.compare (Utf8.codePoints a) (Utf8.codePoints b)
  | bytes, a, b => Ord.compare a b
  | pair head tail, a, b => (head.compare a.1 b.1).then (tail.compare a.2 b.2)

/-- **Written keys are in the natural order of keys.** -/
theorem compareKeys_encode (k : KeyShape) (a b : k.Value) :
    compareKeys (k.encode a) (k.encode b) = k.compare a b := by
  induction k with
  | fixed k => exact k.compareKeys_encode a b
  | text => exact Utf8.compareKeys_encode a b
  | bytes => exact compareKeys_eq_compare a b
  | pair head tail ih =>
      obtain ⟨a₁, a₂⟩ := a
      obtain ⟨b₁, b₂⟩ := b
      have hlen : (head.encode a₁).length = (head.encode b₁).length := by
        rw [head.length_encode, head.length_encode]
      show compareKeys (head.encode a₁ ++ tail.encode a₂) (head.encode b₁ ++ tail.encode b₂) = _
      rw [compareKeys_append hlen, head.compareKeys_encode, ih]
      rfl

instance (k : KeyShape) : Ord k.Value := ⟨k.compare⟩

theorem compare_eq (k : KeyShape) (a b : k.Value) :
    Ord.compare a b = Ord.compare (k.encode a) (k.encode b) :=
  (k.compareKeys_encode a b).symm.trans (compareKeys_eq_compare _ _)

instance (k : KeyShape) : Std.TransOrd k.Value where
  eq_swap {a b} := by
    rw [k.compare_eq, k.compare_eq]
    exact Std.OrientedOrd.eq_swap
  isLE_trans {a b c} hab hbc := by
    rw [k.compare_eq] at hab hbc ⊢
    exact Std.TransCmp.isLE_trans hab hbc

instance (k : KeyShape) : Std.LawfulEqOrd k.Value where
  compare_self {a} := by
    rw [k.compare_eq]
    exact Std.ReflOrd.compare_self
  eq_of_compare {a b} h := by
    rw [k.compare_eq] at h
    exact k.encode_injective (Std.LawfulEqOrd.eq_of_compare h)

end KeyShape

end TableStore
