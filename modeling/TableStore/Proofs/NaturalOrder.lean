import TableStore.Proofs.KeyOrder

/-!
# Which key types are written in order

The order of keys has two forms here. `compare` answers which of two keys comes first, and `Less`
says what that means: numbers by size, negative ones before zero; sequences by their first
difference, and a sequence before those that it begins; pairs by their heads and, where these are
the same, by their tails. The two agree (`compare_eq_lt_iff`), so nothing is hidden in the way a
comparison is put together.

Pairs can be written with any head, and whether their bytes are in order depends on the head. It
is enough that the head of every pair has one width (`WriteOnlyKey.isDelimited`), however deep
pairs stand in pairs, on either side: then bytes and keys are in the same order
(`encode_in_order`). A head without a width breaks this; `TableStore.Proofs.OpenHead` says when.
-/

namespace TableStore

/-! ## Less, as a relation -/

/-- The natural strict order of a component's keys. -/
def FixedKey.Less : (k : FixedKey) → k.Value → k.Value → Prop
  | u8, a, b => a.toNat < b.toNat
  | u16, a, b => a.toNat < b.toNat
  | u32, a, b => a.toNat < b.toNat
  | u64, a, b => a.toNat < b.toNat
  | i64, a, b => a.toInt < b.toInt
  | array _, a, b => List.Lex (· < ·) a.1 b.1

/-- The natural strict order of keys. Texts are compared by their code points. -/
def KeyShape.Less : (k : KeyShape) → k.Value → k.Value → Prop
  | fixed k, a, b => k.Less a b
  | text, a, b => List.Lex (· < ·) (Utf8.codePoints a) (Utf8.codePoints b)
  | bytes, a, b => List.Lex (· < ·) a b
  | pair head tail, a, b => Prod.Lex head.Less tail.Less a b

namespace WriteOnlyKey

/-- The natural strict order of keys that can be written. -/
def Less : (k : WriteOnlyKey) → k.Value → k.Value → Prop
  | of k, a, b => k.Less a b
  | pair head tail, a, b => Prod.Lex head.Less tail.Less a b

/-- The natural order of keys that can be written: pairs by their heads and then by their tails. -/
def compare : (k : WriteOnlyKey) → k.Value → k.Value → Ordering
  | of k, a, b => k.compare a b
  | pair head tail, a, b => (head.compare a.1 b.1).then (tail.compare a.2 b.2)

end WriteOnlyKey

/-- The comparison of lists is their lexicographic order. -/
theorem compare_list_eq_lt_iff {α : Type} [Ord α] [LT α] [LE α] [Std.LawfulOrderOrd α]
    [Std.LawfulOrderLT α] [Std.LawfulEqOrd α] (as bs : List α) :
    compare as bs = .lt ↔ List.Lex (· < ·) as bs := by
  show List.compareLex compare as bs = .lt ↔ _
  induction as generalizing bs with
  | nil =>
      cases bs with
      | nil => simp [List.compareLex_nil_nil]
      | cons b bs => simp [List.compareLex_nil_cons]
  | cons a as ih =>
      cases bs with
      | nil => simp [List.compareLex_cons_nil]
      | cons b bs =>
          rw [List.compareLex_cons_cons, Ordering.then_eq_lt, Std.compare_eq_lt,
            Std.LawfulEqOrd.compare_eq_iff_eq, ih, List.cons_lex_cons_iff]

namespace FixedKey

theorem compare_eq_lt_iff (k : FixedKey) (a b : k.Value) : k.compare a b = .lt ↔ k.Less a b := by
  cases k with
  | u8 => exact Nat.compare_eq_lt
  | u16 => exact Nat.compare_eq_lt
  | u32 => exact Nat.compare_eq_lt
  | u64 => exact Nat.compare_eq_lt
  | i64 => exact Std.compare_eq_lt
  | array n => exact compare_list_eq_lt_iff a.1 b.1

theorem compare_eq_eq_iff (k : FixedKey) (a b : k.Value) : k.compare a b = .eq ↔ a = b := by
  rw [← k.compareKeys_encode]
  constructor
  · exact fun h => (KeyShape.fixed k).encode_injective (eq_of_compareKeys h)
  · rintro rfl
    exact compareKeys_self _

end FixedKey

theorem KeyShape.compare_eq_lt_iff (k : KeyShape) (a b : k.Value) :
    k.compare a b = .lt ↔ k.Less a b := by
  induction k with
  | fixed k => exact k.compare_eq_lt_iff a b
  | text => exact compare_list_eq_lt_iff _ _
  | bytes => exact compare_list_eq_lt_iff _ _
  | pair head tail ih =>
      show (head.compare a.1 b.1).then (tail.compare a.2 b.2) = .lt ↔ Prod.Lex _ _ a b
      rw [Ordering.then_eq_lt, head.compare_eq_lt_iff, head.compare_eq_eq_iff, ih, Prod.lex_def]

namespace WriteOnlyKey

theorem compare_eq_eq_iff (k : WriteOnlyKey) (a b : k.Value) : k.compare a b = .eq ↔ a = b := by
  induction k with
  | of k => exact Std.LawfulEqOrd.compare_eq_iff_eq (α := k.Value)
  | pair head tail ihh iht =>
      show (head.compare a.1 b.1).then (tail.compare a.2 b.2) = .eq ↔ a = b
      rw [Ordering.then_eq_eq, ihh, iht, Prod.ext_iff]

theorem compare_eq_lt_iff (k : WriteOnlyKey) (a b : k.Value) :
    k.compare a b = .lt ↔ k.Less a b := by
  induction k with
  | of k => exact k.compare_eq_lt_iff a b
  | pair head tail ihh iht =>
      show (head.compare a.1 b.1).then (tail.compare a.2 b.2) = .lt ↔ Prod.Lex _ _ a b
      rw [Ordering.then_eq_lt, ihh, head.compare_eq_eq_iff, iht, Prod.lex_def]

end WriteOnlyKey

/-! ## Widths -/

/-- The length of every encoding, if there is one length. -/
def KeyShape.width? : KeyShape → Option Nat
  | fixed k => some k.width
  | text => none
  | bytes => none
  | pair head tail => tail.width?.map (head.width + ·)

theorem KeyShape.length_encode {k : KeyShape} {n : Nat} (h : k.width? = some n) (v : k.Value) :
    (k.encode v).length = n := by
  induction k generalizing n with
  | fixed k => exact (k.length_encode v).trans (Option.some.inj h)
  | text => exact absurd h (by simp [width?])
  | bytes => exact absurd h (by simp [width?])
  | pair head tail ih =>
      obtain ⟨a, b⟩ := v
      obtain ⟨m, hm, hn⟩ := Option.map_eq_some_iff.mp h
      show (head.encode a ++ tail.encode b).length = n
      rw [List.length_append, head.length_encode, ih hm, hn]

namespace WriteOnlyKey

/-- The length of every encoding, if there is one length. -/
def width? : WriteOnlyKey → Option Nat
  | of k => k.width?
  | pair head tail => head.width?.bind (fun l => tail.width?.map (l + ·))

/-- Whether the head of every pair has one width. -/
def isDelimited : WriteOnlyKey → Bool
  | of _ => true
  | pair head tail => head.width?.isSome && tail.isDelimited

theorem width?_pair_eq_some_iff {head tail : WriteOnlyKey} {n : Nat} :
    (pair head tail).width? = some n
      ↔ ∃ l m, head.width? = some l ∧ tail.width? = some m ∧ l + m = n := by
  show head.width?.bind (fun l => tail.width?.map (l + ·)) = some n ↔ _
  simp only [Option.bind_eq_some_iff, Option.map_eq_some_iff, exists_and_left]

theorem length_encode {k : WriteOnlyKey} {n : Nat} (h : k.width? = some n) (v : k.Value) :
    (k.encode v).length = n := by
  induction k generalizing n with
  | of k => exact KeyShape.length_encode h v
  | pair head tail ihh iht =>
      obtain ⟨a, b⟩ := v
      obtain ⟨l, m, hl, hm, rfl⟩ := width?_pair_eq_some_iff.mp h
      show (head.encode a ++ tail.encode b).length = _
      rw [List.length_append, ihh hl, iht hm]

theorem isDelimited_of_width {k : WriteOnlyKey} {n : Nat} (h : k.width? = some n) :
    k.isDelimited = true := by
  induction k generalizing n with
  | of k => rfl
  | pair head tail ihh iht =>
      obtain ⟨l, m, hl, hm, _⟩ := width?_pair_eq_some_iff.mp h
      show (head.width?.isSome && tail.isDelimited) = true
      rw [hl, iht hm]
      rfl

/-! ## The order of bytes -/

/-- Behind heads of one width, the bytes of pairs are compared like the pairs. -/
theorem compareKeys_encode {k : WriteOnlyKey} (h : k.isDelimited = true) (a b : k.Value) :
    compareKeys (k.encode a) (k.encode b) = k.compare a b := by
  induction k with
  | of k => exact k.compareKeys_encode a b
  | pair head tail ihh iht =>
      obtain ⟨a₁, a₂⟩ := a
      obtain ⟨b₁, b₂⟩ := b
      obtain ⟨hhead, htail⟩ := (Bool.and_eq_true _ _).mp h
      obtain ⟨n, hn⟩ := Option.isSome_iff_exists.mp hhead
      have hlen : (head.encode a₁).length = (head.encode b₁).length := by
        rw [length_encode hn, length_encode hn]
      show compareKeys (head.encode a₁ ++ tail.encode a₂) (head.encode b₁ ++ tail.encode b₂) = _
      rw [compareKeys_append hlen, ihh (isDelimited_of_width hn), iht htail]
      rfl

/--
**The bytes of keys are in the order of the keys.** Take numbers with or without a sign, byte
strings of one length or of any, texts, and pairs of them whose heads have one width, nested to any
depth. Of two keys the bytes of the lesser come first, and the same bytes are written for the same
key only.
-/
theorem encode_in_order (k : WriteOnlyKey) (h : k.isDelimited = true) (a b : k.Value) :
    (compareKeys (k.encode a) (k.encode b) = .lt ↔ k.Less a b)
    ∧ (compareKeys (k.encode a) (k.encode b) = .eq ↔ a = b)
    ∧ (compareKeys (k.encode a) (k.encode b) = .gt ↔ k.Less b a) := by
  have horder := compareKeys_encode h
  refine ⟨?_, ?_, ?_⟩
  · rw [horder, k.compare_eq_lt_iff]
  · rw [horder, k.compare_eq_eq_iff]
  · rw [compareKeys_gt_iff, horder, k.compare_eq_lt_iff]

/-- A head that is itself a pair of one width: numbers below zero go before those above it, and
texts behind the same head are in the order of their characters, whatever number of bytes these
take. -/
theorem encode_in_order_nested :
    let k : WriteOnlyKey := .pair (.pair (.of (.fixed .i64)) (.of (.fixed (.array 2)))) (.of .text)
    let below : k.Value := ((-1, ⟨[255, 255], rfl⟩), "z")
    let above : k.Value := ((1, ⟨[0, 0], rfl⟩), "a�")
    let last : k.Value := ((1, ⟨[0, 0], rfl⟩), "a😀")
    k.isDelimited = true
      ∧ compareKeys (k.encode below) (k.encode above) = .lt
      ∧ compareKeys (k.encode above) (k.encode last) = .lt := by
  intro k below above last
  have hk : k.isDelimited = true := rfl
  have hsigns : (-1 : Int64).toInt < (1 : Int64).toInt := by decide
  have hnumbers : k.Less below above := .left _ _ (.left _ _ hsigns)
  have htexts : k.Less above last := .right _ (.cons (.rel (by decide)))
  exact ⟨hk, (encode_in_order k hk below above).1.mpr hnumbers,
    (encode_in_order k hk above last).1.mpr htexts⟩

end WriteOnlyKey

end TableStore
