import TableStore.Engine.Memory
import TableStore.Proofs.NaturalOrder
import TableStore.Transaction

/-!
# Pairs with a head of any length

Texts and byte strings have no width, and a pair may still have one of them as its head. Nothing
is written between the parts of a pair, so a reader of its bytes cannot tell where the head ends,
and neither can the order of bytes: a head that begins another is compared, past its own end, by
what its tail puts there.

What is left of the order depends on the tails, and `open_head_exact` says how. The bytes of pairs
are in order when tails are written as no bytes at all, and for no other type of tails. Different
pairs have different bytes when all tails have one width, and for no other type of tails: the end
of the head is then known from the end of the key. And whatever the tails are, two pairs are
compared as they should be when neither head begins the other.

`two_texts_as_one_key` is the smallest mischief: two pairs of texts that are one key, and two more
that are in the wrong order. Whoever needs such pairs puts the part with a width in front.
-/

namespace TableStore

/-! ## Keys with given bytes -/

theorem FixedKey.exists_replicate (k : FixedKey) (b : UInt8) :
    ∃ v, k.encode v = List.replicate k.width b :=
  ⟨_, k.encode_ofBytes List.length_replicate⟩

namespace KeyShape

/-- The shapes without a width that are no pairs. -/
def isOpen : KeyShape → Bool
  | text => true
  | bytes => true
  | fixed _ => false
  | pair _ _ => false

theorem exists_of_isOpen {k : KeyShape} (h : k.isOpen = true) :
    (∃ v, k.encode v = []) ∧ ∃ v, k.encode v = [0] := by
  cases k with
  | text => exact ⟨⟨"", rfl⟩, ⟨"\u0000", rfl⟩⟩
  | bytes => exact ⟨⟨[], rfl⟩, ⟨[0], rfl⟩⟩
  | fixed k => exact absurd h (by simp [isOpen])
  | pair head tail => exact absurd h (by simp [isOpen])

/-- Some key is written in zeros. -/
theorem exists_zeros (k : KeyShape) : ∃ n v, k.encode v = List.replicate n 0 := by
  induction k with
  | fixed k => exact ⟨k.width, k.exists_replicate 0⟩
  | text => exact ⟨0, "", rfl⟩
  | bytes => exact ⟨0, [], rfl⟩
  | pair head tail ih =>
      obtain ⟨a, ha⟩ := head.exists_replicate 0
      obtain ⟨n, b, hb⟩ := ih
      refine ⟨head.width + n, (a, b), ?_⟩
      show head.encode a ++ tail.encode b = _
      rw [ha, hb, List.replicate_append_replicate]

/-- Without a width, there are two such keys of which one is longer by a zero. -/
theorem exists_zeros_succ {k : KeyShape} (h : k.width? = none) :
    ∃ n v w, k.encode v = List.replicate n 0 ∧ k.encode w = List.replicate (n + 1) 0 := by
  induction k with
  | fixed k => exact absurd h (by simp [width?])
  | text => exact ⟨0, "", "\u0000", rfl, rfl⟩
  | bytes => exact ⟨0, [], [0], rfl, rfl⟩
  | pair head tail ih =>
      obtain ⟨a, ha⟩ := head.exists_replicate 0
      obtain ⟨n, v, w, hv, hw⟩ := ih (Option.map_eq_none_iff.mp h)
      refine ⟨head.width + n, (a, v), (a, w), ?_, ?_⟩
      · show head.encode a ++ tail.encode v = _
        rw [ha, hv, List.replicate_append_replicate]
      · show head.encode a ++ tail.encode w = _
        rw [ha, hw, List.replicate_append_replicate, Nat.add_assoc]

/-- Unless keys are written as no bytes, some key begins with a byte that is not the least. -/
theorem exists_first_pos {k : KeyShape} (h : k.width? ≠ some 0) :
    ∃ v b rest, k.encode v = b :: rest ∧ 0 < b.toNat := by
  have hfixed : ∀ k : FixedKey, k.width ≠ 0 →
      ∃ v b rest, k.encode v = b :: rest ∧ 0 < b.toNat := by
    intro k hk
    obtain ⟨v, hv⟩ := k.exists_replicate 255
    obtain ⟨n, hn⟩ := Nat.exists_eq_succ_of_ne_zero hk
    rw [hn] at hv
    exact ⟨v, 255, List.replicate n 255, hv, by decide⟩
  induction k with
  | fixed k => exact hfixed k (fun hk => h (congrArg some hk))
  | text => exact ⟨"z", 122, [], rfl, by decide⟩
  | bytes => exact ⟨[255], 255, [], rfl, by decide⟩
  | pair head tail ih =>
      by_cases hhead : head.width = 0
      · -- the head is written as nothing, so the first byte is the tail's
        have htail : tail.width? ≠ some 0 := by
          intro ht
          refine h ?_
          show tail.width?.map (head.width + ·) = some 0
          rw [ht, hhead]
          rfl
        obtain ⟨a, ha⟩ := head.exists_replicate 0
        obtain ⟨v, b, rest, hv, hb⟩ := ih htail
        refine ⟨(a, v), b, rest, ?_, hb⟩
        show head.encode a ++ tail.encode v = _
        rw [ha, hhead, hv]
        rfl
      · obtain ⟨a, b, rest, ha, hb⟩ := hfixed head hhead
        obtain ⟨n, v, _⟩ := tail.exists_zeros
        refine ⟨(a, v), b, rest ++ tail.encode v, ?_, hb⟩
        show head.encode a ++ tail.encode v = _
        rw [ha]
        rfl

end KeyShape

namespace WriteOnlyKey

theorem exists_zeros (k : WriteOnlyKey) : ∃ n v, k.encode v = List.replicate n 0 := by
  induction k with
  | of k => exact k.exists_zeros
  | pair head tail ihh iht =>
      obtain ⟨m, a, ha⟩ := ihh
      obtain ⟨n, b, hb⟩ := iht
      refine ⟨m + n, (a, b), ?_⟩
      show head.encode a ++ tail.encode b = _
      rw [ha, hb, List.replicate_append_replicate]

theorem exists_zeros_succ {k : WriteOnlyKey} (h : k.width? = none) :
    ∃ n v w, k.encode v = List.replicate n 0 ∧ k.encode w = List.replicate (n + 1) 0 := by
  induction k with
  | of k => exact KeyShape.exists_zeros_succ h
  | pair head tail ihh iht =>
      cases hhead : head.width? with
      | none =>
          obtain ⟨m, v, w, hv, hw⟩ := ihh hhead
          obtain ⟨n, b, hb⟩ := tail.exists_zeros
          refine ⟨m + n, (v, b), (w, b), ?_, ?_⟩
          · show head.encode v ++ tail.encode b = _
            rw [hv, hb, List.replicate_append_replicate]
          · show head.encode w ++ tail.encode b = _
            rw [hw, hb, List.replicate_append_replicate, Nat.add_right_comm]
      | some l =>
          have htail : tail.width? = none := by
            change head.width?.bind (fun l => tail.width?.map (l + ·)) = none at h
            rw [hhead] at h
            exact Option.map_eq_none_iff.mp h
          obtain ⟨m, a, ha⟩ := head.exists_zeros
          obtain ⟨n, v, w, hv, hw⟩ := iht htail
          refine ⟨m + n, (a, v), (a, w), ?_, ?_⟩
          · show head.encode a ++ tail.encode v = _
            rw [ha, hv, List.replicate_append_replicate]
          · show head.encode a ++ tail.encode w = _
            rw [ha, hw, List.replicate_append_replicate, Nat.add_assoc]

theorem exists_first_pos {k : WriteOnlyKey} (h : k.width? ≠ some 0) :
    ∃ v b rest, k.encode v = b :: rest ∧ 0 < b.toNat := by
  induction k with
  | of k => exact KeyShape.exists_first_pos h
  | pair head tail ihh iht =>
      by_cases hhead : head.width? = some 0
      · have htail : tail.width? ≠ some 0 :=
          fun ht => h (width?_pair_eq_some_iff.mpr ⟨0, 0, hhead, ht, rfl⟩)
        obtain ⟨n, a, _⟩ := head.exists_zeros
        obtain ⟨v, b, rest, hv, hb⟩ := iht htail
        have ha : head.encode a = [] := List.length_eq_zero_iff.mp (length_encode hhead a)
        refine ⟨(a, v), b, rest, ?_, hb⟩
        show head.encode a ++ tail.encode v = _
        rw [ha, hv]
        rfl
      · obtain ⟨a, b, rest, ha, hb⟩ := ihh hhead
        obtain ⟨n, v, _⟩ := tail.exists_zeros
        refine ⟨(a, v), b, rest ++ tail.encode v, ?_, hb⟩
        show head.encode a ++ tail.encode v = _
        rw [ha]
        rfl

/-! ## What is left of the order -/

/-- Whether the bytes of keys are in the order of the keys. -/
def KeepsOrder (k : WriteOnlyKey) : Prop :=
  ∀ x y : k.Value, compareKeys (k.encode x) (k.encode y) = k.compare x y

/-- Whether different keys are written differently. -/
def KeepsApart (k : WriteOnlyKey) : Prop := ∀ x y : k.Value, k.encode x = k.encode y → x = y

theorem KeepsOrder.keepsApart {k : WriteOnlyKey} (h : k.KeepsOrder) : k.KeepsApart := by
  intro x y hxy
  rw [← k.compare_eq_eq_iff, ← h x y, hxy, compareKeys_self]

theorem keepsOrder_of_isDelimited {k : WriteOnlyKey} (h : k.isDelimited = true) : k.KeepsOrder :=
  compareKeys_encode h

end WriteOnlyKey

/-- Fronts of which neither begins the other are compared before what follows them. -/
theorem compareKeys_append_of_not_isPrefix {a b : Bytes} (hab : ¬ a <+: b) (hba : ¬ b <+: a)
    (x y : Bytes) : compareKeys (a ++ x) (b ++ y) = compareKeys a b := by
  induction a generalizing b with
  | nil => exact absurd List.nil_prefix hab
  | cons c as ih =>
      cases b with
      | nil => exact absurd List.nil_prefix hba
      | cons d bs =>
          rw [List.cons_append, List.cons_append, compareKeys, compareKeys]
          cases hcd : compare c d with
          | lt => rfl
          | gt => rfl
          | eq =>
              obtain rfl := Std.LawfulEqOrd.eq_of_compare hcd
              have hrest := ih (fun hp => hab ((List.prefix_cons_inj c).mpr hp))
                (fun hp => hba ((List.prefix_cons_inj c).mpr hp))
              rw [hrest]

namespace WriteOnlyKey

variable {head : KeyShape} {tail : WriteOnlyKey}

/-- A longer head, and a tail that begins with more than a zero: the order is turned around. -/
theorem not_keepsOrder_of_open (hopen : head.isOpen = true) (htail : tail.width? ≠ some 0) :
    ¬ (pair (of head) tail).KeepsOrder := by
  intro hkeeps
  obtain ⟨⟨e, he⟩, z, hz⟩ := KeyShape.exists_of_isOpen hopen
  obtain ⟨v, b, rest, hv, hb⟩ := exists_first_pos htail
  have hheads : head.compare e z = .lt := by
    rw [← head.compareKeys_encode, he, hz]
    rfl
  have hkeys : (pair (of head) tail).compare (e, v) (z, v) = .lt := by
    show (head.compare e z).then (tail.compare v v) = .lt
    rw [hheads]
    rfl
  have hbytes : compareKeys ((pair (of head) tail).encode (e, v))
      ((pair (of head) tail).encode (z, v)) = .gt := by
    show compareKeys (head.encode e ++ tail.encode v) (head.encode z ++ tail.encode v) = .gt
    have hfirst : compareKeys (0 :: b :: rest) (b :: rest) = .lt :=
      compareKeys_cons_of_lt (show (0 : UInt8).toNat < b.toNat from hb) _ _
    rw [he, hz, hv]
    exact compareKeys_gt_iff.mpr hfirst
  rw [hkeeps, hkeys] at hbytes
  exact absurd hbytes (by simp)

/-- A byte that ends the head of one pair begins the tail of another. -/
theorem not_keepsApart_of_open (hopen : head.isOpen = true) (htail : tail.width? = none) :
    ¬ (pair (of head) tail).KeepsApart := by
  intro hkeeps
  obtain ⟨⟨e, he⟩, z, hz⟩ := KeyShape.exists_of_isOpen hopen
  obtain ⟨n, v, w, hv, hw⟩ := exists_zeros_succ htail
  have hbytes : (pair (of head) tail).encode (e, w) = (pair (of head) tail).encode (z, v) := by
    show head.encode e ++ tail.encode w = head.encode z ++ tail.encode v
    rw [he, hz, hv, hw]
    rfl
  have hsame : e = z := (Prod.mk.inj (hkeeps _ _ hbytes)).1
  rw [hsame, hz] at he
  exact absurd he (by simp)

theorem keepsOrder_of_blank_tail (htail : tail.width? = some 0) :
    (pair (of head) tail).KeepsOrder := by
  rintro ⟨a, v⟩ ⟨b, w⟩
  have hblank : ∀ v, tail.encode v = [] :=
    fun v => List.length_eq_zero_iff.mp (length_encode htail v)
  -- there is one tail only, for one key is written as no bytes
  have hsame : tail.compare v w = .eq := by
    rw [← compareKeys_encode (isDelimited_of_width htail), hblank, hblank]
    rfl
  show compareKeys (head.encode a ++ tail.encode v) (head.encode b ++ tail.encode w)
    = (head.compare a b).then (tail.compare v w)
  rw [hblank, hblank, hsame, List.append_nil, List.append_nil, head.compareKeys_encode,
    Ordering.then_eq]

theorem keepsApart_of_width {n : Nat} (htail : tail.width? = some n) :
    (pair (of head) tail).KeepsApart := by
  rintro ⟨a, v⟩ ⟨b, w⟩ hbytes
  change head.encode a ++ tail.encode v = head.encode b ++ tail.encode w at hbytes
  have hlen : (tail.encode v).length = (tail.encode w).length := by
    rw [length_encode htail, length_encode htail]
  obtain ⟨hheads, htails⟩ := List.append_inj' hbytes hlen
  have htailsApart := (keepsOrder_of_isDelimited (isDelimited_of_width htail)).keepsApart
  rw [head.encode_injective hheads, htailsApart v w htails]

theorem compareKeys_encode_of_apart (htail : tail.KeepsOrder) {x y : (pair (of head) tail).Value}
    (hxy : head.encode x.1 <+: head.encode y.1 → x.1 = y.1)
    (hyx : head.encode y.1 <+: head.encode x.1 → x.1 = y.1) :
    compareKeys ((pair (of head) tail).encode x) ((pair (of head) tail).encode y)
      = (pair (of head) tail).compare x y := by
  obtain ⟨a, v⟩ := x
  obtain ⟨b, w⟩ := y
  show compareKeys (head.encode a ++ tail.encode v) (head.encode b ++ tail.encode w)
    = (head.compare a b).then (tail.compare v w)
  by_cases hab : a = b
  · rw [hab, compareKeys_append rfl, htail, head.compareKeys_encode]
  · have hne : head.compare a b ≠ .eq :=
      fun heq => hab ((of head).compare_eq_eq_iff a b |>.mp heq)
    rw [compareKeys_append_of_not_isPrefix (fun hp => hab (hxy hp)) (fun hp => hab (hyx hp)),
      head.compareKeys_encode]
    cases hc : head.compare a b with
    | lt => rfl
    | eq => exact absurd hc hne
    | gt => rfl

/--
**Pairs with a text or a byte string in front.** Their bytes are in the order of the pairs just
when the type of their tails is written as no bytes, and different pairs have different bytes just
when the type of their tails has one width. Two pairs of any such type are compared by their heads
and then by their tails when neither head begins the other, if tails are compared rightly.
-/
theorem open_head_exact (hopen : head.isOpen = true) (tail : WriteOnlyKey) :
    ((pair (of head) tail).KeepsOrder ↔ tail.width? = some 0)
    ∧ ((pair (of head) tail).KeepsApart ↔ tail.width?.isSome = true)
    ∧ (tail.KeepsOrder → ∀ x y : (pair (of head) tail).Value,
        (head.encode x.1 <+: head.encode y.1 → x.1 = y.1) →
        (head.encode y.1 <+: head.encode x.1 → x.1 = y.1) →
        compareKeys ((pair (of head) tail).encode x) ((pair (of head) tail).encode y)
          = (pair (of head) tail).compare x y) := by
  refine ⟨⟨fun hkeeps => ?_, keepsOrder_of_blank_tail⟩, ⟨fun hkeeps => ?_, fun hsome => ?_⟩,
    fun htail x y hxy hyx => compareKeys_encode_of_apart htail hxy hyx⟩
  · by_cases htail : tail.width? = some 0
    · exact htail
    · exact absurd hkeeps (not_keepsOrder_of_open hopen htail)
  · cases htail : tail.width? with
    | some n => rfl
    | none => exact absurd hkeeps (not_keepsApart_of_open hopen htail)
  · obtain ⟨n, hn⟩ := Option.isSome_iff_exists.mp hsome
    exact keepsApart_of_width hn

/-- Behind a text, a number of four bytes: heads that end in different letters are in order. -/
theorem open_head_exact_text_and_number :
    let tail : WriteOnlyKey := .of (.fixed .u32)
    let k : WriteOnlyKey := .pair (.of .text) tail
    KeyShape.text.isOpen = true ∧ tail.KeepsOrder ∧ k.KeepsApart ∧ ¬ k.KeepsOrder
      ∧ compareKeys (k.encode ("ab", 7)) (k.encode ("az", 0)) = k.compare ("ab", 7) ("az", 0) := by
  intro tail k
  have htail : tail.KeepsOrder := keepsOrder_of_isDelimited rfl
  obtain ⟨horder, hapart, hpairs⟩ := open_head_exact (show KeyShape.text.isOpen = true from rfl) tail
  refine ⟨rfl, htail, hapart.mpr rfl, fun hk => ?_, hpairs htail ("ab", 7) ("az", 0) ?_ ?_⟩
  · exact absurd (horder.mp hk) (by decide)
  · exact fun hp => absurd hp (by decide)
  · exact fun hp => absurd hp (by decide)

/-- Two texts. One pair is written as another is, so a row that is set under the second takes the
place of the first one's; and a pair is written before another that it should come after. -/
theorem two_texts_as_one_key :
    let k : WriteOnlyKey := .pair (.of .text) (.of .text)
    let r : Repository MemoryEngine :=
      { engine := {}, registry := {}, config := {}, lockHeld := true }
    let t : Transaction := { mode := .readWrite, holdsWriter := true }
    let first := t.put r "t" (k.encode ("a", "b")) [1]
    let second := first.2.1.put first.2.2 "t" (k.encode ("ab", "")) [2]
    k.compare ("a", "b") ("ab", "") = .lt
      ∧ k.encode ("a", "b") = k.encode ("ab", "")
      ∧ first.1 = .ok () ∧ second.1 = .ok ()
      ∧ second.2.1.get second.2.2 "t" (k.encode ("a", "b")) = .ok (some [2])
      ∧ k.compare ("a", "z") ("ab", "a") = .lt
      ∧ compareKeys (k.encode ("a", "z")) (k.encode ("ab", "a")) = .gt := by
  decide +kernel

end WriteOnlyKey

end TableStore
