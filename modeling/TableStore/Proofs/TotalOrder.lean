import TableStore.Config
import TableStore.Proofs.NaturalOrder
import TableStore.Proofs.SortedMap

/-!
# One order of keys, however it is looked at

The engine, the buffer of a transaction, the bounds of a range and the merge of two walks each
compare keys for themselves, and each relies on another side of the same order. Here the sides are
put together.

`compareKeys` goes through both keys at once. Seen from outside this is a walk to the first place
where the keys differ, with their lengths deciding if there is none (`compareKeys_eq_walk`). It is
the lexicographic order of the bytes, the one by which maps look keys up. A table's byte in front
of two keys changes nothing about them, so a table is sorted alike under its own keys and under
the engine's (`sortByKey_underSlot`, `ascending_underSlot_iff`), and tables lie one behind the
other in the order of their bytes. `compareKeys_is_total_order` is all of it, and
`eq_compareKeys` says that nothing is missing: no other comparison obeys the same laws.
-/

namespace TableStore

/-! ## The walk over two keys -/

/-- The bytes at the first place where two keys differ, as far as both go. -/
def firstDifference? (a b : Bytes) : Option (UInt8 × UInt8) :=
  (a.zip b).find? (fun p => p.1 != p.2)

/-- **The first difference decides,** and where there is none the lengths do. -/
theorem compareKeys_eq_walk (a b : Bytes) :
    compareKeys a b = (firstDifference? a b).elim (compare a.length b.length)
      (fun p => compare p.1 p.2) := by
  induction a generalizing b with
  | nil =>
      cases b with
      | nil => rfl
      | cons y ys =>
          show Ordering.lt = compare 0 (ys.length + 1)
          exact (Nat.compare_eq_lt.mpr (Nat.succ_pos _)).symm
  | cons x xs ih =>
      cases b with
      | nil =>
          show Ordering.gt = compare (xs.length + 1) 0
          exact (Nat.compare_eq_gt.mpr (Nat.succ_pos _)).symm
      | cons y ys =>
          unfold firstDifference?
          rw [compareKeys, List.zip_cons_cons, List.find?_cons]
          by_cases hxy : x = y
          · -- the walk goes on, and both lengths shrink by one
            subst hxy
            have hlen : compare (xs.length + 1) (ys.length + 1) = compare xs.length ys.length := by
              rw [Nat.compare_eq_ite_lt, Nat.compare_eq_ite_lt]
              simp only [Nat.succ_lt_succ_iff]
            rw [Std.ReflOrd.compare_self, List.length_cons, List.length_cons, hlen]
            simpa [firstDifference?] using ih ys
          · -- the walk ends here, and so does the recursion
            have hne : compare x y ≠ .eq := fun h => hxy (Std.LawfulEqOrd.eq_of_compare h)
            have hstop : (x != y) = true := bne_iff_ne.mpr hxy
            rw [hstop]
            show (compare x y).then _ = compare x y
            cases hc : compare x y with
            | lt => rfl
            | eq => exact absurd hc hne
            | gt => rfl

/-- A key lies before the longer keys that it begins. -/
theorem compareKeys_lt_of_isPrefix {a b : Bytes} (h : a <+: b) (hne : a ≠ b) :
    compareKeys a b = .lt := by
  obtain ⟨t, ht⟩ := h
  subst ht
  cases t with
  | nil => exact absurd (List.append_nil a).symm hne
  | cons x t =>
      have hfront := compareKeys_append (rfl : a.length = a.length) [] (x :: t)
      rw [List.append_nil, compareKeys_self] at hfront
      exact hfront

/-! ## Keys of a table, and the keys of the engine -/

/-- Something keyed in a table, under the key that it has in the engine. -/
def underSlot {α : Type} (slot : UInt8) (keyed : Bytes × α) : Bytes × α :=
  (physicalKey slot keyed.1, keyed.2)

/-- Tables lie in the order of their bytes, whatever their keys are. -/
theorem compareKeys_physicalKey_of_lt {p q : UInt8} (h : p < q) (a b : Bytes) :
    compareKeys (physicalKey p a) (physicalKey q b) = .lt :=
  compareKeys_cons_of_lt (UInt8.lt_iff_toNat_lt.mp h) a b

/-- **Sorting a table by its own keys or by the engine's is the same.** -/
theorem sortByKey_underSlot {α : Type} (slot : UInt8) (keyed : List (Bytes × α)) :
    sortByKey (keyed.map (underSlot slot)) = (sortByKey keyed).map (underSlot slot) := by
  refine (List.map_mergeSort (fun x _ y _ => ?_)).symm
  show (compareKeys x.1 y.1 != .gt)
    = (compareKeys (physicalKey slot x.1) (physicalKey slot y.1) != .gt)
  rw [compareKeys_physicalKey]

/-- Bindings ascend by the table's keys exactly if they ascend by the engine's. -/
theorem ascending_underSlot_iff {α : Type} (slot : UInt8) (bindings : List (Bytes × α)) :
    Ascending (bindings.map (underSlot slot)) ↔ Ascending bindings := by
  unfold Ascending
  rw [List.pairwise_map]
  refine List.Pairwise.iff (fun x y => ?_)
  show compare (physicalKey slot x.1) (physicalKey slot y.1) = .lt ↔ compare x.1 y.1 = .lt
  rw [← compareKeys_eq_compare, ← compareKeys_eq_compare, compareKeys_physicalKey]

/-! ## The order as a whole -/

/--
**The order of keys is total, lexicographic and one for all layers.** Of two keys one lies before
the other unless they are the same, whichever is asked about first, and before is transitive. The
walk to the first difference, the order of lists in which maps look keys up and the lexicographic
order of bytes are this order; in particular a key lies before those that it begins. Under the
byte of a table two keys compare, and any rows are sorted, as without it, and all keys under one
byte lie before all keys under a larger one.
-/
theorem compareKeys_is_total_order (a b c : Bytes) (p q : UInt8) :
    (compareKeys a b = .eq ↔ a = b)
    ∧ compareKeys b a = (compareKeys a b).swap
    ∧ (compareKeys a b = .lt → compareKeys b c = .lt → compareKeys a c = .lt)
    ∧ (a <+: b → a ≠ b → compareKeys a b = .lt)
    ∧ compareKeys a b = (firstDifference? a b).elim (compare a.length b.length)
        (fun d => compare d.1 d.2)
    ∧ compareKeys a b = compare a b
    ∧ (compareKeys a b = .lt ↔ List.Lex (· < ·) a b)
    ∧ compareKeys (physicalKey p a) (physicalKey p b) = compareKeys a b
    ∧ (∀ keyed : List (Bytes × Bytes),
        sortByKey (keyed.map (underSlot p)) = (sortByKey keyed).map (underSlot p)
        ∧ (Ascending (keyed.map (underSlot p)) ↔ Ascending keyed))
    ∧ (p < q → compareKeys (physicalKey p a) (physicalKey q b) = .lt) := by
  have heq : compareKeys a b = .eq ↔ a = b := by
    constructor
    · exact eq_of_compareKeys
    · intro h
      rw [h, compareKeys_self]
  have hlex : compareKeys a b = .lt ↔ List.Lex (· < ·) a b := by
    rw [compareKeys_eq_compare]
    exact compare_list_eq_lt_iff a b
  refine ⟨heq, compareKeys_swap a b, compareKeys_lt_trans, compareKeys_lt_of_isPrefix,
    compareKeys_eq_walk a b, compareKeys_eq_compare a b, hlex, compareKeys_physicalKey p a b, ?_,
    fun h => compareKeys_physicalKey_of_lt h a b⟩
  exact fun keyed => ⟨sortByKey_underSlot p keyed, ascending_underSlot_iff p keyed⟩

/-- Three keys of which the first begins the second and the third parts from both, under the first
and the last byte that tables have. -/
theorem compareKeys_is_total_order_parting :
    compareKeys [7, 0] [7, 0, 0] = .lt ∧ compareKeys [7, 0, 0] [7, 1] = .lt
      ∧ compareKeys [7, 0] [7, 1] = .lt
      ∧ compareKeys (physicalKey firstSlot [7, 0]) (physicalKey lastSlot [7, 0, 0]) = .lt := by
  have hslot : firstSlot < lastSlot := by decide
  obtain ⟨_, _, htrans, hbegins, _, _, _, _, _, hslots⟩ :=
    compareKeys_is_total_order [7, 0] [7, 0, 0] [7, 1] firstSlot lastSlot
  have hfirst := hbegins ⟨[0], rfl⟩ (by decide)
  have hsecond : compareKeys [7, 0, 0] [7, 1] = .lt := by decide
  exact ⟨hfirst, hsecond, htrans hfirst hsecond, hslots hslot⟩

/-- **The laws leave no choice.** A comparison that calls a key equal to itself, turns around with
its arguments, puts a key before those that it begins, and looks behind a first byte only where
both keys have the same, is the order of keys. -/
theorem eq_compareKeys {cmp : Bytes → Bytes → Ordering} (hself : ∀ a, cmp a a = .eq)
    (hswap : ∀ a b, cmp b a = (cmp a b).swap)
    (hbegins : ∀ a b, a <+: b → a ≠ b → cmp a b = .lt)
    (hsame : ∀ p a b, cmp (physicalKey p a) (physicalKey p b) = cmp a b)
    (hslots : ∀ p q a b, p < q → cmp (physicalKey p a) (physicalKey q b) = .lt) :
    cmp = compareKeys := by
  funext a b
  induction a generalizing b with
  | nil =>
      cases b with
      | nil => exact hself []
      | cons y ys => exact hbegins [] (y :: ys) List.nil_prefix (List.cons_ne_nil y ys).symm
  | cons x xs ih =>
      cases b with
      | nil =>
          rw [hswap [], hbegins [] (x :: xs) List.nil_prefix (List.cons_ne_nil x xs).symm]
          rfl
      | cons y ys =>
          rcases Nat.lt_trichotomy x.toNat y.toNat with hlt | heq | hgt
          · have hxy : x < y := UInt8.lt_iff_toNat_lt.mpr hlt
            exact (hslots x y xs ys hxy).trans (compareKeys_physicalKey_of_lt hxy xs ys).symm
          · obtain rfl := UInt8.toNat_inj.mp heq
            exact (hsame x xs ys).trans ((ih ys).trans (compareKeys_physicalKey x xs ys).symm)
          · have hyx : y < x := UInt8.lt_iff_toNat_lt.mpr hgt
            rw [hswap (y :: ys), compareKeys_swap (y :: ys)]
            exact congrArg Ordering.swap
              ((hslots y x ys xs hyx).trans (compareKeys_physicalKey_of_lt hyx ys xs).symm)

end TableStore
