import TableStore.Key.Range

/-!
# Which keys a range contains

Three things about `KeyRange`. A bound is monotone: what lies beyond a key on the right
side of it is on the right side too. Bounds that are called empty contain nothing, and
between any others an ordered map can be walked (`KeyRange.Walkable`). And clamping is
exact: the physical range of a table's range contains the keys of that table's own slot
that the range contains, and no others (`contains_toPhysical`), so a walk over it can
never leave the table.
-/

namespace TableStore

/-! ## The order of keys -/

theorem compareKeys_self (a : Bytes) : compareKeys a a = .eq := by
  rw [compareKeys_eq_compare, Std.ReflOrd.compare_self]

theorem eq_of_compareKeys {a b : Bytes} (h : compareKeys a b = .eq) : a = b := by
  rw [compareKeys_eq_compare] at h
  exact Std.LawfulEqOrd.eq_of_compare h

theorem compareKeys_swap (a b : Bytes) : compareKeys b a = (compareKeys a b).swap := by
  rw [compareKeys_eq_compare, compareKeys_eq_compare]
  exact Std.OrientedOrd.eq_swap

theorem compareKeys_lt_trans {a b c : Bytes} (hab : compareKeys a b = .lt)
    (hbc : compareKeys b c = .lt) : compareKeys a c = .lt := by
  rw [compareKeys_eq_compare] at hab hbc ⊢
  exact Std.TransCmp.lt_trans hab hbc

theorem compareKeys_gt_iff {a b : Bytes} : compareKeys a b = .gt ↔ compareKeys b a = .lt := by
  rw [compareKeys_swap a b]
  cases compareKeys a b <;> simp

/-- A key that is not before another is after it or the same. -/
theorem compareKeys_ne_lt {a b : Bytes} (h : compareKeys a b ≠ .lt) :
    a = b ∨ compareKeys b a = .lt := by
  cases hc : compareKeys a b with
  | lt => exact absurd hc h
  | eq => exact Or.inl (eq_of_compareKeys hc)
  | gt => exact Or.inr (compareKeys_gt_iff.mp hc)

/-! ## Bounds -/

/-- What lies past a key that is past the lower bound is past the lower bound. -/
theorem Bound.below_of_lt {b : Bound} {a k : Bytes} (ha : b.below a = true)
    (h : compareKeys a k = .lt) : b.below k = true := by
  cases b with
  | unbounded => rfl
  | included s =>
      simp only [Bound.below, bne_iff_ne, ne_eq] at ha ⊢
      exact fun hk => ha (compareKeys_lt_trans h hk)
  | excluded s =>
      simp only [Bound.below, beq_iff_eq] at ha ⊢
      exact compareKeys_gt_iff.mpr (compareKeys_lt_trans (compareKeys_gt_iff.mp ha) h)

/-- What lies before a key that is before the upper bound is before the upper bound. -/
theorem Bound.above_of_lt {b : Bound} {a k : Bytes} (ha : b.above a = true)
    (h : compareKeys k a = .lt) : b.above k = true := by
  cases b with
  | unbounded => rfl
  | included e =>
      simp only [Bound.above, bne_iff_ne, ne_eq] at ha ⊢
      intro hk
      exact ha (compareKeys_gt_iff.mpr (compareKeys_lt_trans (compareKeys_gt_iff.mp hk) h))
  | excluded e =>
      simp only [Bound.above, beq_iff_eq] at ha ⊢
      exact compareKeys_lt_trans h ha

/-- The key of a bound, if it has one. -/
def Bound.key? : Bound → Option Bytes
  | unbounded => none
  | included k => some k
  | excluded k => some k

namespace KeyRange

theorem contains_iff {r : KeyRange} {k : Bytes} :
    r.contains k = true ↔ r.start.below k = true ∧ r.stop.above k = true := by
  simp [contains, aboveStart, belowEnd]

/-- **Bounds that are called empty rule every key out.** -/
theorem not_contains_of_isEmpty {r : KeyRange} (h : r.isEmpty = true) (k : Bytes) :
    r.contains k = false := by
  obtain ⟨start, stop⟩ := r
  refine Bool.eq_false_iff.mpr (fun hk => ?_)
  -- a key between the bounds would put them in order
  obtain ⟨hs, he⟩ := contains_iff.mp hk
  cases start with
  | unbounded => simp [isEmpty] at h
  | included s =>
      simp only [Bound.below, bne_iff_ne, ne_eq] at hs
      cases stop with
      | unbounded => simp [isEmpty] at h
      | included e =>
          simp only [isEmpty, beq_iff_eq] at h
          simp only [Bound.above, bne_iff_ne, ne_eq] at he
          rcases compareKeys_ne_lt hs with hks | hks
          · exact he (hks ▸ h)
          · exact he (compareKeys_gt_iff.mpr (compareKeys_lt_trans (compareKeys_gt_iff.mp h) hks))
      | excluded e =>
          simp only [isEmpty, bne_iff_ne, ne_eq] at h
          simp only [Bound.above, beq_iff_eq] at he
          rcases compareKeys_ne_lt hs with hks | hks
          · exact h (hks ▸ he)
          · exact h (compareKeys_lt_trans hks he)
  | excluded s =>
      simp only [Bound.below, beq_iff_eq] at hs
      have hks := compareKeys_gt_iff.mp hs
      cases stop with
      | unbounded => simp [isEmpty] at h
      | included e =>
          simp only [isEmpty, bne_iff_ne, ne_eq] at h
          simp only [Bound.above, bne_iff_ne, ne_eq] at he
          rcases compareKeys_ne_lt h with hse | hse
          · exact he (hse ▸ hs)
          · exact he (compareKeys_gt_iff.mpr (compareKeys_lt_trans hse hks))
      | excluded e =>
          simp only [isEmpty, bne_iff_ne, ne_eq] at h
          simp only [Bound.above, beq_iff_eq] at he
          exact h (compareKeys_lt_trans hks he)

@[simp] theorem contains_all (k : Bytes) : KeyRange.all.contains k = true := rfl

/-- What an ordered map asks of two bounds before it lists the keys between them. Other bounds
it refuses, which is more than finding nothing. -/
structure Walkable (r : KeyRange) : Prop where
  /-- The lower bound is not after the upper one. -/
  inOrder {s e : Bytes} : r.start.key? = some s → r.stop.key? = some e → compareKeys s e ≠ .gt
  /-- The bounds do not both leave out the same key. -/
  apart (k : Bytes) : ¬ (r.start = .excluded k ∧ r.stop = .excluded k)

/-- **Bounds that are not called empty can be walked.** -/
theorem walkable_of_not_isEmpty {r : KeyRange} (h : r.isEmpty = false) : r.Walkable := by
  obtain ⟨start, stop⟩ := r
  constructor
  · intro s e hs he hgt
    cases start <;> cases stop <;> simp only [Bound.key?, Option.some.injEq, reduceCtorEq] at hs he
    all_goals
      subst hs he
      simp [isEmpty, hgt] at h
  · rintro k ⟨hs, he⟩
    subst hs he
    simp [isEmpty, compareKeys_self] at h

/-! ## Clamping to one slot -/

/-- Every byte but the largest has a successor. -/
theorem toNat_succ {slot : UInt8} (h : slot ≠ 255) : (slot + 1).toNat = slot.toNat + 1 := by
  have hlast : slot.toNat ≠ 255 := fun he => h (UInt8.toNat_inj.mp he)
  have := slot.toNat_lt
  rw [UInt8.toNat_add]
  show (slot.toNat + 1) % 256 = slot.toNat + 1
  omega

/-- The bytes before the successor of a slot, which wraps around for the largest byte only. -/
theorem compare_succ_eq_lt_iff {b slot : UInt8} (h : slot ≠ 255) :
    compare b (slot + 1) = .lt ↔ compare b slot ≠ .gt := by
  rw [ne_eq, Std.compare_eq_lt, Std.compare_eq_gt, UInt8.lt_iff_toNat_lt, UInt8.lt_iff_toNat_lt,
    toNat_succ h]
  omega

/-- A key of an earlier slot is before the physical range. -/
theorem below_toPhysical_of_lt (r : KeyRange) {slot b : UInt8} (h : compare b slot = .lt)
    (k : Bytes) : (r.toPhysical slot).start.below (b :: k) = false := by
  obtain ⟨start, stop⟩ := r
  cases start <;> simp [toPhysical, Bound.below, physicalKey, compareKeys, h]

/-- A key of a later slot is after the physical range. -/
theorem above_toPhysical_of_gt (r : KeyRange) {slot b : UInt8} (hslot : slot ≠ 255)
    (h : compare b slot = .gt) (k : Bytes) : (r.toPhysical slot).stop.above (b :: k) = false := by
  obtain ⟨start, stop⟩ := r
  cases stop with
  | unbounded =>
      have hsucc : compare b (slot + 1) ≠ .lt := fun hlt =>
        (compare_succ_eq_lt_iff hslot).mp hlt h
      simp only [toPhysical, Bound.above, compareKeys, beq_eq_false_iff_ne, ne_eq]
      cases hb : compare b (slot + 1) with
      | lt => exact absurd hb hsucc
      | eq => cases k <;> simp [compareKeys]
      | gt => simp
  | included e => simp [toPhysical, Bound.above, physicalKey, compareKeys, h]
  | excluded e => simp [toPhysical, Bound.above, physicalKey, compareKeys, h]

/-- Within its slot the physical lower bound is the bound. -/
theorem below_toPhysical_self (r : KeyRange) (slot : UInt8) (k : Bytes) :
    (r.toPhysical slot).start.below (slot :: k) = r.start.below k := by
  obtain ⟨start, stop⟩ := r
  cases start with
  | unbounded => cases k <;> simp [toPhysical, Bound.below, compareKeys, Std.ReflOrd.compare_self]
  | included s => simp [toPhysical, Bound.below, physicalKey, compareKeys, Std.ReflOrd.compare_self]
  | excluded s => simp [toPhysical, Bound.below, physicalKey, compareKeys, Std.ReflOrd.compare_self]

/-- Within its slot the physical upper bound is the bound. -/
theorem above_toPhysical_self (r : KeyRange) {slot : UInt8} (hslot : slot ≠ 255) (k : Bytes) :
    (r.toPhysical slot).stop.above (slot :: k) = r.stop.above k := by
  obtain ⟨start, stop⟩ := r
  cases stop with
  | unbounded =>
      have hsucc : compare slot (slot + 1) = .lt :=
        (compare_succ_eq_lt_iff hslot).mpr (by rw [Std.ReflOrd.compare_self]; simp)
      simp [toPhysical, Bound.above, compareKeys, hsucc]
  | included e => simp [toPhysical, Bound.above, physicalKey, compareKeys, Std.ReflOrd.compare_self]
  | excluded e => simp [toPhysical, Bound.above, physicalKey, compareKeys, Std.ReflOrd.compare_self]

/-- No physical range contains the empty key. -/
theorem not_contains_toPhysical_nil (r : KeyRange) (slot : UInt8) :
    (r.toPhysical slot).contains [] = false := by
  obtain ⟨start, stop⟩ := r
  cases start <;> simp [contains, aboveStart, toPhysical, Bound.below, physicalKey, compareKeys]

/-- **Clamping is exact.** The physical range of a table's range contains the keys of that
slot which the range contains, and nothing else. -/
theorem contains_toPhysical_cons (r : KeyRange) {slot : UInt8} (hslot : slot ≠ 255) (b : UInt8)
    (k : Bytes) : (r.toPhysical slot).contains (b :: k) = (b == slot && r.contains k) := by
  simp only [contains, aboveStart, belowEnd]
  cases hb : compare b slot with
  | lt =>
      have hne : b ≠ slot := by
        intro he; rw [he, Std.ReflOrd.compare_self] at hb; exact Ordering.noConfusion hb
      rw [below_toPhysical_of_lt r hb, beq_eq_false_iff_ne.mpr hne, Bool.false_and, Bool.false_and]
  | gt =>
      have hne : b ≠ slot := by
        intro he; rw [he, Std.ReflOrd.compare_self] at hb; exact Ordering.noConfusion hb
      rw [above_toPhysical_of_gt r hslot hb, beq_eq_false_iff_ne.mpr hne, Bool.and_false,
        Bool.false_and]
  | eq =>
      rw [Std.LawfulEqOrd.eq_of_compare hb, below_toPhysical_self, above_toPhysical_self r hslot,
        beq_self_eq_true, Bool.true_and]

/-- No range of a slot contains the empty key. -/
theorem not_contains_ofSlot_nil (slot : UInt8) : (ofSlot slot).contains [] = false := rfl

/-- **The range of a slot** contains the keys of the slot, also for the largest byte, above
which there is nothing. -/
theorem contains_ofSlot_cons (slot b : UInt8) (k : Bytes) :
    (ofSlot slot).contains (b :: k) = (b == slot) := by
  by_cases h : slot = 255
  · -- the range has no end, so what it contains is what its start lets in
    rw [h]
    have hstart : compareKeys (b :: k) [255] = .lt ↔ b ≠ 255 := by
      have hle : b.toNat ≤ 255 := Nat.le_of_lt_succ b.toNat_lt
      rw [ne_eq, ← UInt8.toNat_inj]
      cases hb : compare b 255 with
      | lt =>
          have hlt := UInt8.lt_iff_toNat_lt.mp (Std.compare_eq_lt.mp hb)
          simp only [compareKeys, hb, Ordering.lt_then, true_iff]
          exact Nat.ne_of_lt hlt
      | eq =>
          rw [Std.LawfulEqOrd.eq_of_compare hb]
          cases k <;> simp [compareKeys, Std.ReflOrd.compare_self]
      | gt =>
          have hgt := UInt8.lt_iff_toNat_lt.mp (Std.compare_eq_gt.mp hb)
          exact absurd hgt (Nat.not_lt.mpr hle)
    show ((compareKeys (b :: k) [255] != .lt) && true) = (b == 255)
    by_cases hb : b = 255
    · have hge : compareKeys (b :: k) [255] ≠ .lt := fun hlt => hstart.mp hlt hb
      rw [Bool.and_true, bne_iff_ne.mpr hge, beq_iff_eq.mpr hb]
    · rw [hstart.mpr hb, beq_eq_false_iff_ne.mpr hb]
      rfl
  · have hphys : ofSlot slot = KeyRange.all.toPhysical slot := by
      unfold ofSlot
      rw [if_neg h]
      rfl
    rw [hphys, contains_toPhysical_cons _ h, contains_all, Bool.and_true]

end KeyRange

end TableStore
