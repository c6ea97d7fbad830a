import TableStore.Proofs.KeyRange
import TableStore.Proofs.SortedMap
import TableStore.Registry

/-!
# The rows of one table

An engine knows physical keys only. `Rows.ofSlot` is what it holds under one slot, as a
map over the keys within the table, and `Registry.rowsOf` is what it holds for a name.
A name without a slot has no rows.

A walk over a physical range is the walk over the table (`within_toPhysical`): the same
rows in the same order, each under its physical key.
-/

namespace TableStore

/-- A row of the slot, under its key within the table. -/
def withinSlot? (slot : UInt8) (e : Entry) : Option Entry :=
  match e.1 with
  | [] => none
  | b :: key => if b = slot then some (key, e.2) else none

/-- A row under its physical key. -/
def physicalEntry (slot : UInt8) (e : Entry) : Entry := (physicalKey slot e.1, e.2)

theorem withinSlot?_eq_some_iff {slot : UInt8} {e r : Entry} :
    withinSlot? slot e = some r ↔ e = physicalEntry slot r := by
  obtain ⟨key, v⟩ := e
  obtain ⟨k, w⟩ := r
  cases key with
  | nil => simp [withinSlot?, physicalEntry, physicalKey]
  | cons b bs =>
      by_cases hb : b = slot
      · simp [withinSlot?, physicalEntry, physicalKey, hb]
      · simp [withinSlot?, physicalEntry, physicalKey, hb]

/-- The rows under a slot, under their keys within the table. -/
def Rows.ofSlot (rows : Rows) (slot : UInt8) : Rows where
  toList := rows.toList.filterMap (withinSlot? slot)
  ascending := by
    refine List.Pairwise.filterMap _ (fun a a' hlt b hb b' hb' => ?_) rows.ascending
    rw [withinSlot?_eq_some_iff.mp hb, withinSlot?_eq_some_iff.mp hb'] at hlt
    simp only [physicalEntry] at hlt
    rw [← compareKeys_eq_compare, compareKeys_physicalKey] at hlt
    rw [← compareKeys_eq_compare]
    exact hlt

namespace Rows

theorem mem_ofSlot_iff {rows : Rows} {slot : UInt8} {e : Entry} :
    e ∈ (rows.ofSlot slot).toList ↔ physicalEntry slot e ∈ rows.toList := by
  show e ∈ rows.toList.filterMap (withinSlot? slot) ↔ _
  rw [List.mem_filterMap]
  constructor
  · rintro ⟨x, hx, he⟩
    exact withinSlot?_eq_some_iff.mp he ▸ hx
  · exact fun h => ⟨_, h, withinSlot?_eq_some_iff.mpr rfl⟩

/-- **A row of a table is the row under its physical key.** -/
@[simp] theorem get?_ofSlot (rows : Rows) (slot : UInt8) (key : Bytes) :
    (rows.ofSlot slot).get? key = rows.get? (physicalKey slot key) := by
  cases hg : rows.get? (physicalKey slot key) with
  | some v =>
      exact SortedMap.get?_eq_some_iff.mpr
        (mem_ofSlot_iff.mpr (SortedMap.get?_eq_some_iff.mp hg))
  | none =>
      exact SortedMap.get?_eq_none_iff.mpr
        (fun v hv => SortedMap.get?_eq_none_iff.mp hg v (mem_ofSlot_iff.mp hv))

@[simp] theorem contains_ofSlot (rows : Rows) (slot : UInt8) (key : Bytes) :
    (rows.ofSlot slot).contains key = rows.contains (physicalKey slot key) := by
  rw [SortedMap.contains_eq_isSome, SortedMap.contains_eq_isSome, get?_ofSlot]

/-- Two stores hold the same table when they answer alike under its slot. -/
theorem ofSlot_congr {rows rows' : Rows} {slot : UInt8}
    (h : ∀ key, rows.get? (physicalKey slot key) = rows'.get? (physicalKey slot key)) :
    rows.ofSlot slot = rows'.ofSlot slot :=
  SortedMap.ext_get? (fun key => by rw [get?_ofSlot, get?_ofSlot, h key])

/-- A table whose keys are under no physical key has no rows. -/
theorem ofSlot_eq_empty {rows : Rows} {slot : UInt8}
    (h : ∀ key, rows.get? (physicalKey slot key) = none) : rows.ofSlot slot = .empty :=
  SortedMap.ext_get? (fun key => by rw [get?_ofSlot, h key, SortedMap.get?_empty])

/-! ## Walks -/

/-- A physical range that contains of one slot what a range contains, and of other slots
nothing, selects the rows of the table that the range selects. -/
theorem filter_physical (l : List Entry) {physical range : KeyRange} {slot : UInt8}
    (hnil : physical.contains [] = false)
    (hcons : ∀ b k, physical.contains (b :: k) = (b == slot && range.contains k)) :
    l.filter (fun e => physical.contains e.1)
      = ((l.filterMap (withinSlot? slot)).filter (fun e => range.contains e.1)).map
          (physicalEntry slot) := by
  induction l with
  | nil => rfl
  | cons e rest ih =>
      obtain ⟨key, v⟩ := e
      cases key with
      | nil =>
          rw [List.filter_cons, hnil, List.filterMap_cons]
          exact ih
      | cons b bs =>
          rw [List.filter_cons, hcons, List.filterMap_cons]
          by_cases hb : b = slot
          · rw [hb, beq_self_eq_true, Bool.true_and]
            simp only [withinSlot?, if_true, List.filter_cons]
            by_cases hr : range.contains bs = true
            · rw [if_pos hr, if_pos hr, List.map_cons, ih]
              rfl
            · rw [if_neg hr, if_neg hr, ih]
          · -- a row of another table is on neither side
            rw [beq_eq_false_iff_ne.mpr hb, Bool.false_and]
            simp only [withinSlot?, if_neg hb]
            exact ih

/-- **A physical walk is the walk over the table,** each row under its physical key. -/
theorem within_toPhysical (rows : Rows) (r : KeyRange) {slot : UInt8} (h : slot ≠ 255)
    (order : ScanOrder) :
    rows.within (r.toPhysical slot) order
      = ((rows.ofSlot slot).within r order).map (physicalEntry slot) := by
  unfold Rows.within
  rw [filter_physical _ (r.not_contains_toPhysical_nil slot) (r.contains_toPhysical_cons h)]
  cases order with
  | ascending => rfl
  | descending => exact List.map_reverse.symm

/-- A walk over every key visits every row. -/
theorem within_all (rows : Rows) (order : ScanOrder) :
    rows.within .all order = order.arrange rows.toList := by
  unfold Rows.within
  exact congrArg order.arrange (List.filter_eq_self.mpr (fun e _ => KeyRange.contains_all e.1))

/-- The walk over a whole slot. -/
theorem within_ofSlot (rows : Rows) (slot : UInt8) :
    rows.within (.ofSlot slot) .ascending
      = (rows.ofSlot slot).toList.map (physicalEntry slot) := by
  have hcons : ∀ b k, (KeyRange.ofSlot slot).contains (b :: k)
      = (b == slot && KeyRange.all.contains k) := by
    intro b k
    rw [KeyRange.contains_ofSlot_cons, KeyRange.contains_all, Bool.and_true]
  have hall : ((rows.ofSlot slot).toList.filter (fun e => KeyRange.all.contains e.1))
      = (rows.ofSlot slot).toList := List.filter_eq_self.mpr (fun e _ => KeyRange.contains_all e.1)
  unfold Rows.within ScanOrder.arrange
  rw [filter_physical _ (KeyRange.not_contains_ofSlot_nil slot) hcons]
  exact congrArg (List.map (physicalEntry slot)) hall

end Rows

/-- The rows that a registry gives to a name. -/
def Registry.rowsOf (registry : Registry) (rows : Rows) (table : String) : Rows :=
  match registry.get? table with
  | some slot => rows.ofSlot slot
  | none => .empty

end TableStore
