import TableStore.Cursor
import TableStore.Proofs.SortedMap
import TableStore.Transaction.Buffer

/-!
# A buffer laid over a table

What a transaction means a table to be is its buffer over the rows that are there:
nothing of a cleared table shows through, and a pending change covers the row under its
key. `WriteBuffer.overlay` is that table. Reads and commits compute it in different ways,
and both are compared with it.

The buffer does not remember in which order changes came. It need not: `overlay_stage` and
`overlay_clear` say that noting one more change has the effect of the change on the table,
whatever rows the buffer lies over. This holds for all rows at once, so it survives that
other writers change them between a commit that fails and the next.
-/

namespace TableStore

/-! ## Changes of one table -/

/-- The effect of one pending change. -/
def Change.applyTo (c : Change) (rows : Rows) : Rows :=
  match c.2 with
  | some value => rows.insert c.1 value
  | none => rows.erase c.1

theorem Change.get?_applyTo (c : Change) (rows : Rows) (key : Bytes) :
    (c.applyTo rows).get? key = if key = c.1 then c.2 else rows.get? key := by
  obtain ⟨k, entry⟩ := c
  cases entry with
  | none => exact SortedMap.get?_erase rows k key
  | some v => exact SortedMap.get?_insert rows k key v

/-- The effect of changes, one after the other. -/
def applyChanges (changes : List Change) (rows : Rows) : Rows :=
  changes.foldl (fun rows c => c.applyTo rows) rows

theorem get?_applyChanges_of_not_mem {changes : List Change} {key : Bytes}
    (h : ∀ entry, (key, entry) ∉ changes) (rows : Rows) :
    (applyChanges changes rows).get? key = rows.get? key := by
  induction changes generalizing rows with
  | nil => rfl
  | cons c rest ih =>
      have hne : key ≠ c.1 := fun he => h c.2 (by rw [he]; exact List.mem_cons_self)
      show (applyChanges rest (c.applyTo rows)).get? key = _
      rw [ih (fun entry hm => h entry (List.mem_cons_of_mem _ hm)), Change.get?_applyTo,
        if_neg hne]

theorem get?_applyChanges_of_mem {changes : List Change} (ha : Ascending changes) {c : Change}
    (h : c ∈ changes) (rows : Rows) : (applyChanges changes rows).get? c.1 = c.2 := by
  induction changes generalizing rows with
  | nil => exact absurd h (by simp)
  | cons d rest ih =>
      show (applyChanges rest (d.applyTo rows)).get? c.1 = c.2
      rcases List.mem_cons.mp h with he | hmem
      · -- the head: no later change is about its key
        have hkey : c.1 = d.1 := by rw [he]
        have hlater : ∀ entry, (c.1, entry) ∉ rest := fun _ hm => ha.ne_head hm hkey
        rw [get?_applyChanges_of_not_mem hlater, Change.get?_applyTo, if_pos (by rw [he]), he]
      · exact ih (List.pairwise_cons.mp ha).2 hmem _

/-- **A change decides about its key, and the rows below about the others.** -/
theorem get?_applyChanges (changes : TableChanges) (rows : Rows) (key : Bytes) :
    (applyChanges changes.toList rows).get? key
      = match changes.get? key with
        | some entry => entry
        | none => rows.get? key := by
  cases hg : changes.get? key with
  | some entry =>
      exact get?_applyChanges_of_mem changes.ascending (SortedMap.get?_eq_some_iff.mp hg) rows
  | none => exact get?_applyChanges_of_not_mem (SortedMap.get?_eq_none_iff.mp hg) rows

namespace WriteBuffer

/-! ## What the operations do to each table -/

/-- Whether a table has pending changes, or is cleared. -/
def Touches (b : WriteBuffer) (slot : UInt8) : Prop :=
  b.changes.contains slot = true ∨ b.isCleared slot = true

theorem ofTable_stage (b : WriteBuffer) (slot slot' : UInt8) (key : Bytes) (value : Option Bytes) :
    (b.stage slot key value).ofTable slot'
      = if slot' = slot then (b.ofTable slot).insert key value else b.ofTable slot' := by
  unfold ofTable stage
  rw [SortedMap.get?_insert]
  by_cases h : slot' = slot
  · rw [if_pos h, if_pos h]; rfl
  · rw [if_neg h, if_neg h]

theorem isCleared_stage (b : WriteBuffer) (slot slot' : UInt8) (key : Bytes)
    (value : Option Bytes) : (b.stage slot key value).isCleared slot' = b.isCleared slot' := rfl

theorem ofTable_clear (b : WriteBuffer) (slot slot' : UInt8) :
    (b.clear slot).ofTable slot' = if slot' = slot then .empty else b.ofTable slot' := by
  unfold ofTable clear
  rw [SortedMap.get?_erase]
  by_cases h : slot' = slot
  · rw [if_pos h, if_pos h]; rfl
  · rw [if_neg h, if_neg h]

theorem isCleared_clear (b : WriteBuffer) (slot slot' : UInt8) :
    (b.clear slot).isCleared slot' = (slot' == slot || b.isCleared slot') := by
  unfold isCleared clear SortedMap.contains
  rw [SortedMap.get?_insert]
  by_cases h : slot' = slot
  · rw [if_pos h, h, beq_self_eq_true]; rfl
  · rw [if_neg h, beq_eq_false_iff_ne.mpr h]; rfl

theorem touches_stage {b : WriteBuffer} {slot slot' : UInt8} {key : Bytes} {value : Option Bytes}
    (h : (b.stage slot key value).Touches slot') : slot' = slot ∨ b.Touches slot' := by
  by_cases he : slot' = slot
  · exact Or.inl he
  · rcases h with h | h
    · refine Or.inr (Or.inl ?_)
      rw [SortedMap.contains_eq_isSome] at h ⊢
      unfold stage at h
      rwa [SortedMap.get?_insert_of_ne _ _ he] at h
    · exact Or.inr (Or.inr h)

theorem touches_clear {b : WriteBuffer} {slot slot' : UInt8} (h : (b.clear slot).Touches slot') :
    slot' = slot ∨ b.Touches slot' := by
  by_cases he : slot' = slot
  · exact Or.inl he
  · rcases h with h | h
    · refine Or.inr (Or.inl ?_)
      rw [SortedMap.contains_eq_isSome] at h ⊢
      unfold clear at h
      rwa [SortedMap.get?_erase_of_ne _ he] at h
    · rw [isCleared_clear, beq_eq_false_iff_ne.mpr he, Bool.false_or] at h
      exact Or.inr (Or.inr h)

theorem not_touches_empty (slot : UInt8) : ¬ WriteBuffer.empty.Touches slot := by
  rintro (h | h)
  · exact absurd (show false = true from h) (by decide)
  · exact absurd (show false = true from h) (by decide)

/-- A table that is not touched has no pending change. -/
theorem ofTable_of_not_touches {b : WriteBuffer} {slot : UInt8} (h : ¬ b.Touches slot) :
    b.ofTable slot = .empty := by
  have hc : b.changes.contains slot = false := Bool.eq_false_iff.mpr (fun hc => h (Or.inl hc))
  rw [SortedMap.contains_eq_isSome] at hc
  unfold ofTable
  rw [Option.isNone_iff_eq_none.mp (Option.isSome_eq_false_iff.mp hc)]
  rfl

theorem isCleared_of_not_touches {b : WriteBuffer} {slot : UInt8} (h : ¬ b.Touches slot) :
    b.isCleared slot = false := Bool.eq_false_iff.mpr (fun hc => h (Or.inr hc))

/-! ## The buffer over rows -/

/-- The rows of a table that a buffer lets through. -/
def base (b : WriteBuffer) (slot : UInt8) (rows : Rows) : Rows :=
  if b.isCleared slot then .empty else rows

/-- A table as the transaction means it to be: its changes over what the buffer lets through. -/
def overlay (b : WriteBuffer) (slot : UInt8) (rows : Rows) : Rows :=
  applyChanges (b.ofTable slot).toList (b.base slot rows)

/-- **How a row is resolved:** a pending change decides; otherwise a cleared table has no row;
otherwise the rows below decide. -/
theorem get?_overlay (b : WriteBuffer) (slot : UInt8) (rows : Rows) (key : Bytes) :
    (b.overlay slot rows).get? key
      = match b.get? slot key with
        | some entry => entry
        | none => if b.isCleared slot then none else rows.get? key := by
  unfold overlay base WriteBuffer.get?
  rw [get?_applyChanges]
  by_cases h : b.isCleared slot = true
  · rw [if_pos h, if_pos h]; rfl
  · rw [if_neg h, if_neg h]

/-- An untouched table is as it was. -/
theorem overlay_of_not_touches {b : WriteBuffer} {slot : UInt8} (h : ¬ b.Touches slot)
    (rows : Rows) : b.overlay slot rows = rows := by
  unfold overlay base
  rw [ofTable_of_not_touches h, isCleared_of_not_touches h]
  rfl

@[simp] theorem overlay_empty (slot : UInt8) (rows : Rows) :
    WriteBuffer.empty.overlay slot rows = rows :=
  overlay_of_not_touches (not_touches_empty slot) rows

/-- **Noting a change has the effect of the change on its table,** over any rows. -/
theorem overlay_stage_self (b : WriteBuffer) (slot : UInt8) (key : Bytes) (value : Option Bytes)
    (rows : Rows) :
    (b.stage slot key value).overlay slot rows
      = Change.applyTo (key, value) (b.overlay slot rows) := by
  refine SortedMap.ext_get? (fun k => ?_)
  rw [get?_overlay, Change.get?_applyTo, get?_overlay]
  unfold WriteBuffer.get?
  rw [ofTable_stage, if_pos rfl, SortedMap.get?_insert, isCleared_stage]
  by_cases hk : k = key
  · rw [if_pos hk, if_pos hk]
  · rw [if_neg hk, if_neg hk]

/-- And none on the other tables. -/
theorem overlay_stage_of_ne (b : WriteBuffer) {slot slot' : UInt8} (h : slot' ≠ slot) (key : Bytes)
    (value : Option Bytes) (rows : Rows) :
    (b.stage slot key value).overlay slot' rows = b.overlay slot' rows := by
  unfold overlay base
  rw [ofTable_stage, if_neg h, isCleared_stage]

/-- **Clearing a table empties it,** over any rows. -/
theorem overlay_clear_self (b : WriteBuffer) (slot : UInt8) (rows : Rows) :
    (b.clear slot).overlay slot rows = .empty := by
  unfold overlay base
  rw [ofTable_clear, if_pos rfl, isCleared_clear, beq_self_eq_true]
  rfl

/-- And leaves the other tables alone. -/
theorem overlay_clear_of_ne (b : WriteBuffer) {slot slot' : UInt8} (h : slot' ≠ slot)
    (rows : Rows) : (b.clear slot).overlay slot' rows = b.overlay slot' rows := by
  unfold overlay base
  rw [ofTable_clear, if_neg h, isCleared_clear, beq_eq_false_iff_ne.mpr h]
  rfl

end WriteBuffer

end TableStore
