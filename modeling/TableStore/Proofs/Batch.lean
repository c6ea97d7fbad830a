import TableStore.Proofs.Engine
import TableStore.Proofs.Overlay
import TableStore.Proofs.TableRows

/-!
# What a commit writes

A read lays the buffer over a table row by row. A commit cannot: it has to say in one
ordered batch which rows to delete and which to put. For every cleared table it walks the
rows that are there and deletes those that no change of the buffer is about; then it writes
the changes.

`WriteBuffer.batchOn` is that batch as a function of the rows. An engine that answers leads
to it (`batch_eq`); on an engine that may break off a walk, a batch that is made at all is
this one (`batch_honest`). Its effect on every table is the buffer laid over that table,
the table that a read shows (`ofSlot_applyTo_batchOn`). Nothing is assumed about when the
buffer was filled: the rows are those of the commit, whoever wrote them.
-/

namespace TableStore

/-! ## One change at a time -/

/-- Keys of different slots are different. -/
theorem physicalKey_ne {slot slot' : UInt8} (h : slot' ≠ slot) (key' key : Bytes) :
    physicalKey slot' key' ≠ physicalKey slot key :=
  fun he => h (List.cons.inj he).1

namespace Rows

theorem ofSlot_insert (rows : Rows) (slot slot' : UInt8) (key value : Bytes) :
    Rows.ofSlot (rows.insert (physicalKey slot key) value) slot'
      = if slot' = slot then (rows.ofSlot slot).insert key value else rows.ofSlot slot' := by
  refine SortedMap.ext_get? (fun k => ?_)
  rw [get?_ofSlot, SortedMap.get?_insert]
  by_cases hs : slot' = slot
  · rw [hs, if_pos rfl, SortedMap.get?_insert, get?_ofSlot]
    simp [physicalKey]
  · rw [if_neg hs, get?_ofSlot, if_neg (physicalKey_ne hs k key)]

theorem ofSlot_erase (rows : Rows) (slot slot' : UInt8) (key : Bytes) :
    Rows.ofSlot (rows.erase (physicalKey slot key)) slot'
      = if slot' = slot then (rows.ofSlot slot).erase key else rows.ofSlot slot' := by
  refine SortedMap.ext_get? (fun k => ?_)
  rw [get?_ofSlot, SortedMap.get?_erase]
  by_cases hs : slot' = slot
  · rw [hs, if_pos rfl, SortedMap.get?_erase, get?_ofSlot]
    simp [physicalKey]
  · rw [if_neg hs, get?_ofSlot, if_neg (physicalKey_ne hs k key)]

end Rows

/-- A change is about the key that its write is about. -/
theorem BatchOp.get?_applyTo_of_ne (op : BatchOp) (rows : Rows) {key : Bytes} (h : key ≠ op.key) :
    (op.applyTo rows).get? key = rows.get? key := by
  cases op with
  | put k v => exact SortedMap.get?_insert_of_ne rows v h
  | delete k => exact SortedMap.get?_erase_of_ne rows h

/-- A key that no change of a batch is about keeps its row. -/
theorem WriteBatch.get?_applyTo_of_not_mem {batch : WriteBatch} {key : Bytes}
    (h : ∀ op ∈ batch, key ≠ op.key) (rows : Rows) :
    (batch.applyTo rows).get? key = rows.get? key := by
  induction batch generalizing rows with
  | nil => rfl
  | cons op rest ih =>
      show (WriteBatch.applyTo rest (op.applyTo rows)).get? key = _
      rw [ih (fun op' hop => h op' (List.mem_cons_of_mem _ hop)),
        op.get?_applyTo_of_ne rows (h op List.mem_cons_self)]

theorem WriteBatch.applyTo_append (a b : WriteBatch) (rows : Rows) :
    WriteBatch.applyTo (a ++ b) rows = b.applyTo (a.applyTo rows) :=
  List.foldl_append

/-- Deleting keys, and looking up. -/
theorem WriteBatch.get?_applyTo_deletes (keys : List Bytes) (rows : Rows) (key : Bytes) :
    (WriteBatch.applyTo (keys.map .delete) rows).get? key
      = if key ∈ keys then none else rows.get? key := by
  induction keys generalizing rows with
  | nil => rfl
  | cons k rest ih =>
      show (WriteBatch.applyTo (rest.map .delete) (rows.erase k)).get? key = _
      rw [ih]
      by_cases hk : key = k
      · rw [hk, SortedMap.get?_erase_self, if_pos List.mem_cons_self]
        exact ite_self none
      · rw [SortedMap.get?_erase_of_ne _ hk]
        simp [hk]

namespace WriteBuffer

/-! ## The changes -/

@[simp] theorem key_changeOp (slot : UInt8) (c : Change) :
    (changeOp slot c).key = physicalKey slot c.1 := by
  obtain ⟨key, entry⟩ := c
  cases entry <;> rfl

/-- Writing one change is making it, on its own table. -/
theorem ofSlot_applyTo_changeOp (slot slot' : UInt8) (c : Change) (rows : Rows) :
    ((changeOp slot c).applyTo rows).ofSlot slot'
      = if slot' = slot then c.applyTo (rows.ofSlot slot) else rows.ofSlot slot' := by
  obtain ⟨key, entry⟩ := c
  cases entry with
  | some v => exact Rows.ofSlot_insert rows slot slot' key v
  | none => exact Rows.ofSlot_erase rows slot slot' key

theorem ofSlot_applyTo_changeOps (slot slot' : UInt8) (changes : List Change) (rows : Rows) :
    (WriteBatch.applyTo (changes.map (changeOp slot)) rows).ofSlot slot'
      = if slot' = slot then applyChanges changes (rows.ofSlot slot) else rows.ofSlot slot' := by
  induction changes generalizing rows with
  | nil => by_cases hs : slot' = slot <;> simp [WriteBatch.applyTo, applyChanges, hs]
  | cons c rest ih =>
      show (WriteBatch.applyTo (rest.map (changeOp slot)) ((changeOp slot c).applyTo rows)).ofSlot
        slot' = _
      rw [ih, ofSlot_applyTo_changeOp, ofSlot_applyTo_changeOp, if_pos rfl]
      by_cases hs : slot' = slot
      · rw [if_pos hs, if_pos hs]
        rfl
      · rw [if_neg hs, if_neg hs, if_neg hs]

/-- The writes of some tables' changes. -/
def changeOps (tables : List (UInt8 × TableChanges)) : WriteBatch :=
  tables.flatMap (fun t => t.2.toList.map (changeOp t.1))

theorem ofSlot_applyTo_changeOps_of_not_mem {tables : List (UInt8 × TableChanges)} {slot : UInt8}
    (h : ∀ t ∈ tables, slot ≠ t.1) (rows : Rows) :
    ((changeOps tables).applyTo rows).ofSlot slot = rows.ofSlot slot := by
  induction tables generalizing rows with
  | nil => rfl
  | cons t rest ih =>
      show (WriteBatch.applyTo (t.2.toList.map (changeOp t.1) ++ changeOps rest) rows).ofSlot slot
        = _
      rw [WriteBatch.applyTo_append, ih (fun t' ht => h t' (List.mem_cons_of_mem _ ht)),
        ofSlot_applyTo_changeOps, if_neg (h t List.mem_cons_self)]

/-- The table of a slot is written once, so only its own changes have an effect on it. -/
theorem ofSlot_applyTo_changeOps_of_mem {tables : List (UInt8 × TableChanges)}
    (hord : Ascending tables) {slot : UInt8} {changes : TableChanges}
    (h : (slot, changes) ∈ tables) (rows : Rows) :
    ((changeOps tables).applyTo rows).ofSlot slot
      = applyChanges changes.toList (rows.ofSlot slot) := by
  induction tables generalizing rows with
  | nil => exact absurd h (by simp)
  | cons t rest ih =>
      show (WriteBatch.applyTo (t.2.toList.map (changeOp t.1) ++ changeOps rest) rows).ofSlot slot
        = _
      rw [WriteBatch.applyTo_append]
      rcases List.mem_cons.mp h with he | hmem
      · -- the tables behind it are others
        have hlater : ∀ t' ∈ rest, slot ≠ t'.1 :=
          fun t' ht' hs => hord.ne_head ht' (hs.symm.trans (congrArg Prod.fst he))
        rw [ofSlot_applyTo_changeOps_of_not_mem hlater, ofSlot_applyTo_changeOps, ← he,
          if_pos rfl]
      · have hne : slot ≠ t.1 := hord.ne_head hmem
        rw [ih (List.pairwise_cons.mp hord).2 hmem, ofSlot_applyTo_changeOps, if_neg hne]

/-- **Writing the changes of a buffer** applies to every table its own. -/
theorem ofSlot_applyTo_changeBatch (b : WriteBuffer) (rows : Rows) (slot : UInt8) :
    (b.changeBatch.applyTo rows).ofSlot slot
      = applyChanges (b.ofTable slot).toList (rows.ofSlot slot) := by
  show ((changeOps b.changes.toList).applyTo rows).ofSlot slot = _
  unfold ofTable
  cases hg : b.changes.get? slot with
  | some changes =>
      exact ofSlot_applyTo_changeOps_of_mem b.changes.ascending (SortedMap.get?_eq_some_iff.mp hg)
        rows
  | none =>
      have hno := SortedMap.get?_eq_none_iff.mp hg
      refine ofSlot_applyTo_changeOps_of_not_mem (fun t ht he => hno t.2 ?_) rows
      rw [he]
      exact ht

/-! ## The deletes -/

/-- The rows that clearing a table deletes: those that no change is about. -/
def sweptKeys (b : WriteBuffer) (rows : Rows) (slot : UInt8) : List Bytes :=
  ((rows.ofSlot slot).toList.filter (fun e => !(b.ofTable slot).contains e.1)).map
    (fun e => physicalKey slot e.1)

/-- The rows that a commit deletes for the sake of cleared tables. -/
def allSwept (b : WriteBuffer) (rows : Rows) : List Bytes :=
  b.cleared.keys.flatMap (b.sweptKeys rows)

/-- The batch of a buffer over rows. -/
def batchOn (b : WriteBuffer) (rows : Rows) : WriteBatch :=
  (b.allSwept rows).map .delete ++ b.changeBatch

theorem isCleared_iff {b : WriteBuffer} {slot : UInt8} :
    b.isCleared slot = true ↔ slot ∈ b.cleared.keys := by
  unfold isCleared SortedMap.keys
  rw [SortedMap.contains_iff, List.mem_map]
  constructor
  · rintro ⟨v, hv⟩
    exact ⟨(slot, v), hv, rfl⟩
  · rintro ⟨⟨s, v⟩, hv, he⟩
    exact ⟨v, he ▸ hv⟩

theorem mem_allSwept_iff {b : WriteBuffer} {rows : Rows} {slot : UInt8} {key : Bytes} :
    physicalKey slot key ∈ b.allSwept rows
      ↔ b.isCleared slot = true ∧ (rows.ofSlot slot).contains key = true
        ∧ (b.ofTable slot).contains key = false := by
  unfold allSwept sweptKeys
  rw [List.mem_flatMap, isCleared_iff]
  constructor
  · rintro ⟨slot', hcl, hmem⟩
    obtain ⟨e, he, hkey⟩ := List.mem_map.mp hmem
    obtain ⟨hslot, hk⟩ := List.cons.inj hkey
    obtain ⟨hrow, hch⟩ := List.mem_filter.mp he
    subst hslot
    rw [← hk]
    exact ⟨hcl, SortedMap.contains_iff.mpr ⟨e.2, hrow⟩, by simpa using hch⟩
  · rintro ⟨hcl, hrow, hch⟩
    obtain ⟨v, hv⟩ := SortedMap.contains_iff.mp hrow
    refine ⟨slot, hcl, List.mem_map.mpr ⟨(key, v), List.mem_filter.mpr ⟨hv, ?_⟩, rfl⟩⟩
    simp [hch]

/-! ## The effect of the batch -/

/-- **A commit makes every table what the transaction reads.** -/
theorem ofSlot_applyTo_batchOn (b : WriteBuffer) (rows : Rows) (slot : UInt8) :
    ((b.batchOn rows).applyTo rows).ofSlot slot = b.overlay slot (rows.ofSlot slot) := by
  refine SortedMap.ext_get? (fun key => ?_)
  unfold batchOn
  rw [WriteBatch.applyTo_append, ofSlot_applyTo_changeBatch, get?_applyChanges, get?_overlay]
  unfold WriteBuffer.get?
  cases hch : (b.ofTable slot).get? key with
  | some entry => rfl
  | none =>
      -- no change is about the row: it goes if its table is cleared, and stays otherwise
      dsimp only
      rw [Rows.get?_ofSlot, Rows.get?_ofSlot, WriteBatch.get?_applyTo_deletes]
      have hno : (b.ofTable slot).contains key = false := by
        rw [SortedMap.contains_eq_isSome, hch]
        rfl
      by_cases hcl : b.isCleared slot = true
      · rw [if_pos hcl]
        by_cases hrow : (rows.ofSlot slot).contains key = true
        · rw [if_pos (mem_allSwept_iff.mpr ⟨hcl, hrow, hno⟩)]
        · have hnone := Bool.eq_false_iff.mpr hrow
          rw [Rows.contains_ofSlot, SortedMap.contains_eq_isSome] at hnone
          rw [Option.isNone_iff_eq_none.mp (Option.isSome_eq_false_iff.mp hnone)]
          exact ite_self none
      · rw [if_neg hcl, if_neg (fun hmem => hcl (mem_allSwept_iff.mp hmem).1)]

/-- Every key of the batch is a table's. -/
theorem exists_key_of_mem_batchOn {b : WriteBuffer} {rows : Rows} {op : BatchOp}
    (h : op ∈ b.batchOn rows) : ∃ slot key, op.key = physicalKey slot key := by
  unfold batchOn at h
  rcases List.mem_append.mp h with h | h
  · obtain ⟨k, hk, he⟩ := List.mem_map.mp h
    obtain ⟨slot, _, hmem⟩ := List.mem_flatMap.mp hk
    obtain ⟨e, _, hkey⟩ := List.mem_map.mp hmem
    exact ⟨slot, e.1, by rw [← he, hkey]; rfl⟩
  · obtain ⟨t, _, hmem⟩ := List.mem_flatMap.mp h
    obtain ⟨c, _, he⟩ := List.mem_map.mp hmem
    exact ⟨t.1, c.1, by rw [← he]; exact key_changeOp t.1 c⟩

/-- A commit leaves the row of the empty key alone, which is no table's. -/
theorem get?_nil_applyTo_batchOn (b : WriteBuffer) (rows : Rows) :
    ((b.batchOn rows).applyTo rows).get? [] = rows.get? [] := by
  refine WriteBatch.get?_applyTo_of_not_mem (fun op hop he => ?_) rows
  obtain ⟨slot, key, hkey⟩ := exists_key_of_mem_batchOn hop
  rw [hkey] at he
  exact absurd he (by simp [physicalKey])

/-! ## Making the batch -/

/-- A sweep that ends well met no error, and deletes what no change is about. -/
theorem sweep_ok {changes : TableChanges} {walk : Walk} {ops : WriteBatch}
    (h : sweep changes walk = .ok ops) :
    ∃ entries : List Entry, walk = entries.map .ok
      ∧ ops
        = (entries.filter (fun e => !changes.contains e.1.tail)).map (fun e => .delete e.1) := by
  induction walk generalizing ops with
  | nil => exact ⟨[], rfl, (Except.ok.inj h).symm⟩
  | cons x rest ih =>
      cases x with
      | error e => exact absurd h (by simp [sweep])
      | ok e =>
          obtain ⟨key, v⟩ := e
          rw [sweep] at h
          split at h
          · exact absurd h (by simp)
          · rename_i tail htail
            obtain ⟨entries, hwalk, hops⟩ := ih htail
            refine ⟨(key, v) :: entries, by rw [hwalk]; rfl, ?_⟩
            rw [← Except.ok.inj h, hops, List.filter_cons]
            cases hc : changes.contains key.tail <;> simp

/-- A sweep over a walk without errors ends well. -/
theorem sweep_map_ok (changes : TableChanges) (entries : List Entry) :
    sweep changes (entries.map .ok) = .ok
      ((entries.filter (fun e => !changes.contains e.1.tail)).map (fun e => .delete e.1)) := by
  induction entries with
  | nil => rfl
  | cons e rest ih =>
      obtain ⟨key, v⟩ := e
      rw [List.map_cons, sweep, ih, List.filter_cons]
      cases hc : changes.contains key.tail <;> simp

/-- What is swept from the walk over a table. -/
theorem swept_within (b : WriteBuffer) (rows : Rows) (slot : UInt8) :
    ((rows.within (.ofSlot slot) .ascending).filter
        (fun e => !(b.ofTable slot).contains e.1.tail)).map (fun e => BatchOp.delete e.1)
      = (b.sweptKeys rows slot).map .delete := by
  rw [Rows.within_ofSlot, List.filter_map]
  unfold sweptKeys
  rw [List.map_map, List.map_map]
  rfl

variable {ε : Type} [StorageEngine ε] {engine : ε}

theorem sweepAll_eq (h : StorageEngine.Answers engine) (b : WriteBuffer) (slots : List UInt8) :
    b.sweepAll engine slots
      = .ok ((slots.flatMap (b.sweptKeys (StorageEngine.rows engine))).map .delete) := by
  induction slots with
  | nil => rfl
  | cons slot rest ih =>
      rw [sweepAll, h.scan_eq]
      dsimp only
      rw [sweep_map_ok, swept_within, ih]
      dsimp only
      rw [List.flatMap_cons, List.map_append]

/-- **An engine that answers leads to the batch over its rows.** -/
theorem batch_eq (h : StorageEngine.Answers engine) (b : WriteBuffer) :
    b.batch engine = .ok (b.batchOn (StorageEngine.rows engine)) := by
  unfold batch
  rw [sweepAll_eq h]
  rfl

theorem sweepAll_honest [HonestEngine ε] (b : WriteBuffer) {slots : List UInt8} {ops : WriteBatch}
    (h : b.sweepAll engine slots = .ok ops) :
    ops = (slots.flatMap (b.sweptKeys (StorageEngine.rows engine))).map .delete := by
  induction slots generalizing ops with
  | nil => exact (Except.ok.inj h).symm
  | cons slot rest ih =>
      rw [sweepAll] at h
      split at h
      · exact absurd h (by simp)
      · rename_i walk hscan
        split at h
        · exact absurd h (by simp)
        · rename_i deletes hsweep
          split at h
          · exact absurd h (by simp)
          · rename_i others hothers
            obtain ⟨entries, hwalk, hdeletes⟩ := sweep_ok hsweep
            rw [hwalk] at hscan
            rw [HonestEngine.scan_honest _ _ _ _ hscan, swept_within] at hdeletes
            rw [← Except.ok.inj h, hdeletes, ih hothers, List.flatMap_cons, List.map_append]

/-- **A batch that is made at all is the batch over the rows,** whatever walks may break off. -/
theorem batch_honest [HonestEngine ε] {b : WriteBuffer} {batch : WriteBatch}
    (h : b.batch engine = .ok batch) : batch = b.batchOn (StorageEngine.rows engine) := by
  unfold WriteBuffer.batch at h
  split at h
  · exact absurd h (by simp)
  · rename_i deletes hsweep
    rw [← Except.ok.inj h, sweepAll_honest b hsweep]
    rfl

end WriteBuffer

end TableStore
