import TableStore.Proofs.BrokenWalk
import TableStore.Proofs.History

/-!
# How far a clear reaches

To clear a table a commit walks over the rows that the engine returns for it, and deletes them by
the keys they came with. Nothing asks whether these are keys of the table. So what the clear reaches
is up to the engine: on one that keeps to the table it stays inside, and on one that returns a row
of elsewhere it deletes that row, whosever it is. A cursor on the same walk would have ended with a
complaint (`Walk.Stops.foreign`).

`WriteBuffer.batchFrom` is the batch as a function of the rows that were returned, whatever their
keys. `WriteBuffer.Within` are the keys of the tables that a transaction has cleared or changed, and
the main result says just when the batch stays within them.

A row is left to a change if the change is about what follows the first byte of its key. An empty
key has no first byte to cut off, and nothing is said here of one that is returned for a table with
changes.
-/

namespace TableStore

variable {ε : Type} [StorageEngine ε]

/-- An engine returns these rows for a table, to the end. -/
def StorageEngine.Returns (engine : ε) (slot : UInt8) (entries : List Entry) : Prop :=
  StorageEngine.scan engine (.ofSlot slot) .ascending = .ok (entries.map .ok)

omit [StorageEngine ε] in
/-- A cursor complains about a row that is returned under a key of elsewhere. -/
theorem MergeCursor.next_of_foreign {c : MergeCursor} {key value : Bytes} {walk : Walk}
    (hdone : c.done = false) (hwalk : c.engine = .ok (key, value) :: walk)
    (hkey : key.head? ≠ some c.slot) :
    c.next.1 = some (.error (.contractViolation (.foreignKey c.slot key))) := by
  have hstep : c.advance (.ok (key, value) :: walk) c.changes = _ :=
    c.advance_stops (.foreign key value walk hkey) (by simp)
  unfold next
  rw [hdone, if_neg (by simp), hwalk, hstep]
  rfl

namespace WriteBuffer

variable {b : WriteBuffer} {returned : UInt8 → List Entry}

/-! ## What a batch has -/

section Contents

omit [StorageEngine ε]

/-- The changes of a buffer, as they stand in its batch. -/
theorem mem_changeBatch_iff {op : BatchOp} :
    op ∈ b.changeBatch ↔ ∃ slot key entry, b.get? slot key = some entry
      ∧ op = changeOp slot (key, entry) := by
  unfold changeBatch get? ofTable
  rw [List.mem_flatMap]
  constructor
  · rintro ⟨⟨slot, changes⟩, ht, hop⟩
    obtain ⟨⟨key, entry⟩, hc, rfl⟩ := List.mem_map.mp hop
    refine ⟨slot, key, entry, ?_, rfl⟩
    rw [SortedMap.get?_eq_some_iff.mpr ht]
    exact SortedMap.get?_eq_some_iff.mpr hc
  · rintro ⟨slot, key, entry, hget, rfl⟩
    cases hs : b.changes.get? slot with
    | none =>
        rw [hs] at hget
        exact absurd hget (by simp)
    | some changes =>
        rw [hs] at hget
        exact ⟨(slot, changes), SortedMap.get?_eq_some_iff.mp hs,
          List.mem_map.mpr ⟨(key, entry), SortedMap.get?_eq_some_iff.mp hget, rfl⟩⟩

theorem put_mem_changeBatch_iff {key value : Bytes} :
    .put key value ∈ b.changeBatch
      ↔ ∃ slot k, key = physicalKey slot k ∧ b.get? slot k = some (some value) := by
  rw [mem_changeBatch_iff]
  constructor
  · rintro ⟨slot, k, entry, hget, hop⟩
    cases entry with
    | some w =>
        obtain ⟨hkey, hvalue⟩ := BatchOp.put.inj hop
        exact ⟨slot, k, hkey, hvalue ▸ hget⟩
    | none => exact absurd hop (by simp [changeOp])
  · rintro ⟨slot, k, rfl, hget⟩
    exact ⟨slot, k, some value, hget, rfl⟩

theorem delete_mem_changeBatch_iff {key : Bytes} :
    .delete key ∈ b.changeBatch
      ↔ ∃ slot k, key = physicalKey slot k ∧ b.get? slot k = some none := by
  rw [mem_changeBatch_iff]
  constructor
  · rintro ⟨slot, k, entry, hget, hop⟩
    cases entry with
    | some w => exact absurd hop (by simp [changeOp])
    | none => exact ⟨slot, k, BatchOp.delete.inj hop, hget⟩
  · rintro ⟨slot, k, rfl, hget⟩
    exact ⟨slot, k, none, hget, rfl⟩

/-- What a batch puts, whatever is deleted first. -/
theorem put_mem_append_changeBatch_iff {deletes : List Bytes} {key value : Bytes} :
    .put key value ∈ deletes.map .delete ++ b.changeBatch
      ↔ ∃ slot k, key = physicalKey slot k ∧ b.get? slot k = some (some value) := by
  rw [List.mem_append, put_mem_changeBatch_iff]
  refine or_iff_right (fun hmem => ?_)
  obtain ⟨_, _, he⟩ := List.mem_map.mp hmem
  exact absurd he (by simp)

theorem delete_mem_append_changeBatch_iff {deletes : List Bytes} {key : Bytes} :
    .delete key ∈ deletes.map .delete ++ b.changeBatch
      ↔ key ∈ deletes ∨ ∃ slot k, key = physicalKey slot k ∧ b.get? slot k = some none := by
  rw [List.mem_append, delete_mem_changeBatch_iff]
  simp only [List.mem_map, BatchOp.delete.injEq, exists_eq_right]

/-- A change is one of a table that is touched. -/
theorem touches_of_get? {slot : UInt8} {key : Bytes} {entry : Option Bytes}
    (h : b.get? slot key = some entry) : b.Touches slot := by
  by_cases ht : b.Touches slot
  · exact ht
  · unfold get? at h
    rw [ofTable_of_not_touches ht] at h
    exact absurd h (by simp)

end Contents

/-! ## The batch of what was returned -/

/-- A change of a table that is about a row with this key, whatever table the key says. -/
def Shadows (b : WriteBuffer) (slot : UInt8) (key : Bytes) : Prop :=
  ∃ first k, key = first :: k ∧ (b.get? slot k).isSome = true

/-- A key of a table that was cleared or changed. -/
def Within (b : WriteBuffer) (key : Bytes) : Prop :=
  ∃ slot k, key = physicalKey slot k ∧ b.Touches slot

omit [StorageEngine ε] in
theorem within_cons_iff {first : UInt8} {k : Bytes} : b.Within (first :: k) ↔ b.Touches first := by
  constructor
  · rintro ⟨slot, k', hkey, htouched⟩
    rw [(List.cons.inj hkey).1]
    exact htouched
  · exact fun htouched => ⟨first, k, rfl, htouched⟩

/-- The keys of the returned rows of a table that no change is about. -/
def swept (b : WriteBuffer) (slot : UInt8) (entries : List Entry) : List Bytes :=
  (entries.filter (fun e => !(b.ofTable slot).contains e.1.tail)).map Prod.fst

/-- The batch of a buffer over rows that were returned for its cleared tables. -/
def batchFrom (b : WriteBuffer) (returned : UInt8 → List Entry) : WriteBatch :=
  (b.cleared.keys.flatMap (fun slot => b.swept slot (returned slot))).map .delete
    ++ b.changeBatch

theorem sweepAll_returned {engine : ε} {slots : List UInt8}
    (h : ∀ slot ∈ slots, StorageEngine.Returns engine slot (returned slot)) :
    b.sweepAll engine slots
      = .ok ((slots.flatMap (fun slot => b.swept slot (returned slot))).map .delete) := by
  induction slots with
  | nil => rfl
  | cons slot rest ih =>
      have hswept : ((returned slot).filter (fun e => !(b.ofTable slot).contains e.1.tail)).map
          (fun e => BatchOp.delete e.1) = (b.swept slot (returned slot)).map .delete := by
        unfold swept
        rw [List.map_map]
        rfl
      rw [sweepAll, h slot List.mem_cons_self]
      dsimp only
      rw [sweep_map_ok, hswept, ih (fun slot' hs => h slot' (List.mem_cons_of_mem _ hs))]
      dsimp only
      rw [List.flatMap_cons, List.map_append]

/-- **The rows that were returned make the batch.** There is no other question to the engine, and
none about the keys. -/
theorem batch_returned {engine : ε}
    (h : ∀ slot, b.isCleared slot = true → StorageEngine.Returns engine slot (returned slot)) :
    b.batch engine = .ok (b.batchFrom returned) := by
  unfold batch
  rw [sweepAll_returned (fun slot hs => h slot (isCleared_iff.mpr hs))]
  rfl

section Deletes

omit [StorageEngine ε]

/-- A row that is returned for a cleared table with changes has a key with a first byte. -/
def Cuts (b : WriteBuffer) (returned : UInt8 → List Entry) : Prop :=
  ∀ slot value, b.isCleared slot = true → ([], value) ∈ returned slot → b.ofTable slot = .empty

theorem mem_swept_iff (hcuts : b.Cuts returned) {slot : UInt8} (hcl : b.isCleared slot = true)
    {key : Bytes} :
    key ∈ b.swept slot (returned slot)
      ↔ (∃ value, (key, value) ∈ returned slot) ∧ ¬ b.Shadows slot key := by
  have hshadows : ∀ value, (key, value) ∈ returned slot →
      ((!(b.ofTable slot).contains key.tail) = true ↔ ¬ b.Shadows slot key) := by
    intro value hmem
    cases key with
    | nil =>
        -- nothing to cut off, and no changes that could be about it
        rw [hcuts slot value hcl hmem]
        exact ⟨fun _ ⟨_, _, he, _⟩ => absurd he (by simp), fun _ => rfl⟩
    | cons first k =>
        rw [Bool.not_eq_true', List.tail_cons, SortedMap.contains_eq_isSome]
        constructor
        · rintro hno ⟨_, k', he, hchange⟩
          rw [← (List.cons.inj he).2] at hchange
          exact absurd (hno.symm.trans hchange) (by simp)
        · exact fun hno => Bool.eq_false_iff.mpr (fun hchange => hno ⟨first, k, rfl, hchange⟩)
  unfold swept
  rw [List.mem_map]
  constructor
  · rintro ⟨⟨_, value⟩, he, rfl⟩
    obtain ⟨hmem, hno⟩ := List.mem_filter.mp he
    exact ⟨⟨value, hmem⟩, (hshadows value hmem).mp hno⟩
  · rintro ⟨⟨value, hmem⟩, hno⟩
    exact ⟨(key, value), List.mem_filter.mpr ⟨hmem, (hshadows value hmem).mpr hno⟩, rfl⟩

/-- **What a batch deletes:** rows that were returned, and rows that were removed. -/
theorem delete_mem_batchFrom_iff (hcuts : b.Cuts returned) {key : Bytes} :
    .delete key ∈ b.batchFrom returned
      ↔ (∃ slot value, b.isCleared slot = true ∧ (key, value) ∈ returned slot
          ∧ ¬ b.Shadows slot key)
        ∨ ∃ slot k, key = physicalKey slot k ∧ b.get? slot k = some none := by
  refine delete_mem_append_changeBatch_iff.trans (or_congr_left ?_)
  rw [List.mem_flatMap]
  constructor
  · rintro ⟨slot, hs, hmem⟩
    have hcl := isCleared_iff.mpr hs
    obtain ⟨⟨value, hv⟩, hno⟩ := (mem_swept_iff hcuts hcl).mp hmem
    exact ⟨slot, value, hcl, hv, hno⟩
  · rintro ⟨slot, value, hcl, hv, hno⟩
    exact ⟨slot, isCleared_iff.mp hcl, (mem_swept_iff hcuts hcl).mpr ⟨⟨value, hv⟩, hno⟩⟩

/-- **Just when a batch stays within the tables** that were cleared or changed. -/
theorem within_batchFrom_iff (hcuts : b.Cuts returned) :
    (∀ op ∈ b.batchFrom returned, b.Within op.key)
      ↔ ∀ slot key value, b.isCleared slot = true → (key, value) ∈ returned slot →
        ¬ b.Shadows slot key → b.Within key := by
  constructor
  · intro hall slot key value hcl hmem hno
    exact hall (.delete key)
      ((delete_mem_batchFrom_iff hcuts).mpr (Or.inl ⟨slot, value, hcl, hmem, hno⟩))
  · intro hall op hop
    cases op with
    | put key value =>
        obtain ⟨slot, k, hkey, hget⟩ := put_mem_append_changeBatch_iff.mp hop
        exact ⟨slot, k, hkey, touches_of_get? hget⟩
    | delete key =>
        rcases (delete_mem_batchFrom_iff hcuts).mp hop with
          ⟨slot, value, hcl, hmem, hno⟩ | ⟨slot, k, hkey, hget⟩
        · exact hall slot key value hcl hmem hno
        · exact ⟨slot, k, hkey, touches_of_get? hget⟩

end Deletes

end WriteBuffer

/-! ## The commit -/

/-- What is written fails only as the engine fails to write it. -/
theorem Repository.writeBuffer_of_batch {r : Repository ε} {b : WriteBuffer} {batch : WriteBatch}
    (h : b.batch r.engine = .ok batch) :
    (r.writeBuffer b).1 = .ok batch
    ∨ ∃ e, (r.writeBuffer b).1 = .error e
      ∧ (StorageEngine.write r.engine batch r.config.syncOnCommit).1 = .error e := by
  unfold writeBuffer
  rw [h]
  dsimp only
  split
  · exact Or.inl rfl
  · split
    · rename_i e engine hw
      exact Or.inr ⟨e, rfl, congrArg Prod.fst hw⟩
    · exact Or.inl rfl

namespace Transaction

variable {t : Transaction} {r : Repository ε} {returned : UInt8 → List Entry}

/-- A commit makes no complaint of its own about the rows that the engine returns. -/
theorem commit_of_batch (hactive : t.state = .active) (hmode : t.mode = .readWrite)
    (hlock : t.CanLock r) {batch : WriteBatch} (h : t.buffer.batch r.engine = .ok batch) :
    (t.commit r).1 = .ok ()
    ∨ ∃ e, (t.commit r).1 = .error e
      ∧ (StorageEngine.write r.engine batch r.config.syncOnCommit).1 = .error e := by
  have hlocked : t.buffer.batch (t.locked r).engine = .ok batch := by rw [engine_locked, h]
  rcases commit_cases hactive hmode hlock with ⟨e, hw, hc⟩ | ⟨_, _, hc⟩
  · refine Or.inr ⟨e, congrArg Prod.fst hc, ?_⟩
    rcases Repository.writeBuffer_of_batch hlocked with hok | ⟨e', he, hwrite⟩
    · exact absurd (hw.symm.trans hok) (by simp)
    · rw [engine_locked, (t.sameBooks_locked r).config] at hwrite
      rw [hwrite, Except.error.inj (he.symm.trans hw)]
  · exact Or.inl (congrArg Prod.fst hc)

/--
**A clear deletes what the engine returns for its table,** whatever the keys. Of the rows that are
returned, those go that no change is about, next to the rows that were removed one by one. So the
batch stays within the tables that were cleared or changed if, and only if, those rows do; on an
engine that returns rows of the table alone, it does.

Rows from elsewhere are no reason to fail: the commit succeeds, unless the engine fails to write the
batch that has them in it.
-/
theorem clear_deletes_what_is_returned (hactive : t.state = .active)
    (hmode : t.mode = .readWrite) (hlock : t.CanLock r)
    (hreturned : ∀ slot, t.buffer.isCleared slot = true →
      StorageEngine.Returns r.engine slot (returned slot))
    (hcuts : t.buffer.Cuts returned) :
    ∃ batch, t.buffer.batch r.engine = .ok batch
    ∧ (∀ key value, .put key value ∈ batch
      ↔ ∃ slot k, key = physicalKey slot k ∧ t.buffer.get? slot k = some (some value))
    ∧ (∀ key, .delete key ∈ batch
      ↔ (∃ slot value, t.buffer.isCleared slot = true ∧ (key, value) ∈ returned slot
          ∧ ¬ t.buffer.Shadows slot key)
        ∨ ∃ slot k, key = physicalKey slot k ∧ t.buffer.get? slot k = some none)
    ∧ ((∀ op ∈ batch, t.buffer.Within op.key)
      ↔ ∀ slot key value, t.buffer.isCleared slot = true → (key, value) ∈ returned slot →
        ¬ t.buffer.Shadows slot key → t.buffer.Within key)
    ∧ ((∀ slot key value, t.buffer.isCleared slot = true → (key, value) ∈ returned slot →
        key.head? = some slot) → ∀ op ∈ batch, t.buffer.Within op.key)
    ∧ ((t.commit r).1 = .ok ()
      ∨ ∃ e, (t.commit r).1 = .error e
        ∧ (StorageEngine.write r.engine batch r.config.syncOnCommit).1 = .error e) := by
  have hbatch := WriteBuffer.batch_returned hreturned
  have hwithin := WriteBuffer.within_batchFrom_iff hcuts
  refine ⟨t.buffer.batchFrom returned, hbatch, fun _ _ => WriteBuffer.put_mem_append_changeBatch_iff,
    fun _ => WriteBuffer.delete_mem_batchFrom_iff hcuts, hwithin, fun hown => ?_,
    commit_of_batch hactive hmode hlock hbatch⟩
  refine hwithin.mpr (fun slot key value hcl hmem _ => ?_)
  obtain ⟨k, rfl⟩ := List.head?_eq_some_iff.mp (hown slot key value hcl hmem)
  exact ⟨slot, k, rfl, Or.inr hcl⟩

/-- A row from elsewhere that is returned for a cleared table is lost with the commit. -/
theorem lost_of_returned [AtomicEngine ε] (hactive : t.state = .active)
    (hmode : t.mode = .readWrite) (hlock : t.CanLock r)
    (hreturned : ∀ slot, t.buffer.isCleared slot = true →
      StorageEngine.Returns r.engine slot (returned slot))
    (hcuts : t.buffer.Cuts returned) (hok : (t.commit r).1 = .ok ()) {slot : UInt8}
    {key value : Bytes} (hcl : t.buffer.isCleared slot = true) (hmem : (key, value) ∈ returned slot)
    (hno : ¬ t.buffer.Shadows slot key) (helse : ¬ t.buffer.Within key) :
    (StorageEngine.rows (t.commit r).2.2.engine).get? key = none := by
  obtain ⟨⟨batch, hbatch, hrows⟩, _⟩ := commit_ok hactive hmode hlock hok
  rw [WriteBuffer.batch_returned hreturned] at hbatch
  rw [hrows, ← Except.ok.inj hbatch]
  unfold WriteBuffer.batchFrom
  have hchanges : ∀ op ∈ t.buffer.changeBatch, key ≠ op.key := by
    intro op hop he
    obtain ⟨slot', k, entry, hget, rfl⟩ := WriteBuffer.mem_changeBatch_iff.mp hop
    rw [WriteBuffer.key_changeOp] at he
    exact helse ⟨slot', k, he, WriteBuffer.touches_of_get? hget⟩
  rw [WriteBatch.applyTo_append, WriteBatch.get?_applyTo_of_not_mem hchanges,
    WriteBatch.get?_applyTo_deletes, if_pos]
  exact List.mem_flatMap.mpr ⟨slot, WriteBuffer.isCleared_iff.mp hcl,
    (WriteBuffer.mem_swept_iff hcuts hcl).mpr ⟨⟨value, hmem⟩, hno⟩⟩

/-- Two tables are cleared, and one of them has a change; for each the engine returns a row under a
key from elsewhere. One of the two is left to the change. -/
theorem clear_deletes_what_is_returned_mixed :
    let engine : FaultyEngine :=
      { inner := { rows := .ofList [([1, 5], [6]), ([1, 7], [8]), ([2, 4], [9]), ([2, 6], [9])] }
        faults := { foreignAt := some 0 } }
    let r : Repository FaultyEngine :=
      { engine := engine, registry := {}, config := {}, lockHeld := true }
    let t : Transaction :=
      { mode := .readWrite, holdsWriter := true
        buffer := ((WriteBuffer.empty.clear 1).clear 2).stage 2 [4] (some [3]) }
    t.buffer.batch r.engine
        = .ok [.delete [255, 5], .delete [1, 7], .delete [2, 6], .put [2, 4] [3]]
      ∧ ¬ t.buffer.Within [255, 5] ∧ t.buffer.Shadows 2 [255, 4]
      ∧ ¬ t.buffer.Shadows 1 [255, 5] ∧ (t.commit r).1 = .ok () := by
  intro engine r t
  let returned : UInt8 → List Entry := fun slot =>
    if slot = 1 then [([255, 5], [6]), ([1, 7], [8])] else [([255, 4], [9]), ([2, 6], [9])]
  have hcleared : ∀ slot, t.buffer.isCleared slot = true → slot = 1 ∨ slot = 2 := by
    intro slot hcl
    have hboth : ((WriteBuffer.empty.clear 1).clear 2).isCleared slot = true := hcl
    have hnone : WriteBuffer.empty.isCleared slot = false := rfl
    rw [WriteBuffer.isCleared_clear, WriteBuffer.isCleared_clear, hnone] at hboth
    simp only [Bool.or_false, Bool.or_eq_true, beq_iff_eq] at hboth
    exact hboth.symm
  have hreturned : ∀ slot, t.buffer.isCleared slot = true →
      StorageEngine.Returns r.engine slot (returned slot) := by
    intro slot hcl
    rcases hcleared slot hcl with rfl | rfl
    · rfl
    · rfl
  have hcuts : t.buffer.Cuts returned := by
    intro slot value hcl hmem
    rcases hcleared slot hcl with rfl | rfl
    · exact absurd hmem (by simp [returned])
    · exact absurd hmem (by simp [returned])
  obtain ⟨batch, hbatch, _, hdelete, _, _, hcommit⟩ :=
    clear_deletes_what_is_returned (t := t) (r := r) rfl rfl (Or.inl rfl) hreturned hcuts
  have hmade : t.buffer.batch r.engine
      = .ok [.delete [255, 5], .delete [1, 7], .delete [2, 6], .put [2, 4] [3]] := rfl
  cases Except.ok.inj (hbatch.symm.trans hmade)
  have helse : ¬ t.buffer.Within [255, 5] := by
    rw [WriteBuffer.within_cons_iff]
    rintro (h | h) <;> exact absurd h (by decide)
  have hdeleted : ∃ slot value, t.buffer.isCleared slot = true
      ∧ ([255, 5], value) ∈ returned slot ∧ ¬ t.buffer.Shadows slot [255, 5] := by
    rcases (hdelete [255, 5]).mp (by simp) with h | ⟨slot, k, hkey, hremoved⟩
    · exact h
    · exact absurd ⟨slot, k, hkey, WriteBuffer.touches_of_get? hremoved⟩ helse
  obtain ⟨slot, value, hcl, hmem, hno⟩ := hdeleted
  have hslot : slot = 1 := (hcleared slot hcl).resolve_right (fun he => by
    rw [he] at hmem
    exact absurd hmem (by simp [returned]))
  refine ⟨hmade, helse, ⟨255, [4], rfl, rfl⟩, hslot ▸ hno, ?_⟩
  rcases hcommit with hok | ⟨e, _, hwrite⟩
  · exact hok
  · have hwritten : (StorageEngine.write r.engine
        [.delete [255, 5], .delete [1, 7], .delete [2, 6], .put [2, 4] [3]]
        r.config.syncOnCommit).1 = .ok () := rfl
    exact absurd (hwritten.symm.trans hwrite) (by simp)

/--
A transaction clears a table, and the engine returns the row of it under a key from elsewhere. A
cursor on this walk ends with a complaint. The commit succeeds; the row of the table is still there,
and a row under that key, which belongs to nothing that was cleared, is gone.
-/
theorem clear_deletes_a_foreign_row :
    let engine : FaultyEngine :=
      { inner := { rows := .ofList [([0, 1], [116]), ([1, 5], [6]), ([255, 5], [7])] } }
    ∃ r, Repository.onEngine engine {} = .ok r ∧
    let h := (History.start r).run [
      .step "a" (.begin .readWrite), .step "a" (.act (.clear "t")),
      .fault (fun engine => { engine with faults := { foreignAt := some 0 } }) (fun _ => rfl)]
    ∃ t, h.session.transaction? "a" = some t ∧ t.state = .active ∧ t.holdsWriter = true
      ∧ t.buffer.isCleared 1 = true
      ∧ StorageEngine.Returns h.repo.engine 1 [([255, 5], [6])]
      ∧ (MergeCursor.start [.ok ([255, 5], [6])] [] 1 .ascending false).next.1
        = some (.error (.contractViolation (.foreignKey 1 [255, 5])))
      ∧ t.buffer.batch h.repo.engine = .ok [.delete [255, 5]] ∧ ¬ t.buffer.Within [255, 5]
      ∧ (t.commit h.repo).1 = .ok ()
      ∧ (StorageEngine.rows (t.commit h.repo).2.2.engine).toList = [([0, 1], [116]), ([1, 5], [6])]
      := by
  refine ⟨_, rfl, _, rfl, rfl, rfl, rfl, rfl, ?_, rfl, ?_, rfl, rfl⟩
  · exact MergeCursor.next_of_foreign rfl rfl (by decide)
  · rw [WriteBuffer.within_cons_iff]
    rintro (h | h) <;> exact absurd h (by decide)

end Transaction

end TableStore
