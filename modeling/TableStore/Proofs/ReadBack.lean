import TableStore.Proofs.Serial
import TableStore.Proofs.Utf8

/-!
# The registry is read back as it is

A registry is there twice: in memory, where the store looks names up, and as rows under the slot
of the registry, from which the next opening reads it. `Registry.Faithful` says that the two are
one, and that whatever else is stored is a table's.

What is read back depends on the rows under one slot only (`ofRows_congr`). So a commit cannot
change it, for no table has that slot. And a table that is made has a slot above all others: its
row comes last in the walk, the rows before it are taken in as they were, and the walk ends with
the table that was published (`ofRows_insert`). For that its name has to survive being written,
and it must not be a name that reading refuses.
-/

namespace TableStore

/-- Every row is the registry's or a table's. -/
def Registry.Covers (g : Registry) (rows : Rows) : Prop :=
  ∀ key value, rows.get? key = some value →
    (∃ rest, key = physicalKey registrySlot rest)
    ∨ ∃ table slot rest, g.get? table = some slot ∧ key = physicalKey slot rest

namespace Registry

variable {g g' : Registry} {rows rows' : Rows} {name : String} {slot : UInt8}

/-! ## Taking rows in -/

theorem absorb_eq_ok_iff {entry : Entry} :
    g.absorb entry = .ok g' ↔ ∃ name slot, slotOf? entry.1 = some slot
      ∧ Utf8.decode entry.2 = .ok name ∧ name ≠ "" ∧ g.get? name = none
      ∧ g' = g.publish name slot := by
  constructor
  · intro h
    unfold absorb at h
    split at h
    · exact absurd h (by simp)
    · rename_i slot hslot
      split at h
      · exact absurd h (by simp)
      · rename_i name hname
        split at h
        · exact absurd h (by simp)
        · rename_i hnamed
          split at h
          · exact absurd h (by simp)
          · rename_i hnone
            exact ⟨name, slot, hslot, hname, hnamed, hnone, (Except.ok.inj h).symm⟩
  · rintro ⟨name, slot, hslot, hname, hnamed, hnone, rfl⟩
    unfold absorb
    rw [hslot, hname]
    dsimp only
    rw [if_neg hnamed, hnone]

theorem absorbAll_append (g : Registry) (entries : List Entry) (walk : Walk) :
    g.absorbAll (entries.map .ok ++ walk)
      = match g.absorbAll (entries.map .ok) with
        | .error e => .error e
        | .ok g' => g'.absorbAll walk := by
  induction entries generalizing g with
  | nil => rfl
  | cons e rest ih =>
      rw [List.map_cons, List.cons_append, absorbAll, absorbAll]
      split
      · rfl
      · exact ih _

/-- What holds before the first row and is kept by each holds after the last. -/
theorem absorbAll_induction {p : Registry → Prop}
    (hstep : ∀ g name slot, p g → g.get? name = none → p (g.publish name slot))
    {entries : List Entry} (hg : p g) (h : g.absorbAll (entries.map .ok) = .ok g') : p g' := by
  induction entries generalizing g with
  | nil => exact Except.ok.inj h ▸ hg
  | cons e rest ih =>
      rw [List.map_cons, absorbAll] at h
      split at h
      · exact absurd h (by simp)
      · rename_i g₁ hg₁
        obtain ⟨name, slot, _, _, _, hnone, rfl⟩ := absorb_eq_ok_iff.mp hg₁
        exact ih (hstep g name slot hg hnone) h

/-- Tables keep their slots while rows are taken in. -/
theorem get?_absorbAll {entries : List Entry} (h : g.absorbAll (entries.map .ok) = .ok g')
    (hs : g.get? name = some slot) : g'.get? name = some slot := by
  refine absorbAll_induction (p := fun k => k.get? name = some slot) ?_ hs h
  intro k other slot' hk hnone
  rw [get?_publish, if_neg]
  · exact hk
  · intro he
    rw [he, hnone] at hk
    exact absurd hk (by simp)

/-- Every row that was taken in is that of a table. -/
theorem rowKey_of_mem {entries : List Entry} (h : g.absorbAll (entries.map .ok) = .ok g')
    {e : Entry} (he : e ∈ entries) : ∃ name slot, e.1 = rowKey slot ∧ g'.get? name = some slot := by
  induction entries generalizing g with
  | nil => exact absurd he (by simp)
  | cons first rest ih =>
      rw [List.map_cons, absorbAll] at h
      split at h
      · exact absurd h (by simp)
      · rename_i g₁ hg₁
        obtain ⟨name, slot, hslot, _, _, _, rfl⟩ := absorb_eq_ok_iff.mp hg₁
        rcases List.mem_cons.mp he with he | he
        · have hpublished : (g.publish name slot).get? name = some slot := by
            rw [get?_publish, if_pos rfl]
          exact ⟨name, slot, he ▸ (slotOf?_eq_some_iff.mp hslot).1, get?_absorbAll h hpublished⟩
        · exact ih h he

/-! ## The mark -/

/-- The mark is the slot of a table, or that of the registry while there is none. -/
def Attained (g : Registry) : Prop :=
  g.lastGiven = registrySlot ∨ ∃ name, g.get? name = some g.lastGiven

theorem Attained.publish (h : g.Attained) (hnone : g.get? name = none) (slot : UInt8) :
    (g.publish name slot).Attained := by
  have hmark : (g.publish name slot).lastGiven = if g.lastGiven ≤ slot then slot else g.lastGiven :=
    rfl
  unfold Attained
  rw [hmark]
  by_cases hle : g.lastGiven ≤ slot
  · rw [if_pos hle]
    exact Or.inr ⟨name, by rw [get?_publish, if_pos rfl]⟩
  · -- the new slot is below the mark, so whoever had the mark still has it
    rw [if_neg hle]
    refine h.imp_right (fun ⟨other, ho⟩ => ⟨other, ?_⟩)
    rw [get?_publish, if_neg]
    · exact ho
    · intro he
      rw [he, hnone] at ho
      exact absurd ho (by simp)

/-! ## What the rows say -/

/-- The registry that rows say. -/
def ofRows (rows : Rows) : Except StoreError Registry :=
  absorbAll {} ((rows.within (.ofSlot registrySlot) .ascending).map .ok)

theorem load_eq {ε : Type} [StorageEngine ε] {engine : ε} (h : StorageEngine.Answers engine) :
    load engine = ofRows (StorageEngine.rows engine) := by
  unfold load
  rw [h.scan_eq]
  rfl

/-- A registry that was read back at all is the one that the rows say. -/
theorem ofRows_of_load {ε : Type} [StorageEngine ε] [HonestEngine ε] {engine : ε}
    (h : load engine = .ok g) : ofRows (StorageEngine.rows engine) = .ok g := by
  unfold load at h
  split at h
  · exact absurd h (by simp)
  · rename_i walk hscan
    obtain ⟨entries, rfl⟩ := exists_entries_of_absorbAll h
    rw [HonestEngine.scan_honest _ _ _ _ hscan] at h
    exact h

/-- Only the rows under the registry's own slot matter. -/
theorem ofRows_congr (h : rows'.ofSlot registrySlot = rows.ofSlot registrySlot) :
    ofRows rows' = ofRows rows := by
  unfold ofRows
  rw [Rows.within_ofSlot, Rows.within_ofSlot, h]

theorem sound_of_ofRows (h : ofRows rows = .ok g) : g.Sound := by
  refine absorbAll_sound sound_empty (List.Pairwise.filter _ rows.ascending)
    (fun e _ slot hslot => ?_) h
  have hfirst := (slotOf?_eq_some_iff.mp hslot).2.1
  show (0 : UInt8) < slot
  rw [UInt8.lt_iff_toNat_lt]
  exact UInt8.le_iff_toNat_le.mp hfirst

theorem attained_of_ofRows (h : ofRows rows = .ok g) : g.Attained :=
  absorbAll_induction (fun _ _ slot hk hnone => hk.publish hnone slot) (Or.inl rfl) h

/-- Every row under the registry's slot is that of a table. -/
theorem rowKey_of_ofRows (h : ofRows rows = .ok g) {key value : Bytes}
    (hrow : rows.get? (physicalKey registrySlot key) = some value) :
    ∃ name slot, physicalKey registrySlot key = rowKey slot ∧ g.get? name = some slot := by
  have hmem : (physicalKey registrySlot key, value)
      ∈ rows.within (.ofSlot registrySlot) .ascending := by
    rw [Rows.within_ofSlot]
    have hrow' : (rows.ofSlot registrySlot).get? key = some value := by
      rw [Rows.get?_ofSlot, hrow]
    exact List.mem_map.mpr ⟨(key, value), SortedMap.get?_eq_some_iff.mp hrow', rfl⟩
  exact rowKey_of_mem h hmem

/-- **A table that is made is read back** behind all others. -/
theorem ofRows_insert (h : ofRows rows = .ok g) (hnone : g.get? name = none) (hnamed : name ≠ "")
    (habove : g.lastGiven < slot) (hlast : slot ≤ lastSlot) :
    ofRows (rows.insert (rowKey slot) (Utf8.encode name)) = .ok (g.publish name slot) := by
  have hsound := sound_of_ofRows h
  -- every other row of the registry is before the new one
  have hbehind : ∀ e ∈ (rows.ofSlot registrySlot).toList, compare e.1 [slot] = .lt := by
    intro e he
    have hrow : rows.get? (physicalKey registrySlot e.1) = some e.2 := by
      rw [← Rows.get?_ofSlot]
      exact SortedMap.get?_eq_some_iff.mpr he
    obtain ⟨other, s, hkey, hs⟩ := rowKey_of_ofRows h hrow
    have hle := UInt8.le_iff_toNat_le.mp (hsound.inRange hs).2
    have hlt := UInt8.lt_iff_toNat_lt.mp habove
    rw [← compareKeys_eq_compare, ← compareKeys_physicalKey registrySlot, hkey]
    show compareKeys (rowKey s) (rowKey slot) = .lt
    rw [compareKeys_rowKey, Std.compare_eq_lt, UInt8.lt_iff_toNat_lt]
    omega
  have hlist : (Rows.ofSlot (rows.insert (rowKey slot) (Utf8.encode name)) registrySlot).toList
      = (rows.ofSlot registrySlot).toList ++ [([slot], Utf8.encode name)] := by
    have hinsert := Rows.ofSlot_insert rows registrySlot registrySlot [slot] (Utf8.encode name)
    rw [if_pos rfl] at hinsert
    show (Rows.ofSlot (rows.insert (physicalKey registrySlot [slot]) _) registrySlot).toList = _
    rw [hinsert, SortedMap.toList_insert, insertBinding_of_last hbehind]
  have hslot : slotOf? (rowKey slot) = some slot := by
    refine slotOf?_eq_some_iff.mpr ⟨rfl, ?_, hlast⟩
    have hlt := UInt8.lt_iff_toNat_lt.mp habove
    rw [UInt8.le_iff_toNat_le]
    show 1 ≤ slot.toNat
    omega
  have habsorb : g.absorb (rowKey slot, Utf8.encode name) = .ok (g.publish name slot) :=
    absorb_eq_ok_iff.mpr ⟨name, slot, hslot, Utf8.decode_encode name, hnamed, hnone, rfl⟩
  unfold ofRows at h ⊢
  rw [Rows.within_ofSlot] at h
  rw [Rows.within_ofSlot, hlist, List.map_append, List.map_append, absorbAll_append, h]
  show absorbAll g [.ok (rowKey slot, Utf8.encode name)] = _
  rw [absorbAll, habsorb]
  rfl

/-! ## What is stored -/

/-- A buffer of tables leaves the rows under the registry's own slot alone. -/
theorem ofSlot_registrySlot_written {b : WriteBuffer} (hsound : g.Sound) (howns : g.Owns b) :
    ((b.batchOn rows).applyTo rows).ofSlot registrySlot = rows.ofSlot registrySlot := by
  have huntouched : ¬ b.Touches registrySlot :=
    howns.not_touches (fun table ht => hsound.ne_registrySlot ht rfl)
  rw [WriteBuffer.ofSlot_applyTo_batchOn, WriteBuffer.overlay_of_not_touches huntouched]

/-- What a commit writes is not read back as a table. -/
theorem ofRows_written {b : WriteBuffer} (h : ofRows rows = .ok g) (howns : g.Owns b) :
    ofRows ((b.batchOn rows).applyTo rows) = .ok g :=
  (ofRows_congr (ofSlot_registrySlot_written (sound_of_ofRows h) howns)).trans h

/-- A table that is opened is in memory just when it is read back. -/
theorem ofRows_opened {ε : Type} [StorageEngine ε] {r r' : Repository ε}
    (h : ofRows (StorageEngine.rows r.engine) = .ok r.registry)
    (ho : Repository.Opened r r' name slot) :
    ofRows (StorageEngine.rows r'.engine) = .ok r'.registry := by
  cases ho with
  | found known same =>
      rw [same.registry, same.rows]
      exact h
  | made unknown named above isTable registry rows =>
      rw [registry, rows]
      exact ofRows_insert h unknown named above isTable

/-! ## Whose rows there are -/

/-- Where every row is someone's, there is none under a slot that nobody has. -/
theorem Covers.ofSlot_eq_empty (h : g.Covers rows) (hs : slot ≠ registrySlot)
    (hno : ∀ table, g.get? table ≠ some slot) : rows.ofSlot slot = .empty := by
  refine Rows.ofSlot_eq_empty (fun key => ?_)
  cases hrow : rows.get? (physicalKey slot key) with
  | none => rfl
  | some value =>
      rcases h _ _ hrow with ⟨rest, he⟩ | ⟨table, slot', rest, ht, he⟩
      · exact absurd (List.cons.inj he).1 hs
      · rw [← (List.cons.inj he).1] at ht
        exact absurd ht (hno table)

theorem Covers.mono (h : g.Covers rows)
    (hkept : ∀ table slot, g.get? table = some slot → g'.get? table = some slot) :
    g'.Covers rows := by
  intro key value hrow
  rcases h key value hrow with hreg | ⟨table, slot, rest, ht, he⟩
  · exact Or.inl hreg
  · exact Or.inr ⟨table, slot, rest, hkept table slot ht, he⟩

/-- Tables that are made later find no rows where every row is someone's already. -/
theorem Covers.rowsOf_eq (h : g.Covers rows)
    (hkept : ∀ table slot, g.get? table = some slot → g'.get? table = some slot)
    (hsound : g'.Sound) (table : String) : g'.rowsOf rows table = g.rowsOf rows table := by
  unfold rowsOf
  cases ht : g.get? table with
  | some slot => rw [hkept table slot ht]
  | none =>
      cases ht' : g'.get? table with
      | none => rfl
      | some slot =>
          refine h.ofSlot_eq_empty (hsound.ne_registrySlot ht') (fun other ho => ?_)
          -- whoever had the slot has it still, and would be the new table
          have hname := hsound.injective (hkept other slot ho) ht'
          rw [hname, ht] at ho
          exact absurd ho (by simp)

/-- Rows that agree under every slot of a table are the same tables. -/
theorem rowsOf_congr (hsound : g.Sound)
    (h : ∀ slot, slot ≠ registrySlot → rows'.ofSlot slot = rows.ofSlot slot) (table : String) :
    g.rowsOf rows' table = g.rowsOf rows table := by
  unfold rowsOf
  cases ht : g.get? table with
  | none => rfl
  | some slot => exact h slot (hsound.ne_registrySlot ht)

/-! ## Memory and rows say the same -/

/-- The registry in memory is the one that the rows say, and every other row is a table's. -/
structure Faithful (g : Registry) (rows : Rows) : Prop where
  readsBack : ofRows rows = .ok g
  covers : g.Covers rows

namespace Faithful

theorem sound (h : g.Faithful rows) : g.Sound := sound_of_ofRows h.readsBack

/-- Whose every row is. -/
theorem mem_cases (h : g.Faithful rows) {key value : Bytes} (hrow : rows.get? key = some value) :
    ∃ table slot, g.get? table = some slot
      ∧ (key = rowKey slot ∨ ∃ rest, key = physicalKey slot rest) := by
  rcases h.covers key value hrow with ⟨rest, rfl⟩ | ⟨table, slot, rest, ht, he⟩
  · obtain ⟨table, slot, he, ht⟩ := rowKey_of_ofRows h.readsBack hrow
    exact ⟨table, slot, ht, Or.inl he⟩
  · exact ⟨table, slot, ht, Or.inr ⟨rest, he⟩⟩

section Batch

variable {b : WriteBuffer}

/-- **A commit leaves the rows of the registry alone.** -/
theorem ofSlot_registrySlot (h : g.Faithful rows) (howns : g.Owns b) :
    ((b.batchOn rows).applyTo rows).ofSlot registrySlot = rows.ofSlot registrySlot :=
  ofSlot_registrySlot_written h.sound howns

theorem written (h : g.Faithful rows) (howns : g.Owns b) :
    g.Faithful ((b.batchOn rows).applyTo rows) where
  readsBack := ofRows_written h.readsBack howns
  covers key value hrow := by
    cases key with
    | nil =>
        rw [WriteBuffer.get?_nil_applyTo_batchOn] at hrow
        exact h.covers [] value hrow
    | cons slot rest =>
        by_cases htouched : b.Touches slot
        · obtain ⟨table, ht⟩ := howns slot htouched
          exact Or.inr ⟨table, slot, rest, ht, rfl⟩
        · -- what the buffer does not touch was there before
          refine h.covers _ value ?_
          have hslot : ((b.batchOn rows).applyTo rows).ofSlot slot = rows.ofSlot slot := by
            rw [WriteBuffer.ofSlot_applyTo_batchOn, WriteBuffer.overlay_of_not_touches htouched]
          have hget := congrArg (fun m : Rows => m.get? rest) hslot
          rw [Rows.get?_ofSlot, Rows.get?_ofSlot] at hget
          exact hget.symm.trans hrow

end Batch

variable {ε : Type} [StorageEngine ε] {r r' : Repository ε}

/-- **A table that is opened is in memory just when it is among the rows.** -/
theorem opened (h : r.registry.Faithful (StorageEngine.rows r.engine))
    (ho : Repository.Opened r r' name slot) :
    r'.registry.Faithful (StorageEngine.rows r'.engine) where
  readsBack := ofRows_opened h.readsBack ho
  covers := by
    have hkept : ∀ table s, r.registry.get? table = some s → r'.registry.get? table = some s :=
      fun _ _ hs => ho.kept hs
    cases ho with
    | found known same =>
        rw [same.rows]
        exact h.covers.mono hkept
    | made unknown named above isTable registry rows =>
        rw [rows]
        intro key value hrow
        rw [SortedMap.get?_insert] at hrow
        split at hrow
        · rename_i he
          exact Or.inl ⟨[slot], he⟩
        · exact (h.covers.mono hkept) key value hrow

end Faithful

end Registry

end TableStore
