import TableStore.Proofs.TableRows
import TableStore.Repository

/-!
# Slots are given out once

`lastGiven` is a high-water mark: every slot in use lies at or below it, and a new table
gets the one above. So a new slot is nobody's, and two names never share one
(`Registry.Sound`). A registry that is read back has this too, for the engine's walk is in
order of keys: each row that it shows is past the mark that the rows before it left
(`load_sound`).

`Repository.openTable` then has three outcomes, and `openTable_cases` names them: the table
was there and nothing happened; it was made, and the engine has one row more; or the call
failed, and neither rows nor registry changed.
-/

namespace TableStore

namespace Registry

/-- The largest byte comes after the last slot of a table. -/
theorem ne_largest_of_le {slot : UInt8} (h : slot ≤ lastSlot) : slot ≠ 255 := by
  intro he
  rw [he] at h
  exact absurd h (by decide)

/-- What a registry keeps true of its slots. -/
structure Sound (r : Registry) : Prop where
  /-- A slot in use is a table's, and not above the mark. -/
  inRange {name : String} {slot : UInt8} :
    r.get? name = some slot → firstSlot ≤ slot ∧ slot ≤ r.lastGiven
  /-- A slot belongs to one name. -/
  injective {a b : String} {slot : UInt8} :
    r.get? a = some slot → r.get? b = some slot → a = b
  /-- The mark is not above the last slot of a table. -/
  mark_le : r.lastGiven ≤ lastSlot

namespace Sound

variable {r : Registry} {name : String} {slot : UInt8}

/-- No table has the registry's own slot. -/
theorem ne_registrySlot (h : r.Sound) (hs : r.get? name = some slot) : slot ≠ registrySlot := by
  intro he
  have hfirst := (h.inRange hs).1
  rw [he] at hfirst
  exact absurd hfirst (by decide)

/-- No table has the largest byte. -/
theorem ne_largest (h : r.Sound) (hs : r.get? name = some slot) : slot ≠ 255 :=
  ne_largest_of_le (UInt8.le_trans (h.inRange hs).2 h.mark_le)

/-- A slot above the mark is nobody's. -/
theorem unused (h : r.Sound) (hs : r.lastGiven < slot) (name : String) :
    r.get? name ≠ some slot := by
  intro hn
  have hle := (h.inRange hn).2
  rw [UInt8.lt_iff_toNat_lt] at hs
  rw [UInt8.le_iff_toNat_le] at hle
  omega

end Sound

theorem sound_empty : Sound {} where
  inRange h := absurd h (by simp [get?])
  injective h := absurd h (by simp [get?])
  mark_le := by decide

/-! ## Publishing -/

theorem get?_publish (r : Registry) (name name' : String) (slot : UInt8) :
    (r.publish name slot).get? name' = if name' = name then some slot else r.get? name' :=
  SortedMap.get?_insert r.byName name name' slot

theorem lastGiven_publish {r : Registry} {slot : UInt8} (h : r.lastGiven < slot) (name : String) :
    (r.publish name slot).lastGiven = slot := by
  show (if r.lastGiven ≤ slot then slot else r.lastGiven) = slot
  exact if_pos (UInt8.le_of_lt h)

/-- A table with a slot above the mark keeps a registry sound. -/
theorem Sound.publish {r : Registry} (h : r.Sound) {slot : UInt8} (hnew : r.lastGiven < slot)
    (hlast : slot ≤ lastSlot) (name : String) : (r.publish name slot).Sound where
  inRange {name' slot'} hs := by
    rw [get?_publish] at hs
    rw [lastGiven_publish hnew]
    by_cases he : name' = name
    · rw [if_pos he] at hs
      have hslot := Option.some.inj hs
      rw [← hslot]
      refine ⟨?_, UInt8.le_refl slot⟩
      rw [UInt8.le_iff_toNat_le]
      rw [UInt8.lt_iff_toNat_lt] at hnew
      show 1 ≤ slot.toNat
      omega
    · rw [if_neg he] at hs
      exact ⟨(h.inRange hs).1, UInt8.le_trans (h.inRange hs).2 (UInt8.le_of_lt hnew)⟩
  injective {a b slot'} ha hb := by
    rw [get?_publish] at ha hb
    by_cases hea : a = name
    · by_cases heb : b = name
      · rw [hea, heb]
      · -- the new slot is above the mark, and no other name has it
        rw [if_pos hea] at ha
        rw [if_neg heb, ← Option.some.inj ha] at hb
        exact absurd hb (h.unused hnew b)
    · rw [if_neg hea] at ha
      by_cases heb : b = name
      · rw [if_pos heb] at hb
        rw [← Option.some.inj hb] at ha
        exact absurd ha (h.unused hnew a)
      · rw [if_neg heb] at hb
        exact h.injective ha hb
  mark_le := by
    rw [lastGiven_publish hnew]
    exact hlast

/-! ## Reading a registry back -/

theorem slotOf?_eq_some_iff {key : Bytes} {slot : UInt8} :
    slotOf? key = some slot ↔ key = rowKey slot ∧ firstSlot ≤ slot ∧ slot ≤ lastSlot := by
  constructor
  · intro h
    unfold slotOf? at h
    split at h
    · rename_i r s
      split at h
      · rename_i hin
        rw [← Option.some.inj h]
        exact ⟨by rw [hin.1]; rfl, hin.2⟩
      · exact absurd h (by simp)
    · exact absurd h (by simp)
  · rintro ⟨hkey, hin⟩
    rw [hkey]
    show (if registrySlot = registrySlot ∧ firstSlot ≤ slot ∧ slot ≤ lastSlot then some slot
      else none) = some slot
    exact if_pos ⟨rfl, hin⟩

/-- Registry rows are in the order of their slots. -/
theorem compareKeys_rowKey (a b : UInt8) : compareKeys (rowKey a) (rowKey b) = compare a b := by
  simp [rowKey, compareKeys]

/-- A row that is taken in makes one table known. -/
theorem absorb_ok {r r' : Registry} {entry : Entry} (h : r.absorb entry = .ok r') :
    ∃ name slot, slotOf? entry.1 = some slot ∧ r' = r.publish name slot := by
  unfold absorb at h
  split at h
  · exact absurd h (by simp)
  · rename_i slot hslot
    split at h
    · exact absurd h (by simp)
    · rename_i name _
      split at h
      · exact absurd h (by simp)
      · split at h
        · exact absurd h (by simp)
        · exact ⟨name, slot, hslot, (Except.ok.inj h).symm⟩

/-- A walk that is taken in to its end had no error on it. -/
theorem exists_entries_of_absorbAll {r r' : Registry} {walk : Walk}
    (h : r.absorbAll walk = .ok r') : ∃ entries : List Entry, walk = entries.map .ok := by
  induction walk generalizing r with
  | nil => exact ⟨[], rfl⟩
  | cons x rest ih =>
      cases x with
      | error e => exact absurd h (by simp [absorbAll])
      | ok entry =>
          rw [absorbAll] at h
          split at h
          · exact absurd h (by simp)
          · obtain ⟨entries, hrest⟩ := ih h
            exact ⟨entry :: entries, by rw [hrest]; rfl⟩

/-- Rows in order of keys are each past the mark that the ones before left. -/
theorem absorbAll_sound {r r' : Registry} {entries : List Entry} (hr : r.Sound)
    (hord : Ascending entries)
    (hpast : ∀ e ∈ entries, ∀ slot, slotOf? e.1 = some slot → r.lastGiven < slot)
    (h : r.absorbAll (entries.map .ok) = .ok r') : r'.Sound := by
  induction entries generalizing r with
  | nil => exact Except.ok.inj h ▸ hr
  | cons e rest ih =>
      obtain ⟨hhead, hrest⟩ := List.pairwise_cons.mp hord
      rw [List.map_cons, absorbAll] at h
      split at h
      · exact absurd h (by simp)
      · rename_i r₁ hr₁
        obtain ⟨name, slot, hslot, he⟩ := absorb_ok hr₁
        have hnew := hpast e List.mem_cons_self slot hslot
        obtain ⟨hkey, _, hlast⟩ := slotOf?_eq_some_iff.mp hslot
        subst he
        refine ih (hr.publish hnew hlast name) hrest (fun e' he' slot' hslot' => ?_) h
        -- a later row has a larger key, so its slot is larger
        have hlt := hhead e' he'
        obtain ⟨hkey', _, _⟩ := slotOf?_eq_some_iff.mp hslot'
        rw [hkey, hkey', ← compareKeys_eq_compare, compareKeys_rowKey] at hlt
        rw [lastGiven_publish hnew]
        exact Std.compare_eq_lt.mp hlt

/-- **A registry that is read back is sound.** -/
theorem load_sound {ε : Type} [StorageEngine ε] [HonestEngine ε] {engine : ε} {r : Registry}
    (h : load engine = .ok r) : r.Sound := by
  unfold load at h
  split at h
  · exact absurd h (by simp)
  · rename_i walk hscan
    obtain ⟨entries, hwalk⟩ := exists_entries_of_absorbAll h
    rw [hwalk] at h hscan
    have hentries := HonestEngine.scan_honest _ _ _ _ hscan
    -- the walk shows the rows in order, and at the start the mark is below every slot
    refine absorbAll_sound sound_empty ?_ (fun e _ slot hslot => ?_) h
    · rw [hentries]
      exact List.Pairwise.filter _ (StorageEngine.rows engine).ascending
    · have hfirst := (slotOf?_eq_some_iff.mp hslot).2.1
      show (0 : UInt8) < slot
      rw [UInt8.lt_iff_toNat_lt]
      exact UInt8.le_iff_toNat_le.mp hfirst

/-! ## Reserving -/

theorem get?_of_reserve {r : Registry} {name : String} {slot : UInt8}
    (h : r.reserve name = .ok (.existing slot)) : r.get? name = some slot := by
  unfold reserve at h
  split at h
  · rename_i s hs
    injection h with h
    injection h with h
    exact h ▸ hs
  · split at h
    · exact absurd h (by simp)
    · split at h
      · exact absurd h (by simp)
      · exact absurd h (by simp)

/-- The slot of a new table is the successor of the mark, as a number too. -/
theorem toNat_of_reserve {r : Registry} {name : String} {slot : UInt8}
    (h : r.reserve name = .ok (.new slot)) : slot.toNat = r.lastGiven.toNat + 1 := by
  unfold reserve at h
  split at h
  · exact absurd h (by simp)
  · split at h
    · exact absurd h (by simp)
    · split at h
      · exact absurd h (by simp)
      · rename_i hroom
        have hmark : r.lastGiven ≠ 255 := by
          intro he
          rw [he] at hroom
          exact hroom (by decide)
        rw [← Reservation.new.inj (Except.ok.inj h)]
        exact KeyRange.toNat_succ hmark

/-- **A new slot is above the mark,** and a table's, and the table has a name. -/
theorem new_of_reserve {r : Registry} {name : String} {slot : UInt8}
    (h : r.reserve name = .ok (.new slot)) :
    r.get? name = none ∧ name ≠ "" ∧ r.lastGiven < slot ∧ slot ≤ lastSlot := by
  have hsucc := toNat_of_reserve h
  unfold reserve at h
  split at h
  · exact absurd h (by simp)
  · rename_i hnone
    split at h
    · exact absurd h (by simp)
    · rename_i hnamed
      split at h
      · exact absurd h (by simp)
      · rename_i hroom
        refine ⟨hnone, hnamed, ?_, ?_⟩
        · rw [UInt8.lt_iff_toNat_lt]
          omega
        · rw [UInt8.le_iff_toNat_le] at hroom ⊢
          omega

end Registry

namespace Repository

variable {ε : Type} [StorageEngine ε]

/-- Nothing that is stored changed. What is counted and reported may have. -/
structure SameStore (r r' : Repository ε) : Prop where
  /-- The rows of the engine are the same. -/
  rows : StorageEngine.rows r'.engine = StorageEngine.rows r.engine
  /-- The same tables are known. -/
  registry : r'.registry = r.registry

theorem SameStore.refl (r : Repository ε) : SameStore r r := ⟨rfl, rfl⟩

theorem SameStore.trans {r r' r'' : Repository ε} (h : SameStore r r') (h' : SameStore r' r'') :
    SameStore r r'' :=
  ⟨h'.rows.trans h.rows, h'.registry.trans h.registry⟩

/-! ## Asking for a table -/

theorem openTable_of_some {r : Repository ε} {name : String} {slot : UInt8}
    (h : r.registry.get? name = some slot) : r.openTable name = (.ok slot, r) := by
  unfold openTable Registry.reserve
  rw [h]

/-- A table that was asked for and is there: it was found, or it was made. -/
inductive Opened (r r' : Repository ε) (name : String) (slot : UInt8) : Prop where
  | found (known : r.registry.get? name = some slot) (same : SameStore r r')
  | made (unknown : r.registry.get? name = none) (named : name ≠ "")
    (above : r.registry.lastGiven < slot) (isTable : slot ≤ lastSlot)
    (registry : r'.registry = r.registry.publish name slot)
    (rows : StorageEngine.rows r'.engine
      = (StorageEngine.rows r.engine).insert (Registry.rowKey slot) (Utf8.encode name))

/-- **The outcomes of asking for a table.** -/
theorem openTable_cases [AtomicEngine ε] (r : Repository ε) (name : String) :
    (∃ slot, (r.openTable name).1 = .ok slot ∧ Opened r (r.openTable name).2 name slot)
    ∨ (∃ e, (r.openTable name).1 = .error e ∧ SameStore r (r.openTable name).2) := by
  unfold openTable
  cases hres : r.registry.reserve name with
  | error e => exact Or.inr ⟨e, rfl, SameStore.refl r⟩
  | ok reservation =>
      cases reservation with
      | existing slot =>
          exact Or.inl ⟨slot, rfl, .found (Registry.get?_of_reserve hres) (SameStore.refl r)⟩
      | new slot =>
          obtain ⟨hnone, hnamed, hnew, hlast⟩ := Registry.new_of_reserve hres
          have hok := AtomicEngine.rows_write_ok r.engine (Registry.rowBatch name slot)
            r.config.syncOnCommit
          have herror := AtomicEngine.rows_write_error r.engine (Registry.rowBatch name slot)
            r.config.syncOnCommit
          dsimp only
          cases hw : StorageEngine.write r.engine (Registry.rowBatch name slot)
              r.config.syncOnCommit with
          | mk answer engine =>
              rw [hw] at hok herror
              cases answer with
              | ok _ => exact Or.inl ⟨slot, rfl, .made hnone hnamed hnew hlast rfl (hok rfl)⟩
              | error e => exact Or.inr ⟨e, rfl, herror e rfl, rfl⟩

namespace Opened

variable {r r' : Repository ε} {name : String} {slot : UInt8}

theorem known (h : Opened r r' name slot) : r'.registry.get? name = some slot := by
  cases h with
  | found known same => rw [same.registry]; exact known
  | made unknown named above isTable registry rows =>
      rw [registry, Registry.get?_publish, if_pos rfl]

theorem sound (h : Opened r r' name slot) (hr : r.registry.Sound) : r'.registry.Sound := by
  cases h with
  | found known same => rw [same.registry]; exact hr
  | made unknown named above isTable registry rows =>
      rw [registry]
      exact hr.publish above isTable name

theorem get?_of_ne (h : Opened r r' name slot) {other : String} (hne : other ≠ name) :
    r'.registry.get? other = r.registry.get? other := by
  cases h with
  | found known same => rw [same.registry]
  | made unknown named above isTable registry rows =>
      rw [registry, Registry.get?_publish, if_neg hne]

/-- Tables keep their slots. -/
theorem kept (h : Opened r r' name slot) {other : String} {s : UInt8}
    (hs : r.registry.get? other = some s) : r'.registry.get? other = some s := by
  by_cases hne : other = name
  · cases h with
    | found known same => rw [same.registry]; exact hs
    | made unknown named above isTable registry rows =>
        rw [hne, unknown] at hs
        exact absurd hs (by simp)
  · rw [h.get?_of_ne hne]
    exact hs

/-- The slot of a table that was not known was nobody's. -/
theorem unused (h : Opened r r' name slot) (hr : r.registry.Sound)
    (hnone : r.registry.get? name = none) (other : String) :
    r.registry.get? other ≠ some slot := by
  cases h with
  | found known same =>
      rw [hnone] at known
      exact absurd known (by simp)
  | made unknown named above isTable registry rows => exact hr.unused above other

/-- No table gains or loses a row when one is asked for. -/
theorem ofSlot_rows (h : Opened r r' name slot) {s : UInt8} (hs : s ≠ registrySlot) :
    (StorageEngine.rows r'.engine).ofSlot s = (StorageEngine.rows r.engine).ofSlot s := by
  cases h with
  | found known same => rw [same.rows]
  | made unknown named above isTable registry rows =>
      rw [rows]
      refine Rows.ofSlot_congr (fun key => SortedMap.get?_insert_of_ne _ _ ?_)
      exact fun he => hs (List.cons.inj he).1

theorem get?_nil_rows (h : Opened r r' name slot) :
    (StorageEngine.rows r'.engine).get? [] = (StorageEngine.rows r.engine).get? [] := by
  cases h with
  | found known same => rw [same.rows]
  | made unknown named above isTable registry rows =>
      rw [rows, SortedMap.get?_insert_of_ne _ _ (by simp [Registry.rowKey])]

end Opened

end Repository

end TableStore
