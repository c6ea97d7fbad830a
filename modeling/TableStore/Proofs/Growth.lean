import TableStore.Proofs.Lifetime

/-!
# How a registry grows

A registry is read back when a store is opened, and from then on only `Repository.openTable`
changes it: a name without a table is reserved a slot, and when its row was written the table is
published under that slot. `Registry.Grew` is any number of such steps. A turn makes a registry
grow and does nothing else to it (`History.grew_take`), so what reading back gives a registry and
making a table keeps holds at every moment of a store's life. `Registry.InRange` is of this kind:
every slot is a table's. Growing takes no slot away (`Grew.kept`), and what is new lies above the
mark that was (`Grew.above`), the first of it right above (`Grew.first`).

Nothing is asked of the engine here, neither that its walks are right nor that its batches are
atomic. `Registry.Sound` says more of an engine that is honest; a slot is in range on any engine,
because it was checked when its row was taken in, or counted up from a mark that was in range.
-/

namespace TableStore

namespace Registry

/-- What becomes of a registry by making tables, each under the slot that was reserved for it. -/
inductive Grew (g : Registry) : Registry → Prop where
  | refl : Grew g g
  | made {k : Registry} {name : String} {slot : UInt8} (before : Grew g k)
    (reserved : k.reserve name = .ok (.new slot)) : Grew g (k.publish name slot)

theorem Grew.trans {g k l : Registry} (h : Grew g k) (h' : Grew k l) : Grew g l := by
  induction h' with
  | refl => exact h
  | made before reserved ih => exact ih.made reserved

section Grew

variable {g k : Registry} {name : String} {slot : UInt8}

/-- Tables keep their slots. -/
theorem Grew.kept (h : Grew g k) (hs : g.get? name = some slot) : k.get? name = some slot := by
  induction h with
  | refl => exact hs
  | made before reserved ih =>
      obtain ⟨hnone, _⟩ := new_of_reserve reserved
      rw [get?_publish, if_neg]
      · exact ih
      · intro he
        rw [he, hnone] at ih
        exact absurd ih (by simp)

/-- The mark does not go down. -/
theorem Grew.mark_le (h : Grew g k) : g.lastGiven ≤ k.lastGiven := by
  induction h with
  | refl => exact UInt8.le_refl _
  | made before reserved ih =>
      obtain ⟨_, _, habove, _⟩ := new_of_reserve reserved
      rw [lastGiven_publish habove]
      exact UInt8.le_trans ih (UInt8.le_of_lt habove)

/-- **A table that is new lies above the mark that was.** -/
theorem Grew.above (h : Grew g k) (hnone : g.get? name = none) (hs : k.get? name = some slot) :
    g.lastGiven < slot := by
  induction h with
  | refl =>
      rw [hnone] at hs
      exact absurd hs (by simp)
  | made before reserved ih =>
      obtain ⟨_, _, habove, _⟩ := new_of_reserve reserved
      rw [get?_publish] at hs
      split at hs
      · rw [← Option.some.inj hs]
        exact Std.lt_of_le_of_lt before.mark_le habove
      · exact ih hs

/-- **The first table that is made gets the slot above the mark.** -/
theorem Grew.first (h : Grew g k) :
    k = g ∨ ∃ name slot, g.get? name = none ∧ k.get? name = some slot
      ∧ slot.toNat = g.lastGiven.toNat + 1 := by
  induction h with
  | refl => exact Or.inl rfl
  | made before reserved ih =>
      rename_i k name slot
      obtain ⟨hnone, _⟩ := new_of_reserve reserved
      rcases ih with rfl | ⟨other, s, hother, hs, hsucc⟩
      · exact Or.inr ⟨name, slot, hnone, by rw [get?_publish, if_pos rfl],
          toNat_of_reserve reserved⟩
      · exact Or.inr ⟨other, s, hother, (Grew.refl.made reserved).kept hs, hsucc⟩

end Grew

/-- Every slot is a table's, and the mark is not above the last of them. -/
structure InRange (g : Registry) : Prop where
  slot {name : String} {slot : UInt8} :
    g.get? name = some slot → firstSlot ≤ slot ∧ slot ≤ lastSlot
  mark : g.lastGiven ≤ lastSlot

theorem inRange_empty : InRange {} where
  slot h := absurd h (by simp [get?])
  mark := by decide

theorem InRange.publish {g : Registry} (h : g.InRange) {slot : UInt8} (hfirst : firstSlot ≤ slot)
    (hlast : slot ≤ lastSlot) (name : String) : (g.publish name slot).InRange where
  slot {name' slot'} hs := by
    rw [get?_publish] at hs
    split at hs
    · exact Option.some.inj hs ▸ ⟨hfirst, hlast⟩
    · exact h.slot hs
  mark := by
    show (if g.lastGiven ≤ slot then slot else g.lastGiven) ≤ lastSlot
    split
    · exact hlast
    · exact h.mark

/-- A slot is checked when its row is taken in. -/
theorem inRange_absorbAll {g g' : Registry} {walk : Walk} (hg : g.InRange)
    (h : g.absorbAll walk = .ok g') : g'.InRange := by
  induction walk generalizing g with
  | nil => exact Except.ok.inj h ▸ hg
  | cons x rest ih =>
      cases x with
      | error e => exact absurd h (by simp [absorbAll])
      | ok entry =>
          rw [absorbAll] at h
          split at h
          · exact absurd h (by simp)
          · rename_i g₁ hg₁
            obtain ⟨name, slot, hslot, he⟩ := absorb_ok hg₁
            obtain ⟨_, hfirst, hlast⟩ := slotOf?_eq_some_iff.mp hslot
            subst he
            exact ih (hg.publish hfirst hlast name) h

theorem inRange_load {ε : Type} [StorageEngine ε] {engine : ε} {g : Registry}
    (h : load engine = .ok g) : g.InRange := by
  unfold load at h
  split at h
  · exact absurd h (by simp)
  · exact inRange_absorbAll inRange_empty h

/-- A slot that is reserved is a table's. -/
theorem inRange_of_reserve {g : Registry} {name : String} {slot : UInt8}
    (h : g.reserve name = .ok (.new slot)) : firstSlot ≤ slot ∧ slot ≤ lastSlot := by
  obtain ⟨_, _, hnew, hlast⟩ := new_of_reserve h
  rw [UInt8.lt_iff_toNat_lt] at hnew
  refine ⟨UInt8.le_iff_toNat_le.mpr ?_, hlast⟩
  show 1 ≤ slot.toNat
  omega

theorem Grew.inRange {g k : Registry} (h : Grew g k) (hg : g.InRange) : k.InRange := by
  induction h with
  | refl => exact hg
  | made before reserved ih =>
      obtain ⟨hfirst, hlast⟩ := inRange_of_reserve reserved
      exact ih.publish hfirst hlast _

end Registry

variable {ε : Type} [StorageEngine ε]

open Registry (Grew)

/-! ## What a turn makes of the registry -/

theorem Repository.grew_openTable (r : Repository ε) (name : String) :
    Grew r.registry (r.openTable name).2.registry := by
  unfold openTable
  cases hres : r.registry.reserve name with
  | error e => exact .refl
  | ok reservation =>
      cases reservation with
      | existing slot => exact .refl
      | new slot =>
          dsimp only
          split
          · exact .refl
          · exact Grew.refl.made hres

theorem Repository.SameStore.grew {r r' : Repository ε} (h : Repository.SameStore r r') :
    Grew r.registry r'.registry := h.registry ▸ .refl

theorem Repository.registry_writeBuffer (r : Repository ε) (b : WriteBuffer) :
    (r.writeBuffer b).2.registry = r.registry := by
  unfold writeBuffer
  split
  · rfl
  · split
    · rfl
    · split <;> rfl

namespace Transaction

theorem grew_edit (t : Transaction) (r : Repository ε) (table : String)
    (change : UInt8 → WriteBuffer → WriteBuffer) :
    Grew r.registry (t.edit r table change).2.2.registry := by
  have hopen := r.grew_openTable table
  unfold edit
  split
  · exact .refl
  · split
    · rename_i hr
      rw [hr] at hopen
      exact hopen
    · rename_i hr
      rw [hr] at hopen
      exact hopen

theorem grew_putAll (t : Transaction) (r : Repository ε) (table : String)
    (rows : List (Bytes × Bytes)) : Grew r.registry (t.putAll r table rows).2.2.registry := by
  induction rows generalizing t r with
  | nil => exact .refl
  | cons e rest ih =>
      obtain ⟨key, value⟩ := e
      have hput : Grew r.registry (t.put r table key value).2.2.registry := t.grew_edit r table _
      rw [putAll]
      split
      · rename_i hr
        rw [hr] at hput
        exact hput
      · rename_i t₁ r₁ hr
        rw [hr] at hput
        exact hput.trans (ih t₁ r₁)

/-- A commit makes no table, whether it writes, fails or is refused. -/
theorem registry_commit (t : Transaction) (r : Repository ε) :
    (t.commit r).2.2.registry = r.registry := by
  by_cases hactive : t.state = .active
  · cases hmode : t.mode with
    | read =>
        unfold commit requireActive
        rw [hactive, hmode]
        exact (t.sameStore_release r).registry
    | readWrite =>
        by_cases hlock : t.CanLock r
        · have hwrite : ((t.locked r).writeBuffer t.buffer).2.registry = r.registry :=
            (Repository.registry_writeBuffer _ _).trans (t.sameStore_locked r).registry
          rcases commit_cases hactive hmode hlock with ⟨e, _, hc⟩ | ⟨batch, _, hc⟩
          · rw [hc]
            exact hwrite
          · rw [hc]
            exact hwrite
        · rw [(commit_of_not_canLock hactive hmode hlock).2]
          unfold Repository.acquireWriter
          split <;> rfl
  · unfold commit requireActive
    cases hs : t.state with
    | active => exact absurd hs hactive
    | committed => rfl
    | rolledBack => rfl

theorem grew_run (a : Action) (t : Transaction) (r : Repository ε) :
    Grew r.registry (a.run t r).2.2.registry := by
  cases a with
  | put table key value => exact t.grew_edit r table _
  | putAll table rows => exact t.grew_putAll r table rows
  | remove table key => exact t.grew_edit r table _
  | clear table => exact t.grew_edit r table _
  | commit =>
      show Grew r.registry (t.commit r).2.2.registry
      rw [t.registry_commit r]
      exact .refl
  | rollback =>
      show Grew r.registry (t.rollback r).2.2.registry
      rcases t.rollback_cases r with ⟨e, hr⟩ | ⟨r', hr, hsame⟩
      · rw [hr]
        exact .refl
      · rw [hr]
        exact hsame.grew

end Transaction

/-- **A turn makes the registry grow,** and does nothing else to it. -/
theorem History.grew_take (h : History ε) (turn : Turn ε) :
    Grew h.repo.registry (h.take turn).repo.registry := by
  have htook := h.took_take turn
  show Grew h.session.repo.registry (h.take turn).session.repo.registry
  generalize (h.take turn).session = s at htook
  cases htook with
  | nobody absent needed => exact .refl
  | refused answer =>
      rcases Transaction.begin_cases _ h.session.repo with ⟨e, r, hb, hsame⟩ | ⟨t, r, hb, _⟩
      · rw [hb] at answer
        exact ((Prod.mk.inj answer).2 ▸ hsame).grew
      · rw [hb] at answer
        exact absurd (Prod.mk.inj answer).1 (by simp)
  | begun answer =>
      rcases Transaction.begin_cases _ h.session.repo with ⟨e, r, hb, _⟩ | ⟨t, r, hb, hsame, _⟩
      · rw [hb] at answer
        exact absurd (Prod.mk.inj answer).1 (by simp)
      · rw [hb] at answer
        exact (((Prod.mk.inj answer).2 ▸ hsame).trans (Session.sameStore_relieved _ _ _)).grew
  | acted present => exact Transaction.grew_run _ _ _
  | dropped present => exact (Transaction.sameStore_drop _ _).grew
  | fault => exact .refl

/-- The registry of a store grew from one that was read back. -/
theorem Reachable.grew {h : History ε} (hr : Reachable h) :
    ∃ (engine : ε) (g : Registry), Registry.load engine = .ok g ∧ Grew g h.repo.registry := by
  induction hr with
  | opened opens => exact ⟨_, _, (Repository.load_of_onEngine opens).2, .refl⟩
  | turn before turn ih =>
      obtain ⟨engine, g, hload, hgrew⟩ := ih
      exact ⟨engine, g, hload, hgrew.trans (History.grew_take _ turn)⟩
  | resume before ih => exact ih

/-- **Every slot of a store is a table's,** at every moment and on any engine. -/
theorem Reachable.inRange {h : History ε} (hr : Reachable h) : h.repo.registry.InRange := by
  obtain ⟨engine, g, hload, hgrew⟩ := hr.grew
  exact hgrew.inRange (Registry.inRange_load hload)

end TableStore
