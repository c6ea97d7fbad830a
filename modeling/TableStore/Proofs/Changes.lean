import TableStore.Proofs.Overlay
import TableStore.Proofs.Registry
import TableStore.Session

/-!
# What a change does

A call that changes a table does three things: it opens the table, it notes the change in
the buffer under the table's slot, and it answers. `Action.ran_run` says that a call which
fails has done none of them, and that one which succeeds has done all.

On the side of the specification there is no buffer. A change is a function on the rows of
one table (`Action.onRows`), and what a transaction did is the list of its changes, replayed
on the table of each name (`replay`). The two sides meet in `Registry.Mirrors`: the buffer
laid over any rows is the list replayed on them. It holds of the empty buffer and the empty
list, and every change that succeeds keeps it (`Mirrors.change`). A table that another
transaction makes meanwhile does not disturb it, for the buffer has nothing under a slot that
nobody had (`Mirrors.opened`).
-/

namespace TableStore

/-! ## Changes of tables by name -/

namespace Action

/-- Whether an action changes rows, and does not end the transaction. -/
def isChange : Action → Bool
  | put _ _ _ | putAll _ _ | remove _ _ | clear _ => true
  | commit | rollback => false

theorem ends_of_not_isChange {a : Action} (h : ¬ a.isChange = true) :
    a = .commit ∨ a = .rollback := by
  cases a with
  | commit => exact Or.inl rfl
  | rollback => exact Or.inr rfl
  | put table key value => exact absurd rfl h
  | putAll table rows => exact absurd rfl h
  | remove table key => exact absurd rfl h
  | clear table => exact absurd rfl h

/-- The table that an action names by changing it. No row set is no change. -/
def table? : Action → Option String
  | put table _ _ => some table
  | putAll table rows => if rows.isEmpty then none else some table
  | remove table _ => some table
  | clear table => some table
  | commit | rollback => none

/-- What a change makes of its table. -/
def onRows : Action → Rows → Rows
  | put _ key value, rows => rows.insert key value
  | putAll _ new, rows => new.foldl (fun rows e => rows.insert e.1 e.2) rows
  | remove _ key, rows => rows.erase key
  | clear _, _ => .empty
  | commit, rows | rollback, rows => rows

/-- What an action makes of the table of a name. -/
def onTable (a : Action) (table : String) (rows : Rows) : Rows :=
  if a.table? = some table then a.onRows rows else rows

/-- What a change makes of a buffer, when its table has the slot. -/
def onBuffer (slot : UInt8) : Action → WriteBuffer → WriteBuffer
  | put _ key value, b => b.stage slot key (some value)
  | putAll _ new, b => new.foldl (fun b e => b.stage slot e.1 (some e.2)) b
  | remove _ key, b => b.stage slot key none
  | clear _, b => b.clear slot
  | commit, b | rollback, b => b

theorem onTable_self {a : Action} {table : String} (h : a.table? = some table) (rows : Rows) :
    a.onTable table rows = a.onRows rows := by
  unfold onTable
  rw [if_pos h]

theorem onTable_of_ne {a : Action} {table : String} (h : a.table? ≠ some table) (rows : Rows) :
    a.onTable table rows = rows := by
  unfold onTable
  rw [if_neg h]

/-- **A change of the buffer is the change of its table,** over any rows. -/
theorem overlay_onBuffer_self (a : Action) (slot : UInt8) (b : WriteBuffer) (rows : Rows) :
    (a.onBuffer slot b).overlay slot rows = a.onRows (b.overlay slot rows) := by
  cases a with
  | put table key value => exact b.overlay_stage_self slot key (some value) rows
  | putAll table new =>
      show (new.foldl (fun b e => b.stage slot e.1 (some e.2)) b).overlay slot rows
        = new.foldl (fun rows e => rows.insert e.1 e.2) (b.overlay slot rows)
      induction new generalizing b with
      | nil => rfl
      | cons e rest ih =>
          rw [List.foldl_cons, List.foldl_cons, ih, WriteBuffer.overlay_stage_self]
          rfl
  | remove table key => exact b.overlay_stage_self slot key none rows
  | clear table => exact b.overlay_clear_self slot rows
  | commit => rfl
  | rollback => rfl

theorem overlay_onBuffer_of_ne (a : Action) {slot slot' : UInt8} (h : slot' ≠ slot)
    (b : WriteBuffer) (rows : Rows) :
    (a.onBuffer slot b).overlay slot' rows = b.overlay slot' rows := by
  cases a with
  | put table key value => exact b.overlay_stage_of_ne h key (some value) rows
  | putAll table new =>
      show (new.foldl (fun b e => b.stage slot e.1 (some e.2)) b).overlay slot' rows = _
      induction new generalizing b with
      | nil => rfl
      | cons e rest ih => rw [List.foldl_cons, ih, WriteBuffer.overlay_stage_of_ne _ h]
  | remove table key => exact b.overlay_stage_of_ne h key none rows
  | clear table => exact b.overlay_clear_of_ne h rows
  | commit => rfl
  | rollback => rfl

theorem touches_onBuffer {a : Action} {slot slot' : UInt8} {b : WriteBuffer}
    (h : (a.onBuffer slot b).Touches slot') : slot' = slot ∨ b.Touches slot' := by
  cases a with
  | put table key value => exact WriteBuffer.touches_stage h
  | putAll table new =>
      change (new.foldl (fun b e => b.stage slot e.1 (some e.2)) b).Touches slot' at h
      induction new generalizing b with
      | nil => exact Or.inr h
      | cons e rest ih =>
          rw [List.foldl_cons] at h
          rcases ih h with hs | hs
          · exact Or.inl hs
          · exact WriteBuffer.touches_stage hs
  | remove table key => exact WriteBuffer.touches_stage h
  | clear table => exact WriteBuffer.touches_clear h
  | commit => exact Or.inr h
  | rollback => exact Or.inr h

end Action

/-- The table of a name after some actions, one after the other. -/
def replay (log : List Action) (table : String) (rows : Rows) : Rows :=
  log.foldl (fun rows a => a.onTable table rows) rows

theorem replay_append (log log' : List Action) (table : String) (rows : Rows) :
    replay (log ++ log') table rows = replay log' table (replay log table rows) :=
  List.foldl_append

theorem replay_snoc (log : List Action) (a : Action) (table : String) (rows : Rows) :
    replay (log ++ [a]) table rows = a.onTable table (replay log table rows) :=
  replay_append log [a] table rows

/-! ## The buffer and the log -/

/-- A buffer touches no slot but those of tables. -/
def Registry.Owns (g : Registry) (b : WriteBuffer) : Prop :=
  ∀ slot, b.Touches slot → ∃ table, g.get? table = some slot

/-- A buffer and a log mean the same: laid over any rows of a table, the buffer gives what the
log makes of them. A name without a table is in no change of the log. -/
def Registry.Mirrors (g : Registry) (b : WriteBuffer) (log : List Action) : Prop :=
  ∀ table rows, replay log table rows
    = match g.get? table with
      | some slot => b.overlay slot rows
      | none => rows

namespace Registry

variable {g : Registry} {b : WriteBuffer} {log : List Action}

theorem owns_empty (g : Registry) : g.Owns .empty :=
  fun slot h => absurd h (WriteBuffer.not_touches_empty slot)

theorem mirrors_empty (g : Registry) : g.Mirrors .empty [] := by
  intro table rows
  cases g.get? table with
  | none => rfl
  | some slot => exact (WriteBuffer.overlay_empty slot rows).symm

theorem Mirrors.of_some (h : g.Mirrors b log) {table : String} {slot : UInt8}
    (hs : g.get? table = some slot) (rows : Rows) :
    replay log table rows = b.overlay slot rows := by
  rw [h table rows, hs]

theorem Mirrors.of_none (h : g.Mirrors b log) {table : String} (hs : g.get? table = none)
    (rows : Rows) : replay log table rows = rows := by
  rw [h table rows, hs]

/-- Under a slot that nobody has there is nothing. -/
theorem Owns.not_touches (h : g.Owns b) {slot : UInt8} (hno : ∀ table, g.get? table ≠ some slot) :
    ¬ b.Touches slot := by
  intro ht
  obtain ⟨table, htable⟩ := h slot ht
  exact hno table htable

theorem Owns.change (h : g.Owns b) {table : String} {slot : UInt8}
    (hs : g.get? table = some slot) (a : Action) : g.Owns (a.onBuffer slot b) := by
  intro slot' ht
  rcases Action.touches_onBuffer ht with he | ht
  · exact ⟨table, he ▸ hs⟩
  · exact h slot' ht

/-- **A change noted on both sides** leaves them meaning the same. -/
theorem Mirrors.change (h : g.Mirrors b log) (hg : g.Sound) {a : Action} {table : String}
    {slot : UInt8} (ha : a.table? = some table) (hs : g.get? table = some slot) :
    g.Mirrors (a.onBuffer slot b) (log ++ [a]) := by
  intro other rows
  rw [replay_snoc, h other rows]
  by_cases hne : other = table
  · rw [hne, hs, Action.onTable_self ha]
    exact (a.overlay_onBuffer_self slot b rows).symm
  · have hother : a.table? ≠ some other := by
      rw [ha]
      exact fun he => hne (Option.some.inj he).symm
    rw [Action.onTable_of_ne hother]
    cases ho : g.get? other with
    | none => rfl
    | some slot' =>
        -- another table has another slot, so the buffer has nothing new for it
        have hslot : slot' ≠ slot := by
          intro he
          rw [he] at ho
          exact hne (hg.injective ho hs)
        exact (a.overlay_onBuffer_of_ne hslot b rows).symm

/-- An action that names no table is no change. -/
theorem Mirrors.idle (h : g.Mirrors b log) {a : Action} (ha : a.table? = none) :
    g.Mirrors b (log ++ [a]) := by
  intro table rows
  rw [replay_snoc, Action.onTable_of_ne (by rw [ha]; simp)]
  exact h table rows

variable {ε : Type} [StorageEngine ε] {r r' : Repository ε} {name : String} {slot : UInt8}

theorem Owns.opened (h : r.registry.Owns b) (ho : Repository.Opened r r' name slot) :
    r'.registry.Owns b := by
  intro s hs
  obtain ⟨table, ht⟩ := h s hs
  exact ⟨table, ho.kept ht⟩

/-- A table that is made meanwhile has a slot under which the buffer has nothing. -/
theorem Mirrors.opened (h : r.registry.Mirrors b log) (howns : r.registry.Owns b)
    (hg : r.registry.Sound) (ho : Repository.Opened r r' name slot) :
    r'.registry.Mirrors b log := by
  intro table rows
  by_cases hne : table = name
  · rw [hne, ho.known]
    cases hk : r.registry.get? name with
    | some slot' =>
        have hslot := (ho.kept hk).symm.trans ho.known
        rw [← Option.some.inj hslot]
        exact h.of_some hk rows
    | none =>
        have huntouched : ¬ b.Touches slot := howns.not_touches (ho.unused hg hk)
        rw [h.of_none hk]
        exact (WriteBuffer.overlay_of_not_touches huntouched rows).symm
  · rw [ho.get?_of_ne hne]
    exact h table rows

end Registry

/-! ## What a call does -/

section Run

variable {ε : Type} [StorageEngine ε]

/-- What a call of a change did: nothing, or nothing because there was nothing to do, or the
change. -/
inductive Action.Ran (a : Action) (t : Transaction) (r : Repository ε) :
    Except StoreError Unit × Transaction × Repository ε → Prop where
  | failed {e : StoreError} {r' : Repository ε} (same : Repository.SameStore r r') :
      a.Ran t r (.error e, t, r')
  | idle (unnamed : a.table? = none) : a.Ran t r (.ok (), t, r)
  | changed {table : String} {slot : UInt8} {r' : Repository ε} (named : a.table? = some table)
      (active : t.state = .active) (writes : t.mode = .readWrite)
      (opened : Repository.Opened r r' table slot) :
      a.Ran t r (.ok (), { t with buffer := a.onBuffer slot t.buffer }, r')

namespace Transaction

theorem requireWritable_ok_iff {t : Transaction} :
    t.requireWritable = .ok () ↔ t.state = .active ∧ t.mode = .readWrite := by
  unfold requireWritable requireActive
  cases t.state <;> cases t.mode <;> simp

theorem edit_of_not_writable {t : Transaction} {e : StoreError} (hw : t.requireWritable = .error e)
    (r : Repository ε) (table : String) (change : UInt8 → WriteBuffer → WriteBuffer) :
    t.edit r table change = (.error e, t, r) := by
  unfold edit
  rw [hw]

theorem edit_of_writable {t : Transaction} (hw : t.requireWritable = .ok ()) (r : Repository ε)
    (table : String) (change : UInt8 → WriteBuffer → WriteBuffer) :
    t.edit r table change = match r.openTable table with
      | (.error e, r') => (.error e, t, r')
      | (.ok slot, r') => (.ok (), { t with buffer := change slot t.buffer }, r') := by
  cases ho : r.openTable table with
  | mk answer r' =>
      cases answer with
      | error e => simp only [edit, hw, ho]
      | ok slot => simp only [edit, hw, ho]

/-- Once the table is there, setting rows cannot fail. -/
theorem putAll_of_some {t : Transaction} {r : Repository ε} {table : String} {slot : UInt8}
    (hw : t.requireWritable = .ok ()) (hs : r.registry.get? table = some slot)
    (rows : List (Bytes × Bytes)) :
    t.putAll r table rows
      = (.ok (), { t with buffer := (Action.putAll table rows).onBuffer slot t.buffer }, r) := by
  induction rows generalizing t with
  | nil => rfl
  | cons e rest ih =>
      obtain ⟨key, value⟩ := e
      rw [putAll, put, edit_of_writable hw, Repository.openTable_of_some hs]
      exact ih (t := { t with buffer := t.buffer.stage slot key (some value) }) hw

end Transaction

namespace Action

variable {a : Action} {t : Transaction} {table : String}

/-- A transaction that may not write does nothing. -/
theorem run_of_not_writable {e : StoreError} (ha : a.table? = some table)
    (hw : t.requireWritable = .error e) (r : Repository ε) : a.run t r = (.error e, t, r) := by
  have hedit : ∀ b : Action, t.edit r table (fun slot buffer => b.onBuffer slot buffer)
      = (.error e, t, r) := fun b => Transaction.edit_of_not_writable hw r table _
  cases a with
  | put other key value => cases ha; exact hedit (.put table key value)
  | remove other key => cases ha; exact hedit (.remove table key)
  | clear other => cases ha; exact hedit (.clear table)
  | putAll other rows =>
      cases rows with
      | nil => exact absurd ha (by simp [table?])
      | cons row rest =>
          show t.putAll r other (row :: rest) = _
          rw [Transaction.putAll, Transaction.put, Transaction.edit_of_not_writable hw]
  | commit => exact absurd ha (by simp [table?])
  | rollback => exact absurd ha (by simp [table?])

/-- **A change opens its table and is noted under its slot,** or neither happens. -/
theorem run_of_writable [AtomicEngine ε] (ha : a.table? = some table)
    (hw : t.requireWritable = .ok ()) (r : Repository ε) :
    a.run t r = match r.openTable table with
      | (.error e, r') => (.error e, t, r')
      | (.ok slot, r') => (.ok (), { t with buffer := a.onBuffer slot t.buffer }, r') := by
  have hedit : ∀ b : Action, t.edit r table (fun slot buffer => b.onBuffer slot buffer)
      = match r.openTable table with
        | (.error e, r') => (.error e, t, r')
        | (.ok slot, r') => (.ok (), { t with buffer := b.onBuffer slot t.buffer }, r') :=
    fun b => Transaction.edit_of_writable hw r table _
  cases a with
  | put other key value => cases ha; exact hedit (.put table key value)
  | remove other key => cases ha; exact hedit (.remove table key)
  | clear other => cases ha; exact hedit (.clear table)
  | putAll other rows =>
      cases rows with
      | nil => exact absurd ha (by simp [table?])
      | cons row rest =>
          cases ha
          have hcases := r.openTable_cases table
          show t.putAll r table (row :: rest) = _
          rw [Transaction.putAll, Transaction.put, Transaction.edit_of_writable hw]
          cases ho : r.openTable table with
          | mk answer r' =>
              rw [ho] at hcases
              cases answer with
              | error e => rfl
              | ok slot =>
                  -- the first row opens the table; for the others it is there
                  rcases hcases with ⟨s, hs, hopened⟩ | ⟨e, he, _⟩
                  · cases hs
                    exact Transaction.putAll_of_some (t := { t with
                      buffer := t.buffer.stage slot row.1 (some row.2) }) hw hopened.known rest
                  · exact absurd he (by simp)
  | commit => exact absurd ha (by simp [table?])
  | rollback => exact absurd ha (by simp [table?])

/-- **The outcomes of a change.** -/
theorem ran_run [AtomicEngine ε] (ha : a.isChange = true) (t : Transaction) (r : Repository ε) :
    a.Ran t r (a.run t r) := by
  cases hnamed : a.table? with
  | none =>
      cases a with
      | putAll table rows =>
          cases rows with
          | nil => exact .idle rfl
          | cons row rest => exact absurd hnamed (by simp [table?])
      | put table key value => exact absurd hnamed (by simp [table?])
      | remove table key => exact absurd hnamed (by simp [table?])
      | clear table => exact absurd hnamed (by simp [table?])
      | commit => exact absurd ha (by simp [isChange])
      | rollback => exact absurd ha (by simp [isChange])
  | some table =>
      cases hw : t.requireWritable with
      | error e =>
          rw [run_of_not_writable hnamed hw]
          exact .failed (.refl r)
      | ok _ =>
          obtain ⟨hactive, hmode⟩ := Transaction.requireWritable_ok_iff.mp hw
          rw [run_of_writable hnamed hw]
          have hcases := r.openTable_cases table
          cases ho : r.openTable table with
          | mk answer r' =>
              rw [ho] at hcases
              rcases hcases with ⟨slot, he, hopened⟩ | ⟨e, he, hsame⟩
              · dsimp only at he
                subst he
                exact .changed hnamed hactive hmode hopened
              · dsimp only at he
                subst he
                exact .failed hsame

end Action

end Run

end TableStore
