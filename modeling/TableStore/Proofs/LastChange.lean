import Mathlib.Data.List.DropRight
import TableStore.Proofs.Calls
import TableStore.Proofs.Serial
import TableStore.Proofs.Turns

/-!
# The last change of each row

A buffer does not keep the calls of a transaction, only what is left of them: under each key the
last change since its table was last cleared, and the tables that were cleared at all. Here this is
said of the calls themselves, without a buffer. `lastChange?` looks a list of calls through from its
end, up to the last clear of the table, for the first that is about the row.

That the buffer has this and nothing else is shown in two steps. `Registry.bufferOf` notes a list of
actions in an empty buffer, each under the slot of its table, and one more action at the end of the
list is one more step of `lastChange?` (`get?_bufferOf`). And the buffer of a transaction is the
buffer of its list, in every history (`History.condensed_of_reachable`): others may make tables
meanwhile, but the tables of the list are there since its actions were made, and keep their slots.
-/

namespace TableStore

/-! ## Calls, one row at a time -/

namespace Action

/-- The calls of which an action is made, of one row or one table each. -/
def calls : Action → List Action
  | putAll table rows => rows.map (fun e => put table e.1 e.2)
  | put table key value => [put table key value]
  | remove table key => [remove table key]
  | clear table => [clear table]
  | commit | rollback => []

/-- What a call makes of a row: its new value, or `none` for a removal. -/
def says? (a : Action) (table : String) (key : Bytes) : Option (Option Bytes) :=
  match a with
  | put other k value => if other = table ∧ key = k then some (some value) else none
  | remove other k => if other = table ∧ key = k then some none else none
  | putAll _ _ | clear _ | commit | rollback => none

end Action

/-- The calls of which a list of actions is made. -/
def callsOf (log : List Action) : List Action := log.flatMap Action.calls

/-- The calls since a table was last cleared. -/
def sinceClear (log : List Action) (table : String) : List Action :=
  log.rtakeWhile (fun a => a ≠ .clear table)

/-- The last change of a row since its table was last cleared. -/
def lastChange? (log : List Action) (table : String) (key : Bytes) : Option (Option Bytes) :=
  (sinceClear log table).reverse.findSome? (fun a => a.says? table key)

/-- A row with a change is one that a call is about. -/
theorem exists_of_lastChange? {log : List Action} {table : String} {key : Bytes}
    {entry : Option Bytes} (h : lastChange? log table key = some entry) :
    ∃ a ∈ log, a.says? table key ≠ none := by
  obtain ⟨a, ha, htold⟩ := List.exists_of_findSome?_eq_some h
  have hmem := List.mem_reverse.mp ha
  exact ⟨a, (List.rtakeWhile_suffix _ log).subset hmem, by rw [htold]; simp⟩

/-- **One more call** forgets what was before it, or changes its row, or makes no difference. -/
theorem lastChange?_snoc (log : List Action) (a : Action) (table : String) (key : Bytes) :
    lastChange? (log ++ [a]) table key
      = if a = .clear table then none
        else (a.says? table key).or (lastChange? log table key) := by
  unfold lastChange? sinceClear
  by_cases ha : a = .clear table
  · rw [List.rtakeWhile_concat_neg _ _ _ (by simp [ha]), if_pos ha]
    rfl
  · rw [List.rtakeWhile_concat_pos _ _ _ (by simp [ha]), if_neg ha, List.reverse_append,
      List.findSome?_append]
    exact congrArg (Option.or · _) (by rw [List.reverse_singleton, List.findSome?_singleton])

/-! ## What one change does to a buffer -/

namespace WriteBuffer

theorem get?_stage_or (b : WriteBuffer) (slot : UInt8) (k : Bytes) (entry : Option Bytes)
    (key : Bytes) :
    (b.stage slot k entry).get? slot key
      = (if key = k then some entry else none).or (b.get? slot key) := by
  rw [get?_stage]
  split <;> rfl

theorem get?_clear (b : WriteBuffer) (slot : UInt8) (key : Bytes) :
    (b.clear slot).get? slot key = none := by
  unfold get?
  rw [ofTable_clear, if_pos rfl]
  rfl

theorem isDirty_of_isCleared {b : WriteBuffer} {slot : UInt8} (h : b.isCleared slot = true) :
    b.isDirty = true := by
  obtain ⟨_, hmem⟩ := SortedMap.contains_iff.mp h
  have hcleared : b.cleared.isEmpty = false := List.isEmpty_eq_false_iff_exists_mem.mpr ⟨_, hmem⟩
  unfold isDirty
  rw [hcleared]
  rfl

theorem isDirty_of_get? {b : WriteBuffer} {slot : UInt8} {key : Bytes} {entry : Option Bytes}
    (h : b.get? slot key = some entry) : b.isDirty = true := by
  unfold get? ofTable at h
  cases hs : b.changes.get? slot with
  | none =>
      rw [hs] at h
      exact absurd h (by simp)
  | some changes =>
      rw [hs] at h
      have hchanges : changes.isEmpty = false :=
        List.isEmpty_eq_false_iff_exists_mem.mpr ⟨_, SortedMap.get?_eq_some_iff.mp h⟩
      unfold isDirty
      rw [Bool.or_eq_true, List.any_eq_true]
      exact Or.inr ⟨_, SortedMap.get?_eq_some_iff.mp hs, by simp [hchanges]⟩

end WriteBuffer

namespace Action

/-- A change leaves what a buffer has for other tables. -/
theorem onBuffer_of_ne (a : Action) {slot slot' : UInt8} (h : slot' ≠ slot) (b : WriteBuffer) :
    (a.onBuffer slot b).ofTable slot' = b.ofTable slot'
      ∧ (a.onBuffer slot b).isCleared slot' = b.isCleared slot' := by
  have hstage : ∀ (b : WriteBuffer) key entry, (b.stage slot key entry).ofTable slot' = b.ofTable slot'
      ∧ (b.stage slot key entry).isCleared slot' = b.isCleared slot' := by
    intro b key entry
    exact ⟨by rw [WriteBuffer.ofTable_stage, if_neg h], b.isCleared_stage slot slot' key entry⟩
  cases a with
  | put table key value => exact hstage b key (some value)
  | remove table key => exact hstage b key none
  | clear table =>
      refine ⟨?_, ?_⟩
      · show (b.clear slot).ofTable slot' = _
        rw [WriteBuffer.ofTable_clear, if_neg h]
      · show (b.clear slot).isCleared slot' = _
        rw [WriteBuffer.isCleared_clear, beq_eq_false_iff_ne.mpr h, Bool.false_or]
  | putAll table rows =>
      show (rows.foldl (fun b e => b.stage slot e.1 (some e.2)) b).ofTable slot' = _
        ∧ (rows.foldl (fun b e => b.stage slot e.1 (some e.2)) b).isCleared slot' = _
      induction rows generalizing b with
      | nil => exact ⟨rfl, rfl⟩
      | cons e rest ih =>
          obtain ⟨htable, hcleared⟩ := ih (b.stage slot e.1 (some e.2))
          exact ⟨htable.trans (hstage b _ _).1, hcleared.trans (hstage b _ _).2⟩
  | commit => exact ⟨rfl, rfl⟩
  | rollback => exact ⟨rfl, rfl⟩

/-- A call that changes one row or clears one table. -/
def IsCall (a : Action) : Prop := a.calls = [a]

theorem isCall_of_mem_calls {a c : Action} (h : c ∈ a.calls) : c.IsCall := by
  cases a with
  | put table key value => cases List.mem_singleton.mp h; rfl
  | remove table key => cases List.mem_singleton.mp h; rfl
  | clear table => cases List.mem_singleton.mp h; rfl
  | putAll table rows =>
      obtain ⟨e, _, rfl⟩ := List.mem_map.mp h
      rfl
  | commit => exact absurd h (by simp [calls])
  | rollback => exact absurd h (by simp [calls])

theorem isCall_of_mem_callsOf {log : List Action} {c : Action} (h : c ∈ callsOf log) : c.IsCall := by
  obtain ⟨_, _, hmem⟩ := List.mem_flatMap.mp h
  exact isCall_of_mem_calls hmem

theorem IsCall.cases {a : Action} (h : a.IsCall) :
    (∃ table key value, a = put table key value) ∨ (∃ table key, a = remove table key)
    ∨ ∃ table, a = clear table := by
  cases a with
  | put table key value => exact Or.inl ⟨table, key, value, rfl⟩
  | remove table key => exact Or.inr (Or.inl ⟨table, key, rfl⟩)
  | clear table => exact Or.inr (Or.inr ⟨table, rfl⟩)
  | putAll table rows => cases rows <;> exact absurd h (by simp [IsCall, calls])
  | commit => exact absurd h (by simp [IsCall, calls])
  | rollback => exact absurd h (by simp [IsCall, calls])

theorem IsCall.exists_table {a : Action} (h : a.IsCall) : ∃ table, a.table? = some table := by
  rcases h.cases with ⟨table, _, _, rfl⟩ | ⟨table, _, rfl⟩ | ⟨table, rfl⟩
  · exact ⟨table, rfl⟩
  · exact ⟨table, rfl⟩
  · exact ⟨table, rfl⟩

theorem table?_of_mem_calls {a c : Action} (h : c ∈ a.calls) : a.table? = c.table? := by
  cases a with
  | put table key value => cases List.mem_singleton.mp h; rfl
  | remove table key => cases List.mem_singleton.mp h; rfl
  | clear table => cases List.mem_singleton.mp h; rfl
  | putAll table rows =>
      obtain ⟨e, he, rfl⟩ := List.mem_map.mp h
      cases rows with
      | nil => exact absurd he (by simp)
      | cons e rest => rfl
  | commit => exact absurd h (by simp [calls])
  | rollback => exact absurd h (by simp [calls])

/-- **What a call makes of the buffer of its own table.** -/
theorem onBuffer_self {a : Action} (hc : a.IsCall) {table : String} (ha : a.table? = some table)
    (slot : UInt8) (b : WriteBuffer) :
    (∀ key, (a.onBuffer slot b).get? slot key
      = if a = .clear table then none else (a.says? table key).or (b.get? slot key))
    ∧ (a.onBuffer slot b).isCleared slot = (decide (a = .clear table) || b.isCleared slot) := by
  have htold : ∀ (k : Bytes) (entry : Option Bytes) (key : Bytes),
      (if table = table ∧ key = k then some entry else none)
        = (if key = k then some entry else none : Option (Option Bytes)) := by simp
  rcases hc.cases with ⟨other, k, value, rfl⟩ | ⟨other, k, rfl⟩ | ⟨other, rfl⟩
  · cases ha
    have hne : put table k value ≠ clear table := by simp
    refine ⟨fun key => ?_, ?_⟩
    · rw [if_neg hne, says?, htold]
      exact b.get?_stage_or slot k (some value) key
    · rw [decide_eq_false hne]
      rfl
  · cases ha
    have hne : remove table k ≠ clear table := by simp
    refine ⟨fun key => ?_, ?_⟩
    · rw [if_neg hne, says?, htold]
      exact b.get?_stage_or slot k none key
    · rw [decide_eq_false hne]
      rfl
  · cases ha
    refine ⟨fun key => ?_, ?_⟩
    · rw [if_pos rfl]
      exact b.get?_clear slot key
    · show (b.clear slot).isCleared slot = _
      rw [WriteBuffer.isCleared_clear, beq_self_eq_true, decide_eq_true rfl]

/-- A call says nothing of the rows of other tables. -/
theorem says?_of_ne {a : Action} {table : String} (h : a.table? ≠ some table) (key : Bytes) :
    a.says? table key = none ∧ a ≠ .clear table := by
  cases a with
  | put other k value => exact ⟨if_neg (fun he => h (congrArg some he.1)), by simp⟩
  | remove other k => exact ⟨if_neg (fun he => h (congrArg some he.1)), by simp⟩
  | clear other => exact ⟨rfl, fun he => h (congrArg Action.table? he)⟩
  | putAll other rows => exact ⟨rfl, by simp⟩
  | commit => exact ⟨rfl, by simp⟩
  | rollback => exact ⟨rfl, by simp⟩

end Action

/-! ## The buffer of a list -/

namespace Registry

variable {g g' : Registry} {b : WriteBuffer} {log : List Action}

/-- Note an action in a buffer, under the slot of its table. -/
def note (g : Registry) (b : WriteBuffer) (a : Action) : WriteBuffer :=
  match a.table?.bind g.get? with
  | some slot => a.onBuffer slot b
  | none => b

/-- The buffer of a list of actions. -/
def bufferOf (g : Registry) (log : List Action) : WriteBuffer := log.foldl g.note .empty

theorem note_of_some {a : Action} {table : String} {slot : UInt8} (ha : a.table? = some table)
    (hs : g.get? table = some slot) (b : WriteBuffer) : g.note b a = a.onBuffer slot b := by
  unfold note
  rw [ha, Option.bind_some, hs]

theorem note_of_none {a : Action} (ha : a.table? = none) (b : WriteBuffer) : g.note b a = b := by
  unfold note
  rw [ha]
  rfl

/-- What is about a table that nobody knows is not noted. -/
theorem note_of_unknown {a : Action} {table : String} (ha : a.table? = some table)
    (hs : g.get? table = none) (b : WriteBuffer) : g.note b a = b := by
  unfold note
  rw [ha, Option.bind_some, hs]

theorem bufferOf_snoc (g : Registry) (log : List Action) (a : Action) :
    g.bufferOf (log ++ [a]) = g.note (g.bufferOf log) a := by
  unfold bufferOf
  rw [List.foldl_append]
  rfl

/-- The tables of a list of actions are known. -/
def Knows (g : Registry) (log : List Action) : Prop :=
  ∀ a ∈ log, ∀ table, a.table? = some table → ∃ slot, g.get? table = some slot

/-- Setting rows is setting each of them. -/
theorem note_eq_calls (g : Registry) (b : WriteBuffer) (a : Action) :
    g.note b a = a.calls.foldl g.note b := by
  cases a with
  | put table key value => rfl
  | remove table key => rfl
  | clear table => rfl
  | commit => rfl
  | rollback => rfl
  | putAll table rows =>
      show _ = (rows.map (fun e => Action.put table e.1 e.2)).foldl g.note b
      rw [List.foldl_map]
      cases hs : g.get? table with
      | none =>
          -- none of the rows is noted
          have hrows : rows.foldl (fun b e => g.note b (.put table e.1 e.2)) b = b := by
            induction rows with
            | nil => rfl
            | cons e rest ih =>
                have hrow : g.note b (.put table e.1 e.2) = b := note_of_unknown rfl hs b
                rw [List.foldl_cons, hrow]
                exact ih
          rw [hrows]
          cases rows with
          | nil => rfl
          | cons e rest => exact note_of_unknown rfl hs b
      | some slot =>
          have hput : ∀ (b : WriteBuffer) (e : Bytes × Bytes),
              g.note b (.put table e.1 e.2) = b.stage slot e.1 (some e.2) :=
            fun b e => note_of_some rfl hs b
          simp only [hput]
          cases rows with
          | nil => rfl
          | cons e rest => exact note_of_some rfl hs b

/-- **The buffer of a list is the buffer of its calls.** -/
theorem bufferOf_calls (g : Registry) (log : List Action) :
    g.bufferOf (callsOf log) = g.bufferOf log := by
  unfold bufferOf callsOf
  rw [List.foldl_flatMap]
  congr 1
  funext b a
  exact (g.note_eq_calls b a).symm

/-! ## What the buffer of a list has -/

/-- **A call is noted for its own table,** and for no other. -/
theorem note_call (hg : g.Sound) {a : Action} (hc : a.IsCall) {table : String} {slot : UInt8}
    (hs : g.get? table = some slot) (b : WriteBuffer) :
    (∀ key, (g.note b a).get? slot key
      = if a = .clear table then none else (a.says? table key).or (b.get? slot key))
    ∧ (g.note b a).isCleared slot = (decide (a = .clear table) || b.isCleared slot) := by
  by_cases ha : a.table? = some table
  · rw [note_of_some ha hs]
    exact Action.onBuffer_self hc ha slot b
  · -- the call is about another table, which has another slot if it has one
    have hother : (g.note b a).ofTable slot = b.ofTable slot
        ∧ (g.note b a).isCleared slot = b.isCleared slot := by
      unfold note
      split
      · rename_i slot' hbind
        obtain ⟨other, hother, hs'⟩ := Option.bind_eq_some_iff.mp hbind
        have hne : slot ≠ slot' := by
          intro he
          rw [← he] at hs'
          exact ha (hother.trans (congrArg some (hg.injective hs' hs)))
        exact a.onBuffer_of_ne hne b
      · exact ⟨rfl, rfl⟩
    refine ⟨fun key => ?_, ?_⟩
    · obtain ⟨htold, hclear⟩ := Action.says?_of_ne ha key
      rw [if_neg hclear, htold, Option.none_or]
      unfold WriteBuffer.get?
      rw [hother.1]
    · rw [hother.2, decide_eq_false (Action.says?_of_ne ha []).2, Bool.false_or]

/-- **The buffer of calls has the last change of each row,** and the tables that were cleared. -/
theorem bufferOf_has (hg : g.Sound) {table : String} {slot : UInt8}
    (hs : g.get? table = some slot) (hcalls : ∀ a ∈ log, a.IsCall) :
    (∀ key, (g.bufferOf log).get? slot key = lastChange? log table key)
    ∧ ((g.bufferOf log).isCleared slot = true ↔ .clear table ∈ log) := by
  induction log using List.reverseRecOn with
  | nil => exact ⟨fun _ => rfl, iff_of_false Bool.false_ne_true (by simp)⟩
  | append_singleton log a ih =>
      obtain ⟨hget, hcleared⟩ := ih (fun c hc => hcalls c (List.mem_append_left _ hc))
      obtain ⟨hnote, hclear⟩ := note_call hg (hcalls a (by simp)) hs (g.bufferOf log)
      rw [bufferOf_snoc]
      refine ⟨fun key => ?_, ?_⟩
      · rw [hnote, lastChange?_snoc, hget]
      · rw [hclear, Bool.or_eq_true, decide_eq_true_eq, hcleared]
        simp [or_comm, eq_comm]

/-- A call of a table that is known leaves something to write. -/
theorem isDirty_note {a : Action} (hc : a.IsCall) {table : String} (ha : a.table? = some table)
    {slot : UInt8} (hs : g.get? table = some slot) (b : WriteBuffer) :
    (g.note b a).isDirty = true := by
  rw [note_of_some ha hs]
  rcases hc.cases with ⟨_, k, value, rfl⟩ | ⟨_, k, rfl⟩ | ⟨_, rfl⟩
  · have hget : (b.stage slot k (some value)).get? slot k = some (some value) := by
      rw [WriteBuffer.get?_stage, if_pos rfl]
    exact WriteBuffer.isDirty_of_get? hget
  · have hget : (b.stage slot k none).get? slot k = some none := by
      rw [WriteBuffer.get?_stage, if_pos rfl]
    exact WriteBuffer.isDirty_of_get? hget
  · have hcleared : (b.clear slot).isCleared slot = true := by
      rw [WriteBuffer.isCleared_clear, beq_self_eq_true, Bool.true_or]
    exact WriteBuffer.isDirty_of_isCleared hcleared

theorem isDirty_bufferOf_iff (hknows : g.Knows log) (hcalls : ∀ a ∈ log, a.IsCall) :
    (g.bufferOf log).isDirty = true ↔ log ≠ [] := by
  cases log using List.reverseRecOn with
  | nil => exact iff_of_false Bool.false_ne_true (by simp)
  | append_singleton log a =>
      obtain ⟨table, ha⟩ := (hcalls a (by simp)).exists_table
      obtain ⟨slot, hs⟩ := hknows a (by simp) table ha
      rw [bufferOf_snoc]
      exact iff_of_true (isDirty_note (hcalls a (by simp)) ha hs _) (by simp)

/-! ## Tables that are made meanwhile -/

/-- The buffer of a list whose tables are known. -/
structure Condenses (g : Registry) (b : WriteBuffer) (log : List Action) : Prop where
  knows : g.Knows log
  buffer : b = g.bufferOf log

theorem condenses_empty (g : Registry) : g.Condenses .empty [] := ⟨by simp [Knows], rfl⟩

/-- **Tables keep their slots,** so what was noted once is noted still. -/
theorem Condenses.grown (h : g.Condenses b log)
    (hkept : ∀ table slot, g.get? table = some slot → g'.get? table = some slot) :
    g'.Condenses b log where
  knows a ha table htable := by
    obtain ⟨slot, hs⟩ := h.knows a ha table htable
    exact ⟨slot, hkept table slot hs⟩
  buffer := by
    rw [h.buffer]
    refine List.foldl_ext _ _ _ (fun b a ha => ?_)
    cases htable : a.table? with
    | none => rw [note_of_none htable, note_of_none htable]
    | some table =>
        obtain ⟨slot, hs⟩ := h.knows a ha table htable
        rw [note_of_some htable hs, note_of_some htable (hkept table slot hs)]

theorem Condenses.change (h : g.Condenses b log) {a : Action} {table : String} {slot : UInt8}
    (ha : a.table? = some table) (hs : g.get? table = some slot) :
    g.Condenses (a.onBuffer slot b) (log ++ [a]) where
  knows c hc other hother := by
    rcases List.mem_append.mp hc with hc | hc
    · exact h.knows c hc other hother
    · rw [List.mem_singleton.mp hc, ha] at hother
      exact ⟨slot, Option.some.inj hother ▸ hs⟩
  buffer := by rw [bufferOf_snoc, ← h.buffer, note_of_some ha hs]

theorem Condenses.idle (h : g.Condenses b log) {a : Action} (ha : a.table? = none) :
    g.Condenses b (log ++ [a]) where
  knows c hc other hother := by
    rcases List.mem_append.mp hc with hc | hc
    · exact h.knows c hc other hother
    · rw [List.mem_singleton.mp hc, ha] at hother
      exact absurd hother (by simp)
  buffer := by rw [bufferOf_snoc, ← h.buffer, note_of_none ha]

theorem Condenses.knows_calls (h : g.Condenses b log) : g.Knows (callsOf log) := by
  intro c hc table htable
  obtain ⟨a, ha, hmem⟩ := List.mem_flatMap.mp hc
  exact h.knows a ha table ((Action.table?_of_mem_calls hmem).trans htable)

/-- **What the buffer has for a table** is what the calls say. -/
theorem Condenses.has (h : g.Condenses b log) (hg : g.Sound) {table : String} {slot : UInt8}
    (hs : g.get? table = some slot) :
    (∀ key, b.get? slot key = lastChange? (callsOf log) table key)
    ∧ (b.isCleared slot = true ↔ .clear table ∈ callsOf log) := by
  rw [h.buffer, ← g.bufferOf_calls]
  exact bufferOf_has hg hs (fun _ => Action.isCall_of_mem_callsOf)

/-- A row with a change is one of a table. -/
theorem Condenses.exists_slot (h : g.Condenses b log) {table : String} {key : Bytes}
    {entry : Option Bytes} (hlast : lastChange? (callsOf log) table key = some entry) :
    ∃ slot, g.get? table = some slot := by
  obtain ⟨a, ha, htold⟩ := exists_of_lastChange? hlast
  refine h.knows_calls a ha table (Classical.byContradiction (fun hne => htold ?_))
  exact (Action.says?_of_ne hne key).1

theorem Condenses.isDirty_iff (h : g.Condenses b log) : b.isDirty = true ↔ callsOf log ≠ [] := by
  rw [h.buffer, ← g.bufferOf_calls]
  exact isDirty_bufferOf_iff (h.knows_calls) (fun _ => Action.isCall_of_mem_callsOf)

end Registry

/-! ## Histories -/

namespace History

variable {ε : Type} [StorageEngine ε] {h : History ε} {name other : String}

/-- Every active transaction has the buffer of its list. -/
def Condensed (h : History ε) : Prop :=
  ∀ name t, h.session.transaction? name = some t → t.state = .active →
    h.repo.registry.Condenses t.buffer (h.pending name)

/-- A turn of one transaction adds nothing to the lists of the others. -/
theorem pending_take_of_ne (hne : other ≠ name) (step : Step) :
    (h.take (.step name step)).pending other = h.pending other := by
  unfold take
  dsimp only
  split
  · unfold note setPending
    split <;> simp [hne]
  · rfl

/-- A try to end that leaves the transaction active leaves it its buffer and its list. -/
theorem kept_end [HonestEngine ε] {t : Transaction} (ht : h.session.transaction? name = some t)
    {a : Action} (ha : ¬ a.isChange = true) (hactive : (a.run t h.repo).2.1.state = .active) :
    (h.take (.step name (.act a))).pending name = h.pending name
      ∧ (a.run t h.repo).2.1.buffer = t.buffer := by
  have hpending : ∀ (answer : Except StoreError Unit) (s : Session ε),
      (h.note name (.act a) answer s).pending = h.pending := by
    intro answer s
    rcases Action.ends_of_not_isChange ha with rfl | rfl <;> cases answer <;> rfl
  rw [take_act, ht]
  refine ⟨congrFun (hpending _ _) name, ?_⟩
  rcases Action.ends_of_not_isChange ha with rfl | rfl
  · have hran := t.ran_commit h.repo
    change (t.commit h.repo).2.1.state = .active at hactive
    show (t.commit h.repo).2.1.buffer = t.buffer
    generalize t.commit h.repo = result at hran hactive
    cases hran with
    | failed holds same => rfl
    | read active mode same => exact absurd hactive (by simp [Transaction.finished])
    | written active mode registry rows => exact absurd hactive (by simp [Transaction.finished])
  · change (t.rollback h.repo).2.1.state = .active at hactive
    show (t.rollback h.repo).2.1.buffer = t.buffer
    rcases t.rollback_cases h.repo with ⟨e, hr⟩ | ⟨r', hr, _⟩
    · rw [hr]
    · rw [hr] at hactive
      exact absurd hactive (by simp [Transaction.finished])

/-- A change goes into the buffer and onto the list. -/
theorem condensed_change [AtomicEngine ε] {t u : Transaction}
    (ht : h.session.transaction? name = some t)
    (hc : h.repo.registry.Condenses t.buffer (h.pending name)) {a : Action}
    (ha : a.isChange = true)
    (hu : (h.take (.step name (.act a))).session.transaction? name = some u) :
    (h.take (.step name (.act a))).repo.registry.Condenses u.buffer
      ((h.take (.step name (.act a))).pending name) := by
  have hran := Action.ran_run ha t h.repo
  rw [take_act, ht] at hu ⊢
  dsimp only at hu ⊢
  generalize a.run t h.repo = result at hran hu ⊢
  have hself : ∀ (r' : Repository ε) (v : Transaction),
      (Session.mk r' (h.session.transactions.insert name v)).transaction? name = some v := by
    intro r' v
    rw [Session.transaction?_insert, if_pos rfl]
  cases hran with
  | failed same =>
      cases Option.some.inj ((hself _ _).symm.trans hu)
      exact same.registry.symm ▸ hc
  | idle unnamed =>
      rw [note_change h name ha] at hu ⊢
      cases Option.some.inj ((hself _ _).symm.trans hu)
      dsimp only
      rw [setPending, if_pos rfl]
      exact hc.idle unnamed
  | changed named active writes opened =>
      rw [note_change h name ha] at hu ⊢
      cases Option.some.inj ((hself _ _).symm.trans hu)
      dsimp only
      rw [setPending, if_pos rfl]
      exact (hc.grown (fun _ _ => opened.kept)).change named opened.known

/-- A begin starts with nothing on either side. -/
theorem condensed_begin (hc : Condensed h) (mode : TransactionMode) {u : Transaction}
    (hu : (h.take (.step name (.begin mode))).session.transaction? name = some u)
    (hactive : u.state = .active) :
    (h.take (.step name (.begin mode))).repo.registry.Condenses u.buffer
      ((h.take (.step name (.begin mode))).pending name) := by
  have htake : h.take (.step name (.begin mode))
      = h.note name (.begin mode) (h.session.begin name mode).1 (h.session.begin name mode).2 :=
    rfl
  rw [htake] at hu ⊢
  rcases Transaction.begin_cases mode h.session.repo with ⟨e, r, hb, hsame⟩ | ⟨t, r, hb, _, hempty, _⟩
  · rw [Session.begin_error hb] at hu ⊢
    have hbefore := hc name u hu hactive
    exact hsame.registry.symm ▸ hbefore
  · rw [Session.begin_ok hb, session_note, Session.transaction?_insert, if_pos rfl] at hu
    rw [Session.begin_ok hb, ← Option.some.inj hu, hempty]
    have hpending : (h.note name (.begin mode) (.ok ())
        ⟨h.session.relieved name r, h.session.transactions.insert name t⟩).pending name = [] :=
      if_pos rfl
    rw [hpending]
    exact Registry.condenses_empty _

/-- **Every turn keeps it.** -/
theorem condensed_take [HonestEngine ε] (hc : Condensed h) (turn : Turn ε) :
    Condensed (h.take turn) := by
  intro other u hu hactive
  have hkept : ∀ table slot, h.repo.registry.get? table = some slot →
      (h.take turn).repo.registry.get? table = some slot := fun _ _ => h.kept_take turn
  cases turn with
  | fault change same => exact hc other u hu hactive
  | step name step =>
      by_cases hne : other = name
      · subst hne
        cases step with
        | begin mode => exact condensed_begin hc mode hu hactive
        | drop =>
            cases cameFrom_take hu with
            | stayed present =>
                rw [session_take (Session.drop?_some present), Session.transaction?_erase,
                  if_pos rfl] at hu
                exact absurd hu (by simp)
            | began turn_eq answer => exact absurd (Turn.step.inj turn_eq).2 (by simp)
            | acted turn_eq present result => exact absurd (Turn.step.inj turn_eq).2 (by simp)
        | act a =>
            cases ht : h.session.transaction? other with
            | none =>
                rw [take_act, ht] at hu
                exact absurd (ht.symm.trans hu) (by simp)
            | some t =>
                have hrun : (a.run t h.repo).2.1 = u := by
                  rw [session_take (Session.update?_some ht a), Session.transaction?_insert,
                    if_pos rfl] at hu
                  exact Option.some.inj hu
                rw [← hrun] at hactive
                have hbefore := hc other t ht (Transaction.continues_run hactive).1
                by_cases ha : a.isChange = true
                · exact condensed_change ht hbefore ha hu
                · obtain ⟨hpending, hbuffer⟩ := kept_end ht ha hactive
                  rw [hpending, ← hrun, hbuffer]
                  exact hbefore.grown hkept
      · -- somebody else's turn
        rw [pending_take_of_ne hne]
        cases cameFrom_take hu with
        | stayed present => exact (hc other u present hactive).grown hkept
        | began turn_eq answer => exact absurd (Turn.step.inj turn_eq).1.symm hne
        | acted turn_eq present result => exact absurd (Turn.step.inj turn_eq).1.symm hne

theorem condensed_of_reachable [HonestEngine ε] (hr : Reachable h) : Condensed h := by
  induction hr with
  | opened opens =>
      intro name t ht
      exact absurd ht (by simp [start, Session.transaction?])
  | turn _ turn ih => exact condensed_take ih turn
  | resume _ ih => exact ih

end History

end TableStore
