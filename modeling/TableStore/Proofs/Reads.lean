import TableStore.Proofs.Engine
import TableStore.Proofs.Merge
import TableStore.Proofs.Registry
import TableStore.Transaction

/-!
# Every read shows one table

A transaction has five ways to read a table, and each of them puts buffer, clear marker
and engine together in its own way: one row at a time, by presence only, over a list of
keys, by counting, and by merging two walks. All of them show the same table, the buffer
laid over the rows where the transaction reads (`Transaction.view`).

Point reads are `get?_overlay` read from right to left. The count starts from the rows below
and is corrected once for each change; the correction asks the engine about a key, and not
the table so far, which is right because no earlier change was about that key
(`adjustAll_eq`). A scan clamps its range to the table and merges (`mergeRows_within`).

A count has 64 bits, and a correction that does not fit in them stops at the largest number.
None does while the rows that are shown and the changes that are pending fit in together, and
no store holds as many.

A read takes no step: it returns an answer and neither a transaction nor a repository.
-/

namespace TableStore

variable {ε : Type} [StorageEngine ε]

/-! ## Where a transaction reads -/

namespace ReadSource

/-- The rows that a source shows. -/
def rows (s : ReadSource) (engine : ε) : Rows :=
  match s with
  | live => StorageEngine.rows engine
  | snapshot rows => rows

variable {engine : ε}

theorem get_eq (h : StorageEngine.Answers engine) (s : ReadSource) (key : Bytes) :
    s.get engine key = .ok ((s.rows engine).get? key) := by
  cases s with
  | live => exact h.get_eq key
  | snapshot rows => rfl

theorem contains_eq (h : StorageEngine.Answers engine) (s : ReadSource) (key : Bytes) :
    s.contains engine key = .ok ((s.rows engine).contains key) := by
  cases s with
  | live => exact h.contains_eq key
  | snapshot rows => rfl

theorem scan_eq (h : StorageEngine.Answers engine) (s : ReadSource) (range : KeyRange)
    (order : ScanOrder) :
    s.scan engine range order = .ok (((s.rows engine).within range order).map .ok) := by
  cases s with
  | live => exact h.scan_eq range order
  | snapshot rows => rfl

theorem count_eq (h : StorageEngine.Answers engine) (s : ReadSource) (range : KeyRange) :
    s.count engine range = .ok ((s.rows engine).within range .ascending).length := by
  cases s with
  | live => exact h.count_eq range
  | snapshot rows => rfl

end ReadSource

/-- A row as a read returns it. -/
def Row.of (keysOnly : Bool) (e : Entry) : Row := ⟨e.1, if keysOnly then none else some e.2⟩

namespace Transaction

/-- What a transaction reads of the table with a slot. -/
def tableAt (t : Transaction) (r : Repository ε) (slot : UInt8) : Rows :=
  t.buffer.overlay slot ((t.source.rows r.engine).ofSlot slot)

/-- What a transaction reads under a name; a table that is not there has no rows. -/
def view (t : Transaction) (r : Repository ε) (table : String) : Rows :=
  match r.slot? table with
  | some slot => t.tableAt r slot
  | none => .empty

/-- A transaction answers every read from the tables, whichever way it is asked. -/
structure ReadsAs (t : Transaction) (r : Repository ε) (tables : String → Rows) : Prop where
  /-- The value of a row. -/
  get_eq (table : String) (key : Bytes) : t.get r table key = .ok ((tables table).get? key)
  /-- The presence of a row. -/
  contains_eq (table : String) (key : Bytes) :
    t.contains r table key = .ok ((tables table).contains key)
  /-- One look-up for each key, in the order of the keys. -/
  getMany_eq (table : String) (keys : List Bytes) :
    t.getMany r table keys = .ok (keys.map (tables table).get?)
  /-- The number of rows, as far as a count of 64 bits can show it. -/
  count_eq (table : String) : ∃ n, t.count r table = .ok n
    ∧ ((tables table).size + t.pending ≤ countLimit → n = (tables table).size)
  /-- The rows of a range, each once, in the direction of the walk, however many of them are
  asked for. -/
  scan_eq (table : String) (range : KeyRange) (order : ScanOrder) (keysOnly : Bool) :
    ∃ cursor, t.scan r table range order keysOnly = .ok cursor
      ∧ ∀ n, (cursor.takeRows n).1
          = ((((tables table).within range order).map (Row.of keysOnly)).map .ok).take n

/-! ## One row at a time -/

section Slot

variable {t : Transaction} {r : Repository ε}

theorem lookup_eq (h : StorageEngine.Answers r.engine) (slot : UInt8) (key : Bytes) :
    t.lookup r slot key = .ok ((t.tableAt r slot).get? key) := by
  unfold lookup tableAt
  rw [WriteBuffer.get?_overlay, t.source.get_eq h, Rows.get?_ofSlot]
  cases t.buffer.get? slot key with
  | some entry => rfl
  | none => cases t.buffer.isCleared slot <;> rfl

theorem hasKey_eq (h : StorageEngine.Answers r.engine) (slot : UInt8) (key : Bytes) :
    t.hasKey r slot key = .ok ((t.tableAt r slot).contains key) := by
  unfold hasKey tableAt
  rw [SortedMap.contains_eq_isSome, WriteBuffer.get?_overlay, t.source.contains_eq h,
    Rows.get?_ofSlot]
  cases t.buffer.get? slot key with
  | some entry => rfl
  | none => cases t.buffer.isCleared slot <;> rfl

theorem lookupAll_eq (h : StorageEngine.Answers r.engine) (slot : UInt8) (keys : List Bytes) :
    t.lookupAll r slot keys = .ok (keys.map (t.tableAt r slot).get?) := by
  induction keys with
  | nil => rfl
  | cons key rest ih =>
      rw [lookupAll, lookup_eq h, ih]
      rfl

/-! ## Counting -/

/-- One correction of the count is the effect of one change on the number of rows. -/
theorem adjust_size (c : Change) (table : Rows) (h : (c.applyTo table).size ≤ countLimit) :
    adjust table.size c.2.isSome (table.contains c.1) = (c.applyTo table).size := by
  obtain ⟨key, entry⟩ := c
  cases entry with
  | some v =>
      have hsize : (Change.applyTo (key, some v) table).size = (table.erase key).size + 1 :=
        SortedMap.size_insert table key v
      cases hc : table.contains key with
      | true =>
          show table.size = _
          rw [hsize, SortedMap.size_erase_of_contains hc]
      | false =>
          rw [SortedMap.erase_of_not_contains hc] at hsize
          rw [hsize] at h ⊢
          -- the one place where the limit of a count would show
          show min (table.size + 1) countLimit = _
          omega
  | none =>
      have hsize : Change.applyTo (key, none) table = table.erase key := rfl
      rw [hsize]
      cases hc : table.contains key with
      | true =>
          have herase := SortedMap.size_erase_of_contains hc
          show table.size - 1 = _
          omega
      | false =>
          rw [SortedMap.erase_of_not_contains hc]
          rfl

/-- A change takes away one row at most. -/
theorem size_le_applyTo (c : Change) (table : Rows) : table.size ≤ (c.applyTo table).size + 1 := by
  obtain ⟨key, entry⟩ := c
  have herase : table.size ≤ (table.erase key).size + 1 := by
    cases hc : table.contains key with
    | true => exact Nat.le_of_eq (SortedMap.size_erase_of_contains hc).symm
    | false => rw [SortedMap.erase_of_not_contains hc]; exact Nat.le_succ _
  cases entry with
  | some v =>
      have hsize : (Change.applyTo (key, some v) table).size = (table.erase key).size + 1 :=
        SortedMap.size_insert table key v
      omega
  | none => exact herase

theorem size_le_applyChanges (changes : List Change) (table : Rows) :
    table.size ≤ (applyChanges changes table).size + changes.length := by
  induction changes generalizing table with
  | nil => exact Nat.le_refl _
  | cons c rest ih =>
      have hstep := size_le_applyTo c table
      have hrest := ih (c.applyTo table)
      show table.size ≤ (applyChanges rest (c.applyTo table)).size + (rest.length + 1)
      omega

/-- What one correction of a count asks, over a table that is cleared or not. -/
theorem adjustAll_cons (h : StorageEngine.Answers r.engine) (slot : UInt8) (count : Nat)
    (c : Change) (rest : List Change) :
    t.adjustAll r slot count (c :: rest)
      = t.adjustAll r slot (adjust count c.2.isSome
          ((t.buffer.base slot ((t.source.rows r.engine).ofSlot slot)).contains c.1)) rest := by
  rw [adjustAll, t.source.contains_eq h]
  unfold WriteBuffer.base
  by_cases hc : t.buffer.isCleared slot = true
  · rw [if_pos hc, if_pos hc]
    rfl
  · rw [if_neg hc, if_neg hc, Rows.contains_ofSlot]

/-- **Correcting the count is applying the changes.** The corrections ask about the rows
below; the changes are about different keys, so asking the table so far would be the same. -/
theorem adjustAll_eq (h : StorageEngine.Answers r.engine) (slot : UInt8) {changes : List Change}
    (hord : Ascending changes) (table : Rows)
    (hsame : ∀ c ∈ changes, table.contains c.1
      = (t.buffer.base slot ((t.source.rows r.engine).ofSlot slot)).contains c.1)
    (hlimit : (applyChanges changes table).size + changes.length ≤ countLimit) :
    t.adjustAll r slot table.size changes = .ok (applyChanges changes table).size := by
  induction changes generalizing table with
  | nil => rfl
  | cons c rest ih =>
      have hsize := size_le_applyChanges rest (c.applyTo table)
      have hlimit' : (applyChanges rest (c.applyTo table)).size + (rest.length + 1) ≤ countLimit :=
        hlimit
      rw [adjustAll_cons h, ← hsame c List.mem_cons_self, adjust_size c table (by omega)]
      refine ih (List.pairwise_cons.mp hord).2 (c.applyTo table) (fun d hd => ?_) (by omega)
      -- a later change is about another key
      have hne : d.1 ≠ c.1 := hord.ne_head hd
      rw [← hsame d (List.mem_cons_of_mem _ hd), SortedMap.contains_eq_isSome,
        SortedMap.contains_eq_isSome, Change.get?_applyTo, if_neg hne]

/-- A count is corrected without fail. -/
theorem exists_adjustAll (h : StorageEngine.Answers r.engine) (slot : UInt8) (count : Nat)
    (changes : List Change) : ∃ n, t.adjustAll r slot count changes = .ok n := by
  induction changes generalizing count with
  | nil => exact ⟨count, rfl⟩
  | cons c rest ih =>
      rw [adjustAll_cons h]
      exact ih _

/-- No table has more pending changes than the buffer. -/
theorem size_ofTable_le_pending (b : WriteBuffer) (slot : UInt8) :
    (b.ofTable slot).size ≤ b.pending := by
  have hsum : ∀ (l : List (UInt8 × TableChanges)), ∀ x ∈ l,
      x.2.size ≤ l.foldr (fun t n => t.2.size + n) 0 := by
    intro l
    induction l with
    | nil => intro x hx; exact absurd hx (by simp)
    | cons y rest ih =>
        intro x hx
        show x.2.size ≤ y.2.size + rest.foldr (fun t n => t.2.size + n) 0
        rcases List.mem_cons.mp hx with he | hx
        · rw [he]; omega
        · have := ih x hx
          omega
  unfold WriteBuffer.ofTable
  cases hg : b.changes.get? slot with
  | none => exact Nat.zero_le _
  | some changes => exact hsum _ _ (SortedMap.get?_eq_some_iff.mp hg)

/-! ## Scanning -/

/-- What a scan finds below the buffer. -/
theorem stored_scan_eq (h : StorageEngine.Answers r.engine) {slot : UInt8} (hslot : slot ≠ 255)
    (range : KeyRange) (order : ScanOrder) :
    (if t.buffer.isCleared slot then .ok []
      else t.source.scan r.engine (range.toPhysical slot) order)
      = .ok (Walk.ofTable slot
          ((t.buffer.base slot ((t.source.rows r.engine).ofSlot slot)).within range order)) := by
  unfold WriteBuffer.base
  by_cases hc : t.buffer.isCleared slot = true
  · rw [if_pos hc, if_pos hc]
    cases order <;> rfl
  · rw [if_neg hc, if_neg hc, t.source.scan_eq h, Rows.within_toPhysical _ _ hslot, List.map_map]
    rfl

/-- What a count finds below the buffer. -/
theorem stored_count_eq (h : StorageEngine.Answers r.engine) (slot : UInt8) :
    (if t.buffer.isCleared slot then .ok 0 else t.source.count r.engine (KeyRange.ofSlot slot))
      = .ok (t.buffer.base slot ((t.source.rows r.engine).ofSlot slot)).size := by
  unfold WriteBuffer.base
  by_cases hc : t.buffer.isCleared slot = true
  · rw [if_pos hc, if_pos hc]
    rfl
  · rw [if_neg hc, if_neg hc, t.source.count_eq h, Rows.within_ofSlot, List.length_map]
    rfl

/-- **The cursor of a scan** returns the range of the table that the other reads show. -/
theorem takeRows_cursor {slot : UInt8} (range : KeyRange) (order : ScanOrder) (keysOnly : Bool)
    {cursor : MergeCursor}
    (hwalk : cursor.engine = Walk.ofTable slot
      ((t.buffer.base slot ((t.source.rows r.engine).ofSlot slot)).within range order))
    (hchanges : cursor.changes = t.buffer.within slot range order)
    (hslot : cursor.slot = slot) (horder : cursor.order = order)
    (hkeys : cursor.keysOnly = keysOnly) (hdone : cursor.done = false) (n : Nat) :
    (cursor.takeRows n).1
      = ((((t.tableAt r slot).within range order).map (Row.of keysOnly)).map .ok).take n := by
  subst hslot
  rw [MergeCursor.takeRows_eq cursor hdone hwalk, hchanges, horder]
  unfold WriteBuffer.within
  rw [mergeRows_within, List.map_map]
  have hrow : (fun x : Entry => (Except.ok (cursor.row x.1 x.2) : Except StoreError Row))
      = (.ok ∘ Row.of keysOnly) := by
    rw [← hkeys]
    rfl
  rw [hrow]
  rfl

/-- A cursor without rows returns what a range without rows has. -/
theorem takeRows_empty {rows : List Entry} (h : rows = []) (keysOnly : Bool) (n : Nat) :
    (MergeCursor.empty.takeRows n).1 = ((rows.map (Row.of keysOnly)).map .ok).take n := by
  have hmerge : mergeRows .ascending [] [] = [] := by rw [mergeRows]
  have hwalk : MergeCursor.empty.engine = Walk.ofTable MergeCursor.empty.slot [] := rfl
  rw [h, MergeCursor.takeRows_eq .empty rfl hwalk n]
  show List.take n (List.map _ (mergeRows .ascending [] [])) = List.take n []
  rw [hmerge]
  rfl

end Slot

/-! ## Every read -/

theorem requireActive_of_active {t : Transaction} (h : t.state = .active) :
    t.requireActive = .ok () := by
  unfold requireActive
  rw [h]

omit [StorageEngine ε] in
/-- An active transaction refuses no read. -/
theorem readTable_of_active {t : Transaction} {r : Repository ε} (h : t.state = .active)
    {α : Type} (table : String) (missing : α) (answer : UInt8 → Except StoreError α) :
    t.readTable r table missing answer
      = match r.slot? table with
        | none => .ok missing
        | some slot => answer slot := by
  cases hs : r.slot? table <;> simp [readTable, requireActive_of_active h, hs]

/-- **All reads of an active transaction show its view.** -/
theorem reads_view {t : Transaction} {r : Repository ε} (hactive : t.state = .active)
    (hsound : r.registry.Sound) (h : StorageEngine.Answers r.engine) : t.ReadsAs r (t.view r) := by
  constructor
  case get_eq =>
    intro table key
    unfold Transaction.get view
    rw [readTable_of_active hactive]
    cases r.slot? table with
    | none => rfl
    | some slot => exact lookup_eq h slot key
  case contains_eq =>
    intro table key
    unfold Transaction.contains view
    rw [readTable_of_active hactive]
    cases r.slot? table with
    | none => rfl
    | some slot => exact hasKey_eq h slot key
  case getMany_eq =>
    intro table keys
    unfold getMany view
    rw [readTable_of_active hactive]
    cases r.slot? table with
    | none => rfl
    | some slot => exact lookupAll_eq h slot keys
  case count_eq =>
    intro table
    unfold count view
    rw [readTable_of_active hactive]
    cases hs : r.slot? table with
    | none => exact ⟨0, rfl, fun _ => rfl⟩
    | some slot =>
        have hle := size_ofTable_le_pending t.buffer slot
        dsimp only
        rw [stored_count_eq h slot]
        obtain ⟨n, hn⟩ := exists_adjustAll (t := t) h slot
          (t.buffer.base slot ((t.source.rows r.engine).ofSlot slot)).size
          (t.buffer.ofTable slot).toList
        refine ⟨n, hn, fun hlimit => Except.ok.inj (hn.symm.trans ?_)⟩
        refine adjustAll_eq h slot (t.buffer.ofTable slot).ascending _ (fun _ _ => rfl) ?_
        exact Nat.le_trans (Nat.add_le_add_left hle _) hlimit
  case scan_eq =>
    intro table range order keysOnly
    unfold scan
    rw [readTable_of_active hactive]
    unfold view
    cases hs : r.slot? table with
    | none =>
        have hnil : Rows.within .empty range order = [] := by cases order <;> rfl
        exact ⟨.empty, rfl, takeRows_empty hnil keysOnly⟩
    | some slot =>
        dsimp only
        by_cases hempty : range.isEmpty = true
        · rw [if_pos hempty]
          exact ⟨.empty, rfl, takeRows_empty (Rows.within_of_isEmpty _ hempty order) keysOnly⟩
        · rw [if_neg hempty, stored_scan_eq h (hsound.ne_largest hs)]
          exact ⟨_, rfl, takeRows_cursor range order keysOnly rfl rfl rfl rfl rfl rfl⟩

end Transaction

end TableStore
