import TableStore.Proofs.KeyOrder
import TableStore.Proofs.ValueShape
import TableStore.Proofs.Views

/-!
# A typed table is a sorted map

A table of bytes has as many types as its callers give it. Where all changes of a table are typed
ones, of one type of keys and one type of values, it is a map from these keys to these values, in
the natural order of the keys, and no caller need know that there are bytes below.

`TypedMap.encoded` is what a typed map looks like as a table of rows. Writing a key keeps the
order and loses nothing, so the rows of a map stand in the order of its bindings: an insertion
or a removal of a row is that of a binding (`encoded_insert`, `encoded_erase`), and the rows in a
range are the bindings in it (`within_encoded`). Values come back because each was written by the
same type that reads it.

From there a table with typed changes is a typed map for as long as it lives (`replay_encoded`),
and every read of it is a read of the map (`Transaction.readsTyped`).
-/

namespace TableStore

variable {k : KeyShape} {s : ValueShape}

/-! ## Typed maps and their rows -/

/-- The values of a shape that have room where they are written. -/
def ValueShape.Fitting (s : ValueShape) : Type := { v : s.Value // s.Fits v }

/-- A map from typed keys to typed values, in the natural order of the keys. -/
abbrev TypedMap (k : KeyShape) (s : ValueShape) : Type := SortedMap k.Value s.Fitting

/-- A binding as a row. -/
def encodeEntry (e : k.Value × s.Fitting) : Entry := (k.encode e.1, s.encode e.2.1)

namespace TypedMap

/-- The map of a table that is not there. -/
def empty : TypedMap k s := SortedMap.empty

/-- A typed map as the rows of a table. -/
def encoded (m : TypedMap k s) : Rows where
  toList := m.toList.map encodeEntry
  ascending := by
    refine List.pairwise_map.mpr (m.ascending.imp (fun {a b} hab => ?_))
    rw [k.compare_eq] at hab
    exact hab

theorem mem_encoded_iff {m : TypedMap k s} {key : k.Value} {value : Bytes} :
    (k.encode key, value) ∈ m.encoded.toList
      ↔ ∃ v : s.Fitting, (key, v) ∈ m.toList ∧ s.encode v.1 = value := by
  show _ ∈ m.toList.map encodeEntry ↔ _
  rw [List.mem_map]
  constructor
  · rintro ⟨⟨key', v⟩, hmem, he⟩
    obtain ⟨hkey, hvalue⟩ := Prod.mk.inj he
    have hsame : key' = key := k.encode_injective hkey
    exact ⟨v, hsame ▸ hmem, hvalue⟩
  · rintro ⟨v, hmem, rfl⟩
    exact ⟨(key, v), hmem, rfl⟩

theorem get?_encoded (m : TypedMap k s) (key : k.Value) :
    m.encoded.get? (k.encode key) = (m.get? key).map (fun v => s.encode v.1) := by
  cases hg : m.get? key with
  | some v =>
      have hmem := SortedMap.get?_eq_some_iff.mp hg
      exact SortedMap.get?_eq_some_iff.mpr (mem_encoded_iff.mpr ⟨v, hmem, rfl⟩)
  | none =>
      refine SortedMap.get?_eq_none_iff.mpr (fun value hvalue => ?_)
      obtain ⟨v, hmem, _⟩ := mem_encoded_iff.mp hvalue
      exact SortedMap.get?_eq_none_iff.mp hg v hmem

theorem contains_encoded (m : TypedMap k s) (key : k.Value) :
    m.encoded.contains (k.encode key) = m.contains key := by
  rw [SortedMap.contains_eq_isSome, get?_encoded, SortedMap.contains_eq_isSome, Option.isSome_map]

/-- An insertion finds the same place among the rows as among the bindings. -/
theorem insertBinding_encoded (key : k.Value) (v : s.Fitting) (l : List (k.Value × s.Fitting)) :
    (insertBinding key v l).map encodeEntry
      = insertBinding (k.encode key) (s.encode v.1) (l.map encodeEntry) := by
  induction l with
  | nil => rfl
  | cons b rest ih =>
      have hkey : (encodeEntry b).1 = k.encode b.1 := rfl
      rw [List.map_cons, insertBinding, insertBinding, k.compare_eq, hkey]
      cases compare (k.encode key) (k.encode b.1) with
      | lt => rfl
      | eq => rfl
      | gt => exact congrArg (encodeEntry b :: ·) ih

theorem encoded_insert (m : TypedMap k s) (key : k.Value) (v : s.Fitting) :
    encoded (m.insert key v) = m.encoded.insert (k.encode key) (s.encode v.1) :=
  SortedMap.ext (insertBinding_encoded key v m.toList)

theorem encoded_erase (m : TypedMap k s) (key : k.Value) :
    encoded (m.erase key) = m.encoded.erase (k.encode key) := by
  refine SortedMap.ext ?_
  show (m.toList.filter _).map encodeEntry = (m.toList.map encodeEntry).filter _
  rw [List.filter_map]
  refine congrArg (List.map encodeEntry) (List.filter_congr (fun b _ => ?_))
  rw [k.compare_eq]
  rfl

/-- **The rows in a range are the bindings in it,** in either direction. -/
theorem within_encoded (m : TypedMap k s) (range : KeyRange) (order : ScanOrder) :
    m.encoded.within range order
      = (order.arrange (m.toList.filter (fun e => range.contains (k.encode e.1)))).map
          encodeEntry := by
  show order.arrange ((m.toList.map encodeEntry).filter _) = _
  rw [List.filter_map]
  cases order with
  | ascending => rfl
  | descending => exact List.map_reverse.symm

end TypedMap

/-! ## Typed changes -/

/-- A typed change of a table. -/
inductive TypedChange (k : KeyShape) (s : ValueShape) where
  | insert (key : k.Value) (value : s.Fitting)
  | remove (key : k.Value)
  | clear

namespace TypedChange

/-- What a change makes of a typed map. -/
def onMap : TypedChange k s → TypedMap k s → TypedMap k s
  | insert key value, m => m.insert key value
  | remove key, m => m.erase key
  | clear, _ => TypedMap.empty

/-- The call of a transaction that makes the change. -/
def run {ε : Type} [StorageEngine ε] (c : TypedChange k s) (t : Transaction) (r : Repository ε)
    (table : String) : Except StoreError Unit × Transaction × Repository ε :=
  match c with
  | insert key value => t.insert r table key value.1
  | remove key => t.remove r table (k.encode key)
  | clear => t.clear r table

/-- The change as it is put on record. -/
def action (table : String) : TypedChange k s → Action
  | insert key value => .put table (k.encode key) (s.encode value.1)
  | remove key => .remove table (k.encode key)
  | clear => .clear table

/-- The change that is put on record for a typed call is the one that the call makes. -/
theorem run_action {ε : Type} [StorageEngine ε] (c : TypedChange k s) (t : Transaction)
    (r : Repository ε) (table : String) : (c.action table).run t r = c.run t r table := by
  cases c <;> rfl

theorem onTable_action (c : TypedChange k s) (table : String) (m : TypedMap k s) :
    (c.action table).onTable table m.encoded = (c.onMap m).encoded := by
  cases c with
  | insert key value =>
      rw [Action.onTable_self rfl]
      exact (m.encoded_insert key value).symm
  | remove key =>
      rw [Action.onTable_self rfl]
      exact (m.encoded_erase key).symm
  | clear =>
      rw [Action.onTable_self rfl]
      rfl

end TypedChange

/-- A map after some changes, one after the other. -/
def TypedMap.after (m : TypedMap k s) (changes : List (TypedChange k s)) : TypedMap k s :=
  changes.foldl (fun m c => c.onMap m) m

/-- Of a list of changes, those of one table are these typed ones. -/
def TypedLog (table : String) (log : List Action) (changes : List (TypedChange k s)) : Prop :=
  log.filter (fun a => a.table? = some table) = changes.map (TypedChange.action table)

/-- Changes of other tables leave a table as it is. -/
theorem replay_filter (log : List Action) (table : String) (rows : Rows) :
    replay (log.filter (fun a => a.table? = some table)) table rows = replay log table rows := by
  induction log generalizing rows with
  | nil => rfl
  | cons a rest ih =>
      show _ = replay rest table (a.onTable table rows)
      by_cases ha : a.table? = some table
      · rw [List.filter_cons_of_pos (by simpa using ha)]
        exact ih _
      · rw [List.filter_cons_of_neg (by simpa using ha), ih, Action.onTable_of_ne ha]

/-- **Typed changes keep a typed table typed:** replayed on the rows of a map they give the rows
of the changed map. -/
theorem replay_encoded {table : String} {log : List Action} {changes : List (TypedChange k s)}
    (h : TypedLog table log changes) (m : TypedMap k s) :
    replay log table m.encoded = (m.after changes).encoded := by
  rw [← replay_filter, h]
  clear h
  induction changes generalizing m with
  | nil => rfl
  | cons c rest ih =>
      show replay (rest.map _) table ((c.action table).onTable table m.encoded) = _
      rw [c.onTable_action, ih]
      rfl

/-! ## Typed reads -/

/-- A row with its key and its value read as typed ones. -/
def Row.typed (k : KeyShape) (s : ValueShape) (row : Row) :
    Except StoreError (k.Value × s.Value) :=
  match row.keyAs k with
  | .error e => .error e
  | .ok key =>
    match row.valueAs s with
    | .error e => .error e
    | .ok value => .ok (key, value)

/-- Whether a key lies between two others, each in or out of the interval. -/
def KeyShape.between (k : KeyShape) (first : k.Value) (withFirst : Bool) (last : k.Value)
    (withLast : Bool) (key : k.Value) : Bool :=
  (if withFirst then k.compare first key != .gt else k.compare first key == .lt)
    && (if withLast then k.compare key last != .gt else k.compare key last == .lt)

theorem KeyShape.contains_between (k : KeyShape) (first : k.Value) (withFirst : Bool)
    (last : k.Value) (withLast : Bool) (key : k.Value) :
    (KeyRange.between (k.encode first) withFirst (k.encode last) withLast).contains (k.encode key)
      = k.between first withFirst last withLast key := by
  have hlow : (Bound.of (k.encode first) withFirst).below (k.encode key)
      = if withFirst then k.compare first key != .gt else k.compare first key == .lt := by
    rw [← k.compareKeys_encode]
    cases withFirst with
    | true =>
        show (compareKeys (k.encode key) (k.encode first) != .lt) = _
        rw [compareKeys_swap (k.encode first)]
        cases compareKeys (k.encode first) (k.encode key) <;> rfl
    | false =>
        show (compareKeys (k.encode key) (k.encode first) == .gt) = _
        rw [compareKeys_swap (k.encode first)]
        cases compareKeys (k.encode first) (k.encode key) <;> rfl
  have hhigh : (Bound.of (k.encode last) withLast).above (k.encode key)
      = if withLast then k.compare key last != .gt else k.compare key last == .lt := by
    rw [← k.compareKeys_encode]
    cases withLast <;> rfl
  show (_ && _) = (_ && _)
  rw [← hlow, ← hhigh]
  rfl

namespace Transaction

variable {ε : Type} [StorageEngine ε]

/-- A scan that returns typed bindings, however many are asked for, and no error. -/
def ScansTyped (t : Transaction) (r : Repository ε) (table : String) (range : KeyRange)
    (order : ScanOrder) (bindings : List (k.Value × s.Fitting)) : Prop :=
  ∃ cursor, t.scan r table range order false = .ok cursor
    ∧ ∀ n, (cursor.takeRows n).1.map (fun row => row.bind (Row.typed k s))
      = (bindings.map (fun e => .ok (e.1, e.2.1))).take n

/-- A transaction answers every typed read of a table from a typed map. -/
structure ReadsTyped (t : Transaction) (r : Repository ε) (table : String) (m : TypedMap k s) :
    Prop where
  select_eq (key : k.Value) :
    t.select r table (k.encode key) s = .ok ((m.get? key).map Subtype.val)
  contains_eq (key : k.Value) : t.contains r table (k.encode key) = .ok (m.contains key)
  selectMany_eq (keys : List k.Value) :
    t.selectMany r table (keys.map k.encode) s
      = .ok (keys.map (fun key => (m.get? key).map Subtype.val))
  /-- A scan of all keys, in the natural order of the keys or backwards. -/
  scan_all (order : ScanOrder) : t.ScansTyped r table .all order (order.arrange m.toList)
  /-- A scan between two keys. -/
  scan_between (first : k.Value) (withFirst : Bool) (last : k.Value) (withLast : Bool)
    (order : ScanOrder) :
    t.ScansTyped r table (.between (k.encode first) withFirst (k.encode last) withLast) order
      (order.arrange (m.toList.filter (fun e => k.between first withFirst last withLast e.1)))

theorem decodeOptional_encode (value : Option s.Fitting) :
    decodeOptional s (value.map (fun v => s.encode v.1)) = .ok (value.map Subtype.val) := by
  cases value with
  | none => rfl
  | some v =>
      unfold decodeOptional
      rw [Option.map_some]
      dsimp only
      rw [s.decode_encode v.2]
      rfl

theorem decodeAll_encode (values : List (Option s.Fitting)) :
    decodeAll s (values.map (fun value => value.map (fun v => s.encode v.1)))
      = .ok (values.map (fun value => value.map Subtype.val)) := by
  induction values with
  | nil => rfl
  | cons value rest ih =>
      rw [List.map_cons, decodeAll, decodeOptional_encode, ih]
      rfl

theorem typed_encodeEntry (e : k.Value × s.Fitting) :
    (Row.of false (encodeEntry e)).typed k s = .ok (e.1, e.2.1) := by
  unfold Row.typed Row.keyAs Row.valueAs Row.of encodeEntry
  dsimp only
  rw [k.decode_encode]
  dsimp only
  rw [if_neg (by simp)]
  dsimp only
  rw [s.decode_encode e.2.2]

variable {t : Transaction} {r : Repository ε} {table : String} {m : TypedMap k s}

/-- A scan of a typed table returns the bindings whose keys are in the range. -/
theorem scansTyped {tables : String → Rows} (h : t.ReadsAs r tables)
    (htable : tables table = m.encoded) (range : KeyRange) (order : ScanOrder) :
    t.ScansTyped r table range order
      (order.arrange (m.toList.filter (fun e => range.contains (k.encode e.1)))) := by
  obtain ⟨cursor, hscan, hrows⟩ := h.scan_eq table range order false
  refine ⟨cursor, hscan, fun n => ?_⟩
  rw [hrows n, htable, m.within_encoded, List.map_take, List.map_map, List.map_map, List.map_map]
  refine congrArg (List.take n) (List.map_congr_left (fun e _ => ?_))
  exact typed_encodeEntry e

/-- **Every read of a typed table is a read of its map.** -/
theorem readsTyped {tables : String → Rows} (h : t.ReadsAs r tables)
    (htable : tables table = m.encoded) : t.ReadsTyped r table m where
  select_eq key := by
    unfold select
    rw [h.get_eq, htable, m.get?_encoded]
    exact decodeOptional_encode _
  contains_eq key := by rw [h.contains_eq, htable, m.contains_encoded]
  selectMany_eq keys := by
    unfold selectMany
    rw [h.getMany_eq, htable, List.map_map]
    have hvalues : keys.map (m.encoded.get? ∘ k.encode)
        = (keys.map m.get?).map (fun value => value.map (fun v => s.encode v.1)) := by
      rw [List.map_map]
      exact List.map_congr_left (fun key _ => m.get?_encoded key)
    rw [hvalues]
    dsimp only
    rw [decodeAll_encode, List.map_map]
    rfl
  scan_all order := by
    have hall : m.toList.filter (fun e => KeyRange.all.contains (k.encode e.1)) = m.toList :=
      List.filter_eq_self.mpr (fun e _ => KeyRange.contains_all _)
    have hscan := scansTyped h htable .all order
    rw [hall] at hscan
    exact hscan
  scan_between first withFirst last withLast order := by
    have hscan := scansTyped h htable
      (.between (k.encode first) withFirst (k.encode last) withLast) order
    simp only [k.contains_between] at hscan
    exact hscan

end Transaction

namespace History

variable {ε : Type} [StorageEngine ε] {h : History ε} {table : String} {m : TypedMap k s}

/--
**A typed table is a sorted map.** Begin a record when a table has the rows of a typed map, the
empty one for instance, and let all changes that are committed to it be typed ones of the same
type. Then every transaction whose own changes of the table are typed reads the map with the
committed changes and its own made on it, in this order. Its look-ups answer like look-ups in the
map. Its scans return, without an error, the bindings of the map whose keys are in the interval,
in the natural order of the keys or backwards. Whoever begins reads the map with the committed
changes alone. And the changes on record are those that the typed calls make.
-/
theorem typed_table_refines_map [HonestEngine ε] (hr : Reachable h) (hcovered : h.origin.Covered)
    (horigin : h.origin.committed table = m.encoded) {committed : List (TypedChange k s)}
    (hcommitted : TypedLog table h.commits.flatten committed)
    (hanswers : StorageEngine.Answers h.repo.engine) :
    (∀ name t (mine : List (TypedChange k s)), h.session.transaction? name = some t →
      t.state = .active → (t.mode = .readWrite ∨ t.usesSnapshot = false) →
      TypedLog table (h.pending name) mine →
      t.ReadsTyped h.repo table (m.after (committed ++ mine)))
    ∧ (∀ mode, (mode = .readWrite → h.repo.lockHeld = false) →
      ∃ t r', Transaction.begin mode h.repo = (.ok t, r')
        ∧ t.ReadsTyped r' table (m.after committed))
    ∧ ∀ (c : TypedChange k s) (t : Transaction) (r : Repository ε),
      (c.action table).run t r = c.run t r table := by
  have hi := inv_of_reachable hr
  have hrows : h.repo.committed table = (m.after committed).encoded := by
    rw [hi.store.committed_eq hcovered, horigin, replay_encoded hcommitted]
  refine ⟨fun name t mine ht hactive hreads hmine => ?_, fun mode hfree => ?_,
    fun c t r => c.run_action t r table⟩
  · have htracked := hi.tracked ht
    have hlive : t.source = .live := by
      rcases hreads with hmode | hsnapshot
      · exact htracked.live hmode
      · cases hsource : t.source with
        | live => rfl
        | snapshot rows =>
            unfold Transaction.usesSnapshot at hsnapshot
            rw [hsource] at hsnapshot
            exact absurd hsnapshot (by simp)
    have hview : t.view h.repo table = (m.after (committed ++ mine)).encoded := by
      rw [Transaction.view_eq_of_live htracked hactive hlive, hrows, replay_encoded hmine]
      unfold TypedMap.after
      rw [List.foldl_append]
    exact Transaction.readsTyped (Transaction.reads_view hactive hi.store.sound hanswers) hview
  · obtain ⟨t, r', hbegin, hreads⟩ :=
      Transaction.begin_reads_of_lock mode hfree hi.store.sound hanswers
    exact ⟨t, r', hbegin, Transaction.readsTyped hreads hrows⟩

/-- Signed keys, one committed below zero and one pending above it: the writer finds both, with
the negative one first, and no other reader finds the second. -/
theorem typed_table_refines_map_signed :
    let k : KeyShape := .pair .i64 .text
    let s : ValueShape := .option .text
    let below : TypedChange k s :=
      .insert (-1, "é") ⟨some "b", show (Utf8.encode "b").length < 256 ^ 8 by decide⟩
    let above : TypedChange k s := .insert (5, "") ⟨none, trivial⟩
    let r : Repository MemoryEngine :=
      { engine := {}, registry := {}, config := {}
        events := [.repositoryOpened "memory" "data" 0] }
    let h := (start r).run [
      .step "a" (.begin .readWrite), .step "a" (.act (below.action "t")),
      .step "a" (.act .commit), .step "a" (.begin .readWrite), .step "a" (.act (above.action "t"))]
    ∃ t, h.session.transaction? "a" = some t
      ∧ t.ReadsTyped h.repo "t" (TypedMap.empty.after [below, above])
      ∧ ∃ t' r', Transaction.begin .read h.repo = (.ok t', r')
        ∧ t'.ReadsTyped r' "t" (TypedMap.empty.after [below]) := by
  intro k s below above r h
  have hopened : Repository.onEngine ({} : MemoryEngine) {} = .ok r := rfl
  have hreach : Reachable h := (Reachable.opened hopened).run _
  have horigin : h.origin = r := origin_run _ _
  have hcovered : h.origin.Covered := by
    rw [horigin]
    exact fun key value hrow => absurd (show none = some value from hrow) (by simp)
  have hempty : h.origin.committed "t" = (TypedMap.empty : TypedMap k s).encoded := by
    rw [horigin]
    rfl
  have hcommits : h.commits.flatten = [below.action "t"] := by decide +kernel
  have hpending : h.pending "a" = [above.action "t"] := by decide +kernel
  have hstate : (h.session.transaction? "a").map (fun t => (t.state, t.mode))
      = some (.active, .readWrite) := by decide +kernel
  obtain ⟨t, ht, hsame⟩ := Option.map_eq_some_iff.mp hstate
  have hcommitted : TypedLog "t" h.commits.flatten [below] := by
    rw [hcommits]
    rfl
  obtain ⟨hwriter, hreader, _⟩ := typed_table_refines_map hreach hcovered hempty hcommitted
    h.repo.engine.answers
  refine ⟨t, ht, ?_, hreader .read (by simp)⟩
  refine hwriter "a" t [above] ht (congrArg Prod.fst hsame) (Or.inl (congrArg Prod.snd hsame)) ?_
  rw [hpending]
  rfl

end History

end TableStore
