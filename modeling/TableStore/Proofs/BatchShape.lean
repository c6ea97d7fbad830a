import Mathlib.Data.Set.Card
import TableStore.Proofs.LastChange
import TableStore.Proofs.Reach
import TableStore.Proofs.Writers

/-!
# The shape of a batch

The batch of a commit is made in two loops, one over the rows of the cleared tables and one over the
changes. Both could be about the same row: one that was there, was cleared, and was set anew. If the
batch mentioned it twice, the order of the two would matter, and an engine that takes a batch for a
set of changes, the last of each key, would have to take it for the right one.

It does not. No key is twice in a batch (`WriteBatch.Once`), and of a batch like that any order is
as good as any other (`Once.applyTo_perm`), also when only the last of each key was kept
(`WriteBatch.lastOfEach`). What is in it can then be counted, and each count is one of pairs of a
table and a key: the puts are the pairs whose last change is a put, the deletes those whose last
change is a removal and the rows of cleared tables without any.
-/

namespace TableStore

/-! ## Changes of different keys -/

/-- What a change makes of its row. -/
def BatchOp.value? : BatchOp → Option Bytes
  | put _ value => some value
  | delete _ => none

theorem BatchOp.get?_applyTo (op : BatchOp) (rows : Rows) (key : Bytes) :
    (op.applyTo rows).get? key = if key = op.key then op.value? else rows.get? key := by
  cases op with
  | put k value => exact SortedMap.get?_insert rows k key value
  | delete k => exact SortedMap.get?_erase rows k key

/-- Changes of different keys can be made in either order. -/
theorem BatchOp.applyTo_comm {a b : BatchOp} (h : a.key ≠ b.key) (rows : Rows) :
    a.applyTo (b.applyTo rows) = b.applyTo (a.applyTo rows) := by
  refine SortedMap.ext_get? (fun key => ?_)
  rw [get?_applyTo, get?_applyTo, get?_applyTo, get?_applyTo]
  by_cases ha : key = a.key
  · rw [if_pos ha, if_neg (fun hb => h (ha.symm.trans hb)), if_pos ha]
  · rw [if_neg ha, if_neg ha]

namespace WriteBatch

/-- No key is twice in a batch. -/
def Once (batch : WriteBatch) : Prop := (batch.map BatchOp.key).Nodup

/-- A batch with the last change of each key only. -/
def lastOfEach (batch : WriteBatch) : WriteBatch :=
  (SortedMap.ofList (batch.map (fun op => (op.key, op)))).toList.map Prod.snd

variable {batch ops : WriteBatch}

theorem mem_keys_puts_iff {key : Bytes} :
    key ∈ (batch.filter BatchOp.isPut).map BatchOp.key ↔ ∃ value, .put key value ∈ batch := by
  rw [List.mem_map]
  constructor
  · rintro ⟨op, hop, rfl⟩
    obtain ⟨hmem, hput⟩ := List.mem_filter.mp hop
    cases op with
    | put key value => exact ⟨value, hmem⟩
    | delete key => exact absurd hput (by simp [BatchOp.isPut])
  · rintro ⟨value, hmem⟩
    exact ⟨_, List.mem_filter.mpr ⟨hmem, rfl⟩, rfl⟩

theorem mem_keys_deletes_iff {key : Bytes} :
    key ∈ (batch.filter (fun op => !op.isPut)).map BatchOp.key ↔ .delete key ∈ batch := by
  rw [List.mem_map]
  constructor
  · rintro ⟨op, hop, rfl⟩
    obtain ⟨hmem, hdelete⟩ := List.mem_filter.mp hop
    cases op with
    | put key value => exact absurd hdelete (by simp [BatchOp.isPut])
    | delete key => exact hmem
  · intro hmem
    exact ⟨_, List.mem_filter.mpr ⟨hmem, rfl⟩, rfl⟩

theorem deletes_eq (batch : WriteBatch) :
    batch.deletes = (batch.filter (fun op => !op.isPut)).length := by
  have hall := List.length_eq_countP_add_countP BatchOp.isPut (l := batch)
  unfold deletes puts
  rw [← List.countP_eq_length_filter]
  simp only [Bool.not_eq_true, Bool.decide_eq_false] at hall
  omega

/-- **In a batch without a key twice the order does not matter.** -/
theorem Once.applyTo_perm (h : batch.Once) (hp : ops.Perm batch) (rows : Rows) :
    WriteBatch.applyTo ops rows = batch.applyTo rows := by
  refine (hp.symm.foldl_eq' (fun a ha b hb rows => ?_) rows).symm
  by_cases hkey : a.key = b.key
  · rw [List.inj_on_of_nodup_map h ha hb hkey]
  · exact BatchOp.applyTo_comm (fun he => hkey he.symm) rows

end WriteBatch

theorem SortedMap.perm_ofList {κ α : Type} [Ord κ] [Std.TransOrd κ] [Std.LawfulEqOrd κ]
    {pairs : List (κ × α)} (h : (pairs.map Prod.fst).Nodup) :
    (SortedMap.ofList pairs).toList.Perm pairs := by
  induction pairs using List.reverseRecOn with
  | nil => exact .refl _
  | append_singleton pairs p ih =>
      rw [List.map_append, List.nodup_append] at h
      have hrest := ih h.1
      have hsnoc : SortedMap.ofList (pairs ++ [p]) = (SortedMap.ofList pairs).insert p.1 p.2 := by
        unfold ofList
        rw [List.foldl_append]
        rfl
      have hnew : (SortedMap.ofList pairs).contains p.1 = false := by
        refine Bool.eq_false_iff.mpr (fun hc => ?_)
        obtain ⟨v, hv⟩ := SortedMap.contains_iff.mp hc
        exact h.2.2 p.1 (List.mem_map.mpr ⟨_, hrest.mem_iff.mp hv, rfl⟩) p.1 (by simp) rfl
      rw [hsnoc]
      refine (perm_insert _ p.1 p.2).trans ?_
      rw [erase_of_not_contains hnew]
      exact (hrest.cons p).trans (List.perm_append_singleton p pairs).symm

/-- Nothing is lost when only the last change of each key is kept and every key is there once. -/
theorem WriteBatch.Once.perm_lastOfEach {batch : WriteBatch} (h : batch.Once) :
    batch.lastOfEach.Perm batch := by
  have hkeys : ((batch.map (fun op => (op.key, op))).map Prod.fst).Nodup := by
    rw [List.map_map]
    exact h
  have hperm := (SortedMap.perm_ofList hkeys).map Prod.snd
  rw [List.map_map] at hperm
  exact hperm.trans (.of_eq (List.map_id batch))

/-! ## No key twice -/

theorem SortedMap.nodup_keys {κ α : Type} [Ord κ] [Std.TransOrd κ] [Std.LawfulEqOrd κ]
    (m : SortedMap κ α) : m.keys.Nodup := by
  unfold keys
  refine List.pairwise_map.mpr (m.ascending.imp (fun {a b} hab he => ?_))
  rw [he, Std.ReflOrd.compare_self] at hab
  exact Ordering.noConfusion hab

/-- Keys of different tables are different, so it is enough that no table has one twice. -/
theorem nodup_flatMap_physicalKey {α : Type} {l : List α} {slotOf : α → UInt8}
    {keysOf : α → List Bytes} (hslots : (l.map slotOf).Nodup)
    (hkeys : ∀ x ∈ l, (keysOf x).Nodup) :
    (l.flatMap (fun x => (keysOf x).map (physicalKey (slotOf x)))).Nodup := by
  refine List.nodup_flatMap.mpr ⟨fun x hx => ?_, ?_⟩
  · exact (hkeys x hx).map (fun _ _ he => (List.cons.inj he).2)
  · refine (List.pairwise_map.mp hslots).imp (fun {x y} hne key hx hy => ?_)
    obtain ⟨k, _, rfl⟩ := List.mem_map.mp hx
    obtain ⟨k', _, he⟩ := List.mem_map.mp hy
    exact physicalKey_ne (fun hs => hne hs.symm) k' k he

namespace WriteBuffer

theorem keys_changeBatch (b : WriteBuffer) :
    b.changeBatch.map BatchOp.key
      = b.changes.toList.flatMap (fun t => t.2.keys.map (physicalKey t.1)) := by
  have hkeys : ∀ t : UInt8 × TableChanges,
      (t.2.toList.map (changeOp t.1)).map BatchOp.key = t.2.keys.map (physicalKey t.1) := by
    intro t
    unfold SortedMap.keys
    rw [List.map_map, List.map_map]
    exact List.map_congr_left (fun c _ => key_changeOp t.1 c)
  unfold changeBatch
  rw [List.map_flatMap]
  exact congrArg (fun f => b.changes.toList.flatMap f) (funext hkeys)

theorem nodup_changeBatch (b : WriteBuffer) : (b.changeBatch.map BatchOp.key).Nodup := by
  rw [keys_changeBatch]
  exact nodup_flatMap_physicalKey b.changes.nodup_keys (fun t _ => t.2.nodup_keys)

theorem nodup_allSwept (b : WriteBuffer) (rows : Rows) : (b.allSwept rows).Nodup := by
  -- the keys of the rows that are swept, within their table
  let keysOf := fun slot => ((rows.ofSlot slot).toList.filter
    (fun e => !(b.ofTable slot).contains e.1)).map Prod.fst
  have hswept : b.sweptKeys rows = fun slot => (keysOf slot).map (physicalKey slot) := by
    funext slot
    unfold sweptKeys
    rw [List.map_map]
    rfl
  have hslots : (b.cleared.keys.map id).Nodup := by
    rw [List.map_id]
    exact b.cleared.nodup_keys
  unfold allSwept
  rw [hswept]
  exact nodup_flatMap_physicalKey hslots (fun slot _ =>
    (rows.ofSlot slot).nodup_keys.sublist (List.filter_sublist.map Prod.fst))

/-- **No key is twice in the batch of a commit:** a row with a change of its own is not swept. -/
theorem once_batchOn (b : WriteBuffer) (rows : Rows) : (b.batchOn rows).Once := by
  have hdeletes : ((b.allSwept rows).map BatchOp.delete).map BatchOp.key = b.allSwept rows := by
    rw [List.map_map]
    exact List.map_id _
  unfold WriteBatch.Once batchOn
  rw [List.map_append, hdeletes, List.nodup_append]
  refine ⟨b.nodup_allSwept rows, b.nodup_changeBatch, fun key hswept key' hchange he => ?_⟩
  subst he
  obtain ⟨op, hop, rfl⟩ := List.mem_map.mp hchange
  obtain ⟨slot, k, entry, hget, rfl⟩ := mem_changeBatch_iff.mp hop
  rw [key_changeOp] at hswept
  have hno := (mem_allSwept_iff.mp hswept).2.2
  rw [SortedMap.contains_eq_isSome] at hno
  exact absurd (hno.symm.trans (congrArg Option.isSome hget)) (by simp)

/-! ## What is in it -/

theorem contains_ofTable_eq_false_iff {b : WriteBuffer} {slot : UInt8} {key : Bytes} :
    (b.ofTable slot).contains key = false ↔ b.get? slot key = none := by
  rw [SortedMap.contains_eq_isSome]
  exact Option.isSome_eq_false_iff.trans Option.isNone_iff_eq_none

theorem delete_mem_batchOn_iff {b : WriteBuffer} {rows : Rows} {key : Bytes} :
    .delete key ∈ b.batchOn rows
      ↔ ∃ slot k, key = physicalKey slot k ∧ (b.get? slot k = some none
        ∨ b.isCleared slot = true ∧ b.get? slot k = none
          ∧ (rows.ofSlot slot).contains k = true) := by
  refine delete_mem_append_changeBatch_iff.trans ?_
  constructor
  · rintro (hswept | ⟨slot, k, hkey, hget⟩)
    · obtain ⟨slot, _, hmem⟩ := List.mem_flatMap.mp hswept
      obtain ⟨e, _, rfl⟩ := List.mem_map.mp hmem
      obtain ⟨hcl, hrow, hno⟩ := mem_allSwept_iff.mp hswept
      exact ⟨slot, e.1, rfl, Or.inr ⟨hcl, contains_ofTable_eq_false_iff.mp hno, hrow⟩⟩
    · exact ⟨slot, k, hkey, Or.inl hget⟩
  · rintro ⟨slot, k, rfl, hget | ⟨hcl, hno, hrow⟩⟩
    · exact Or.inr ⟨slot, k, rfl, hget⟩
    · exact Or.inl (mem_allSwept_iff.mpr ⟨hcl, hrow, contains_ofTable_eq_false_iff.mpr hno⟩)

/-- The changes of a buffer are counted as its batch has them. -/
theorem length_changeBatch (b : WriteBuffer) : b.changeBatch.length = b.pending := by
  unfold changeBatch pending
  induction b.changes.toList with
  | nil => rfl
  | cons t rest ih =>
      rw [List.flatMap_cons, List.length_append, ih, List.length_map]
      rfl

end WriteBuffer

/-! ## By tables and keys -/

namespace Registry

variable {g : Registry} {b : WriteBuffer} {log : List Action} {rows : Rows}

/-- A set of rows, by table and key, is counted by the physical keys of them. -/
theorem encard_eq_length (hg : g.Sound) {S : Set (String × Bytes)}
    (hknown : ∀ p ∈ S, ∃ slot, g.get? p.1 = some slot) {keys : List Bytes} (hnodup : keys.Nodup)
    (hmem : ∀ key, key ∈ keys
      ↔ ∃ table slot k, g.get? table = some slot ∧ key = physicalKey slot k ∧ (table, k) ∈ S) :
    S.encard = keys.length := by
  let keyOf : String × Bytes → Bytes := fun p => physicalKey ((g.get? p.1).getD 0) p.2
  have hkeyOf : ∀ {table slot} k, g.get? table = some slot → keyOf (table, k) = physicalKey slot k := by
    intro table slot k hs
    show physicalKey ((g.get? table).getD 0) k = _
    rw [hs]
    rfl
  have hinj : Set.InjOn keyOf S := by
    rintro ⟨table, k⟩ hp ⟨table', k'⟩ hp' he
    obtain ⟨slot, hs⟩ := hknown _ hp
    obtain ⟨slot', hs'⟩ := hknown _ hp'
    rw [hkeyOf k hs, hkeyOf k' hs'] at he
    obtain ⟨hslot, hk⟩ := List.cons.inj he
    exact Prod.ext (hg.injective hs (hslot ▸ hs')) hk
  have himage : keyOf '' S = (keys.toFinset : Set Bytes) := by
    ext key
    rw [Finset.mem_coe, List.mem_toFinset, hmem]
    constructor
    · rintro ⟨⟨table, k⟩, hp, rfl⟩
      obtain ⟨slot, hs⟩ := hknown _ hp
      exact ⟨table, slot, k, hs, hkeyOf k hs, hp⟩
    · rintro ⟨table, slot, k, hs, rfl, hp⟩
      exact ⟨(table, k), hp, hkeyOf k hs⟩
  rw [← hinj.encard_image, himage, Set.encard_coe_eq_coe_finsetCard,
    List.toFinset_card_of_nodup hnodup]

/-- The changes in the batch, by table and key. -/
theorem exists_get?_iff (hg : g.Sound) (howns : g.Owns b) (hb : g.Condenses b log)
    {key : Bytes} {entry : Option Bytes} :
    (∃ slot k, key = physicalKey slot k ∧ b.get? slot k = some entry)
      ↔ ∃ table slot k, g.get? table = some slot ∧ key = physicalKey slot k
        ∧ lastChange? (callsOf log) table k = some entry := by
  constructor
  · rintro ⟨slot, k, hkey, hget⟩
    obtain ⟨table, hs⟩ := howns slot (WriteBuffer.touches_of_get? hget)
    exact ⟨table, slot, k, hs, hkey, ((hb.has hg hs).1 k).symm.trans hget⟩
  · rintro ⟨table, slot, k, hs, hkey, hlast⟩
    exact ⟨slot, k, hkey, ((hb.has hg hs).1 k).trans hlast⟩

end Registry

/-- What a batch writes of the calls of a transaction, over the rows of its commit. -/
structure WriteBatch.Writes (batch : WriteBatch) (g : Registry) (rows : Rows) (log : List Action) :
    Prop where
  once : batch.Once
  any_order {ops : WriteBatch} : ops.Perm batch →
    ∀ base, WriteBatch.applyTo ops base = batch.applyTo base
  last_of_each {ops : WriteBatch} : ops.Perm batch.lastOfEach →
    ∀ base, WriteBatch.applyTo ops base = batch.applyTo base
  /-- The puts are the rows whose last change is a put. -/
  put_iff {key value : Bytes} : .put key value ∈ batch
    ↔ ∃ table slot k, g.get? table = some slot ∧ key = physicalKey slot k
      ∧ lastChange? log table k = some (some value)
  /-- The deletes are the rows whose last change is a removal, and the rows of cleared tables that
  have none since. -/
  delete_iff {key : Bytes} : .delete key ∈ batch
    ↔ ∃ table slot k, g.get? table = some slot ∧ key = physicalKey slot k
      ∧ (lastChange? log table k = some none
        ∨ .clear table ∈ log ∧ lastChange? log table k = none
          ∧ (g.rowsOf rows table).contains k = true)
  count_puts : {p : String × Bytes | ∃ value, lastChange? log p.1 p.2 = some (some value)}.encard
    = batch.puts
  count_deletes : {p : String × Bytes | lastChange? log p.1 p.2 = some none
      ∨ .clear p.1 ∈ log ∧ lastChange? log p.1 p.2 = none
        ∧ (g.rowsOf rows p.1).contains p.2 = true}.encard = batch.deletes

section Writes

variable {g : Registry} {b : WriteBuffer} {log : List Action} {rows : Rows}

theorem delete_mem_batchOn_iff_calls (hg : g.Sound) (howns : g.Owns b) (hb : g.Condenses b log)
    {key : Bytes} :
    .delete key ∈ b.batchOn rows
      ↔ ∃ table slot k, g.get? table = some slot ∧ key = physicalKey slot k
        ∧ (lastChange? (callsOf log) table k = some none
          ∨ .clear table ∈ callsOf log ∧ lastChange? (callsOf log) table k = none
            ∧ (g.rowsOf rows table).contains k = true) := by
  have hrows : ∀ {table slot}, g.get? table = some slot → g.rowsOf rows table = rows.ofSlot slot := by
    intro table slot hs
    unfold Registry.rowsOf
    rw [hs]
  rw [WriteBuffer.delete_mem_batchOn_iff]
  constructor
  · rintro ⟨slot, k, hkey, hcase⟩
    have htouched : b.Touches slot :=
      hcase.elim WriteBuffer.touches_of_get? (fun hswept => Or.inr hswept.1)
    obtain ⟨table, hs⟩ := howns slot htouched
    obtain ⟨hget, hcleared⟩ := hb.has hg hs
    refine ⟨table, slot, k, hs, hkey, ?_⟩
    rw [← hget, ← hcleared, hrows hs]
    exact hcase
  · rintro ⟨table, slot, k, hs, hkey, hcase⟩
    obtain ⟨hget, hcleared⟩ := hb.has hg hs
    rw [← hget, ← hcleared, hrows hs] at hcase
    exact ⟨slot, k, hkey, hcase⟩

theorem writes_batchOn (hg : g.Sound) (howns : g.Owns b) (hb : g.Condenses b log) (rows : Rows) :
    (b.batchOn rows).Writes g rows (callsOf log) := by
  have honce := b.once_batchOn rows
  have hput : ∀ {key value : Bytes}, .put key value ∈ b.batchOn rows
      ↔ ∃ table slot k, g.get? table = some slot ∧ key = physicalKey slot k
        ∧ lastChange? (callsOf log) table k = some (some value) :=
    WriteBuffer.put_mem_append_changeBatch_iff.trans (g.exists_get?_iff hg howns hb)
  exact {
    once := honce
    any_order := honce.applyTo_perm
    last_of_each := fun hp => honce.applyTo_perm (hp.trans honce.perm_lastOfEach)
    put_iff := hput
    delete_iff := delete_mem_batchOn_iff_calls hg howns hb
    count_puts := by
      rw [WriteBatch.puts, List.countP_eq_length_filter, ← List.length_map (f := BatchOp.key)]
      refine g.encard_eq_length hg ?_ (honce.sublist (List.filter_sublist.map _)) (fun key => ?_)
      · rintro p ⟨value, hlast⟩
        exact hb.exists_slot hlast
      · rw [WriteBatch.mem_keys_puts_iff]
        constructor
        · rintro ⟨value, hmem⟩
          obtain ⟨table, slot, k, hs, hkey, hlast⟩ := hput.mp hmem
          exact ⟨table, slot, k, hs, hkey, value, hlast⟩
        · rintro ⟨table, slot, k, hs, hkey, value, hlast⟩
          exact ⟨value, hput.mpr ⟨table, slot, k, hs, hkey, hlast⟩⟩
    count_deletes := by
      rw [WriteBatch.deletes_eq, ← List.length_map (f := BatchOp.key)]
      refine g.encard_eq_length hg ?_ (honce.sublist (List.filter_sublist.map _)) (fun key => ?_)
      · rintro p (hlast | ⟨hclear, -, -⟩)
        · exact hb.exists_slot hlast
        · exact hb.knows_calls _ hclear p.1 rfl
      · rw [WriteBatch.mem_keys_deletes_iff]
        exact delete_mem_batchOn_iff_calls hg howns hb }

/-- The pending changes are counted as the rows with a change. -/
theorem encard_pending (hg : g.Sound) (howns : g.Owns b) (hb : g.Condenses b log) :
    {p : String × Bytes | lastChange? (callsOf log) p.1 p.2 ≠ none}.encard = b.pending := by
  rw [← b.length_changeBatch, ← List.length_map (f := BatchOp.key)]
  refine g.encard_eq_length hg ?_ b.nodup_changeBatch (fun key => ?_)
  · intro p hp
    obtain ⟨entry, hlast⟩ := Option.ne_none_iff_exists'.mp hp
    exact hb.exists_slot hlast
  · rw [List.mem_map]
    constructor
    · rintro ⟨op, hop, rfl⟩
      obtain ⟨slot, k, entry, hget, rfl⟩ := WriteBuffer.mem_changeBatch_iff.mp hop
      obtain ⟨table, slot', k', hs, hkey, hlast⟩ :=
        (g.exists_get?_iff hg howns hb).mp ⟨slot, k, WriteBuffer.key_changeOp slot (k, entry), hget⟩
      exact ⟨table, slot', k', hs, hkey, Option.ne_none_iff_exists'.mpr ⟨entry, hlast⟩⟩
    · rintro ⟨table, slot, k, hs, rfl, hp⟩
      obtain ⟨entry, hlast⟩ := Option.ne_none_iff_exists'.mp hp
      have hget : b.get? slot k = some entry := ((hb.has hg hs).1 k).trans hlast
      exact ⟨_, WriteBuffer.mem_changeBatch_iff.mpr ⟨slot, k, entry, hget, rfl⟩,
        WriteBuffer.key_changeOp slot (k, entry)⟩

end Writes

/-! ## The commit -/

variable {ε : Type} [StorageEngine ε]

theorem Repository.batch_of_writeBuffer {r : Repository ε} {b : WriteBuffer} {batch : WriteBatch}
    (h : (r.writeBuffer b).1 = .ok batch) : b.batch r.engine = .ok batch := by
  unfold writeBuffer at h
  split at h
  · exact absurd h (by simp)
  · rename_i made hbatch
    split at h
    · exact hbatch.trans h
    · split at h
      · exact absurd h (by simp)
      · exact hbatch.trans h

/-- A commit that succeeds counts the rows that its batch puts and deletes. -/
theorem Transaction.counts_commit {t : Transaction} {r : Repository ε}
    (hactive : t.state = .active) (hmode : t.mode = .readWrite) (hok : (t.commit r).1 = .ok ()) :
    ∃ batch, t.buffer.batch r.engine = .ok batch
      ∧ (t.commit r).2.2.metrics.written = r.metrics.written + batch.puts
      ∧ (t.commit r).2.2.metrics.deleted = r.metrics.deleted + batch.deletes := by
  by_cases hlock : t.CanLock r
  · rcases commit_cases hactive hmode hlock with ⟨e, _, hc⟩ | ⟨batch, hw, hc⟩
    · rw [hc] at hok
      exact absurd hok (by simp)
    · have hbooks := (t.sameBooks_locked r).trans ((t.locked r).sameBooks_writeBuffer t.buffer)
      have hbatch := Repository.batch_of_writeBuffer hw
      rw [engine_locked] at hbatch
      rw [hc]
      exact ⟨batch, hbatch, congrArg (· + batch.puts) hbooks.written,
        congrArg (· + batch.deletes) hbooks.deleted⟩
  · obtain ⟨e, he⟩ := (commit_of_not_canLock hactive hmode hlock).1
    exact absurd (he.symm.trans hok) (by simp)

/-- A reader that commits has nothing to count. -/
theorem Transaction.counts_commit_read {t : Transaction} {r : Repository ε}
    (hactive : t.state = .active) (hmode : t.mode = .read) (hempty : t.buffer = .empty) :
    t.buffer.batch r.engine = .ok []
      ∧ (t.commit r).2.2.metrics = r.metrics := by
  rw [commit_of_read hactive hmode, hempty]
  refine ⟨rfl, ?_⟩
  unfold release
  split <;> rfl

namespace History

variable {h : History ε} {name : String} {t : Transaction}

/--
**The batch of a commit has the last change of each row, once.** Whatever the engine that it is made
on, no key is twice in it, so its changes can be made in any order, and the last of each key is all
of them. It puts the rows whose last change since the last clear of their table is a put, and it
deletes those whose last change is a removal, and those that a cleared table has and that have no
change since.

Before the commit the pending changes are as many as the rows with a change, and the transaction is
dirty as soon as there was a call. A commit that succeeds counts the puts and the deletes of its
batch.
-/
theorem commit_batch_shape [HonestEngine ε] (hr : Reachable h)
    (ht : h.session.transaction? name = some t) (hactive : t.state = .active) :
    let log := callsOf (h.pending name)
    (∀ (engine : ε) (batch : WriteBatch), t.buffer.batch engine = .ok batch →
      batch.Writes h.repo.registry (StorageEngine.rows engine) log)
    ∧ (∀ engine : ε, StorageEngine.Answers engine → ∃ batch, t.buffer.batch engine = .ok batch)
    ∧ {p : String × Bytes | lastChange? log p.1 p.2 ≠ none}.encard = t.pending
    ∧ (t.isDirty = true ↔ log ≠ [])
    ∧ ((t.commit h.repo).1 = .ok () →
      ∃ batch, t.buffer.batch h.repo.engine = .ok batch
        ∧ batch.Writes h.repo.registry (StorageEngine.rows h.repo.engine) log
        ∧ (t.commit h.repo).2.2.metrics.written = h.repo.metrics.written + batch.puts
        ∧ (t.commit h.repo).2.2.metrics.deleted = h.repo.metrics.deleted + batch.deletes) := by
  intro log
  have hinv := inv_of_reachable hr
  have hsound := hinv.store.sound
  have howns := (hinv.tracked ht).owns
  have hb := condensed_of_reachable hr name t ht hactive
  have hwrites : ∀ (engine : ε) (batch : WriteBatch), t.buffer.batch engine = .ok batch →
      batch.Writes h.repo.registry (StorageEngine.rows engine) log := by
    intro engine batch hbatch
    rw [WriteBuffer.batch_honest hbatch]
    exact writes_batchOn hsound howns hb _
  refine ⟨hwrites, fun engine hanswers => ⟨_, WriteBuffer.batch_eq hanswers _⟩,
    encard_pending hsound howns hb, hb.isDirty_iff, fun hok => ?_⟩
  cases hmode : t.mode with
  | read =>
      obtain ⟨hbatch, hmetrics⟩ := Transaction.counts_commit_read (r := h.repo) hactive hmode
        ((hinv.tracked ht).reader hmode)
      rw [hmetrics]
      exact ⟨[], hbatch, hwrites _ [] hbatch, rfl, rfl⟩
  | readWrite =>
      obtain ⟨batch, hbatch, hwritten, hdeleted⟩ := Transaction.counts_commit hactive hmode hok
      exact ⟨batch, hbatch, hwrites _ batch hbatch, hwritten, hdeleted⟩

/-- A table with two rows is cleared, one of the rows is set anew, and rows that were not there are
removed; the first try to commit fails. -/
theorem commit_batch_shape_cleared :
    let r : Repository MemoryEngine :=
      { engine := {}, registry := {}, config := {}
        events := [.repositoryOpened "memory" "data" 0] }
    let h := (start r).run [
      .step "a" (.begin .readWrite), .step "a" (.act (.putAll "t" [([1], [5]), ([2], [6])])),
      .step "a" (.act .commit), .step "b" (.begin .readWrite),
      .step "b" (.act (.put "t" [1] [7])), .step "b" (.act (.clear "t")),
      .step "b" (.act (.put "t" [2] [8])), .step "b" (.act (.remove "t" [3])),
      .step "b" (.act (.put "u" [9] [9])), .step "b" (.act (.remove "u" [9])),
      .fault (fun e => e.failWritesAfter 0) (fun _ => rfl), .step "b" (.act .commit)]
    let batch : WriteBatch :=
      [.delete [1, 1], .put [1, 2] [8], .delete [1, 3], .delete [2, 9]]
    ∃ b, h.session.transaction? "b" = some b ∧ b.buffer.batch h.repo.engine = .ok batch
      ∧ (∀ ops : WriteBatch, ops.Perm batch →
        ∀ base, WriteBatch.applyTo ops base = batch.applyTo base)
      ∧ {p : String × Bytes | lastChange? (callsOf (h.pending "b")) p.1 p.2 ≠ none}.encard = 3
      ∧ b.isDirty = true
      ∧ (b.commit h.repo).2.2.metrics.written = 3 ∧ (b.commit h.repo).2.2.metrics.deleted = 3 := by
  intro r h batch
  have hopened : Repository.onEngine ({} : MemoryEngine) {} = .ok r := rfl
  have hreach : Reachable h := (Reachable.opened hopened).run _
  have hb : (h.session.transaction? "b").map (fun t => (t.state, t.pending,
      (t.commit h.repo).1.toOption, (t.buffer.batch h.repo.engine).toOption))
      = some (.active, 3, some (), some batch) := by decide +kernel
  have hcalls : callsOf (h.pending "b") ≠ [] := by decide +kernel
  have hcounted : h.repo.metrics.written = 2 ∧ h.repo.metrics.deleted = 0 := by decide +kernel
  clear_value h
  obtain ⟨b, hb, hfacts⟩ := Option.map_eq_some_iff.mp hb
  simp only [Prod.mk.injEq] at hfacts
  obtain ⟨hactive, hpending, hok, hbatch⟩ := hfacts
  obtain ⟨hwrites, _, hcount, hdirty, hcommit⟩ := commit_batch_shape hreach hb hactive
  obtain ⟨made, hmade, _, hwritten, hdeleted⟩ := hcommit (eq_ok_of_toOption hok)
  have hsame := eq_ok_of_toOption hbatch
  cases Except.ok.inj (hmade.symm.trans hsame)
  rw [hcounted.1] at hwritten
  rw [hcounted.2] at hdeleted
  rw [hpending] at hcount
  exact ⟨b, hb, hsame, fun _ => (hwrites _ _ hsame).any_order, hcount, hdirty.mpr hcalls,
    hwritten, hdeleted⟩

end History

end TableStore
