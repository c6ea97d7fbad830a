import TableStore.Command.Execution
import TableStore.Proofs.CommandText
import TableStore.Proofs.ReadBack
import TableStore.Proofs.Reads

/-!
# What a store looks like from outside

To whoever gives commands a store is a list of tables and, for each name, a sorted map of rows
(`Catalogue`). `Catalogue.answer` says what each command makes of it and what it prints, to the
letter (`CommandText`), without transactions, slots given out twice over, or anything that could be
half done: a command succeeds and the catalogue is the next one, or it fails and the catalogue is
the same.

Of an open store the catalogue is read off its registry and its rows (`Catalogue.of`). The list of
tables takes some work: the registry keeps it by name, and it is listed by slot. Because each new
table has the slot above all others, it is listed last (`tables_publish`), and the last one listed
tells how many slots are gone (`Catalogue.lastSlot_of`).
-/

namespace TableStore

/-! ## Listing tables -/

namespace Registry

variable {g : Registry} {name : String} {slot : UInt8}

theorem mem_tables_iff {t : Table} : t ∈ g.tables ↔ g.get? t.name = some t.slot := by
  unfold tables get?
  rw [List.mem_mergeSort, List.mem_map, SortedMap.get?_eq_some_iff]
  constructor
  · rintro ⟨b, hb, rfl⟩
    exact hb
  · exact fun ht => ⟨(t.name, t.slot), ht, rfl⟩

/-- Tables are listed in the order of their slots, each once. -/
theorem tables_sorted (h : g.Sound) : g.tables.Pairwise (fun a b => a.slot < b.slot) := by
  have hle : g.tables.Pairwise (fun a b => decide (a.slot ≤ b.slot) = true) := by
    refine List.pairwise_mergeSort (fun a b c hab hbc => ?_) (fun a b => ?_) _
    · exact decide_eq_true (UInt8.le_trans (of_decide_eq_true hab) (of_decide_eq_true hbc))
    · rcases UInt8.le_total a.slot b.slot with hab | hba
      · simp [hab]
      · simp [hba]
  have hnodup : g.tables.Nodup := by
    refine (List.mergeSort_perm _ _).nodup_iff.mpr ?_
    refine List.Pairwise.map _ (fun a b hab he => hab ?_) g.byName.nodup
    exact Prod.ext (Table.mk.inj he).1 (Table.mk.inj he).2
  refine (hle.and hnodup).imp_of_mem (fun {a b} ha hb hab => ?_)
  -- two tables of one slot are one table
  have hne : a.slot ≠ b.slot := by
    intro he
    have hname := h.injective (mem_tables_iff.mp ha) (he ▸ mem_tables_iff.mp hb)
    have hsame : a = b := by
      cases a; cases b
      cases hname; cases he
      rfl
    exact hab.2 hsame
  exact UInt8.lt_of_le_of_ne (of_decide_eq_true hab.1) hne

/-- **A new table is listed last.** -/
theorem tables_publish (h : g.Sound) (hnone : g.get? name = none) (habove : g.lastGiven < slot)
    (hlast : slot ≤ lastSlot) : (g.publish name slot).tables = g.tables ++ [⟨name, slot⟩] := by
  refine eq_of_pairwise_of_mem_iff (fun a b hab hba => UInt8.lt_asymm hab hba)
    (tables_sorted (h.publish habove hlast name)) ?_ (fun t => ?_)
  · refine List.pairwise_append.mpr ⟨tables_sorted h, List.pairwise_singleton _ _, ?_⟩
    intro t ht u hu
    rw [List.mem_singleton.mp hu]
    have hle := (h.inRange (mem_tables_iff.mp ht)).2
    exact UInt8.lt_of_le_of_lt hle habove
  · rw [mem_tables_iff, get?_publish, List.mem_append, mem_tables_iff, List.mem_singleton]
    obtain ⟨other, s⟩ := t
    by_cases hname : other = name
    · subst hname
      simp [hnone, eq_comm]
    · simp [hname]

end Registry

/-! ## Catalogues -/

/-- The tables of a store and their rows. -/
structure Catalogue where
  /-- All tables, in the order of their slots. -/
  tables : List Table
  /-- The rows of each name; a name without a table has none. -/
  rows : String → Rows

namespace Catalogue

def of {ε : Type} [StorageEngine ε] (r : Repository ε) : Catalogue := ⟨r.tables, r.committed⟩

/-- Whether there is a table of the name. -/
def has (c : Catalogue) (table : String) : Bool := c.tables.any (fun t => t.name = table)

/-- The last slot given out, zero while there is none. -/
def lastSlot (c : Catalogue) : Nat := (c.tables.getLast?.map (fun t => t.slot.toNat)).getD 0

def setRows (c : Catalogue) (table : String) (rows : Rows) : Catalogue :=
  { c with rows := fun other => if other = table then rows else c.rows other }

/-- The catalogue with a table of the name, which is made with the next slot if there is none. -/
def opened (c : Catalogue) (table : String) : Except StoreError Catalogue :=
  if c.has table then .ok c
  else if table = "" then .error (.invalidOperation .emptyTableName)
  else if 254 ≤ c.lastSlot then .error (.resourceExhausted (.slots table))
  else .ok { c with tables := c.tables ++ [⟨table, UInt8.ofNat (c.lastSlot + 1)⟩] }

/-- The text of an optional limit as bytes. -/
def limitOf (form : TextForm) : Option String → Except CommandError (Option Bytes)
  | none => .ok none
  | some text => (form.decode text).map some

/-- Whether a key is within the limits of a scan. -/
def wanted (q : ScanRequest) (first last : Option Bytes) (key : Bytes) : Bool :=
  first.all (fun b =>
    if q.withoutFirst then compareKeys b key == .lt else compareKeys b key != .gt)
  && last.all (fun b =>
    if q.withoutLast then compareKeys key b == .lt else compareKeys key b != .gt)

/-- The direction of a scan. -/
def orderOf (q : ScanRequest) : ScanOrder := if q.reverse then .descending else .ascending

/-- The rows that a scan prints, in its direction. -/
def scanned (c : Catalogue) (q : ScanRequest) (first last : Option Bytes) : List Entry :=
  let found := (orderOf q).arrange
    ((c.rows q.table).toList.filter (fun e => wanted q first last e.1))
  match q.limit with
  | none => found
  | some limit => found.take limit

/-- **What a command prints, or why it fails,** and the catalogue after it. Counters and versions
are not in a catalogue. -/
def answer (c : Catalogue) (form : TextForm) : Command → Except CommandError String × Catalogue
  | .tables => (.ok (CommandText.tables form c.tables), c)
  | .get table key =>
    match form.decode key with
    | .error e => (.error e, c)
    | .ok bytes =>
      match (c.rows table).get? bytes with
      | none => (.error (.keyNotFound table key), c)
      | some value => (.ok (CommandText.value form key value), c)
  | .put table key value =>
    match form.decode key with
    | .error e => (.error e, c)
    | .ok keyBytes =>
      match form.decode value with
      | .error e => (.error e, c)
      | .ok valueBytes =>
        match c.opened table with
        | .error e => (.error (.store e), c)
        | .ok c' => (.ok "", c'.setRows table ((c.rows table).insert keyBytes valueBytes))
  | .delete table key =>
    match form.decode key with
    | .error e => (.error e, c)
    | .ok bytes =>
      if (c.rows table).contains bytes then
        (.ok "", c.setRows table ((c.rows table).erase bytes))
      else (.error (.keyNotFound table key), c)
  | .scan q =>
    match limitOf form q.first with
    | .error e => (.error e, c)
    | .ok first =>
      match limitOf form q.last with
      | .error e => (.error e, c)
      | .ok last =>
        (.ok (String.join ((c.scanned q first last).map (CommandText.row form q.keysOnly))), c)
  | .count table => (.ok (CommandText.count form table (c.rows table).size), c)
  | .clear table =>
    if c.has table then (.ok "", c.setRows table .empty)
    else (.error (.noSuchTable table), c)
  | .metrics | .version => (.ok "", c)

/-! ## What a scan prints -/

/-- **A scan prints the first of the rows that are wanted,** in its direction: each is one of them,
they are in order, and one that is left out comes after all that are printed, which are then as
many as the limit allows. So backwards these are the greatest, the greatest first. -/
theorem scanned_first (c : Catalogue) (q : ScanRequest) (first last : Option Bytes) :
    (orderOf q).Sorted (c.scanned q first last)
    ∧ (∀ e ∈ c.scanned q first last,
        e ∈ (c.rows q.table).toList ∧ wanted q first last e.1 = true)
    ∧ ∀ e ∈ (c.rows q.table).toList, wanted q first last e.1 = true →
        e ∈ c.scanned q first last
        ∨ q.limit = some (c.scanned q first last).length
          ∧ ∀ shown ∈ c.scanned q first last, (orderOf q).compare shown.1 e.1 = .lt := by
  have hsorted := (orderOf q).sorted_arrange_filter (c.rows q.table)
    (fun e => wanted q first last e.1)
  have hmem : ∀ e, e ∈ (orderOf q).arrange
        ((c.rows q.table).toList.filter (fun e => wanted q first last e.1))
      ↔ e ∈ (c.rows q.table).toList ∧ wanted q first last e.1 = true := by
    intro e
    unfold ScanOrder.arrange
    cases orderOf q <;> simp
  unfold scanned
  generalize (orderOf q).arrange _ = found at hsorted hmem
  dsimp only
  cases q.limit with
  | none =>
      exact ⟨hsorted, fun e he => (hmem e).mp he, fun e he hw => Or.inl ((hmem e).mpr ⟨he, hw⟩)⟩
  | some n =>
      refine ⟨hsorted.sublist (List.take_sublist n found),
        fun e he => (hmem e).mp (List.mem_of_mem_take he), fun e he hw => ?_⟩
      have hin : e ∈ found.take n ++ found.drop n := by
        rw [List.take_append_drop]
        exact (hmem e).mpr ⟨he, hw⟩
      have hsplit : (orderOf q).Sorted (found.take n ++ found.drop n) := by
        rw [List.take_append_drop]
        exact hsorted
      rcases List.mem_append.mp hin with hshown | hleft
      · exact Or.inl hshown
      · refine Or.inr ⟨?_, fun shown hs => (List.pairwise_append.mp hsplit).2.2 shown hs e hleft⟩
        -- something is left out only after the limit
        have hlong : 0 < (found.drop n).length := List.length_pos_of_mem hleft
        rw [List.length_drop] at hlong
        rw [List.length_take, Nat.min_eq_left (by omega)]

/-! ## The catalogue of a store -/

variable {ε : Type} [StorageEngine ε] {r r' : Repository ε} {table : String}

theorem has_iff : (of r).has table = true ↔ r.registry.get? table ≠ none := by
  unfold has
  rw [List.any_eq_true]
  constructor
  · rintro ⟨t, ht, hname⟩
    rw [← of_decide_eq_true hname, Registry.mem_tables_iff.mp ht]
    simp
  · intro hsome
    obtain ⟨slot, hslot⟩ := Option.ne_none_iff_exists'.mp hsome
    exact ⟨⟨table, slot⟩, Registry.mem_tables_iff.mpr hslot, decide_eq_true rfl⟩

/-- The last table has the last slot that was given out. -/
theorem lastSlot_of (hsound : r.registry.Sound) (hattained : r.registry.Attained) :
    (of r).lastSlot = r.registry.lastGiven.toNat := by
  unfold lastSlot
  show ((r.registry.tables.getLast?).map _).getD 0 = _
  cases hl : r.registry.tables.getLast? with
  | none =>
      have hnil := List.getLast?_eq_none_iff.mp hl
      rcases hattained with hzero | ⟨name, hname⟩
      · rw [hzero]
        rfl
      · have hmem : (⟨name, r.registry.lastGiven⟩ : Table) ∈ r.registry.tables :=
          Registry.mem_tables_iff.mpr hname
        rw [hnil] at hmem
        exact absurd hmem (by simp)
  | some t =>
      have ht := Registry.mem_tables_iff.mp (List.mem_of_getLast? hl)
      have hle := UInt8.le_iff_toNat_le.mp (hsound.inRange ht).2
      obtain ⟨front, hfront⟩ := List.getLast?_eq_some_iff.mp hl
      have hsorted := Registry.tables_sorted hsound
      rw [hfront] at hsorted
      -- the table that has the mark is the last one or before it
      have hge : r.registry.lastGiven.toNat ≤ t.slot.toNat := by
        rcases hattained with hzero | ⟨name, hname⟩
        · rw [hzero]
          exact Nat.zero_le _
        · have hmem : (⟨name, r.registry.lastGiven⟩ : Table) ∈ r.registry.tables :=
            Registry.mem_tables_iff.mpr hname
          rw [hfront] at hmem
          rcases List.mem_append.mp hmem with hmem | hmem
          · have hlt := (List.pairwise_append.mp hsorted).2.2 _ hmem t List.mem_cons_self
            exact Nat.le_of_lt (UInt8.lt_iff_toNat_lt.mp hlt)
          · exact Nat.le_of_eq (congrArg (fun t => t.slot.toNat) (List.mem_singleton.mp hmem))
      exact Nat.le_antisymm hle hge

end Catalogue

end TableStore
