import TableStore.Proofs.Isolation
import TableStore.Proofs.Ready

/-!
# Commands answer from the catalogue

Each command takes a path of its own through the store and gives up in other places. What they
have in common is `Served`: the text, or the failure, is the one the catalogue gives, and the
store is ready again with the catalogue's next state in it.

A read prints what its transaction reads, and leaves (`served_reading`). A change is
`served_change`, after whatever its command checks first. What is left for each command is to see
that the store says the same as the catalogue where the command asks it.
-/

namespace TableStore

open Command (boundOf rangeOf inTransaction reading)

variable {backend : Backend} {r r' : Repository Engine} {t : Transaction} {mode : TransactionMode}

/-! ## Printing -/

theorem writeAll_open (texts : List String) (text : String) :
    ({ text := text } : Output).writeAll texts
      = (.ok (), { text := text ++ String.join texts }) := by
  induction texts generalizing text with
  | nil =>
      rw [Output.writeAll, String.join_nil, String.append_empty]
  | cons first rest ih =>
      rw [Output.writeAll]
      show ({ text := text ++ first } : Output).writeAll rest = _
      rw [ih, String.join_cons, String.append_assoc]

theorem writeRows_open (form : TextForm) (rows : List Row) (text : String) :
    ({ text := text } : Output).writeRows form (rows.map .ok)
      = (.ok (), { text := text ++ String.join (rows.map form.rowLine) }) := by
  induction rows generalizing text with
  | nil =>
      show Output.writeRows _ form [] = (.ok (), { text := text ++ String.join [] })
      rw [Output.writeRows, String.join_nil, String.append_empty]
  | cons first rest ih =>
      rw [List.map_cons, Output.writeRows]
      show ({ text := text ++ form.rowLine first } : Output).writeRows form _ = _
      rw [ih, List.map_cons, String.join_cons, String.append_assoc]

/-! ## Commands that read -/

/-- A transaction that has begun is let go after the work. -/
theorem inTransaction_of_begin {α : Type} (hbegin : Transaction.begin mode r = (.ok t, r'))
    (work : Transaction → Repository Engine
      → Except CommandError α × Transaction × Repository Engine) :
    inTransaction mode r work = ((work t r').1, (work t r').2.1.drop (work t r').2.2) := by
  unfold inTransaction
  rw [hbegin]

/-- **A read is printed and leaves the store alone.** -/
theorem served_reading {α : Type} (h : Ready backend r)
    {read : Transaction → Repository Engine → Except StoreError α}
    {print : α → Except CommandError Unit × Output} {answer : Except CommandError String}
    (hread : ∀ t r', Begun r .read t r' → ∃ a, read t r' = .ok a
      ∧ print a = Catalogue.printed answer) :
    Served backend (reading r {} read print) (answer, Catalogue.of r) := by
  obtain ⟨t, r', hbegin, hb⟩ := exists_begun h .read
  obtain ⟨a, hr, hp⟩ := hread t r' hb
  unfold reading
  rw [inTransaction_of_begin hbegin]
  dsimp only
  rw [hr]
  dsimp only
  rw [hp]
  exact ⟨rfl, hb.drop h⟩

theorem served_get (h : Ready backend r) (form : TextForm) (table key : String) :
    Served backend ((Command.get table key).run form r {})
      ((Catalogue.of r).answer form (.get table key)) := by
  unfold Command.run Command.runGet Catalogue.answer
  dsimp only
  cases form.decode key with
  | error e => exact served_error h e
  | ok bytes =>
      dsimp only
      have hget : ∀ t r', Begun r .read t r' →
          t.get r' table bytes = .ok (((Catalogue.of r).rows table).get? bytes) :=
        fun t r' hb => hb.reads.get_eq table bytes
      cases hg : ((Catalogue.of r).rows table).get? bytes with
      | none =>
          rw [hg] at hget
          exact served_reading h (fun t r' hb => ⟨none, hget t r' hb, rfl⟩)
      | some value =>
          rw [hg] at hget
          refine served_reading h (fun t r' hb => ⟨some value, hget t r' hb, ?_⟩)
          dsimp only
          rw [form.valueLine_eq]
          exact Prod.ext rfl (congrArg (Output.mk true) String.empty_append)

/-- A transaction of a command counts the rows that are stored. -/
theorem Begun.count_eq (hb : Begun r mode t r') (h : Ready backend r) (table : String) :
    t.count r' table = .ok (r.committed table).size := by
  have hanswers : StorageEngine.Answers r'.engine := hb.engine ▸ h.steady.healthy.toAnswers
  have hsound : r'.registry.Sound := hb.registry ▸ h.faithful.sound
  -- the view is the catalogue's table, since every look-up in it says the same
  have hview : t.view r' table = r.committed table := by
    refine SortedMap.ext_get? (fun key => ?_)
    have hget := (Transaction.reads_view hb.active hsound hanswers).get_eq table key
    exact Except.ok.inj (hget.symm.trans (hb.reads.get_eq table key))
  rw [Transaction.count_of_clean hanswers hb.active hb.clean, hview]

theorem served_count (h : Ready backend r) (form : TextForm) (table : String) :
    Served backend ((Command.count table).run form r {})
      ((Catalogue.of r).answer form (.count table)) := by
  refine served_reading h (fun t r' hb => ⟨_, hb.count_eq h table, ?_⟩)
  rw [form.countLine_eq]
  exact Prod.ext rfl (congrArg (Output.mk true) String.empty_append)

theorem served_tables (h : Ready backend r) (form : TextForm) :
    Served backend (Command.tables.run form r {}) ((Catalogue.of r).answer form .tables) := by
  refine ⟨?_, h.same rfl rfl h.free⟩
  show (((({} : Output).writeAll _).1), (({} : Output).writeAll _).2) = _
  rw [writeAll_open, String.empty_append, form.join_tableLines]
  rfl

/-! ## Scanning -/

theorem boundOf_eq (form : TextForm) (key : Option String) (without : Bool) :
    boundOf form key without
      = (Catalogue.limitOf form key).map (fun b => b.elim .unbounded (Bound.of · (!without))) := by
  cases key with
  | none => rfl
  | some text =>
      unfold boundOf Catalogue.limitOf
      dsimp only
      cases form.decode text <;> rfl

/-- The keys that are wanted, as a range. -/
def wantedRange (q : ScanRequest) (first last : Option Bytes) : KeyRange :=
  ⟨first.elim .unbounded (Bound.of · (!q.withoutFirst)),
    last.elim .unbounded (Bound.of · (!q.withoutLast))⟩

theorem contains_wantedRange (q : ScanRequest) (first last : Option Bytes) (key : Bytes) :
    (wantedRange q first last).contains key = Catalogue.wanted q first last key := by
  have hstart : (wantedRange q first last).start.below key
      = first.all (fun b => if q.withoutFirst then compareKeys b key == .lt
        else compareKeys b key != .gt) := by
    unfold wantedRange
    cases first with
    | none => rfl
    | some b =>
        have hswap := compareKeys_swap b key
        cases q.withoutFirst with
        | false =>
            show (compareKeys key b != .lt) = (compareKeys b key != .gt)
            rw [hswap]
            cases compareKeys b key <;> rfl
        | true =>
            show (compareKeys key b == .gt) = (compareKeys b key == .lt)
            rw [hswap]
            cases compareKeys b key <;> rfl
  have hstop : (wantedRange q first last).stop.above key
      = last.all (fun b => if q.withoutLast then compareKeys key b == .lt
        else compareKeys key b != .gt) := by
    unfold wantedRange
    cases last with
    | none => rfl
    | some b => cases q.withoutLast <;> rfl
  unfold KeyRange.contains KeyRange.aboveStart KeyRange.belowEnd Catalogue.wanted
  rw [hstart, hstop]

/-- A scan finds the rows that are wanted, in its direction. -/
theorem within_wantedRange (rows : Rows) (q : ScanRequest) (first last : Option Bytes) :
    rows.within (wantedRange q first last) (Catalogue.orderOf q)
      = (Catalogue.orderOf q).arrange
        (rows.toList.filter (fun e => Catalogue.wanted q first last e.1)) := by
  unfold Rows.within
  rw [List.filter_congr (fun e _ => contains_wantedRange q first last e.1)]

theorem served_scan (h : Ready backend r) (form : TextForm) (q : ScanRequest) :
    Served backend ((Command.scan q).run form r {})
      ((Catalogue.of r).answer form (.scan q)) := by
  unfold Command.run Command.runScan rangeOf Catalogue.answer
  dsimp only
  rw [boundOf_eq, boundOf_eq]
  cases Catalogue.limitOf form q.first with
  | error e => exact served_error h e
  | ok first =>
      dsimp only [Except.map]
      cases Catalogue.limitOf form q.last with
      | error e => exact served_error h e
      | ok last =>
          dsimp only
          refine served_reading h (fun t r' hb => ?_)
          obtain ⟨cursor, hscan, htake⟩ := hb.reads.scan_eq q.table (wantedRange q first last)
            (Catalogue.orderOf q) q.keysOnly
          refine ⟨cursor, hscan, ?_⟩
          have hrows : (cursor.takeRows (q.limit.getD cursor.stepsLeft)).1
              = (((Catalogue.of r).scanned q first last).map (Row.of q.keysOnly)).map .ok := by
            unfold Catalogue.scanned
            rw [within_wantedRange] at htake
            cases q.limit with
            | none => exact MergeCursor.rest_eq htake
            | some n =>
                show (cursor.takeRows n).1 = _
                rw [htake n, List.map_take, List.map_take]
                rfl
          have hlines : form.rowLine ∘ Row.of q.keysOnly = CommandText.row form q.keysOnly :=
            funext (form.rowLine_eq q.keysOnly)
          rw [hrows, writeRows_open, String.empty_append, List.map_map, hlines]
          rfl

/-! ## Commands that change -/

theorem served_put (h : Ready backend r) (form : TextForm) (table key value : String) :
    Served backend ((Command.put table key value).run form r {})
      ((Catalogue.of r).answer form (.put table key value)) := by
  unfold Command.run Command.runPut Catalogue.answer
  dsimp only
  cases form.decode key with
  | error e => exact served_error h e
  | ok keyBytes =>
      dsimp only
      cases form.decode value with
      | error e => exact served_error h e
      | ok valueBytes =>
          obtain ⟨t, r', hbegin, hb⟩ := exists_begun h .readWrite
          dsimp only
          rw [inTransaction_of_begin hbegin]
          exact served_change h hb (a := .put table keyBytes valueBytes) rfl rfl _

/-- A change of a table that is there is made. -/
theorem served_change_of_has (h : Ready backend r) (hb : Begun r .readWrite t r') {a : Action}
    {table : String} (ha : a.table? = some table)
    (hrun : a.run t r' = t.edit r' table (fun slot b => a.onBuffer slot b)) (done : Event)
    (hhas : (Catalogue.of r).has table = true) :
    let out := Command.commitChange (a.run t r') done
    Served backend (out.1, {}, out.2.1.drop out.2.2)
      (.ok "", (Catalogue.of r).setRows table (a.onRows (r.committed table))) := by
  have hserved := served_change h hb ha hrun done
  have hopened : (Catalogue.of r).opened table = .ok (Catalogue.of r) := if_pos hhas
  rw [hopened] at hserved
  exact hserved

theorem served_delete (h : Ready backend r) (form : TextForm) (table key : String) :
    Served backend ((Command.delete table key).run form r {})
      ((Catalogue.of r).answer form (.delete table key)) := by
  unfold Command.run Command.runDelete Catalogue.answer
  dsimp only
  cases form.decode key with
  | error e => exact served_error h e
  | ok bytes =>
      obtain ⟨t, r', hbegin, hb⟩ := exists_begun h .readWrite
      dsimp only
      rw [inTransaction_of_begin hbegin, hb.reads.contains_eq]
      show Served backend _ (if (r.committed table).contains bytes = true then _ else _)
      cases hc : (r.committed table).contains bytes with
      | false => exact ⟨rfl, hb.drop h⟩
      | true =>
          -- a key that is there is in a table that is there
          have hhas : (Catalogue.of r).has table = true := by
            refine Catalogue.has_iff.mpr (fun hnone => ?_)
            unfold Repository.committed Registry.rowsOf at hc
            rw [hnone] at hc
            exact Bool.noConfusion hc
          exact served_change_of_has h hb (a := .remove table bytes) rfl rfl _ hhas

theorem served_clear (h : Ready backend r) (form : TextForm) (table : String) :
    Served backend ((Command.clear table).run form r {})
      ((Catalogue.of r).answer form (.clear table)) := by
  unfold Command.run Command.runClear Catalogue.answer
  dsimp only
  cases hslot : r.registry.get? table with
  | none =>
      have hhas : (Catalogue.of r).has table = false :=
        Bool.eq_false_iff.mpr (fun hh => Catalogue.has_iff.mp hh hslot)
      have htable : r.table? table = none := by
        unfold Repository.table? Repository.slot?
        rw [hslot]
        rfl
      rw [htable, hhas]
      exact served_error h _
  | some slot =>
      have hhas : (Catalogue.of r).has table = true := Catalogue.has_iff.mpr (by simp [hslot])
      have htable : r.table? table = some ⟨table, slot⟩ := by
        unfold Repository.table? Repository.slot?
        rw [hslot]
        rfl
      obtain ⟨t, r', hbegin, hb⟩ := exists_begun h .readWrite
      rw [htable, hhas]
      dsimp only
      rw [inTransaction_of_begin hbegin, hb.count_eq h]
      exact served_change_of_has h hb (a := .clear table) rfl rfl _ hhas

/-! ## Every command -/

/-- Whether a command is about tables; counters and versions are not. -/
def Command.OfTables : Command → Prop
  | .metrics | .version => False
  | _ => True

/-- **Every command of tables answers from the catalogue.** -/
theorem served_run (h : Ready backend r) (form : TextForm) {c : Command} (hc : c.OfTables) :
    Served backend (c.run form r {}) ((Catalogue.of r).answer form c) := by
  cases c with
  | tables => exact served_tables h form
  | get table key => exact served_get h form table key
  | put table key value => exact served_put h form table key value
  | delete table key => exact served_delete h form table key
  | scan q => exact served_scan h form q
  | count table => exact served_count h form table
  | clear table => exact served_clear h form table
  | metrics => exact hc.elim
  | version => exact hc.elim

end TableStore
