import Mathlib.Data.List.Perm.Basic
import TableStore.Engine.RowFile
import TableStore.Proofs.BatchShape
import TableStore.Proofs.Errands
import TableStore.Proofs.HexText

/-!
# A printed table can be put back

A table that is printed in hexadecimal, with keys and values and no limits, is all there is to know
about it. The two signs that end a line and part it in two are no digits, so the text can be split
again in one way only (`Dump.pairs?_text`), an empty key or value being an empty piece; and each
piece is read as the bytes it was written from.

Pairs are put back by one command each. What a command leaves is known from the catalogue, so a
run of them is a fold of insertions (`Catalogue.serveAll_putsBack`). No two of them have the same
key, since they come from one table, so their order does not matter and the map is the old one
(`SortedMap.ofList_of_perm`).
-/

namespace TableStore

/-! ## Bindings in any order -/

/-- Bindings of a map, bound in any order, are the map. -/
theorem SortedMap.ofList_of_perm {κ α : Type} [Ord κ] [Std.TransOrd κ] [Std.LawfulEqOrd κ]
    {m : SortedMap κ α} {pairs : List (κ × α)} (h : pairs.Perm m.toList) : ofList pairs = m := by
  have hkeys : (pairs.map Prod.fst).Nodup := (h.map Prod.fst).nodup_iff.mpr m.nodup_keys
  refine ext_get? (fun k => get?_congr (fun v => ?_))
  rw [(perm_ofList hkeys).mem_iff, h.mem_iff]

/-! ## Splitting a text -/

namespace Dump

/-- The texts before and behind the single tab of a line. -/
def fields? (line : List Char) : Option (String × String) :=
  match line.splitOn '\t' with
  | [key, value] => some (String.ofList key, String.ofList value)
  | _ => none

/-- A text split at newlines, of which the last one ends it, and each line at its single tab. -/
def pairs? (text : String) : Option (List (String × String)) :=
  let pieces := text.toList.splitOn '\n'
  if pieces.getLast? = some [] then pieces.dropLast.mapM fields? else none

/-- The texts of a row. -/
def pairOf (e : Entry) : String × String := (Hex.encode e.1, Hex.encode e.2)

/-- The printed rows of a table. -/
def text (order : ScanOrder) (rows : Rows) : String :=
  String.join ((order.arrange rows.toList).map (fun e => RowFile.line e.1 e.2))

/-- The characters of a printed row, up to its newline. -/
def lineChars (e : Entry) : List Char :=
  (Hex.encode e.1).toList ++ '\t' :: (Hex.encode e.2).toList

theorem not_mem_of_not_digit {bytes : Bytes} {c : Char} (h : c ∉ Hex.digits) :
    c ∉ (Hex.encode bytes).toList :=
  fun hc => h (Hex.mem_digits_of_mem_encode hc)

theorem newline_not_mem_lineChars (e : Entry) : '\n' ∉ lineChars e := by
  have hno : '\n' ∉ Hex.digits := by decide +kernel
  unfold lineChars
  rw [List.mem_append, List.mem_cons]
  rintro (h | h | h)
  · exact not_mem_of_not_digit hno h
  · exact absurd h (by decide)
  · exact not_mem_of_not_digit hno h

/-- **A line has one tab,** between the key and the value. -/
theorem fields?_lineChars (e : Entry) : fields? (lineChars e) = some (pairOf e) := by
  have hno : '\t' ∉ Hex.digits := by decide +kernel
  have hsplit : (lineChars e).splitOn '\t'
      = [(Hex.encode e.1).toList, (Hex.encode e.2).toList] := by
    unfold lineChars
    rw [List.splitOn_append_cons_self_of_not_mem (not_mem_of_not_digit hno),
      List.splitOn_eq_singleton (not_mem_of_not_digit hno)]
  unfold fields?
  rw [hsplit]
  dsimp only
  rw [String.ofList_toList, String.ofList_toList]
  rfl

theorem splitOn_lines {lines : List (List Char)} (h : ∀ line ∈ lines, '\n' ∉ line) :
    (lines.flatMap (· ++ ['\n'])).splitOn '\n' = lines ++ [[]] := by
  induction lines with
  | nil => rfl
  | cons line rest ih =>
      rw [List.flatMap_cons, List.append_assoc]
      show (line ++ '\n' :: rest.flatMap (· ++ ['\n'])).splitOn '\n' = _
      rw [List.splitOn_append_cons_self_of_not_mem (h line List.mem_cons_self),
        ih (fun l hl => h l (List.mem_cons_of_mem _ hl))]
      rfl

theorem mapM_fields? (entries : List Entry) :
    (entries.map lineChars).mapM fields? = some (entries.map pairOf) := by
  induction entries with
  | nil => rfl
  | cons e rest ih =>
      rw [List.map_cons, List.mapM_cons, fields?_lineChars, ih]
      rfl

theorem toList_text (order : ScanOrder) (rows : Rows) :
    (text order rows).toList
      = ((order.arrange rows.toList).map lineChars).flatMap (· ++ ['\n']) := by
  unfold text
  rw [String.toList_join, List.flatMap_map, List.flatMap_map]
  refine List.flatMap_congr (fun e _ => ?_)
  unfold RowFile.line lineChars
  simp only [String.toList_append, List.append_assoc]
  rfl

/-- **The printed text is split in one way,** into the texts of the rows. -/
theorem pairs?_text (order : ScanOrder) (rows : Rows) :
    pairs? (text order rows) = some ((order.arrange rows.toList).map pairOf) := by
  have hlines : ∀ line ∈ (order.arrange rows.toList).map lineChars, '\n' ∉ line := by
    intro line hline
    obtain ⟨e, _, he⟩ := List.mem_map.mp hline
    exact he ▸ newline_not_mem_lineChars e
  unfold pairs?
  rw [toList_text, splitOn_lines hlines]
  dsimp only
  rw [List.getLast?_concat, if_pos rfl, List.dropLast_concat, mapM_fields?]

theorem perm_arrange {α : Type} (order : ScanOrder) (l : List α) : (order.arrange l).Perm l := by
  cases order with
  | ascending => exact .refl l
  | descending => exact List.reverse_perm l

theorem pairOf_injective {e e' : Entry} (h : pairOf e = pairOf e') : e = e' :=
  Prod.ext (Hex.encode_injective (Prod.mk.inj h).1) (Hex.encode_injective (Prod.mk.inj h).2)

/-- Texts of rows in another order are the texts of the rows in that order. -/
theorem exists_of_perm {texts : List (String × String)} {entries : List Entry}
    (h : texts.Perm (entries.map pairOf)) :
    ∃ reordered : List Entry, texts = reordered.map pairOf ∧ reordered.Perm entries := by
  have hcomp : Relation.Comp (fun texts entries => texts = List.map pairOf entries)
      (fun reordered entries => reordered.Perm entries) texts entries := by
    rw [List.eq_map_comp_perm]
    exact h
  exact hcomp

/-- **Different tables are printed differently,** also in different directions. -/
theorem text_injective {order order' : ScanOrder} {rows rows' : Rows}
    (h : text order rows = text order' rows') : rows = rows' := by
  have hpairs := pairs?_text order rows
  rw [h, pairs?_text] at hpairs
  have harranged := (List.map_inj_right (fun _ _ he => pairOf_injective he)).mp
    (Option.some.inj hpairs)
  have hperm : rows.toList.Perm rows'.toList :=
    ((perm_arrange order rows.toList).symm.trans (.of_eq harranged.symm)).trans
      (perm_arrange order' rows'.toList)
  exact (SortedMap.ofList_toList rows).symm.trans (SortedMap.ofList_of_perm hperm)

end Dump

/-! ## Invocations that dump and put back -/

/-- A scan of all there is in a table: no range, no limit, keys and values. -/
structure ScanRequest.Whole (q : ScanRequest) : Prop where
  first : q.first = none
  last : q.last = none
  limit : q.limit = none
  values : q.keysOnly = false

/-- An invocation that prints a whole table in hexadecimal, and not as JSON. -/
structure Invocation.Dumps (i : Invocation) (q : ScanRequest) : Prop where
  command : i.command = .scan q
  whole : q.Whole
  hex : i.options.hex = true
  lines : i.options.json = false

/-- An invocation that puts a pair of texts into a table as hexadecimal. -/
structure Invocation.PutsBack (i : Invocation) (table : String) (pair : String × String) :
    Prop where
  command : i.command = .put table pair.1 pair.2
  hex : i.options.hex = true

namespace Catalogue

variable {c made : Catalogue} {i : Invocation} {table : String}

/-- A dump prints the text of the rows. -/
theorem serve_dump {q : ScanRequest} (h : i.Dumps q) :
    c.serve i = (.ok (Dump.text (orderOf q) (c.rows q.table)), c) := by
  have hscanned : c.scanned q none none = (orderOf q).arrange (c.rows q.table).toList := by
    unfold scanned
    rw [h.whole.limit]
    exact congrArg (orderOf q).arrange (List.filter_eq_self.mpr (fun e _ => rfl))
  have hline : ∀ e : Entry, CommandText.row (.ofOptions i.options) false e
      = RowFile.line e.1 e.2 := by
    intro e
    rw [← TextForm.rowLine_eq]
    unfold TextForm.ofOptions TextForm.rowLine TextForm.encode
    rw [h.hex, h.lines]
    rfl
  unfold serve answer
  rw [h.command]
  dsimp only
  rw [h.whole.first, h.whole.last, h.whole.values]
  unfold limitOf
  dsimp only
  rw [hscanned, List.map_congr_left (fun e _ => hline e)]
  rfl

/-- A table that can be had is there once it is open, and no row has changed. -/
theorem of_opened (h : c.opened table = .ok made) :
    made.has table = true ∧ made.rows = c.rows := by
  unfold opened at h
  split at h
  · rename_i hhas
    cases Except.ok.inj h
    exact ⟨hhas, rfl⟩
  · split at h
    · exact absurd h (by simp)
    · split at h
      · exact absurd h (by simp)
      · cases Except.ok.inj h
        exact ⟨by simp [has], rfl⟩

theorem setRows_setRows (first second : Rows) :
    (c.setRows table first).setRows table second = c.setRows table second := by
  unfold setRows
  congr 1
  funext other
  by_cases h : other = table
  · rw [if_pos h, if_pos h]
  · rw [if_neg h, if_neg h]
    exact if_neg h

/-- The texts of an entry are put back as the entry. -/
theorem serve_putsBack {e : Entry} (h : i.PutsBack table (Dump.pairOf e))
    (hopen : c.opened table = .ok made) :
    c.serve i = (.ok "", made.setRows table ((c.rows table).insert e.1 e.2)) := by
  have hdecode : ∀ bytes, (TextForm.ofOptions i.options).decode (Hex.encode bytes) = .ok bytes := by
    intro bytes
    unfold TextForm.ofOptions TextForm.decode
    rw [h.hex, Hex.decode_encode]
    rfl
  unfold serve answer
  rw [h.command]
  dsimp only [Dump.pairOf]
  rw [hdecode, hdecode, hopen]

/-- **Putting entries back is inserting them,** one after the other, and nothing else. -/
theorem serveAll_putsBack {invocations : List Invocation} {entries : List Entry}
    (hopen : c.opened table = .ok made)
    (h : List.Forall₂ (fun i e => i.PutsBack table (Dump.pairOf e)) invocations entries) :
    (∀ answer ∈ (c.serveAll invocations).1, answer = .ok "")
      ∧ (c.serveAll invocations).2.rows
        = (c.setRows table (entries.foldl (fun m e => m.insert e.1 e.2) (c.rows table))).rows := by
  induction h generalizing c made with
  | nil =>
      refine ⟨by simp [serveAll], funext (fun other => ?_)⟩
      show c.rows other = if other = table then c.rows table else c.rows other
      split
      · rename_i he
        rw [he]
      · rfl
  | @cons i e invocations entries hput _ ih =>
      -- the first command makes the table if need be, and the others find it there
      obtain ⟨hhas, hrows⟩ := of_opened hopen
      have hagain : (made.setRows table ((c.rows table).insert e.1 e.2)).opened table
          = .ok (made.setRows table ((c.rows table).insert e.1 e.2)) := if_pos hhas
      obtain ⟨hanswers, hlast⟩ := ih hagain
      unfold serveAll
      rw [serve_putsBack hput hopen]
      dsimp only
      refine ⟨fun answer ha => ?_, ?_⟩
      · rcases List.mem_cons.mp ha with he | ha
        · exact he
        · exact hanswers answer ha
      · rw [hlast, setRows_setRows, List.foldl_cons]
        have hself : (made.setRows table ((c.rows table).insert e.1 e.2)).rows table
            = (c.rows table).insert e.1 e.2 := if_pos rfl
        rw [hself]
        unfold setRows
        rw [hrows]

end Catalogue

/-! ## Dumping and putting back -/

/-- A store that was opened shows its catalogue. -/
theorem Site.shows_of_ofConfig {config : StoreConfig} {found : Rows} {r : Repository Engine}
    (hopen : Repository.ofConfig config found = .ok r) (hcovered : r.Covered) :
    Site.Shows ⟨r, found⟩ config.backend (Catalogue.of r) := by
  have hready := ready_of_ofConfig hopen hcovered
  refine ⟨hready.same rfl rfl hready.free, fun hdisk => ?_⟩
  unfold Repository.ofConfig Engine.ofBackend at hopen
  rw [hdisk] at hopen
  rw [(Repository.load_of_onEngine hopen).1]
  rfl

variable {source target : Site} {kind : Backend} {directory : String} {c c' : Catalogue}

/-- **A dump prints the text of the rows,** and is done. -/
theorem Errand.run_dump (h : source.Shows kind c) {dump : Errand kind directory} {q : ScanRequest}
    (hdump : dump.invocation.Dumps q) :
    (dump.run source).1 = ⟨.done, Dump.text (Catalogue.orderOf q) (c.rows q.table)⟩ := by
  rw [(dump.run_eq h).1, Catalogue.serve_dump hdump]
  rfl

/-- A table without rows, which is there or can be made. -/
structure Site.HasEmpty (site : Site) (kind : Backend) (c : Catalogue) (table : String) : Prop where
  shows : site.Shows kind c
  empty : c.rows table = .empty
  opens : ∃ made, c.opened table = .ok made

/-- Errands that put pairs of texts into a table, in any order. -/
def Errand.PutBack (table : String) (pairs : List (String × String))
    (puts : List (Errand kind directory)) : Prop :=
  ∃ order : List (String × String), order.Perm pairs
    ∧ List.Forall₂ (fun put pair => put.invocation.PutsBack table pair) puts order

/-- **Rows that are put back are the rows that were dumped,** and nothing else has changed. -/
theorem Errand.runAll_putBack {rows : Rows} {order : ScanOrder} {table : String}
    (h : target.HasEmpty kind c' table) {puts : List (Errand kind directory)}
    (hputs : Errand.PutBack table ((order.arrange rows.toList).map Dump.pairOf) puts) :
    (∀ reply ∈ (Errand.runAll puts target).1, reply = ⟨.done, ""⟩)
      ∧ ∃ after, (Errand.runAll puts target).2.Shows kind after
        ∧ after.rows = (c'.setRows table rows).rows := by
  obtain ⟨made, hopen⟩ := h.opens
  obtain ⟨texts, hperm, hforall⟩ := hputs
  obtain ⟨entries, hentries, harranged⟩ := Dump.exists_of_perm hperm
  have hrows : entries.Perm rows.toList := harranged.trans (Dump.perm_arrange order rows.toList)
  have hinvocations : List.Forall₂ (fun i e => i.PutsBack table (Dump.pairOf e))
      (puts.map Errand.invocation) entries := by
    rw [hentries] at hforall
    exact List.forall₂_map_left_iff.mpr (List.forall₂_map_right_iff.mp hforall)
  obtain ⟨hreplies, hshows⟩ := Errand.runAll_eq h.shows puts
  obtain ⟨hanswers, hlast⟩ := Catalogue.serveAll_putsBack hopen hinvocations
  refine ⟨fun reply hr => ?_, _, hshows, ?_⟩
  · rw [hreplies] at hr
    obtain ⟨answer, ha, he⟩ := List.mem_map.mp hr
    rw [← he, hanswers answer ha]
    rfl
  · -- the table was without rows, so its rows are those that were inserted
    rw [hlast, h.empty]
    show (c'.setRows table (SortedMap.ofList entries)).rows = _
    rw [SortedMap.ofList_of_perm hrows]

/--
**Dumping a table and putting it back loses nothing.** Print a whole table in hexadecimal, whatever
its keys and values are. The text can be split at newlines and each line at its single tab; and if
each pair is put into an empty table of some store, in any order, every command is done, the table
has the same rows, no other table has changed, and the table is printed as the same text. So two
tables that are printed alike, on whichever stores and in whichever directions, have the same rows.
And the codec of texts loses nothing either.
-/
theorem Errand.dump_is_lossless (h : source.Shows kind c) (dump : Errand kind directory)
    {q : ScanRequest} (hdump : dump.invocation.Dumps q) :
    let reply := (dump.run source).1
    reply.ending = .done
    ∧ (∃ pairs, Dump.pairs? reply.out = some pairs
      ∧ ∀ (kind' : Backend) (directory' : String) (target : Site) (c' : Catalogue)
          (table : String) (puts : List (Errand kind' directory')),
        target.HasEmpty kind' c' table → Errand.PutBack table pairs puts →
        let done := Errand.runAll puts target
        (∀ r ∈ done.1, r = ⟨.done, ""⟩)
        ∧ (Catalogue.of done.2.store).rows = (c'.setRows table (c.rows q.table)).rows
        ∧ ∀ (again : Errand kind' directory') (q' : ScanRequest), again.invocation.Dumps q' →
          q'.table = table → q'.reverse = q.reverse → (again.run done.2).1 = reply)
    ∧ (∀ (kind' : Backend) (directory' : String) (other : Site) (c' : Catalogue)
          (dump' : Errand kind' directory') (q' : ScanRequest),
        other.Shows kind' c' → dump'.invocation.Dumps q' →
        (dump'.run other).1.out = reply.out → c'.rows q'.table = c.rows q.table)
    ∧ ∀ form : TextForm, form.hex = true → form.Lossless := by
  intro reply
  have hreply : reply = ⟨.done, Dump.text (Catalogue.orderOf q) (c.rows q.table)⟩ :=
    Errand.run_dump h hdump
  rw [hreply]
  refine ⟨rfl, ⟨_, Dump.pairs?_text _ _, ?_⟩, ?_, fun form hform => form.lossless_of_hex hform⟩
  · intro kind' directory' target c' table puts hempty hputs
    obtain ⟨hreplies, after, hshows, hrows⟩ := Errand.runAll_putBack hempty hputs
    refine ⟨hreplies, hshows.ready.catalogue ▸ hrows, fun again q' hagain htable hreverse => ?_⟩
    have horder : Catalogue.orderOf q' = Catalogue.orderOf q := by
      unfold Catalogue.orderOf
      rw [hreverse]
    have htableRows : after.rows q'.table = c.rows q.table := by
      rw [hrows, htable]
      exact if_pos rfl
    rw [Errand.run_dump hshows hagain, horder, htableRows]
  · intro kind' directory' other c' dump' q' hother hdump' hout
    rw [Errand.run_dump hother hdump'] at hout
    exact Dump.text_injective hout

/-- A table with the empty key, an empty value, and bytes that are a tab, a newline and no text,
is put back on another store, which makes the table for it, the last row first. -/
theorem Errand.dump_is_lossless_tab_and_newline :
    let config : StoreConfig := { backend := .sled, path := "d" }
    let found : Rows := .ofList [([0, 1], [116]), ([1], [255, 9, 10]), ([1, 9], [])]
    let r : Repository Engine :=
      { engine := .disk ⟨found⟩, registry := ⟨.ofList [("t", 1)], 1⟩, config := config
        metrics := { tables := 1 }, events := [.repositoryOpened "sled" "d" 1] }
    let fresh : Repository Engine :=
      { engine := .memory {}, registry := {}, config := .inMemory
        events := [.repositoryOpened "memory" "" 0] }
    let options : StoreOptions := { hex := true }
    let dump : Errand config.backend config.path :=
      .within ⟨.scan { table := "t" }, options⟩ trivial
    let puts : List (Errand .memory "") :=
      [.within ⟨.put "u" "09" "", options⟩ trivial, .within ⟨.put "u" "" "ff090a", options⟩ trivial]
    let again : Errand .memory "" := .within ⟨.scan { table := "u" }, options⟩ trivial
    (dump.run ⟨r, found⟩).1 = ⟨.done, "\tff090a\n09\t\n"⟩
    ∧ (again.run (Errand.runAll puts ⟨fresh, .empty⟩).2).1 = ⟨.done, "\tff090a\n09\t\n"⟩ := by
  intro config found r fresh options dump puts again
  have hopened : Repository.ofConfig config found = .ok r := rfl
  have hcovered : r.Covered := by
    intro key value hrow
    have hmem : (key, value) ∈ [([0, 1], [116]), ([1], [255, 9, 10]), ([1, 9], [])] :=
      SortedMap.get?_eq_some_iff.mp hrow
    simp only [List.mem_cons, List.not_mem_nil, or_false, Prod.mk.injEq] at hmem
    rcases hmem with ⟨hkey, _⟩ | ⟨hkey, _⟩ | ⟨hkey, _⟩
    · exact Or.inl ⟨[1], hkey⟩
    · exact Or.inr ⟨"t", 1, [], rfl, hkey⟩
    · exact Or.inr ⟨"t", 1, [9], rfl, hkey⟩
  have hfresh : Repository.ofConfig .inMemory .empty = .ok fresh := rfl
  have hnone : fresh.Covered :=
    fun key value hrow => absurd (show none = some value from hrow) (by simp)
  have hdump : dump.invocation.Dumps { table := "t" } := ⟨rfl, ⟨rfl, rfl, rfl, rfl⟩, rfl, rfl⟩
  have hagain : again.invocation.Dumps { table := "u" } := ⟨rfl, ⟨rfl, rfl, rfl, rfl⟩, rfl, rfl⟩
  have hempty : Site.HasEmpty ⟨fresh, .empty⟩ .memory (Catalogue.of fresh) "u" :=
    ⟨Site.shows_of_ofConfig hfresh hnone, rfl, ⟨[⟨"u", 1⟩], fun _ => .empty⟩, by
      rw [Catalogue.of_fresh rfl rfl]
      rfl⟩
  have hout : (dump.run ⟨r, found⟩).1 = ⟨.done, "\tff090a\n09\t\n"⟩ := by
    decide +kernel
  obtain ⟨_, ⟨pairs, hpairs, hback⟩, _, _⟩ :=
    dump_is_lossless (Site.shows_of_ofConfig hopened hcovered) dump hdump
  rw [hout] at hpairs hback
  have hread : Dump.pairs? "\tff090a\n09\t\n" = some [("", "ff090a"), ("09", "")] := by
    decide +kernel
  have hputs : Errand.PutBack "u" pairs puts := by
    rw [Option.some.inj (hpairs.symm.trans hread)]
    exact ⟨[("09", ""), ("", "ff090a")], .swap _ _ _,
      .cons ⟨rfl, rfl⟩ (.cons ⟨rfl, rfl⟩ .nil)⟩
  obtain ⟨_, _, hsame⟩ := hback _ _ _ _ _ _ hempty hputs
  exact ⟨hout, hsame again _ hagain rfl rfl⟩

end TableStore
