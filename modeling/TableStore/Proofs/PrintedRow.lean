import TableStore.Json.Text
import TableStore.Proofs.Dump

/-!
# A row as a read and as a scan print it

A read of one key and a scan from this key to itself find the same row, and as JSON both print it
as one object. They take the key from different places. The scan writes the bytes of the row as
text; the read repeats the text that it was asked with. So the two objects are equal exactly when
this text is the one that its bytes are written as (`Errand.read_prints_as_scan_iff`).

A text that stands for itself is always written as it was, since lenient reading replaces nothing
in it. Hexadecimal digits are written in lower case and read in either, and there the read can
print a key that no scan prints (`Errand.read_repeats_upper_case`).
-/

namespace TableStore

/-! ## One row in an object -/

/-- An object with a key and a value, on a line. -/
def objectLine (key value : String) : String :=
  (Json.Printed.object [("key", .text key), ("value", .text value)]).render ++ "\n"

/-- Digits stand for themselves in quoted text. -/
theorem Json.toList_quote_of_digits {s : String} (h : ∀ c ∈ s.toList, c ∈ Hex.digits) :
    (quote s).toList = '"' :: s.toList ++ ['"'] := by
  have hescape : Hex.digits.all (fun c => escapeChar c == [c]) = true := by decide
  have hsame : s.toList.flatMap escapeChar = s.toList.flatMap (fun c => [c]) :=
    List.flatMap_congr (fun c hc => eq_of_beq (List.all_eq_true.mp hescape c (h c hc)))
  unfold quote quoteChars
  rw [String.toList_ofList, hsame, List.flatMap_singleton']

/-- Objects with different digits as keys are different. -/
theorem objectLine_inj_of_digits {key key' value : String} (h : ∀ c ∈ key.toList, c ∈ Hex.digits)
    (h' : ∀ c ∈ key'.toList, c ∈ Hex.digits) (he : objectLine key value = objectLine key' value) :
    key = key' := by
  have hline : ∀ k, objectLine k value
      = "\x7b\"key\":" ++ Json.quote k ++ ",\"value\":" ++ Json.quote value ++ "\x7d\n" :=
    fun k => CommandText.render_object_line (.text k) (.text value) rfl rfl
  rw [hline, hline] at he
  -- what stands before and behind the key is the same in both lines
  have hquote : Json.quote key = Json.quote key' := by
    simpa only [String.append_left_inj, String.append_right_inj] using he
  have hkeys := congrArg String.toList hquote
  rw [Json.toList_quote_of_digits h, Json.toList_quote_of_digits h'] at hkeys
  exact String.toList_inj.mp (List.append_cancel_right (List.cons.inj hkeys).2)

namespace TextForm

variable {form : TextForm}

theorem valueLine_of_json (h : form.json = true) (key : String) (value : Bytes) :
    form.valueLine key value = objectLine key (form.encode value) := if_pos h

theorem rowLine_of_json (h : form.json = true) (e : Entry) :
    form.rowLine (Row.of false e) = objectLine (form.encode e.1) (form.encode e.2) := if_pos h

/-- **A key text is printed as it was typed** if it stands for itself, or if none of its digits is
in upper case, and only then. -/
theorem encode_eq_iff {key : String} {bytes : Bytes} (h : form.decode key = .ok bytes) :
    form.encode bytes = key ↔ (form.hex = true → key.toLower = key) := by
  rw [form.encode_eq, form.codec.prints (decode_eq_ok_iff.mp h)]
  cases form.hex with
  | true => exact ⟨fun he _ => he, fun he => he rfl⟩
  | false => exact ⟨fun _ hno => absurd hno (by decide), fun _ => rfl⟩

/-- A key text that is read as hexadecimal consists of digits. -/
theorem digits_of_decode {key : String} {bytes : Bytes} (hhex : form.hex = true)
    (h : form.decode key = .ok bytes) : ∀ c ∈ key.toList, c ∈ Hex.digits := by
  refine fun c hc => Classical.byContradiction (fun hno => ?_)
  obtain ⟨e, he⟩ := ((lossless_of_hex hhex).fails_iff key).mpr (Or.inr ⟨c, hc, hno⟩)
  rw [h] at he
  exact absurd he (by simp)

/-- **Objects with the typed and with the written key are equal** when the texts are. -/
theorem objectLine_eq_iff {key value : String} {bytes : Bytes} (h : form.decode key = .ok bytes) :
    objectLine key value = objectLine (form.encode bytes) value
      ↔ (form.hex = true → key.toLower = key) := by
  constructor
  · intro he hhex
    have hwritten : ∀ c ∈ (form.encode bytes).toList, c ∈ Hex.digits := by
      rw [encode_of_hex hhex]
      exact fun c hc => Hex.mem_digits_of_mem_encode hc
    have hkey := objectLine_inj_of_digits (digits_of_decode hhex h) hwritten he
    exact (encode_eq_iff h).mp hkey.symm hhex
  · intro hlower
    rw [(encode_eq_iff h).mpr hlower]

end TextForm

/-! ## A scan of one key -/

/-- A scan from a key to itself, with the value. -/
structure ScanRequest.At (q : ScanRequest) (key : String) : Prop where
  first : q.first = some key
  last : q.last = some key
  withFirst : q.withoutFirst = false
  withLast : q.withoutLast = false
  limit : q.limit = none
  values : q.keysOnly = false

/-- Two invocations that print a row as JSON with one codec: a read of a key, and a scan from the
key to itself. -/
structure Invocation.PrintOneRow (read scan : Invocation) (form : TextForm) (table key : String) :
    Prop where
  reads : read.command = .get table key
  scans : ∃ q, scan.command = .scan q ∧ q.table = table ∧ q.At key
  readForm : TextForm.ofOptions read.options = form
  scanForm : TextForm.ofOptions scan.options = form
  json : form.json = true

namespace Catalogue

variable {c : Catalogue} {i : Invocation} {form : TextForm} {table key : String}
  {bytes value : Bytes}

/-- Between a key and itself is the key alone. -/
theorem wanted_at_iff {q : ScanRequest} (h : q.At key) {other : Bytes} :
    wanted q (some bytes) (some bytes) other = true ↔ other = bytes := by
  have hswap := compareKeys_swap bytes other
  unfold wanted
  rw [h.withFirst, h.withLast]
  constructor
  · intro hw
    refine eq_of_compareKeys ?_
    revert hw
    show (compareKeys bytes other != .gt && compareKeys other bytes != .gt) = true → _
    rw [hswap]
    cases compareKeys bytes other <;> decide
  · intro he
    rw [he]
    show (compareKeys bytes bytes != .gt && compareKeys bytes bytes != .gt) = true
    rw [compareKeys_self]
    rfl

theorem scanned_at {q : ScanRequest} (h : q.At key)
    (hrow : (c.rows q.table).get? bytes = some value) :
    c.scanned q (some bytes) (some bytes) = [(bytes, value)] := by
  have hone : (c.rows q.table).toList.filter
      (fun e => wanted q (some bytes) (some bytes) e.1) = [(bytes, value)] := by
    -- both lists are in the order of keys, and have the same row
    refine eq_of_pairwise_of_mem_iff (fun a b hab hba => ?_)
      ((c.rows q.table).ascending.filter _) (List.pairwise_singleton _ _) (fun e => ?_)
    · rw [Std.OrientedCmp.gt_of_lt hab] at hba
      exact Ordering.noConfusion hba
    · rw [List.mem_filter, wanted_at_iff h, List.mem_singleton]
      constructor
      · rintro ⟨he, hkey⟩
        have hvalue := SortedMap.get?_eq_some_iff.mpr he
        rw [hkey, hrow] at hvalue
        exact Prod.ext hkey (Option.some.inj hvalue).symm
      · intro he
        rw [he]
        exact ⟨SortedMap.get?_eq_some_iff.mp hrow, rfl⟩
  unfold scanned
  rw [hone, h.limit]
  unfold ScanOrder.arrange
  cases orderOf q <;> rfl

theorem serve_read (hcommand : i.command = .get table key)
    (hform : TextForm.ofOptions i.options = form) (hjson : form.json = true)
    (hkey : form.decode key = .ok bytes) (hrow : (c.rows table).get? bytes = some value) :
    c.serve i = (.ok (objectLine key (form.encode value)), c) := by
  unfold serve answer
  rw [hcommand, hform]
  dsimp only
  rw [hkey]
  dsimp only
  rw [hrow]
  dsimp only
  rw [← form.valueLine_eq, TextForm.valueLine_of_json hjson]

theorem serve_scan_at {q : ScanRequest} (hcommand : i.command = .scan q) (hq : q.At key)
    (hform : TextForm.ofOptions i.options = form) (hjson : form.json = true)
    (hkey : form.decode key = .ok bytes) (hrow : (c.rows q.table).get? bytes = some value) :
    c.serve i = (.ok (objectLine (form.encode bytes) (form.encode value)), c) := by
  have hlimit : limitOf form (some key) = .ok (some bytes) := by
    unfold limitOf
    dsimp only
    rw [hkey]
    rfl
  unfold serve answer
  rw [hcommand, hform]
  dsimp only
  rw [hq.first, hq.last, hlimit]
  dsimp only
  rw [scanned_at hq hrow, hq.values, List.map_singleton, ← form.rowLine_eq,
    TextForm.rowLine_of_json hjson,
    String.join_cons, String.join_nil, String.append_empty]

end Catalogue

/-! ## Two ways to print a row -/

/--
**A read and a scan print a row alike** when the key was typed as it is written. For a key text
that stands for a key of the table, both print one object with the codec's text of the stored
value. The scan's object has the codec's text of the stored key; the read's has the text that was
typed. They are equal for every key that stands for itself, and for a hexadecimal key exactly when
none of its digits was typed in upper case.
-/
theorem Errand.read_prints_as_scan_iff {site : Site} {kind : Backend} {directory : String}
    {c : Catalogue} (h : site.Shows kind c) {read scan : Errand kind directory} {form : TextForm}
    {table key : String} {bytes value : Bytes}
    (hpair : read.invocation.PrintOneRow scan.invocation form table key)
    (hkey : form.decode key = .ok bytes) (hrow : (c.rows table).get? bytes = some value) :
    (read.run site).1 = ⟨.done, objectLine key (form.encode value)⟩
    ∧ (scan.run site).1 = ⟨.done, objectLine (form.encode bytes) (form.encode value)⟩
    ∧ ((read.run site).1 = (scan.run site).1 ↔ (form.hex = true → key.toLower = key)) := by
  have hread : (read.run site).1 = ⟨.done, objectLine key (form.encode value)⟩ := by
    rw [(read.run_eq h).1, Catalogue.serve_read hpair.reads hpair.readForm hpair.json hkey hrow]
    rfl
  have hscan : (scan.run site).1
      = ⟨.done, objectLine (form.encode bytes) (form.encode value)⟩ := by
    obtain ⟨q, hcommand, htable, hq⟩ := hpair.scans
    rw [← htable] at hrow
    rw [(scan.run_eq h).1, Catalogue.serve_scan_at hcommand hq hpair.scanForm hpair.json hkey hrow]
    rfl
  refine ⟨hread, hscan, ?_⟩
  rw [hread, hscan, ← TextForm.objectLine_eq_iff hkey]
  exact ⟨fun he => congrArg Reply.out he, fun he => congrArg (Reply.mk .done) he⟩

/-- A key with a letter as digit, in lower case: the read and the scan print one object. -/
theorem Errand.read_prints_as_scan_iff_lower_case :
    let config : StoreConfig := { backend := .sled, path := "d" }
    let found : Rows := .ofList [([0, 1], [116]), ([1, 10], [1])]
    let r : Repository Engine :=
      { engine := .disk ⟨found⟩, registry := ⟨.ofList [("t", 1)], 1⟩, config := config
        metrics := { tables := 1 }, events := [.repositoryOpened "sled" "d" 1] }
    let options : StoreOptions := { hex := true, json := true }
    let read : Errand config.backend config.path := .within ⟨.get "t" "0a", options⟩ trivial
    let scan : Errand config.backend config.path :=
      .within ⟨.scan { table := "t", first := some "0a", last := some "0a" }, options⟩ trivial
    (read.run ⟨r, found⟩).1 = ⟨.done, objectLine "0a" "01"⟩
      ∧ (read.run ⟨r, found⟩).1 = (scan.run ⟨r, found⟩).1 := by
  intro config found r options read scan
  have hopened : Repository.ofConfig config found = .ok r := rfl
  have hcovered : r.Covered := by
    intro key value hrow
    have hmem : (key, value) ∈ [([0, 1], [116]), ([1, 10], [1])] :=
      SortedMap.get?_eq_some_iff.mp hrow
    simp only [List.mem_cons, List.not_mem_nil, or_false, Prod.mk.injEq] at hmem
    rcases hmem with ⟨hkey, _⟩ | ⟨hkey, _⟩
    · exact Or.inl ⟨[1], hkey⟩
    · exact Or.inr ⟨"t", 1, [10], rfl, hkey⟩
  have hpair : read.invocation.PrintOneRow scan.invocation ⟨true, true⟩ "t" "0a" :=
    ⟨rfl, ⟨_, rfl, rfl, ⟨rfl, rfl, rfl, rfl, rfl, rfl⟩⟩, rfl, rfl, rfl⟩
  have hkey : (⟨true, true⟩ : TextForm).decode "0a" = .ok [10] := by decide +kernel
  have hrow : ((Catalogue.of r).rows "t").get? [10] = some [1] := by decide +kernel
  obtain ⟨hread, _, hsame⟩ :=
    read_prints_as_scan_iff (Site.shows_of_ofConfig hopened hcovered) hpair hkey hrow
  exact ⟨hread, hsame.mpr (fun _ => by decide +kernel)⟩

/-- The same key, with its letter typed in upper case: it stands for the key of the row, and the
scan prints that key, but the read repeats what was typed. -/
theorem Errand.read_repeats_upper_case :
    let config : StoreConfig := { backend := .sled, path := "d" }
    let found : Rows := .ofList [([0, 1], [116]), ([1, 10], [1])]
    let r : Repository Engine :=
      { engine := .disk ⟨found⟩, registry := ⟨.ofList [("t", 1)], 1⟩, config := config
        metrics := { tables := 1 }, events := [.repositoryOpened "sled" "d" 1] }
    let options : StoreOptions := { hex := true, json := true }
    let read : Errand config.backend config.path := .within ⟨.get "t" "0A", options⟩ trivial
    let scan : Errand config.backend config.path :=
      .within ⟨.scan { table := "t", first := some "0A", last := some "0A" }, options⟩ trivial
    (TextForm.ofOptions options).decode "0A" = .ok [10]
      ∧ (r.committed "t").get? [10] = some [1]
      ∧ (read.run ⟨r, found⟩).1 = ⟨.done, "\x7b\"key\":\"0A\",\"value\":\"01\"\x7d\n"⟩
      ∧ (scan.run ⟨r, found⟩).1 = ⟨.done, "\x7b\"key\":\"0a\",\"value\":\"01\"\x7d\n"⟩
      ∧ (read.run ⟨r, found⟩).1 ≠ (scan.run ⟨r, found⟩).1 := by
  decide +kernel

end TableStore
