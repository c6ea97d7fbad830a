import TableStore.Proofs.ReadBack

/-!
# Which rows can be opened

A registry is read back row by row, and whether a row can be taken in depends on the rows before
it: its key has to be one of a table, its value has to be a name, and nobody before it may have
the name already. `Flaw` says what else can be the matter with a row behind others, and under
which name it is reported.

The invariant of the walk is `Tells`: so far the registry knows one table for each row, and no
other. Behind such rows a row that names a new table is taken in (`Tells.absorb_named`), and a
flawed one ends the walk (`Tells.absorb_flaw`). A row is one or the other, so a walk goes through
to its end or stops at the first flaw (`absorbAll_cases`).

Seen from outside there is no walk. Rows that can be opened are `WellFormed`, which says nothing
of an order; and what lies under other slots does not matter.
-/

namespace TableStore

/-- The rows whose key begins with the slot of the registry, in the order of their keys. -/
def Rows.registryRows (rows : Rows) : List Entry :=
  rows.toList.filter (fun e => e.1.head? == some registrySlot)

namespace Registry

/-- A row that gives a table its slot: the key has two bytes, the registry's own and the slot of
a table, and the value is a name as UTF-8. -/
structure Names (e : Entry) (name : String) (slot : UInt8) : Prop where
  key : e.1 = [registrySlot, slot]
  first : firstSlot ≤ slot
  last : slot ≤ lastSlot
  text : e.2 = Utf8.encode name
  named : name ≠ ""

/-- What is the matter with a row behind others. -/
inductive Flaw (before : List Entry) (e : Entry) : Damage → Prop where
  | key (strange : ∀ slot, firstSlot ≤ slot → slot ≤ lastSlot → e.1 ≠ [registrySlot, slot]) :
      Flaw before e (.registryKey e.1)
  | notText {slot : UInt8} (key : e.1 = [registrySlot, slot]) (first : firstSlot ≤ slot)
      (last : slot ≤ lastSlot) (noText : ∀ name, e.2 ≠ Utf8.encode name) :
      Flaw before e (.registryNameNotText slot)
  | unnamed {slot : UInt8} (key : e.1 = [registrySlot, slot]) (first : firstSlot ≤ slot)
      (last : slot ≤ lastSlot) (empty : e.2 = []) : Flaw before e (.registryNameEmpty slot)
  | twice {name : String} {slot other : UInt8} (row : Names e name slot)
      (earlier : ∃ e' ∈ before, Names e' name other) :
      Flaw before e (.registryNameTwice name other slot)

/-- Rows of which none is flawed behind some others and those of them before it. -/
def Flawless (before rows : List Entry) : Prop :=
  ∀ pre e post, rows = pre ++ e :: post → ∀ damage, ¬ Flaw (before ++ pre) e damage

/-- Rows that can be opened. -/
structure WellFormed (rows : Rows) : Prop where
  named {rest value : Bytes} : rows.get? (registrySlot :: rest) = some value →
    ∃ name slot, Names (registrySlot :: rest, value) name slot
  /-- No two tables have one name. -/
  once {a b value : Bytes} : rows.get? (registrySlot :: a) = some value →
    rows.get? (registrySlot :: b) = some value → a = b

/-- The slot is the highest of a table, and the registry's own when there is none. -/
def IsHighest (g : Registry) (slot : UInt8) : Prop :=
  (∀ table s, g.get? table = some s → s ≤ slot)
    ∧ ((∃ table, g.get? table = some slot)
      ∨ slot = registrySlot ∧ ∀ table, g.get? table = none)

/-! ## Names and flaws -/

section Rows

variable {e : Entry} {name : String} {slot : UInt8} {before : List Entry} {damage : Damage}

theorem Names.slot_unique {slot' : UInt8} (h : Names e name slot) {name' : String}
    (h' : Names e name' slot') : slot' = slot ∧ name' = name := by
  have hkey := h'.key.symm.trans h.key
  have htext := h'.text.symm.trans h.text
  exact ⟨(List.cons.inj (List.cons.inj hkey).2).1, Utf8.encode_injective htext⟩

/-- A row names a table that no row before it names, or it is flawed. -/
theorem names_or_flaw (before : List Entry) (e : Entry) :
    (∃ name slot, Names e name slot ∧ ∀ e' ∈ before, ∀ s, ¬ Names e' name s)
    ∨ ∃ damage, Flaw before e damage := by
  by_cases hkey : ∃ slot, firstSlot ≤ slot ∧ slot ≤ lastSlot ∧ e.1 = [registrySlot, slot]
  · obtain ⟨slot, hfirst, hlast, hkey⟩ := hkey
    by_cases htext : ∃ name, e.2 = Utf8.encode name
    · obtain ⟨name, htext⟩ := htext
      by_cases hname : name = ""
      · subst hname
        exact Or.inr ⟨_, .unnamed hkey hfirst hlast htext⟩
      · have hrow : Names e name slot := ⟨hkey, hfirst, hlast, htext, hname⟩
        by_cases hearlier : ∃ s, ∃ e' ∈ before, Names e' name s
        · obtain ⟨s, hearlier⟩ := hearlier
          exact Or.inr ⟨_, .twice hrow hearlier⟩
        · exact Or.inl ⟨name, slot, hrow, fun e' he' s hs => hearlier ⟨s, e', he', hs⟩⟩
    · exact Or.inr ⟨_, .notText hkey hfirst hlast (fun name he => htext ⟨name, he⟩)⟩
  · exact Or.inr ⟨_, .key (fun slot hfirst hlast he => hkey ⟨slot, hfirst, hlast, he⟩)⟩

theorem Flawless.cons {rest : List Entry} (he : ∀ damage, ¬ Flaw before e damage)
    (hrest : Flawless (before ++ [e]) rest) : Flawless before (e :: rest) := by
  intro pre x post hsplit damage hflaw
  cases pre with
  | nil =>
      have hx := (List.cons.inj hsplit).1
      rw [List.append_nil, ← hx] at hflaw
      exact he damage hflaw
  | cons y pre =>
      obtain ⟨hy, htail⟩ := List.cons.inj hsplit
      subst hy
      refine hrest pre x post htail damage ?_
      rw [List.append_assoc]
      exact hflaw

/-- Among flawless rows each names a table. -/
theorem Flawless.names {rows : List Entry} (h : Flawless [] rows) (he : e ∈ rows) :
    ∃ name slot, Names e name slot := by
  obtain ⟨pre, post, hsplit⟩ := List.append_of_mem he
  rcases names_or_flaw pre e with ⟨name, slot, hrow, _⟩ | ⟨damage, hflaw⟩
  · exact ⟨name, slot, hrow⟩
  · exact absurd hflaw (h pre e post hsplit damage)

end Rows

/-! ## The walk -/

/-- A registry that knows a table for each of some rows, and no other table. -/
structure Tells (g : Registry) (rows : List Entry) : Prop where
  get?_iff {name : String} {slot : UInt8} : g.get? name = some slot ↔ ∃ e ∈ rows, Names e name slot
  size : g.size = rows.length

theorem tells_empty : Tells {} [] where
  get?_iff := by simp [get?]
  size := rfl

namespace Tells

variable {g : Registry} {before : List Entry} {e : Entry} {name : String} {slot : UInt8}
  {damage : Damage}

theorem get?_eq_none (h : g.Tells before) (hnew : ∀ e' ∈ before, ∀ s, ¬ Names e' name s) :
    g.get? name = none := by
  cases hs : g.get? name with
  | none => rfl
  | some s =>
      obtain ⟨e', he', hrow⟩ := h.get?_iff.mp hs
      exact absurd hrow (hnew e' he' s)

/-- Who is published under a new name is known by the row that names it. -/
theorem publish (h : g.Tells before) (hrow : Names e name slot)
    (hnew : ∀ e' ∈ before, ∀ s, ¬ Names e' name s) :
    (g.publish name slot).Tells (before ++ [e]) where
  get?_iff {name' slot'} := by
    rw [get?_publish]
    by_cases hname : name' = name
    · subst hname
      rw [if_pos rfl]
      constructor
      · intro hs
        exact ⟨e, by simp, Option.some.inj hs ▸ hrow⟩
      · intro ⟨x, hx, hx'⟩
        rcases List.mem_append.mp hx with hx | hx
        · exact absurd hx' (hnew x hx slot')
        · rw [List.mem_singleton.mp hx] at hx'
          rw [(hrow.slot_unique hx').1]
    · rw [if_neg hname, h.get?_iff]
      constructor
      · intro ⟨x, hx, hx'⟩
        exact ⟨x, List.mem_append_left _ hx, hx'⟩
      · intro ⟨x, hx, hx'⟩
        rcases List.mem_append.mp hx with hx | hx
        · exact ⟨x, hx, hx'⟩
        · rw [List.mem_singleton.mp hx] at hx'
          exact absurd (hrow.slot_unique hx').2 hname
  size := by
    have hsize := h.size
    have hcontains : g.byName.contains name = false := by
      rw [SortedMap.contains_eq_isSome]
      exact congrArg Option.isSome (h.get?_eq_none hnew)
    show (g.byName.insert name slot).size = _
    rw [SortedMap.size_insert, SortedMap.erase_of_not_contains hcontains, List.length_append,
      ← hsize]
    rfl

/-- **A row that names a new table is taken in.** -/
theorem absorb_named (h : g.Tells before) (hrow : Names e name slot)
    (hnew : ∀ e' ∈ before, ∀ s, ¬ Names e' name s) :
    g.absorb e = .ok (g.publish name slot) := by
  have hslot : slotOf? e.1 = some slot :=
    slotOf?_eq_some_iff.mpr ⟨hrow.key, hrow.first, hrow.last⟩
  have htext : Utf8.decode e.2 = .ok name := Utf8.decode_eq_ok_iff.mpr hrow.text.symm
  exact absorb_eq_ok_iff.mpr ⟨name, slot, hslot, htext, hrow.named, h.get?_eq_none hnew, rfl⟩

/-- **A flawed row is refused,** and the error says what is the matter with it. -/
theorem absorb_flaw (h : g.Tells before) (hflaw : Flaw before e damage) :
    g.absorb e = .error (.corruption damage) := by
  have hslot : ∀ {slot : UInt8}, e.1 = [registrySlot, slot] → firstSlot ≤ slot → slot ≤ lastSlot →
      slotOf? e.1 = some slot :=
    fun hkey hfirst hlast => slotOf?_eq_some_iff.mpr ⟨hkey, hfirst, hlast⟩
  unfold absorb
  cases hflaw with
  | key strange =>
      cases hs : slotOf? e.1 with
      | none => rfl
      | some slot =>
          obtain ⟨hkey, hfirst, hlast⟩ := slotOf?_eq_some_iff.mp hs
          exact absurd hkey (strange slot hfirst hlast)
  | notText key first last noText =>
      rw [hslot key first last]
      cases hd : Utf8.decode e.2 with
      | error cause => rfl
      | ok name => exact absurd (Utf8.decode_eq_ok_iff.mp hd).symm (noText name)
  | unnamed key first last empty =>
      rw [hslot key first last, empty]
      rfl
  | twice row earlier =>
      rw [hslot row.key row.first row.last, Utf8.decode_eq_ok_iff.mpr row.text.symm]
      dsimp only
      rw [if_neg row.named, h.get?_iff.mpr earlier]

end Tells

/-- **A walk goes through to its end, or stops at the first flaw.** -/
theorem absorbAll_cases {g : Registry} {before : List Entry} (h : g.Tells before)
    (rows : List Entry) :
    (Flawless before rows
      ∧ ∃ g', g.absorbAll (rows.map .ok) = .ok g' ∧ g'.Tells (before ++ rows))
    ∨ ∃ pre e post damage, rows = pre ++ e :: post ∧ Flawless before pre
      ∧ Flaw (before ++ pre) e damage
      ∧ g.absorbAll (rows.map .ok) = .error (.corruption damage) := by
  induction rows generalizing g before with
  | nil =>
      refine Or.inl ⟨fun pre e post hsplit => absurd hsplit (by simp), g, rfl, ?_⟩
      rw [List.append_nil]
      exact h
  | cons e rest ih =>
      rcases names_or_flaw before e with ⟨name, slot, hrow, hnew⟩ | ⟨damage, hflaw⟩
      · have habsorb := h.absorb_named hrow hnew
        have hsound : ∀ damage, ¬ Flaw before e damage := by
          intro damage hflaw
          rw [h.absorb_flaw hflaw] at habsorb
          exact absurd habsorb (by simp)
        have hstep : g.absorbAll ((e :: rest).map .ok)
            = (g.publish name slot).absorbAll (rest.map .ok) := by
          rw [List.map_cons, absorbAll, habsorb]
        rw [hstep]
        rcases ih (h.publish hrow hnew) with ⟨hrest, g', hg', htells'⟩
          | ⟨pre, x, post, damage, hsplit, hpre, hflaw, herror⟩
        · rw [List.append_assoc] at htells'
          exact Or.inl ⟨hrest.cons hsound, g', hg', htells'⟩
        · rw [List.append_assoc] at hflaw
          exact Or.inr ⟨e :: pre, x, post, damage, by rw [hsplit]; rfl, hpre.cons hsound, hflaw,
            herror⟩
      · refine Or.inr ⟨[], e, rest, damage, rfl, ?_, ?_, ?_⟩
        · exact fun pre x post hsplit => absurd hsplit (by simp)
        · rw [List.append_nil]
          exact hflaw
        · rw [List.map_cons, absorbAll, h.absorb_flaw hflaw]

/-! ## What the rows say -/

section OfRows

variable {rows : Rows} {g : Registry}

theorem ofRows_eq (rows : Rows) : ofRows rows = absorbAll {} (rows.registryRows.map .ok) := by
  have hfilter : rows.within (.ofSlot registrySlot) .ascending = rows.registryRows := by
    refine List.filter_congr (fun e _ => ?_)
    cases e.1 with
    | nil => rfl
    | cons b rest => exact KeyRange.contains_ofSlot_cons registrySlot b rest
  unfold ofRows
  rw [hfilter]

theorem mem_registryRows_iff {e : Entry} :
    e ∈ rows.registryRows ↔ ∃ rest, e.1 = registrySlot :: rest ∧ rows.get? e.1 = some e.2 := by
  unfold Rows.registryRows
  rw [List.mem_filter, SortedMap.get?_eq_some_iff]
  cases he : e.1 with
  | nil => simp
  | cons b rest =>
      have hpair : (b :: rest, e.2) = e := Prod.ext he.symm rfl
      simp [hpair, and_comm]

theorem ofRows_cases (rows : Rows) :
    (Flawless [] rows.registryRows ∧ ∃ g, ofRows rows = .ok g ∧ g.Tells rows.registryRows)
    ∨ ∃ before row after damage, rows.registryRows = before ++ row :: after ∧ Flawless [] before
      ∧ Flaw before row damage ∧ ofRows rows = .error (.corruption damage) := by
  rw [ofRows_eq]
  exact absorbAll_cases tells_empty rows.registryRows

theorem tells_of_ofRows (h : ofRows rows = .ok g) :
    Flawless [] rows.registryRows ∧ g.Tells rows.registryRows := by
  rcases ofRows_cases rows with ⟨hflawless, g', hg', htells⟩ | ⟨_, _, _, _, _, _, _, herror⟩
  · rw [h] at hg'
    exact ⟨hflawless, Except.ok.inj hg' ▸ htells⟩
  · rw [h] at herror
    exact absurd herror (by simp)

/-- **The error is that of the first flaw.** -/
theorem ofRows_error_iff {e : StoreError} :
    ofRows rows = .error e ↔ ∃ before row after damage,
      rows.registryRows = before ++ row :: after ∧ Flawless [] before
      ∧ Flaw before row damage ∧ e = .corruption damage := by
  constructor
  · intro h
    rcases ofRows_cases rows with ⟨_, g, hg, _⟩
      | ⟨before, row, after, damage, hsplit, hbefore, hflaw, herror⟩
    · rw [h] at hg
      exact absurd hg (by simp)
    · rw [h] at herror
      exact ⟨before, row, after, damage, hsplit, hbefore, hflaw, Except.error.inj herror⟩
  · rintro ⟨before, row, after, damage, hsplit, hbefore, hflaw, rfl⟩
    rcases absorbAll_cases tells_empty before with ⟨_, g, hg, htells⟩
      | ⟨pre, x, post, d, hsplit', _, hflaw', _⟩
    · -- the rows before the flaw are taken in, and then it is met
      rw [ofRows_eq, hsplit, List.map_append, absorbAll_append, hg]
      show g.absorbAll ((row :: after).map .ok) = _
      rw [List.map_cons, absorbAll, htells.absorb_flaw hflaw]
    · exact absurd hflaw' (hbefore pre x post hsplit' d)

/-- A row of a registry that was read back is that of a table which the registry knows. -/
theorem names_of_ofRows (h : ofRows rows = .ok g) {rest value : Bytes}
    (hrow : rows.get? (registrySlot :: rest) = some value) :
    ∃ name slot, Names (registrySlot :: rest, value) name slot ∧ g.get? name = some slot := by
  obtain ⟨hflawless, htells⟩ := tells_of_ofRows h
  have hmem : (registrySlot :: rest, value) ∈ rows.registryRows :=
    mem_registryRows_iff.mpr ⟨rest, rfl, hrow⟩
  obtain ⟨name, slot, hnamed⟩ := hflawless.names hmem
  exact ⟨name, slot, hnamed, htells.get?_iff.mpr ⟨_, hmem, hnamed⟩⟩

theorem wellFormed_of_ofRows (h : ofRows rows = .ok g) : WellFormed rows where
  named hrow := by
    obtain ⟨name, slot, hnamed, _⟩ := names_of_ofRows h hrow
    exact ⟨name, slot, hnamed⟩
  once {a b value} ha hb := by
    -- one name has one slot, and the slot is all there is to the key
    obtain ⟨name, slot, hnamed, hslot⟩ := names_of_ofRows h ha
    obtain ⟨name', slot', hnamed', hslot'⟩ := names_of_ofRows h hb
    have hname : name = name' := Utf8.encode_injective (hnamed.text.symm.trans hnamed'.text)
    rw [hname, hslot'] at hslot
    have hkey : registrySlot :: a = registrySlot :: b := by
      rw [show registrySlot :: a = [registrySlot, slot] from hnamed.key,
        show registrySlot :: b = [registrySlot, slot'] from hnamed'.key, Option.some.inj hslot]
    exact (List.cons.inj hkey).2

/-- Well-formed rows have no flaw, wherever they are looked at. -/
theorem WellFormed.not_flaw (h : WellFormed rows) {before after : List Entry} {row : Entry}
    {damage : Damage} (hsplit : rows.registryRows = before ++ row :: after) :
    ¬ Flaw before row damage := by
  intro hflaw
  have hmem : ∀ x ∈ before ++ row :: after,
      ∃ rest, x.1 = registrySlot :: rest ∧ rows.get? x.1 = some x.2 :=
    fun x hx => mem_registryRows_iff.mp (hsplit ▸ hx)
  obtain ⟨rest, hkey, hrow⟩ := hmem row (by simp)
  rw [hkey] at hrow
  obtain ⟨name, slot, hnamed⟩ := h.named hrow
  rw [← hkey] at hnamed
  cases hflaw with
  | key strange => exact strange slot hnamed.first hnamed.last hnamed.key
  | notText _ _ _ noText => exact noText name hnamed.text
  | unnamed _ _ _ empty =>
      have hempty : Utf8.encode name = Utf8.encode "" := hnamed.text.symm.trans empty
      exact hnamed.named (Utf8.encode_injective hempty)
  | twice again earlier =>
      -- two rows with one value are one row, but one of them is before the other
      obtain ⟨x, hx, hearlier⟩ := earlier
      obtain ⟨rest', hkey', hrow'⟩ := hmem x (List.mem_append_left _ hx)
      rw [hkey', hearlier.text, ← again.text] at hrow'
      have hrest := h.once hrow' hrow
      have hascending : Ascending (before ++ row :: after) := by
        rw [← hsplit]
        exact List.Pairwise.filter _ rows.ascending
      have hlt := (List.pairwise_append.mp hascending).2.2 x hx row List.mem_cons_self
      rw [hkey', hkey, hrest, ← compareKeys_eq_compare, compareKeys_self] at hlt
      exact absurd hlt (by simp)

/-- **Rows are read back just when they are well-formed.** -/
theorem ofRows_ok_iff : (∃ g, ofRows rows = .ok g) ↔ WellFormed rows := by
  constructor
  · intro ⟨g, hg⟩
    exact wellFormed_of_ofRows hg
  · intro hwell
    rcases ofRows_cases rows with ⟨_, g, hg, _⟩ | ⟨before, row, after, damage, hsplit, _, hflaw, _⟩
    · exact ⟨g, hg⟩
    · exact absurd hflaw (hwell.not_flaw hsplit)

theorem isHighest_of_ofRows (h : ofRows rows = .ok g) : g.IsHighest g.lastGiven := by
  have hsound := sound_of_ofRows h
  refine ⟨fun table s hs => (hsound.inRange hs).2, ?_⟩
  rcases attained_of_ofRows h with hzero | hsome
  · refine Or.inr ⟨hzero, fun table => ?_⟩
    cases hs : g.get? table with
    | none => rfl
    | some s =>
        -- a slot in use is above the registry's own and not above the mark
        have hrange := hsound.inRange hs
        rw [hzero] at hrange
        exact absurd (UInt8.le_trans hrange.1 hrange.2) (by decide)
  · exact Or.inl hsome

end OfRows

/--
**A store opens exactly on well-formed rows.** On an engine that answers, the registry is read
back if and only if each row under the registry's slot names a table and no two of them have one
name.

The registry then has one table for each of these rows, under the row's name and slot, and no
other; the mark is the highest slot, and the registry's own when there are no rows. Otherwise the
error is damage: that of the first row, in the order of keys, that is flawed behind the rows
before it. A name that is there twice is the flaw of the later row, and the error has both slots.

Rows under other slots, and a row under the empty key, do not matter: engines that agree on what
is under the registry's slot load alike.
-/
theorem load_ok_iff_wellFormed {ε : Type} [StorageEngine ε] {engine : ε}
    (ha : StorageEngine.Answers engine) :
    ((∃ g, load engine = .ok g) ↔ WellFormed (StorageEngine.rows engine))
    ∧ (∀ g, load engine = .ok g →
      (∀ name slot, g.get? name = some slot
        ↔ ∃ e ∈ (StorageEngine.rows engine).registryRows, Names e name slot)
      ∧ g.size = (StorageEngine.rows engine).registryRows.length
      ∧ g.IsHighest g.lastGiven)
    ∧ (∀ e, load engine = .error e ↔ ∃ before row after damage,
      (StorageEngine.rows engine).registryRows = before ++ row :: after ∧ Flawless [] before
      ∧ Flaw before row damage ∧ e = .corruption damage)
    ∧ ∀ other : ε, StorageEngine.Answers other →
      (∀ rest, (StorageEngine.rows other).get? (registrySlot :: rest)
        = (StorageEngine.rows engine).get? (registrySlot :: rest)) →
      load other = load engine := by
  rw [load_eq ha]
  refine ⟨ofRows_ok_iff, fun g hg => ?_, fun e => ofRows_error_iff, fun other ho hrows => ?_⟩
  · obtain ⟨_, htells⟩ := tells_of_ofRows hg
    exact ⟨fun name slot => htells.get?_iff, htells.size, isHighest_of_ofRows hg⟩
  · rw [load_eq ho]
    exact ofRows_congr (Rows.ofSlot_congr hrows)

/-- Two tables with a gap between their slots, and rows that are nobody's; and the same rows with
a third table that has the name of the first. -/
theorem load_ok_iff_wellFormed_name_twice :
    let rows : Rows := .ofList [([], [9]), ([0, 3], Utf8.encode "a"), ([0, 7], Utf8.encode "b"),
      ([200, 1], [])]
    let engine : MemoryEngine := { rows }
    let twice : MemoryEngine := { rows := rows.insert [0, 5] (Utf8.encode "a") }
    (∃ g, load engine = .ok g ∧ g.get? "a" = some 3 ∧ g.get? "b" = some 7 ∧ g.size = 2
      ∧ g.IsHighest 7)
    ∧ load twice = .error (.corruption (.registryNameTwice "a" 3 5)) := by
  intro rows engine twice
  obtain ⟨_, htells, _⟩ := load_ok_iff_wellFormed (MemoryEngine.answers engine)
  obtain ⟨_, _, herror, _⟩ := load_ok_iff_wellFormed (MemoryEngine.answers twice)
  have hfirst : Names ([0, 3], Utf8.encode "a") "a" 3 :=
    ⟨rfl, by decide, by decide, rfl, by decide⟩
  have hsecond : Names ([0, 7], Utf8.encode "b") "b" 7 :=
    ⟨rfl, by decide, by decide, rfl, by decide⟩
  have hagain : Names ([0, 5], Utf8.encode "a") "a" 5 :=
    ⟨rfl, by decide, by decide, rfl, by decide⟩
  constructor
  · obtain ⟨g, hg⟩ : ∃ g, load engine = .ok g := ⟨_, rfl⟩
    obtain ⟨hiff, hsize, hhighest⟩ := htells g hg
    have hmark : g.lastGiven = 7 := by
      rw [← Except.ok.inj hg]
      rfl
    exact ⟨g, hg, (hiff _ _).mpr ⟨_, List.mem_cons_self, hfirst⟩,
      (hiff _ _).mpr ⟨_, List.mem_cons_of_mem _ List.mem_cons_self, hsecond⟩, hsize,
      hmark ▸ hhighest⟩
  · have hsound : ∀ damage, ¬ Flaw [] ([0, 3], Utf8.encode "a") damage := by
      intro damage hflaw
      exact absurd (tells_empty.absorb_flaw hflaw)
        (by rw [tells_empty.absorb_named hfirst (by simp)]; simp)
    have hbefore : Flawless [] [([0, 3], Utf8.encode "a")] :=
      Flawless.cons hsound (fun pre x post hsplit => absurd hsplit (by simp))
    exact (herror _).mpr ⟨_, _, [([0, 7], Utf8.encode "b")], _, rfl, hbefore,
      .twice hagain ⟨_, List.mem_cons_self, hfirst⟩, rfl⟩

end Registry

end TableStore
