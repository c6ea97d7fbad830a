import TableStore.Proofs.History

/-!
# Histories are serial

The invariant of histories, and the proof that every turn keeps it. Of a turn only the
outcome matters: it stored nothing, it opened a table, or it committed a buffer. Each of
these has one lemma for the store (`Serial.same`, `Serial.opened`, `Serial.commit`) and one
for the transactions that go on beside it (`Tracked.same`, `Tracked.opened`); what happens to
the transaction whose turn it is comes on top.
-/

namespace TableStore

open Repository (SameStore)

variable {ε : Type} [StorageEngine ε]

/-! ## The store -/

/-- How a repository came from another: by lists of changes that were committed one after the
other, and changes that were only made. -/
structure Repository.Serial (origin r : Repository ε) (commits : List (List Action))
    (changes : List Action) : Prop where
  sound : r.registry.Sound
  /-- Tables keep their slots. -/
  kept {table : String} {slot : UInt8} :
    origin.registry.get? table = some slot → r.registry.get? table = some slot
  /-- A table is there if it was there at the start or a change named it. -/
  named {table : String} : r.registry.get? table ≠ none
    ↔ origin.registry.get? table ≠ none ∨ ∃ a ∈ changes, a.table? = some table
  /-- The rows of a table are those of the start with the commits replayed. -/
  tables {table : String} {slot : UInt8} : r.registry.get? table = some slot →
    (StorageEngine.rows r.engine).ofSlot slot
      = replay commits.flatten table ((StorageEngine.rows origin.engine).ofSlot slot)
  /-- Rows that are no table's are those of the start. -/
  others {slot : UInt8} : slot ≠ registrySlot → (∀ table, r.registry.get? table ≠ some slot) →
    (StorageEngine.rows r.engine).ofSlot slot = (StorageEngine.rows origin.engine).ofSlot slot
  nil : (StorageEngine.rows r.engine).get? [] = (StorageEngine.rows origin.engine).get? []
  /-- No commit changed a table that is not there. -/
  unnamed {table : String} : r.registry.get? table = none →
    ∀ rows, replay commits.flatten table rows = rows

theorem exists_mem_snoc {α : Type} {l : List α} {a : α} {p : α → Prop} :
    (∃ b ∈ l ++ [a], p b) ↔ (∃ b ∈ l, p b) ∨ p a := by
  constructor
  · rintro ⟨b, hb, h⟩
    rcases List.mem_append.mp hb with hb | hb
    · exact Or.inl ⟨b, hb, h⟩
    · exact Or.inr (List.mem_singleton.mp hb ▸ h)
  · rintro (⟨b, hb, h⟩ | h)
    · exact ⟨b, List.mem_append_left _ hb, h⟩
    · exact ⟨a, List.mem_append_right _ (List.mem_singleton_self a), h⟩

namespace Repository.Serial

variable {origin r r' : Repository ε} {commits : List (List Action)} {changes : List Action}

theorem refl (h : r.registry.Sound) : Serial r r [] [] where
  sound := h
  kept hs := hs
  named := by simp
  tables _ := rfl
  others _ _ := rfl
  nil := rfl
  unnamed _ _ := rfl

theorem same (h : Serial origin r commits changes) (hs : SameStore r r') :
    Serial origin r' commits changes where
  sound := hs.registry ▸ h.sound
  kept := by rw [hs.registry]; exact h.kept
  named := by rw [hs.registry]; exact h.named
  tables := by rw [hs.registry, hs.rows]; exact h.tables
  others := by rw [hs.registry, hs.rows]; exact h.others
  nil := by rw [hs.rows]; exact h.nil
  unnamed := by rw [hs.registry]; exact h.unnamed

/-- An action that names no table adds nothing to what was changed. -/
theorem idle (h : Serial origin r commits changes) {a : Action} (ha : a.table? = none) :
    Serial origin r commits (changes ++ [a]) where
  sound := h.sound
  kept := h.kept
  named {table} := by
    rw [h.named, exists_mem_snoc, ha]
    simp
  tables := h.tables
  others := h.others
  nil := h.nil
  unnamed := h.unnamed

/-- A table that is opened for a change is a table named; no row of a table is touched. -/
theorem opened (h : Serial origin r commits changes) {a : Action} {name : String} {slot : UInt8}
    (ha : a.table? = some name) (ho : Opened r r' name slot) :
    Serial origin r' commits (changes ++ [a]) where
  sound := ho.sound h.sound
  kept hs := ho.kept (h.kept hs)
  named {table} := by
    rw [exists_mem_snoc, ha]
    by_cases hne : table = name
    · rw [hne, ho.known]
      simp
    · have hname : ¬ some name = some table := fun he => hne (Option.some.inj he).symm
      rw [ho.get?_of_ne hne, h.named, or_iff_left hname]
  tables {table s} hs := by
    rw [ho.ofSlot_rows ((ho.sound h.sound).ne_registrySlot hs)]
    cases hk : r.registry.get? table with
    | some s' =>
        have hslot := Option.some.inj ((ho.kept hk).symm.trans hs)
        exact hslot ▸ h.tables hk
    | none =>
        -- the table is new: nobody had its slot, and no commit is about it
        have hname : table = name := by
          refine Classical.byContradiction (fun hne => ?_)
          rw [ho.get?_of_ne hne, hk] at hs
          exact absurd hs (by simp)
        have hslot : slot = s := Option.some.inj (ho.known.symm.trans (hname ▸ hs))
        have hsound := (ho.sound h.sound).ne_registrySlot hs
        rw [h.unnamed hk, h.others hsound (hslot ▸ ho.unused h.sound (hname ▸ hk))]
  others {s} hs hno := by
    rw [ho.ofSlot_rows hs]
    exact h.others hs (fun table ht => hno table (ho.kept ht))
  nil := ho.get?_nil_rows.trans h.nil
  unnamed {table} hnone := by
    have hne : table ≠ name := by
      intro he
      rw [he, ho.known] at hnone
      exact absurd hnone (by simp)
    rw [ho.get?_of_ne hne] at hnone
    exact h.unnamed hnone

/-- **A commit is its list of changes, replayed last.** The rows that the buffer is laid over
are those of the commit, and the buffer over any rows is the list replayed on them. -/
theorem commit (h : Serial origin r commits changes) {b : WriteBuffer} {log : List Action}
    (howns : r.registry.Owns b) (hmirrors : r.registry.Mirrors b log)
    (hregistry : r'.registry = r.registry)
    (hrows : StorageEngine.rows r'.engine
      = (b.batchOn (StorageEngine.rows r.engine)).applyTo (StorageEngine.rows r.engine)) :
    Serial origin r' (commits ++ [log]) changes where
  sound := hregistry ▸ h.sound
  kept hs := by rw [hregistry]; exact h.kept hs
  named := by rw [hregistry]; exact h.named
  tables {table slot} hs := by
    rw [hregistry] at hs
    -- the batch lays the buffer over the rows of this moment, which are the commits so far
    rw [hrows, WriteBuffer.ofSlot_applyTo_batchOn, ← hmirrors.of_some hs, h.tables hs,
      List.flatten_append, replay_append]
    exact congrArg (fun l => replay l table _) (List.append_nil log).symm
  others {slot} hs hno := by
    rw [hregistry] at hno
    rw [hrows, WriteBuffer.ofSlot_applyTo_batchOn,
      WriteBuffer.overlay_of_not_touches (howns.not_touches hno)]
    exact h.others hs hno
  nil := by rw [hrows, WriteBuffer.get?_nil_applyTo_batchOn]; exact h.nil
  unnamed {table} hnone rows := by
    rw [hregistry] at hnone
    rw [List.flatten_append, replay_append, h.unnamed hnone]
    show replay (log ++ []) table rows = rows
    rw [List.append_nil, hmirrors.of_none hnone]

end Repository.Serial

/-! ## Tables by name -/

namespace Repository

/-- The committed rows of a name. -/
def committed (r : Repository ε) (table : String) : Rows :=
  r.registry.rowsOf (StorageEngine.rows r.engine) table

/-- Every row is the registry's or a table's. -/
def Covered (r : Repository ε) : Prop :=
  ∀ key value, (StorageEngine.rows r.engine).get? key = some value →
    (∃ rest, key = physicalKey registrySlot rest)
    ∨ ∃ table slot rest, r.registry.get? table = some slot ∧ key = physicalKey slot rest

namespace Serial

variable {origin r : Repository ε} {commits : List (List Action)} {changes : List Action}

/-- A table that was made since the start began without rows, if every row was someone's. -/
theorem ofSlot_origin (h : Serial origin r commits changes) (hc : origin.Covered)
    {table : String} {slot : UInt8} (hs : r.registry.get? table = some slot)
    (hnew : origin.registry.get? table = none) :
    (StorageEngine.rows origin.engine).ofSlot slot = .empty := by
  refine Rows.ofSlot_eq_empty (fun key => ?_)
  cases hg : (StorageEngine.rows origin.engine).get? (physicalKey slot key) with
  | none => rfl
  | some value =>
      -- whoever had the row at the start still has its slot, and would not be new
      exfalso
      rcases hc _ _ hg with ⟨rest, he⟩ | ⟨other, slot', rest, ho, he⟩
      · exact h.sound.ne_registrySlot hs (List.cons.inj he).1
      · rw [← (List.cons.inj he).1] at ho
        have hname := h.sound.injective hs (h.kept ho)
        rw [← hname, hnew] at ho
        exact absurd ho (by simp)

/-- The committed rows of a name, by the slots of now. -/
theorem committed_rowsOf (h : Serial origin r commits changes) (table : String) :
    r.committed table = replay commits.flatten table
      (r.registry.rowsOf (StorageEngine.rows origin.engine) table) := by
  unfold committed Registry.rowsOf
  cases hs : r.registry.get? table with
  | none => exact (h.unnamed hs .empty).symm
  | some slot => exact h.tables hs

/-- **The committed rows of a name** are those of the start with the commits replayed. -/
theorem committed_eq (h : Serial origin r commits changes) (hc : origin.Covered)
    (table : String) :
    r.committed table = replay commits.flatten table (origin.committed table) := by
  rw [h.committed_rowsOf]
  unfold committed Registry.rowsOf
  cases ho : origin.registry.get? table with
  | some slot => rw [h.kept ho]
  | none =>
      cases hs : r.registry.get? table with
      | none => rfl
      | some slot =>
          dsimp only
          rw [h.ofSlot_origin hc hs ho]

end Serial

end Repository

/-! ## The transactions -/

/-- What is known of an open transaction with its list of changes. -/
structure Transaction.Tracked (g : Registry) (t : Transaction) (log : List Action) : Prop where
  /-- It has changes under slots of tables only. -/
  owns : g.Owns t.buffer
  /-- While it is active its buffer means what its list means. -/
  mirrors : t.state = .active → g.Mirrors t.buffer log
  /-- A writer reads the engine as it is. -/
  live : t.mode = .readWrite → t.source = .live
  /-- A reader changes nothing. -/
  reader : t.mode = .read → t.buffer = .empty

namespace Transaction.Tracked

variable {g : Registry} {t : Transaction} {log : List Action}

theorem fresh (hbuffer : t.buffer = .empty) (hlive : t.mode = .readWrite → t.source = .live) :
    Tracked g t [] where
  owns := hbuffer ▸ g.owns_empty
  mirrors _ := hbuffer ▸ g.mirrors_empty
  live := hlive
  reader _ := hbuffer

theorem same (h : Tracked g t log) {g' : Registry} (hg : g' = g) : Tracked g' t log := hg ▸ h

/-- A transaction that has ended has nothing left. -/
theorem finished (t : Transaction) {state : TransactionState} (h : state ≠ .active) :
    Tracked g (t.finished state) log where
  owns := g.owns_empty
  mirrors hactive := absurd hactive h
  live _ := rfl
  reader _ := rfl

/-- Who holds the lock does not matter. -/
theorem holding (h : Tracked g t log) (holds : Bool) :
    Tracked g { t with holdsWriter := holds } log where
  owns := h.owns
  mirrors := h.mirrors
  live := h.live
  reader := h.reader

variable {r r' : Repository ε} {name : String} {slot : UInt8}

theorem opened (h : Tracked r.registry t log) (hg : r.registry.Sound)
    (ho : Repository.Opened r r' name slot) : Tracked r'.registry t log where
  owns := h.owns.opened ho
  mirrors hactive := (h.mirrors hactive).opened h.owns hg ho
  live := h.live
  reader := h.reader

/-- **A change is noted in the buffer and in the list.** -/
theorem change (h : Tracked r.registry t log) (hg : r.registry.Sound) {a : Action}
    (ha : a.table? = some name) (hmode : t.mode = .readWrite)
    (ho : Repository.Opened r r' name slot) :
    Tracked r'.registry { t with buffer := a.onBuffer slot t.buffer } (log ++ [a]) where
  owns := (h.owns.opened ho).change ho.known a
  mirrors hactive :=
    ((h.mirrors hactive).opened h.owns hg ho).change (ho.sound hg) ha ho.known
  live := h.live
  reader hread := absurd (hread.symm.trans hmode) (by simp)

theorem idle (h : Tracked g t log) {a : Action} (ha : a.table? = none) :
    Tracked g t (log ++ [a]) where
  owns := h.owns
  mirrors hactive := (h.mirrors hactive).idle ha
  live := h.live
  reader := h.reader

end Transaction.Tracked

/-! ## Histories -/

namespace History

/-- The invariant of histories. -/
structure Inv (h : History ε) : Prop where
  store : Repository.Serial h.origin h.repo h.commits h.changes
  tracked {name : String} {t : Transaction} :
    h.session.transaction? name = some t → t.Tracked h.repo.registry (h.pending name)

variable {h : History ε}

theorem inv_start {r : Repository ε} (hr : r.registry.Sound) : Inv (start r) where
  store := .refl hr
  tracked ht := absurd ht (by simp [start, Session.transaction?])

/-- A record may begin at any time. -/
theorem inv_resume (hi : Inv h) : Inv h.resume where
  store := .refl hi.store.sound
  tracked ht := hi.tracked ht

omit [StorageEngine ε] in
theorem setPending_pending (h : History ε) (name : String) :
    h.setPending name (h.pending name) = h.pending := by
  funext other
  unfold setPending
  by_cases hne : other = name
  · rw [if_pos hne, hne]
  · rw [if_neg hne]

/-- Nothing stored changed, and the transactions are the same or fewer. -/
theorem Inv.quiet (hi : Inv h) {s : Session ε} (hsame : SameStore h.repo s.repo)
    (hsub : ∀ name t, s.transaction? name = some t → h.session.transaction? name = some t) :
    Inv { h with session := s } where
  store := hi.store.same hsame
  tracked {name t} ht := (hi.tracked (hsub name t ht)).same hsame.registry

/-- One transaction was put in its place, and the others go on beside it. -/
theorem inv_insert {k : History ε} {name : String} {t : Transaction} {log : List Action}
    (hstore : Repository.Serial k.origin k.repo k.commits k.changes)
    (htransactions : k.session.transactions = h.session.transactions.insert name t)
    (hpending : k.pending = h.setPending name log) (hself : t.Tracked k.repo.registry log)
    (hothers : ∀ other u, h.session.transaction? other = some u →
      u.Tracked k.repo.registry (h.pending other)) : Inv k where
  store := hstore
  tracked {other u} hu := by
    unfold Session.transaction? at hu
    rw [htransactions, SortedMap.get?_insert] at hu
    rw [hpending]
    unfold setPending
    -- the name is the transaction's own or someone else's
    by_cases hne : other = name
    · rw [if_pos hne] at hu ⊢
      rw [← Option.some.inj hu]
      exact hself
    · rw [if_neg hne] at hu ⊢
      exact hothers other u hu

/-- A transaction took its turn with the same changes as before, and nothing was stored. -/
theorem Inv.kept (hi : Inv h) {name : String} {t : Transaction} {r' : Repository ε}
    (hsame : SameStore h.repo r') (hself : t.Tracked h.repo.registry (h.pending name)) :
    Inv { h with session := ⟨r', h.session.transactions.insert name t⟩ } :=
  inv_insert (h := h) (hi.store.same hsame) rfl (h.setPending_pending name).symm
    (hself.same hsame.registry) (fun _ _ hu => (hi.tracked hu).same hsame.registry)

/-! ## One turn -/

theorem inv_fault (hi : Inv h) {change : ε → ε}
    (hsame : ∀ engine, StorageEngine.rows (change engine) = StorageEngine.rows engine) :
    Inv (h.take (.fault change hsame)) :=
  hi.quiet ⟨hsame _, rfl⟩ (fun _ _ ht => ht)

theorem inv_begin (hi : Inv h) (name : String) (mode : TransactionMode) :
    Inv (h.take (.step name (.begin mode))) := by
  show Inv (h.note name (.begin mode) (h.session.begin name mode).1 (h.session.begin name mode).2)
  unfold Session.begin Session.beginUnnamed
  rcases Transaction.begin_cases mode h.session.repo with
    ⟨e, r', hb, hsame⟩ | ⟨t, r', hb, hsame, hbuffer, _, hmode, hlive⟩
  · rw [hb]
    exact hi.quiet hsame (fun _ _ ht => ht)
  · rw [hb]
    dsimp only
    have hadopt : ∀ s : Session ε, SameStore h.repo s.repo →
        s.transactions = h.session.transactions.insert name t →
        Inv (h.note name (.begin mode) (.ok ()) s) := by
      intro s hs htransactions
      exact inv_insert (h := h) (hi.store.same hs) htransactions rfl
        (.fresh hbuffer (hmode ▸ hlive)) (fun _ _ hu => (hi.tracked hu).same hs.registry)
    -- whoever had the name before is let go, which stores nothing
    unfold Session.adopt
    dsimp only
    split
    · rename_i older _
      exact hadopt _ (hsame.trans (older.sameStore_drop r')) rfl
    · exact hadopt _ hsame rfl

theorem inv_drop (hi : Inv h) (name : String) : Inv (h.take (.step name .drop)) := by
  unfold take Session.step? Session.drop? Session.take?
  dsimp only
  cases ht : h.session.transaction? name with
  | none => exact hi
  | some t =>
      -- those that stay were there before
      refine hi.quiet (t.sameStore_drop h.session.repo) (fun other u hu => ?_)
      change (h.session.transactions.erase name).get? other = some u at hu
      rw [SortedMap.get?_erase] at hu
      by_cases hne : other = name
      · rw [if_pos hne] at hu
        exact absurd hu (by simp)
      · rw [if_neg hne] at hu
        exact hu

/-- A session after a transaction of it has worked. -/
theorem take_act (h : History ε) (name : String) (a : Action) :
    h.take (.step name (.act a))
      = match h.session.transaction? name with
        | none => h
        | some t =>
          h.note name (.act a) (a.run t h.repo).1
            ⟨(a.run t h.repo).2.2, h.session.transactions.insert name (a.run t h.repo).2.1⟩ := by
  unfold take Session.step? Session.update?
  dsimp only
  cases h.session.transaction? name <;> rfl

omit [StorageEngine ε] in
theorem note_change (h : History ε) (name : String) {a : Action} (ha : a.isChange = true)
    (s : Session ε) :
    h.note name (.act a) (.ok ()) s
      = { h with
          session := s
          pending := h.setPending name (h.pending name ++ [a])
          changes := h.changes ++ [a] } := by
  cases a with
  | commit => exact absurd ha (by simp [Action.isChange])
  | rollback => exact absurd ha (by simp [Action.isChange])
  | put table key value => rfl
  | putAll table rows => rfl
  | remove table key => rfl
  | clear table => rfl

variable {name : String} {t : Transaction}

theorem inv_change [AtomicEngine ε] (hi : Inv h) (ht : h.session.transaction? name = some t)
    {a : Action} (ha : a.isChange = true) : Inv (h.take (.step name (.act a))) := by
  have hran := Action.ran_run ha t h.repo
  rw [take_act, ht]
  dsimp only
  generalize a.run t h.repo = result at hran
  cases hran with
  | failed same => exact hi.kept same (hi.tracked ht)
  | idle unnamed =>
      rw [note_change h name ha]
      exact inv_insert (h := h) (hi.store.idle unnamed) rfl rfl ((hi.tracked ht).idle unnamed)
        (fun _ _ hu => hi.tracked hu)
  | changed named active writes opened =>
      rw [note_change h name ha]
      exact inv_insert (h := h) (hi.store.opened named opened) rfl rfl
        ((hi.tracked ht).change hi.store.sound named writes opened)
        (fun _ _ hu => (hi.tracked hu).opened hi.store.sound opened)

theorem inv_commit [HonestEngine ε] (hi : Inv h) (ht : h.session.transaction? name = some t) :
    Inv (h.take (.step name (.act .commit))) := by
  have hran := t.ran_commit h.repo
  have htracked := hi.tracked ht
  -- after a commit that succeeds the transaction is at its end, and the others go on
  have hdone : ∀ r' : Repository ε, r'.registry = h.repo.registry →
      StorageEngine.rows r'.engine = (t.buffer.batchOn (StorageEngine.rows h.repo.engine)).applyTo
        (StorageEngine.rows h.repo.engine) →
      t.state = .active →
      Inv (h.note name (.act .commit) (.ok ())
        ⟨r', h.session.transactions.insert name (t.finished .committed)⟩) := by
    intro r' hregistry hrows hactive
    have hstore := hi.store.commit htracked.owns (htracked.mirrors hactive) hregistry hrows
    exact inv_insert (h := h) hstore rfl (h.setPending_pending name).symm (.finished t (by simp))
      (fun _ _ hu => (hi.tracked hu).same hregistry)
  rw [take_act, ht]
  dsimp only [Action.run]
  generalize t.commit h.repo = result at hran
  cases hran with
  | failed holds same => exact hi.kept same (htracked.holding holds)
  | read active mode same =>
      -- a reader has nothing to write, and what it stores is the empty buffer
      refine hdone _ same.registry ?_ active
      rw [htracked.reader mode, same.rows]
      rfl
  | written active mode registry rows => exact hdone _ registry rows active

theorem inv_rollback (hi : Inv h) (ht : h.session.transaction? name = some t) :
    Inv (h.take (.step name (.act .rollback))) := by
  rw [take_act, ht]
  dsimp only [Action.run]
  rcases t.rollback_cases h.repo with ⟨e, hr⟩ | ⟨r', hr, hsame⟩
  · rw [hr]
    exact hi.kept (.refl _) (hi.tracked ht)
  · rw [hr]
    exact hi.kept hsame (.finished t (by simp))

/-- **Every turn keeps the invariant.** -/
theorem inv_take [HonestEngine ε] (hi : Inv h) (turn : Turn ε) : Inv (h.take turn) := by
  cases turn with
  | fault change same => exact inv_fault hi same
  | step name step =>
      cases step with
      | begin mode => exact inv_begin hi name mode
      | drop => exact inv_drop hi name
      | act a =>
          cases ht : h.session.transaction? name with
          | none =>
              rw [take_act, ht]
              exact hi
          | some t =>
              cases a with
              | commit => exact inv_commit hi ht
              | rollback => exact inv_rollback hi ht
              | put table key value => exact inv_change hi ht rfl
              | putAll table rows => exact inv_change hi ht rfl
              | remove table key => exact inv_change hi ht rfl
              | clear table => exact inv_change hi ht rfl

/-- **The invariant holds of every history.** -/
theorem inv_of_reachable [HonestEngine ε] (hr : Reachable h) : Inv h := by
  induction hr with
  | opened hopen =>
      refine inv_start ?_
      unfold Repository.onEngine at hopen
      split at hopen
      · exact absurd hopen (by simp)
      · rename_i registry hload
        rw [← Except.ok.inj hopen]
        exact Registry.load_sound hload
  | turn _ turn ih => exact inv_take ih turn
  | resume _ ih => exact inv_resume ih

/-! ## Serial equivalence -/

/--
**A history is serial.** At its end the rows of every name are those of the start with the
changes of the transactions that committed replayed on them, each transaction's changes as a
whole and in the order of the commits. No other transaction has left a row: not the ones that
were rolled back or let go, that are still open, or whose commits failed.

A name has a table if it had one at the start or a change named it, whatever became of the
transaction; and tables keep their slots. Rows that are no table's are as they were, so where
every row was someone's at the start, a new table begins without rows.
-/
theorem serial_equivalence [HonestEngine ε] (hr : Reachable h) :
    (∀ table, h.repo.committed table = replay h.commits.flatten table
      (h.repo.registry.rowsOf (StorageEngine.rows h.origin.engine) table))
    ∧ (h.origin.Covered → ∀ table,
      h.repo.committed table = replay h.commits.flatten table (h.origin.committed table))
    ∧ (∀ slot, slot ≠ registrySlot → (∀ table, h.repo.registry.get? table ≠ some slot) →
      (StorageEngine.rows h.repo.engine).ofSlot slot
        = (StorageEngine.rows h.origin.engine).ofSlot slot)
    ∧ (StorageEngine.rows h.repo.engine).get? [] = (StorageEngine.rows h.origin.engine).get? []
    ∧ (∀ table, h.repo.registry.get? table ≠ none
      ↔ h.origin.registry.get? table ≠ none ∨ ∃ a ∈ h.changes, a.table? = some table)
    ∧ (∀ table slot, h.origin.registry.get? table = some slot →
      h.repo.registry.get? table = some slot) := by
  have hstore := (inv_of_reachable hr).store
  exact ⟨hstore.committed_rowsOf, fun hc => hstore.committed_eq hc, fun _ hs hno =>
    hstore.others hs hno, hstore.nil, fun _ => hstore.named, fun _ _ hs => hstore.kept hs⟩

/-- Two writers, of which the first needs a second try and the second is rolled back. -/
theorem serial_equivalence_retry_and_rollback :
    let r : Repository MemoryEngine :=
      { engine := {}, registry := {}, config := {}
        events := [.repositoryOpened "memory" "data" 0] }
    let h := (start r).run [
      .step "a" (.begin .readWrite), .step "a" (.act (.put "t" [1] [5])),
      .fault (fun e => e.failWritesAfter 0) (fun _ => rfl), .step "a" (.act .commit),
      .step "b" (.begin .readWrite), .step "b" (.act (.put "u" [2] [6])),
      .step "b" (.act .rollback), .step "a" (.act (.remove "t" [7])), .step "a" (.act .commit)]
    (∀ table, h.repo.committed table
      = replay [.put "t" [1] [5], .remove "t" [7]] table (r.committed table))
    ∧ h.repo.registry.get? "u" ≠ none := by
  intro r h
  have hopened : Repository.onEngine ({} : MemoryEngine) {} = .ok r := rfl
  have hreach : Reachable h := (Reachable.opened hopened).run _
  have horigin : h.origin = r := origin_run _ _
  have hcovered : r.Covered :=
    fun key value hrow => absurd (show none = some value from hrow) (by simp)
  have hcommits : h.commits.flatten = [.put "t" [1] [5], .remove "t" [7]] := by decide +kernel
  have hchanges : Action.put "u" [2] [6] ∈ h.changes := by decide +kernel
  obtain ⟨_, hcommitted, _, _, hnamed, _⟩ := serial_equivalence hreach
  rw [hcommits, horigin] at hcommitted
  exact ⟨hcommitted hcovered, (hnamed "u").mpr (Or.inr ⟨_, hchanges, rfl⟩)⟩

end History

end TableStore
