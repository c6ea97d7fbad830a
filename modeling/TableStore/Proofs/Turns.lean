import TableStore.Proofs.History

/-!
# What a turn does

Everything that can happen to a session is said here once. A turn ends in one of six ways
(`Session.Took`): nobody was there to take it, a begin was refused or succeeded, a transaction
acted, a transaction was let go, or the faults below changed. A turn has one of these outcomes
and no other (`History.took_take`), so what holds of every turn is proved by six cases, and none
of them opens the definitions of a session.

Of the store a turn changes less. It stores nothing, or it opens a table, or it commits, and
then it had the lock (`Session.Stored`). And a transaction that is still active after its turn is
the one it was, but for its buffer and its hold on the lock (`Transaction.continues_run`).

A name is a transaction's for as long as nobody begins under it anew. `History.Span` is a stretch
of a history of this kind. What others do in it is anything at all; begins under the name may be
tried in it, and fail.
-/

namespace TableStore

variable {ε : Type}

namespace Session

theorem transaction?_insert (s : Session ε) (r : Repository ε) (name other : String)
    (t : Transaction) :
    (Session.mk r (s.transactions.insert name t)).transaction? other
      = if other = name then some t else s.transaction? other :=
  SortedMap.get?_insert s.transactions name other t

theorem transaction?_erase (s : Session ε) (r : Repository ε) (name other : String) :
    (Session.mk r (s.transactions.erase name)).transaction? other
      = if other = name then none else s.transaction? other :=
  SortedMap.get?_erase s.transactions name other

/-- Keeping a transaction where it is changes nothing. -/
theorem transactions_insert_self {s : Session ε} {name : String} {t : Transaction}
    (h : s.transaction? name = some t) : s.transactions.insert name t = s.transactions := by
  refine SortedMap.ext_get? (fun other => ?_)
  rw [SortedMap.get?_insert]
  split
  · rename_i he
    rw [he]
    exact h.symm
  · rfl

/-- The repository once the transaction that had a name is let go. -/
def relieved (s : Session ε) (name : String) (r : Repository ε) : Repository ε :=
  match s.transaction? name with
  | some older => older.drop r
  | none => r

variable [StorageEngine ε]

/-- What a turn made of a session. -/
inductive Took (s : Session ε) : Turn ε → Session ε → Prop where
  | nobody {name : String} {step : Step} (absent : s.transaction? name = none)
    (needed : ∀ mode, step ≠ .begin mode) : Took s (.step name step) s
  | refused {name : String} {mode : TransactionMode} {e : StoreError} {r : Repository ε}
    (answer : Transaction.begin mode s.repo = (.error e, r)) :
    Took s (.step name (.begin mode)) { s with repo := r }
  | begun {name : String} {mode : TransactionMode} {t : Transaction} {r : Repository ε}
    (answer : Transaction.begin mode s.repo = (.ok t, r)) :
    Took s (.step name (.begin mode)) ⟨s.relieved name r, s.transactions.insert name t⟩
  | acted {name : String} {a : Action} {t : Transaction} (present : s.transaction? name = some t) :
    Took s (.step name (.act a))
      ⟨(a.run t s.repo).2.2, s.transactions.insert name (a.run t s.repo).2.1⟩
  | dropped {name : String} {t : Transaction} (present : s.transaction? name = some t) :
    Took s (.step name .drop) ⟨t.drop s.repo, s.transactions.erase name⟩
  | fault {change : ε → ε}
    {same : ∀ engine, StorageEngine.rows (change engine) = StorageEngine.rows engine} :
    Took s (.fault change same) (s.mapEngine change)

theorem begin_error {s : Session ε} {mode : TransactionMode} {e : StoreError}
    {r : Repository ε} (h : Transaction.begin mode s.repo = (.error e, r)) (name : String) :
    s.begin name mode = (.error e, { s with repo := r }) := by
  unfold begin beginUnnamed
  rw [h]

theorem begin_ok {s : Session ε} {mode : TransactionMode} {t : Transaction}
    {r : Repository ε} (h : Transaction.begin mode s.repo = (.ok t, r)) (name : String) :
    s.begin name mode = (.ok (), ⟨s.relieved name r, s.transactions.insert name t⟩) := by
  have hsame : (Session.mk r s.transactions).transaction? name = s.transaction? name := rfl
  unfold begin beginUnnamed
  rw [h]
  unfold adopt relieved
  dsimp only
  rw [hsame]
  cases s.transaction? name <;> rfl

theorem update?_some {s : Session ε} {name : String} {t : Transaction}
    (h : s.transaction? name = some t) (a : Action) :
    s.step? name (.act a) = some ((a.run t s.repo).1,
      ⟨(a.run t s.repo).2.2, s.transactions.insert name (a.run t s.repo).2.1⟩) := by
  unfold step? update?
  rw [h]
  rfl

theorem drop?_some {s : Session ε} {name : String} {t : Transaction}
    (h : s.transaction? name = some t) :
    s.step? name .drop = some (.ok (), ⟨t.drop s.repo, s.transactions.erase name⟩) := by
  unfold step? drop? take?
  rw [h]
  rfl

end Session

namespace History

variable [StorageEngine ε]

omit [StorageEngine ε] in
/-- The record does not change what it is a record of. -/
theorem session_note (h : History ε) (name : String) (step : Step)
    (answer : Except StoreError Unit) (s : Session ε) :
    (h.note name step answer s).session = s := by
  unfold note
  split <;> rfl

theorem session_take {h : History ε} {name : String} {step : Step}
    {answer : Except StoreError Unit} {s : Session ε}
    (hs : h.session.step? name step = some (answer, s)) :
    (h.take (.step name step)).session = s := by
  unfold take
  dsimp only
  rw [hs]
  exact h.session_note name step answer s

/-- **A turn has one of six outcomes.** -/
theorem took_take (h : History ε) (turn : Turn ε) :
    h.session.Took turn (h.take turn).session := by
  cases turn with
  | fault change same => exact .fault
  | step name step =>
      cases step with
      | begin mode =>
          cases hb : Transaction.begin mode h.session.repo with
          | mk answer r =>
              cases answer with
              | error e =>
                  have hs : h.session.step? name (.begin mode) = some (.error e, _) :=
                    congrArg some (Session.begin_error hb name)
                  rw [session_take hs]
                  exact .refused hb
              | ok t =>
                  have hs : h.session.step? name (.begin mode) = some (.ok (), _) :=
                    congrArg some (Session.begin_ok hb name)
                  rw [session_take hs]
                  exact .begun hb
      | act a =>
          cases ht : h.session.transaction? name with
          | none =>
              have hidle : h.take (.step name (.act a)) = h := by
                unfold take Session.step? Session.update?
                dsimp only
                rw [ht]
                rfl
              rw [hidle]
              exact .nobody ht (by simp)
          | some t =>
              rw [session_take (Session.update?_some ht a)]
              exact .acted ht
      | drop =>
          cases ht : h.session.transaction? name with
          | none =>
              have hidle : h.take (.step name .drop) = h := by
                unfold take Session.step? Session.drop? Session.take?
                dsimp only
                rw [ht]
                rfl
              rw [hidle]
              exact .nobody ht (by simp)
          | some t =>
              rw [session_take (Session.drop?_some ht)]
              exact .dropped ht

/-- Where the transaction comes from that has a name after a turn. -/
inductive CameFrom (h : History ε) (turn : Turn ε) (name : String) (u : Transaction) : Prop where
  | stayed (present : h.session.transaction? name = some u)
  | began {mode : TransactionMode} {r : Repository ε} (turn_eq : turn = .step name (.begin mode))
    (answer : Transaction.begin mode h.repo = (.ok u, r))
  | acted {a : Action} {t : Transaction} (turn_eq : turn = .step name (.act a))
    (present : h.session.transaction? name = some t) (result : (a.run t h.repo).2.1 = u)

/-- **Who has a name after a turn** had it before, has just begun, or has just acted. -/
theorem cameFrom_take {h : History ε} {turn : Turn ε} {name : String} {u : Transaction}
    (hu : (h.take turn).session.transaction? name = some u) : h.CameFrom turn name u := by
  have htook := h.took_take turn
  generalize (h.take turn).session = s at htook hu
  cases htook with
  | nobody absent needed => exact .stayed hu
  | refused answer => exact .stayed hu
  | fault => exact .stayed hu
  | begun answer =>
      rw [Session.transaction?_insert] at hu
      split at hu
      · rename_i he
        exact .began (he ▸ rfl) (Option.some.inj hu ▸ answer)
      · exact .stayed hu
  | acted present =>
      rw [Session.transaction?_insert] at hu
      split at hu
      · rename_i he
        exact .acted (he ▸ rfl) (he ▸ present) (Option.some.inj hu)
      · exact .stayed hu
  | dropped present =>
      rw [Session.transaction?_erase] at hu
      split at hu
      · exact absurd hu (by simp)
      · exact .stayed hu

end History

/-! ## What a turn stores -/

open Repository (SameStore Opened)

/-- What a turn stored: nothing, a table, or the buffer of a transaction that could have the
lock. -/
inductive Session.Stored [StorageEngine ε] (s : Session ε) (turn : Turn ε) (s' : Session ε) :
    Prop where
  | nothing (same : SameStore s.repo s'.repo)
  | opened {name : String} {slot : UInt8} (table : Opened s.repo s'.repo name slot)
  | written {name : String} {t : Transaction} {batch : WriteBatch}
    (commit : turn = .step name (.act .commit)) (present : s.transaction? name = some t)
    (active : t.state = .active) (mode : t.mode = .readWrite) (lock : t.CanLock s.repo)
    (batch_eq : t.buffer.batch s.repo.engine = .ok batch)
    (registry : s'.repo.registry = s.repo.registry)
    (rows : StorageEngine.rows s'.repo.engine = batch.applyTo (StorageEngine.rows s.repo.engine))

section Stored

variable [StorageEngine ε]

theorem Session.sameStore_relieved (s : Session ε) (name : String) (r : Repository ε) :
    SameStore r (s.relieved name r) := by
  unfold relieved
  split
  · rename_i older _
    exact older.sameStore_drop r
  · exact .refl r

/-- A commit that writes had the lock; any other stores nothing. -/
theorem Transaction.stored_commit [AtomicEngine ε] (t : Transaction) (r : Repository ε) :
    SameStore r (t.commit r).2.2
    ∨ (t.state = .active ∧ t.mode = .readWrite ∧ t.CanLock r
      ∧ (t.commit r).2.2.registry = r.registry
      ∧ ∃ batch, t.buffer.batch r.engine = .ok batch
        ∧ StorageEngine.rows (t.commit r).2.2.engine
          = batch.applyTo (StorageEngine.rows r.engine)) := by
  by_cases hactive : t.state = .active
  · cases hmode : t.mode with
    | read =>
        rw [commit_of_read hactive hmode]
        exact Or.inl (t.sameStore_release r)
    | readWrite =>
        by_cases hlock : t.CanLock r
        · cases hc : (t.commit r).1 with
          | error e => exact Or.inl (undone_of_error hactive hmode hlock hc).store
          | ok _ =>
              obtain ⟨hbatch, hregistry, _⟩ := commit_ok hactive hmode hlock hc
              exact Or.inr ⟨hactive, rfl, hlock, hregistry, hbatch⟩
        · rw [(commit_of_not_canLock hactive hmode hlock).2]
          exact Or.inl (by unfold Repository.acquireWriter; split <;> exact ⟨rfl, rfl⟩)
  · -- a transaction that has ended refuses
    rw [commit_of_ended hactive]
    exact Or.inl (.refl r)

/-- **The outcomes of a turn for the store.** -/
theorem History.stored_take [AtomicEngine ε] (h : History ε) (turn : Turn ε) :
    h.session.Stored turn (h.take turn).session := by
  have htook := h.took_take turn
  generalize (h.take turn).session = s at htook
  cases htook with
  | nobody absent needed => exact .nothing (.refl _)
  | refused answer =>
      rcases Transaction.begin_cases _ h.session.repo with ⟨e, r, hb, hsame⟩ | ⟨t, r, hb, _⟩
      · rw [hb] at answer
        exact .nothing ((Prod.mk.inj answer).2 ▸ hsame)
      · rw [hb] at answer
        exact absurd (Prod.mk.inj answer).1 (by simp)
  | begun answer =>
      rcases Transaction.begin_cases _ h.session.repo with ⟨e, r, hb, _⟩ | ⟨t, r, hb, hsame, _⟩
      · rw [hb] at answer
        exact absurd (Prod.mk.inj answer).1 (by simp)
      · rw [hb] at answer
        exact .nothing (((Prod.mk.inj answer).2 ▸ hsame).trans (Session.sameStore_relieved _ _ _))
  | fault =>
      rename_i change same
      exact .nothing ⟨same _, rfl⟩
  | dropped present => exact .nothing (Transaction.sameStore_drop _ _)
  | acted present =>
      rename_i name a t
      by_cases ha : a.isChange = true
      · have hran := Action.ran_run ha t h.session.repo
        generalize a.run t h.session.repo = result at hran
        cases hran with
        | failed same => exact .nothing same
        | idle unnamed => exact .nothing (.refl _)
        | changed named active writes opened => exact .opened opened
      · rcases Action.ends_of_not_isChange ha with rfl | rfl
        · rcases t.stored_commit h.session.repo with
            hsame | ⟨hactive, hmode, hlock, hregistry, batch, hbatch, hrows⟩
          · exact .nothing hsame
          · exact .written rfl present hactive hmode hlock hbatch hregistry hrows
        · refine .nothing ?_
          show SameStore h.session.repo (t.rollback h.session.repo).2.2
          rcases t.rollback_cases h.session.repo with ⟨e, hr⟩ | ⟨r', hr, hsame⟩
          · rw [hr]
            exact .refl _
          · rw [hr]
            exact hsame

/-- A turn takes no table away. -/
theorem History.kept_take [AtomicEngine ε] (h : History ε) (turn : Turn ε) {table : String}
    {slot : UInt8} (hs : h.repo.registry.get? table = some slot) :
    (h.take turn).repo.registry.get? table = some slot := by
  cases h.stored_take turn with
  | nothing same => exact (congrArg (Registry.get? · table) same.registry).trans hs
  | opened made => exact made.kept hs
  | written commit present active mode lock batch_eq registry rows =>
      exact (congrArg (Registry.get? · table) registry).trans hs

end Stored

/-! ## What goes on -/

section GoesOn

variable [StorageEngine ε]

theorem Repository.lockHeld_openTable (r : Repository ε) (name : String) :
    (r.openTable name).2.lockHeld = r.lockHeld := by
  unfold openTable
  split
  · rfl
  · rfl
  · split <;> rfl

namespace Transaction

/-- A change of the buffer, by a writer, and of nothing else that a transaction has or holds. -/
structure OnlyBuffer (t : Transaction) (r : Repository ε) (t' : Transaction) (r' : Repository ε) :
    Prop where
  same : t' = { t with buffer := t'.buffer }
  reader : t.mode = .read → t'.buffer = t.buffer
  lock : r'.lockHeld = r.lockHeld

omit [StorageEngine ε] in
theorem OnlyBuffer.trans {t t' t'' : Transaction} {r r' r'' : Repository ε}
    (h : OnlyBuffer t r t' r') (h' : OnlyBuffer t' r' t'' r'') : OnlyBuffer t r t'' r'' where
  same := by rw [h'.same, h.same]
  reader hread := by
    have hmode : t'.mode = t.mode := by rw [h.same]
    exact (h'.reader (hmode.trans hread)).trans (h.reader hread)
  lock := h'.lock.trans h.lock

theorem onlyBuffer_edit (t : Transaction) (r : Repository ε) (table : String)
    (change : UInt8 → WriteBuffer → WriteBuffer) :
    OnlyBuffer t r (t.edit r table change).2.1 (t.edit r table change).2.2 := by
  have hopen := r.lockHeld_openTable table
  unfold edit
  split
  · exact ⟨rfl, fun _ => rfl, rfl⟩
  · rename_i hw
    split
    · rename_i hr
      rw [hr] at hopen
      exact ⟨rfl, fun _ => rfl, hopen⟩
    · rename_i hr
      rw [hr] at hopen
      -- a reader would not have come this far
      have hmode := (requireWritable_ok_iff.mp hw).2
      exact ⟨rfl, fun hread => absurd (hmode.symm.trans hread) (by simp), hopen⟩

theorem onlyBuffer_putAll (t : Transaction) (r : Repository ε) (table : String)
    (rows : List (Bytes × Bytes)) :
    OnlyBuffer t r (t.putAll r table rows).2.1 (t.putAll r table rows).2.2 := by
  induction rows generalizing t r with
  | nil => exact ⟨rfl, fun _ => rfl, rfl⟩
  | cons e rest ih =>
      obtain ⟨key, value⟩ := e
      have hput : OnlyBuffer t r (t.put r table key value).2.1 (t.put r table key value).2.2 :=
        t.onlyBuffer_edit r table _
      rw [putAll]
      split
      · rename_i hr
        rw [hr] at hput
        exact hput
      · rename_i t₁ r₁ hr
        rw [hr] at hput
        exact hput.trans (ih t₁ r₁)

/-- The changes, as against the two ends. -/
theorem onlyBuffer_run {a : Action} (ha : a.isChange = true) (t : Transaction)
    (r : Repository ε) : OnlyBuffer t r (a.run t r).2.1 (a.run t r).2.2 := by
  cases a with
  | put table key value => exact t.onlyBuffer_edit r table _
  | putAll table rows => exact t.onlyBuffer_putAll r table rows
  | remove table key => exact t.onlyBuffer_edit r table _
  | clear table => exact t.onlyBuffer_edit r table _
  | commit => exact absurd ha (by simp [Action.isChange])
  | rollback => exact absurd ha (by simp [Action.isChange])

/-- One transaction before and after a turn: only its buffer may have changed, and that of a
reader did not. It has lost its hold on the lock only if its commit failed. -/
structure Continues (t u : Transaction) (failed : Prop) : Prop where
  same : u = { t with buffer := u.buffer, holdsWriter := u.holdsWriter }
  reader : t.mode = .read → u = t
  holds : u.holdsWriter = t.holdsWriter ∨ failed

theorem Continues.refl (t : Transaction) (failed : Prop) : t.Continues t failed :=
  ⟨rfl, fun _ => rfl, Or.inl rfl⟩

omit [StorageEngine ε] in
theorem OnlyBuffer.continues {t u : Transaction} {r r' : Repository ε} (h : OnlyBuffer t r u r')
    (failed : Prop) : t.Continues u failed where
  same := by rw [h.same]
  reader hread := by rw [h.same, h.reader hread]
  holds := Or.inl (by rw [h.same])

theorem continues_commit {t : Transaction} {r : Repository ε}
    (h : (t.commit r).2.1.state = .active) :
    t.state = .active ∧ t.Continues (t.commit r).2.1 (∃ e, (t.commit r).1 = .error e) := by
  by_cases hactive : t.state = .active
  · refine ⟨hactive, ?_⟩
    cases hmode : t.mode with
    | read =>
        rw [commit_of_read hactive hmode] at h
        exact absurd h (by simp [finished])
    | readWrite =>
        by_cases hlock : t.CanLock r
        · rcases commit_cases hactive hmode hlock with ⟨e, _, hc⟩ | ⟨batch, _, hc⟩
          · rw [hc]
            exact ⟨rfl, fun hread => absurd (hread.symm.trans hmode) (by simp), Or.inr ⟨e, rfl⟩⟩
          · rw [hc] at h
            exact absurd h (by simp [finished])
        · rw [(commit_of_not_canLock hactive hmode hlock).2]
          exact .refl t _
  · -- what has ended stays so
    rw [commit_of_ended hactive] at h
    exact absurd h hactive

/-- **What goes on is the transaction that it was.** -/
theorem continues_run {a : Action} {t : Transaction} {r : Repository ε}
    (h : (a.run t r).2.1.state = .active) :
    t.state = .active
      ∧ t.Continues (a.run t r).2.1 (a = .commit ∧ ∃ e, (t.commit r).1 = .error e) := by
  by_cases ha : a.isChange = true
  · have hrun := onlyBuffer_run ha t r
    rw [hrun.same] at h
    exact ⟨h, hrun.continues _⟩
  · rcases Action.ends_of_not_isChange ha with rfl | rfl
    · obtain ⟨hactive, hsame, hreader, hholds⟩ := continues_commit h
      exact ⟨hactive, hsame, hreader, hholds.imp_right (fun hfailed => ⟨rfl, hfailed⟩)⟩
    · have hrun : Action.run .rollback t r = t.rollback r := rfl
      rw [hrun] at h ⊢
      rcases t.rollback_cases r with ⟨e, hr⟩ | ⟨r', hr, _⟩
      · rw [hr] at h ⊢
        exact ⟨h, .refl t _⟩
      · rw [hr] at h
        exact absurd h (by simp [finished])

end Transaction

end GoesOn

/-! ## The time of one transaction -/

namespace History

variable [StorageEngine ε]

/-- A stretch of a history without the turns that would end it. -/
inductive Stretch (ends : History ε → Turn ε → Prop) (h : History ε) : History ε → Prop where
  | refl : Stretch ends h h
  | turn {k : History ε} (before : Stretch ends h k) (turn : Turn ε) (goesOn : ¬ ends k turn) :
    Stretch ends h (k.take turn)

theorem Stretch.reachable {ends : History ε → Turn ε → Prop} {h k : History ε}
    (hs : Stretch ends h k) (hr : Reachable h) : Reachable k := by
  induction hs with
  | refl => exact hr
  | turn _ turn _ ih => exact ih.turn turn

/-- Turns of which none would end it make a stretch. -/
theorem Stretch.run {ends : History ε → Turn ε → Prop} {h k : History ε}
    (hs : Stretch ends h k) {turns : List (Turn ε)}
    (hno : ∀ turn ∈ turns, ∀ j, ¬ ends j turn) : Stretch ends h (k.run turns) := by
  induction turns generalizing k with
  | nil => exact hs
  | cons turn rest ih =>
      exact ih (hs.turn turn (hno turn List.mem_cons_self k))
        (fun later hmem => hno later (List.mem_cons_of_mem _ hmem))

/-- A turn in which a transaction begins under a name. -/
def Begins (name : String) (h : History ε) (turn : Turn ε) : Prop :=
  ∃ mode t r, turn = .step name (.begin mode) ∧ Transaction.begin mode h.repo = (.ok t, r)

/-- A stretch of a history in which no transaction begins under a name. -/
abbrev Span (name : String) : History ε → History ε → Prop := Stretch (Begins name)

/-- A turn in which a commit under a name fails. -/
def FailsCommit (name : String) (h : History ε) (turn : Turn ε) : Prop :=
  ∃ t e, turn = .step name (.act .commit) ∧ h.session.transaction? name = some t
    ∧ (t.commit h.repo).1 = .error e

/-- **A transaction that is active after a turn was so before,** and is the same one, unless it
has just begun. -/
theorem continues_take {h : History ε} {name : String} {turn : Turn ε} {u : Transaction}
    (hstays : ¬ h.Begins name turn) (hu : (h.take turn).session.transaction? name = some u)
    (hactive : u.state = .active) :
    ∃ t, h.session.transaction? name = some t ∧ t.state = .active
      ∧ t.Continues u (h.FailsCommit name turn) := by
  cases cameFrom_take hu with
  | stayed present => exact ⟨u, present, hactive, .refl u _⟩
  | began turn_eq answer => exact absurd ⟨_, _, _, turn_eq, answer⟩ hstays
  | acted turn_eq present result =>
      rename_i a t
      rw [← result] at hactive ⊢
      obtain ⟨hbefore, hsame, hreader, hholds⟩ := Transaction.continues_run hactive
      refine ⟨t, present, hbefore, hsame, hreader, hholds.imp_right ?_⟩
      rintro ⟨rfl, e, he⟩
      exact ⟨t, e, turn_eq, present, he⟩

end History

end TableStore
