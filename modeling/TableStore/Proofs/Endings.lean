import TableStore.Proofs.Calls

/-!
# A transaction ends once

A transaction begins active. A commit that succeeds ends it, and so does a rollback, or being let
go while it is active, which rolls it back. There is no other way out of the active state and none
back into it: `Session.Became` says what a turn can make of the transaction of a name, and
`Became.oneWay` that it moves on, from active to one of the two ends, or stays.

What has ended refuses (`Transaction.Refuses`). Every operation asks for the state before it looks
at anything else, at the table, the range or the keys, so there is no argument that gets past the
question: a table that nobody knows, a range without keys and an empty list of keys are refused like
the others. A refusal leaves no trace, and to let go what has ended leaves none either, for what it
had is gone: its buffer, and its hold on the lock.
-/

namespace TableStore

variable {ε : Type} [StorageEngine ε]

namespace Transaction

/-! ## Refusing -/

/-- A transaction that answers everything it is asked with an error, and does nothing. -/
structure Refuses (t : Transaction) (r : Repository ε) (e : StoreError) : Prop where
  call (c : Call) : c.run t r = (.error e, t, r)
  insert (table : String) {k : KeyShape} (key : k.Value) {s : ValueShape} (value : s.Value) :
    t.insert r table key value = (.error e, t, r)
  get (table : String) (key : Bytes) : t.get r table key = .error e
  contains (table : String) (key : Bytes) : t.contains r table key = .error e
  getMany (table : String) (keys : List Bytes) : t.getMany r table keys = .error e
  select (table : String) (key : Bytes) (s : ValueShape) : t.select r table key s = .error e
  selectMany (table : String) (keys : List Bytes) (s : ValueShape) :
    t.selectMany r table keys s = .error e
  count (table : String) : t.count r table = .error e
  scan (table : String) (range : KeyRange) (order : ScanOrder) (keysOnly : Bool) :
    t.scan r table range order keysOnly = .error e
  commit : t.commit r = (.error e, t, r)
  rollback : t.rollback r = (.error e, t, r)
  /-- To let it go is no end of its own. -/
  drop : t.drop r = r

variable {t : Transaction}

theorem requireWritable_of_ended (h : t.state ≠ .active) :
    t.requireWritable = .error (.invalidOperation (.ended t.state)) := by
  unfold requireWritable
  rw [requireActive_of_ended h]

omit [StorageEngine ε] in
/-- What has ended refuses a read of a table without a look at the table. -/
theorem readTable_of_ended (h : t.state ≠ .active) (r : Repository ε) {α : Type} (table : String)
    (missing : α) (answer : UInt8 → Except StoreError α) :
    t.readTable r table missing answer = .error (.invalidOperation (.ended t.state)) := by
  unfold readTable
  rw [requireActive_of_ended h]

omit [StorageEngine ε] in
theorem rollback_of_ended (h : t.state ≠ .active) (r : Repository ε) :
    t.rollback r = (.error (.invalidOperation (.ended t.state)), t, r) := by
  unfold rollback
  rw [requireActive_of_ended h]

omit [StorageEngine ε] in
theorem drop_of_ended (h : t.state ≠ .active) (r : Repository ε) : t.drop r = r := by
  unfold drop
  rw [if_neg (fun hdirty => h hdirty.1)]
  dsimp only
  rw [rollback_of_ended h]

/-- A call asks for the state first, also where its value has no encoding. -/
theorem call_of_ended (h : t.state ≠ .active) (r : Repository ε) (c : Call) :
    c.run t r = (.error (.invalidOperation (.ended t.state)), t, r) := by
  have hw := requireWritable_of_ended h
  have hget : ∀ table key, t.get r table key = .error (.invalidOperation (.ended t.state)) :=
    fun table key => readTable_of_ended h r table none _
  cases c with
  | put table key value => exact Action.run_of_not_writable (a := .put table key value) rfl hw r
  | remove table key => exact Action.run_of_not_writable (a := .remove table key) rfl hw r
  | clear table => exact Action.run_of_not_writable (a := .clear table) rfl hw r
  | insert table key value =>
      cases value with
      | ok value => exact Action.run_of_not_writable (a := .put table key value) rfl hw r
      | error e =>
          unfold Call.run
          rw [hw]
          rfl
  | ensure table key expected =>
      cases expected with
      | ok expected =>
          show (t.ensure r table key expected, t, r) = _
          unfold ensure
          rw [hget]
      | error e =>
          unfold Call.run
          dsimp only
          rw [hget]
          rfl

/-- **What has ended refuses everything.** -/
theorem refuses_of_ended (h : t.state ≠ .active) (r : Repository ε) :
    t.Refuses r (.invalidOperation (.ended t.state)) where
  call := call_of_ended h r
  insert table _ key _ value := by
    rw [← Call.run_insert]
    exact call_of_ended h r _
  get table key := readTable_of_ended h r table none _
  contains table key := readTable_of_ended h r table false _
  getMany table keys := readTable_of_ended h r table _ _
  select table key s := by
    unfold select Transaction.get
    rw [readTable_of_ended h]
  selectMany table keys s := by
    unfold selectMany Transaction.getMany
    rw [readTable_of_ended h]
  count table := readTable_of_ended h r table 0 _
  scan table range order keysOnly := by
    unfold scan
    exact readTable_of_ended h r table _ _
  commit := commit_of_ended h r
  rollback := rollback_of_ended h r
  drop := drop_of_ended h r

/-! ## Ending -/

/-- Nothing that an ended transaction is told to do has an effect. Setting no rows is not refused,
for it asks for nothing. -/
theorem run_of_ended (h : t.state ≠ .active) (a : Action) (r : Repository ε) :
    (a.run t r).2 = (t, r) := by
  have hw := requireWritable_of_ended h
  cases a with
  | commit => exact congrArg Prod.snd (commit_of_ended h r)
  | rollback => exact congrArg Prod.snd (rollback_of_ended h r)
  | put table key value => exact congrArg Prod.snd (Action.run_of_not_writable rfl hw r)
  | remove table key => exact congrArg Prod.snd (Action.run_of_not_writable rfl hw r)
  | clear table => exact congrArg Prod.snd (Action.run_of_not_writable rfl hw r)
  | putAll table rows =>
      cases rows with
      | nil => rfl
      | cons row rest => exact congrArg Prod.snd (Action.run_of_not_writable rfl hw r)

/-- A commit ends a transaction if it succeeds, and only then. -/
theorem commit_of_active (h : t.state = .active) (r : Repository ε) :
    (t.commit r).1 = .ok () ∧ (t.commit r).2.1 = t.finished .committed
    ∨ (∃ e, (t.commit r).1 = .error e) ∧ (t.commit r).2.1.state = .active := by
  cases hmode : t.mode with
  | read =>
      rw [commit_of_read h hmode]
      exact Or.inl ⟨rfl, rfl⟩
  | readWrite =>
      by_cases hlock : t.CanLock r
      · rcases commit_cases h hmode hlock with ⟨e, _, hc⟩ | ⟨batch, _, hc⟩
        · rw [hc]
          exact Or.inr ⟨⟨e, rfl⟩, h⟩
        · rw [hc]
          exact Or.inl ⟨rfl, rfl⟩
      · obtain ⟨herror, hrest⟩ := commit_of_not_canLock h hmode hlock
        rw [hrest]
        exact Or.inr ⟨herror, h⟩

omit [StorageEngine ε] in
theorem rollback_of_active (h : t.state = .active) (r : Repository ε) :
    (t.rollback r).1 = .ok () ∧ (t.rollback r).2.1 = t.finished .rolledBack := by
  unfold rollback requireActive
  rw [h]
  exact ⟨rfl, rfl⟩

/-- **How an active transaction comes out of an action:** active, unless it was the action's
purpose to end it and it did. -/
theorem run_of_active (h : t.state = .active) (a : Action) (r : Repository ε) :
    (a.run t r).2.1.state = .active
    ∨ (a = .commit ∧ (t.commit r).1 = .ok () ∧ (a.run t r).2.1 = t.finished .committed)
    ∨ (a = .rollback ∧ (a.run t r).2.1 = t.finished .rolledBack) := by
  by_cases ha : a.isChange = true
  · rw [(onlyBuffer_run ha t r).same]
    exact Or.inl h
  · rcases Action.ends_of_not_isChange ha with rfl | rfl
    · rcases commit_of_active h r with ⟨hok, hended⟩ | ⟨_, hactive⟩
      · exact Or.inr (Or.inl ⟨rfl, hok, hended⟩)
      · exact Or.inl hactive
    · exact Or.inr (Or.inr ⟨rfl, (rollback_of_active h r).2⟩)

omit [StorageEngine ε] in
/-- To let a transaction go is to roll it back, after a report if there were changes. -/
theorem exists_rollback_of_drop (t : Transaction) (r : Repository ε) :
    ∃ q, t.drop r = (t.rollback q).2.2 := by
  unfold drop
  exact ⟨_, rfl⟩

omit [StorageEngine ε] in
theorem state_rollback (t : Transaction) (r : Repository ε) :
    (t.rollback r).2.1.state = if t.state = .active then .rolledBack else t.state := by
  by_cases h : t.state = .active
  · rw [(rollback_of_active h r).2, if_pos h]
    rfl
  · rw [rollback_of_ended h, if_neg h]

end Transaction

/-! ## The life of a transaction -/

/-- What a turn made of the transaction of a name, and in which state that left it. -/
inductive Session.Became (s : Session ε) (turn : Turn ε) (s' : Session ε) (name : String)
    (t : Transaction) : TransactionState → Prop where
  /-- It is there, and its state is what it was. -/
  | stayed {u : Transaction} (present : s'.transaction? name = some u) (state : u.state = t.state) :
      Became s turn s' name t t.state
  | committed (active : t.state = .active) (turn_eq : turn = .step name (.act .commit))
      (ok : (t.commit s.repo).1 = .ok ())
      (present : s'.transaction? name = some (t.finished .committed)) :
      Became s turn s' name t .committed
  | rolledBack (active : t.state = .active) (turn_eq : turn = .step name (.act .rollback))
      (present : s'.transaction? name = some (t.finished .rolledBack)) :
      Became s turn s' name t .rolledBack
  /-- It was let go, or another took its name, and that was its rollback. -/
  | letGo {q r : Repository ε}
      (turn_eq : turn = .step name .drop ∨ ∃ mode, turn = .step name (.begin mode))
      (repo : s'.repo = t.drop r) (drop : t.drop r = (t.rollback q).2.2) :
      Became s turn s' name t (t.rollback q).2.1.state

/-- **A transaction moves on, or it stays.** -/
theorem Session.Became.oneWay {s s' : Session ε} {turn : Turn ε} {name : String} {t : Transaction}
    {state : TransactionState} (hb : s.Became turn s' name t state) :
    state = t.state
    ∨ t.state = .active ∧ state = .committed ∧ turn = .step name (.act .commit)
      ∧ (t.commit s.repo).1 = .ok ()
    ∨ t.state = .active ∧ state = .rolledBack
      ∧ (turn = .step name (.act .rollback) ∨ turn = .step name .drop
        ∨ ∃ mode, turn = .step name (.begin mode)) := by
  cases hb with
  | stayed present state => exact Or.inl rfl
  | committed active turn_eq ok present => exact Or.inr (Or.inl ⟨active, rfl, turn_eq, ok⟩)
  | rolledBack active turn_eq present => exact Or.inr (Or.inr ⟨active, rfl, Or.inl turn_eq⟩)
  | letGo turn_eq repo drop =>
      rw [Transaction.state_rollback]
      by_cases h : t.state = .active
      · rw [if_pos h]
        exact Or.inr (Or.inr ⟨h, rfl, Or.inr turn_eq⟩)
      · rw [if_neg h]
        exact Or.inl rfl

namespace History

variable {h : History ε} {name : String} {t : Transaction}

/-- **Every turn makes something of every transaction,** and there is nothing else that it can
make of it. -/
theorem became_take (ht : h.session.transaction? name = some t) (turn : Turn ε) :
    ∃ state, h.session.Became turn (h.take turn).session name t state := by
  have htook := h.took_take turn
  generalize (h.take turn).session = s at htook
  cases htook with
  | nobody absent needed => exact ⟨_, .stayed ht rfl⟩
  | refused answer => exact ⟨_, .stayed ht rfl⟩
  | fault => exact ⟨_, .stayed ht rfl⟩
  | begun answer =>
      rename_i other mode u r
      by_cases hne : name = other
      · -- the name is another's from now on, and who had it is let go
        subst hne
        have hdrop : h.session.relieved name r = t.drop r := by
          unfold Session.relieved
          rw [ht]
        obtain ⟨q, hq⟩ := t.exists_rollback_of_drop r
        exact ⟨_, .letGo (Or.inr ⟨mode, rfl⟩) hdrop hq⟩
      · refine ⟨_, .stayed (u := t) ?_ rfl⟩
        rw [Session.transaction?_insert, if_neg hne]
        exact ht
  | acted present =>
      rename_i other a u
      by_cases hne : name = other
      · subst hne
        cases Option.some.inj (ht.symm.trans present)
        have hself := h.session.transaction?_insert (a.run t h.session.repo).2.2 name name
          (a.run t h.session.repo).2.1
        rw [if_pos rfl] at hself
        by_cases hactive : t.state = .active
        · rcases Transaction.run_of_active hactive a h.session.repo with
            hstill | ⟨rfl, hok, hended⟩ | ⟨rfl, hended⟩
          · exact ⟨_, .stayed hself (hstill.trans hactive.symm)⟩
          · exact ⟨_, .committed hactive rfl hok (hended ▸ hself)⟩
          · exact ⟨_, .rolledBack hactive rfl (hended ▸ hself)⟩
        · have hrun := congrArg Prod.fst (Transaction.run_of_ended hactive a h.session.repo)
          exact ⟨_, .stayed hself (congrArg Transaction.state hrun)⟩
      · refine ⟨_, .stayed (u := t) ?_ rfl⟩
        rw [Session.transaction?_insert, if_neg hne]
        exact ht
  | dropped present =>
      rename_i other u
      by_cases hne : name = other
      · subst hne
        cases Option.some.inj (ht.symm.trans present)
        obtain ⟨q, hq⟩ := t.exists_rollback_of_drop h.session.repo
        exact ⟨_, .letGo (Or.inl rfl) rfl hq⟩
      · refine ⟨_, .stayed (u := t) ?_ rfl⟩
        rw [Session.transaction?_erase, if_neg hne]
        exact ht

/-! ## What has ended -/

/-- **What has ended holds nothing,** neither changes nor the lock. -/
theorem empty_of_ended (hr : Reachable h) (ht : h.session.transaction? name = some t)
    (hended : t.state ≠ .active) : t.buffer = .empty ∧ t.holdsWriter = false := by
  induction hr generalizing name t with
  | opened opens => exact absurd ht (by simp [start, Session.transaction?])
  | resume _ ih => exact ih ht hended
  | turn before turn ih =>
      rename_i k
      cases cameFrom_take ht with
      | stayed present => exact ih present hended
      | began turn_eq answer =>
          exfalso
          rcases Transaction.begin_cases _ k.repo with ⟨e, r, hb, _⟩ | ⟨u, r, hb, _, _, hactive, _⟩
          · exact absurd (congrArg Prod.fst (hb.symm.trans answer)) (by simp)
          · have hsame := Except.ok.inj (congrArg Prod.fst (hb.symm.trans answer))
            exact hended (hsame ▸ hactive)
      | acted turn_eq present result =>
          rename_i a u
          by_cases hactive : u.state = .active
          · -- it ended just now, and gave everything up
            rcases Transaction.run_of_active hactive a k.repo with
              hstill | ⟨_, _, hfinished⟩ | ⟨_, hfinished⟩
            · exact absurd (result ▸ hstill) hended
            · rw [← result, hfinished]
              exact ⟨rfl, rfl⟩
            · rw [← result, hfinished]
              exact ⟨rfl, rfl⟩
          · have hrun := congrArg Prod.fst (Transaction.run_of_ended hactive a k.repo)
            rw [← result, hrun]
            exact ih present hactive

/-- An action of what has ended changes nothing at all. -/
theorem session_act_of_ended (ht : h.session.transaction? name = some t)
    (hended : t.state ≠ .active) (a : Action) :
    (h.take (.step name (.act a))).session = h.session := by
  have hrun := Transaction.run_of_ended hended a h.session.repo
  rw [session_take (Session.update?_some ht a), congrArg Prod.fst hrun, congrArg Prod.snd hrun,
    Session.transactions_insert_self ht]

theorem session_drop_of_ended (ht : h.session.transaction? name = some t)
    (hended : t.state ≠ .active) :
    (h.take (.step name .drop)).session = ⟨h.repo, h.session.transactions.erase name⟩ := by
  rw [session_take (Session.drop?_some ht), Transaction.drop_of_ended hended]
  rfl

/-- Whoever takes the name of what has ended begins as if the name had been free. -/
theorem repo_begin_of_ended (ht : h.session.transaction? name = some t)
    (hended : t.state ≠ .active) (mode : TransactionMode) :
    (h.take (.step name (.begin mode))).repo = (Transaction.begin mode h.repo).2 := by
  have hrelieved : ∀ r, h.session.relieved name r = r := by
    intro r
    unfold Session.relieved
    rw [ht]
    exact Transaction.drop_of_ended hended r
  have hbegin : h.session.step? name (.begin mode)
      = some ((h.session.begin name mode).1, (h.session.begin name mode).2) := rfl
  unfold repo
  rw [session_take hbegin]
  cases hb : Transaction.begin mode h.session.repo with
  | mk answer r =>
      cases answer with
      | error e => rw [Session.begin_error hb]
      | ok u =>
          rw [Session.begin_ok hb]
          exact hrelieved r

/-- **What has ended stays as it is,** for as long as it is there. -/
theorem Span.ended {k : History ε} (hs : Span name h k)
    (ht : h.session.transaction? name = some t) (hended : t.state ≠ .active) :
    k.session.transaction? name = some t ∨ k.session.transaction? name = none := by
  induction hs with
  | refl => exact Or.inl ht
  | @turn j _ turn goesOn ih =>
      cases hu : (j.take turn).session.transaction? name with
      | none => exact Or.inr rfl
      | some u =>
          have hsame : ∀ v, j.session.transaction? name = some v → v = t := by
            intro v hv
            rcases ih with hj | hj
            · exact Option.some.inj (hv.symm.trans hj)
            · exact absurd (hv.symm.trans hj) (by simp)
          refine Or.inl ?_
          cases cameFrom_take hu with
          | stayed present => rw [hsame u present]
          | began turn_eq answer => exact absurd ⟨_, _, _, turn_eq, answer⟩ goesOn
          | acted turn_eq present result =>
              rename_i a v
              cases hsame v present
              have hrun := congrArg Prod.fst (Transaction.run_of_ended hended a j.repo)
              rw [← result, hrun]

/--
**A transaction ends once.** Whatever the turn, the state of a transaction moves from active to
committed, by a commit of its own that succeeds, or from active to rolled back, by its rollback or
by being let go, or it does not move.

What has ended has nothing pending and does not hold the lock. It refuses every operation with every
argument, on this repository and on what becomes of it, and names its state in the refusal; it is
the same transaction for as long as it is there. An action of it changes neither the repository,
with its engine, its tables, its counts and its lock, nor any transaction. To let it go takes it out
and changes nothing else, and who takes its name begins as on a free one.
-/
theorem transaction_ends_once (hr : Reachable h) (ht : h.session.transaction? name = some t) :
    (∀ turn, ∃ state, h.session.Became turn (h.take turn).session name t state
      ∧ (state = t.state
        ∨ t.state = .active ∧ state = .committed ∧ turn = .step name (.act .commit)
          ∧ (t.commit h.repo).1 = .ok ()
        ∨ t.state = .active ∧ state = .rolledBack
          ∧ (turn = .step name (.act .rollback) ∨ turn = .step name .drop
            ∨ ∃ mode, turn = .step name (.begin mode))))
    ∧ (t.state ≠ .active →
      t.buffer = .empty ∧ t.holdsWriter = false
      ∧ (∀ r : Repository ε, t.Refuses r (.invalidOperation (.ended t.state)))
      ∧ (∀ k, Span name h k →
        k.session.transaction? name = some t ∨ k.session.transaction? name = none)
      ∧ (∀ a, (h.take (.step name (.act a))).session = h.session)
      ∧ (h.take (.step name .drop)).session = ⟨h.repo, h.session.transactions.erase name⟩
      ∧ ∀ mode, (h.take (.step name (.begin mode))).repo = (Transaction.begin mode h.repo).2) := by
  refine ⟨fun turn => ?_, fun hended => ?_⟩
  · obtain ⟨state, hb⟩ := became_take ht turn
    exact ⟨state, hb, hb.oneWay⟩
  · obtain ⟨hbuffer, hholds⟩ := empty_of_ended hr ht hended
    exact ⟨hbuffer, hholds, fun r => Transaction.refuses_of_ended hended r,
      fun k hs => hs.ended ht hended, session_act_of_ended ht hended,
      session_drop_of_ended ht hended, repo_begin_of_ended ht hended⟩

/-- A writer that committed at its second try, beside a reader that was rolled back. -/
theorem transaction_ends_once_second_try :
    let r : Repository MemoryEngine :=
      { engine := {}, registry := {}, config := {}
        events := [.repositoryOpened "memory" "data" 0] }
    let h := (start r).run [
      .step "q" (.begin .read), .step "q" (.act .rollback), .step "a" (.begin .readWrite),
      .step "a" (.act (.put "t" [1] [5])), .fault (fun e => e.failWritesAfter 0) (fun _ => rfl),
      .step "a" (.act .commit), .step "a" (.act .commit)]
    ∃ a q, h.session.transaction? "a" = some a ∧ h.session.transaction? "q" = some q
      ∧ a.state = .committed ∧ a.buffer = .empty ∧ q.state = .rolledBack
      ∧ a.commit h.repo = (.error (.invalidOperation (.ended .committed)), a, h.repo)
      ∧ a.getMany h.repo "u" [] = .error (.invalidOperation (.ended .committed))
      ∧ q.scan h.repo "t" ⟨.included [2], .excluded [1]⟩ .descending true
        = .error (.invalidOperation (.ended .rolledBack))
      ∧ (h.take (.step "a" (.act (.clear "u")))).session = h.session
      ∧ (h.take (.step "q" .drop)).repo = h.repo := by
  intro r h
  have hopened : Repository.onEngine ({} : MemoryEngine) {} = .ok r := rfl
  have hreach : Reachable h := (Reachable.opened hopened).run _
  have ha : (h.session.transaction? "a").map (fun t => t.state) = some .committed := by
    decide +kernel
  have hq : (h.session.transaction? "q").map (fun t => t.state) = some .rolledBack := by
    decide +kernel
  clear_value h
  obtain ⟨a, ha, hcommitted⟩ := Option.map_eq_some_iff.mp ha
  obtain ⟨q, hq, hrolledBack⟩ := Option.map_eq_some_iff.mp hq
  obtain ⟨hbuffer, _, hrefuses, _, hacts, _⟩ :=
    (transaction_ends_once hreach ha).2 (fun hactive => by simp [hcommitted] at hactive)
  obtain ⟨_, _, hrefuses', _, _, hdrop, _⟩ :=
    (transaction_ends_once hreach hq).2 (fun hactive => by simp [hrolledBack] at hactive)
  have hgone : (h.take (.step "q" .drop)).session.repo = h.repo := by rw [hdrop]
  refine ⟨a, q, ha, hq, hcommitted, hbuffer, hrolledBack, ?_, ?_, ?_, hacts (.clear "u"), hgone⟩
  · exact hcommitted ▸ (hrefuses h.repo).commit
  · exact hcommitted ▸ (hrefuses h.repo).getMany "u" []
  · exact hrolledBack ▸ (hrefuses' h.repo).scan "t" _ _ _

end History

end TableStore
