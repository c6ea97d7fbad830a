import TableStore.Proofs.Turns

/-!
# Who holds the writer lock

The lock is one flag of the repository. It does not say whose it is: that is on record with the
transactions, each of which knows whether it took the lock and has not given it back. The two
could drift apart. A transaction that gives back what it does not hold would free the lock of
somebody else, and one that is let go without giving it back would leave it taken for good.

They do not. A step of a transaction leaves the lock alone or gives the transaction's own hold
back, and there is nothing else that it can do (`Transaction.LockMove`); only a beginning takes
the lock, and only when it is free. So the flag is set exactly when somebody holds the lock, and
no two do (`Session.LockAccounts`).

A commit whose write failed is where this is easy to get wrong. It gives the lock back and the
transaction goes on, so from then on there is an active writer that holds nothing: its rollback
and its end must not free what others hold, and its next commit has to ask first.

No law of engines is used for any of this.
-/

namespace TableStore

variable {ε : Type} [StorageEngine ε]

/-! ## What moves the lock -/

namespace Repository

/-- The repository after a wait for the lock: one more wait is on record, and that is all. -/
def waited (r : Repository ε) : Repository ε :=
  { r with metrics.writerWait := r.metrics.writerWait.observe 0 }

omit [StorageEngine ε] in
theorem acquireWriter_of_held {r : Repository ε} (h : r.lockHeld = true) :
    r.acquireWriter
      = (.error (.lockTimeout ((r.config.writerWait.timeoutMs?.getD 0).toNat)), r.waited) := by
  unfold acquireWriter
  rw [if_pos h]
  rfl

omit [StorageEngine ε] in
theorem acquireWriter_of_free {r : Repository ε} (h : r.lockHeld = false) :
    r.acquireWriter = (.ok (), { r.waited with lockHeld := true }) := by
  unfold acquireWriter
  rw [if_neg (by simp [h])]
  rfl

end Repository

namespace Transaction

/-- What a step of a transaction did to the lock: nothing, or it gave its own hold back. -/
inductive LockMove (t : Transaction) (r : Repository ε) (t' : Transaction) (r' : Repository ε) :
    Prop where
  | kept (lock : r'.lockHeld = r.lockHeld) (holds : t'.holdsWriter = t.holdsWriter)
    (same : t'.holdsWriter = true → t'.state = t.state ∧ t'.mode = t.mode)
  | freed (held : t.holdsWriter = true) (lock : r'.lockHeld = false)
    (holds : t'.holdsWriter = false)

/-- A hold on the lock is an active writer's. -/
def Guarded (t : Transaction) : Prop :=
  t.holdsWriter = true → t.state = .active ∧ t.mode = .readWrite

omit [StorageEngine ε] in
theorem OnlyBuffer.lockMove {t t' : Transaction} {r r' : Repository ε}
    (h : OnlyBuffer t r t' r') : LockMove t r t' r' := by
  refine .kept h.lock ?_ (fun _ => ⟨?_, ?_⟩) <;> rw [h.same]

omit [StorageEngine ε] in
theorem lockMove_release (t : Transaction) (r : Repository ε) (state : TransactionState) :
    LockMove t r (t.finished state) (t.release r) := by
  unfold release
  by_cases hh : t.holdsWriter = true
  · rw [if_pos hh]
    exact .freed hh rfl rfl
  · rw [if_neg hh]
    exact .kept rfl (Bool.eq_false_iff.mpr hh).symm (fun h => absurd h (by simp [finished]))

/-- A commit gives back the lock that it held or took, however the write ends. -/
theorem lockMove_commit (t : Transaction) (r : Repository ε) :
    LockMove t r (t.commit r).2.1 (t.commit r).2.2 := by
  unfold commit
  split
  · exact .kept rfl rfl (fun _ => ⟨rfl, rfl⟩)
  · split
    · exact t.lockMove_release r .committed
    · by_cases hh : t.holdsWriter = true
      · rw [if_pos hh]
        dsimp only
        split <;> exact .freed hh rfl rfl
      · have hno : t.holdsWriter = false := Bool.eq_false_iff.mpr hh
        rw [if_neg hh]
        cases hheld : r.lockHeld with
        | true =>
            rw [Repository.acquireWriter_of_held hheld]
            exact .kept rfl rfl (fun _ => ⟨rfl, rfl⟩)
        | false =>
            -- the lock was free, was taken for the write, and is free again
            rw [Repository.acquireWriter_of_free hheld]
            dsimp only
            split <;> exact .kept hheld.symm hno.symm (fun h => absurd h (by simp [finished]))

omit [StorageEngine ε] in
theorem lockMove_rollback (t : Transaction) (r : Repository ε) :
    LockMove t r (t.rollback r).2.1 (t.rollback r).2.2 := by
  unfold rollback
  split
  · exact .kept rfl rfl (fun _ => ⟨rfl, rfl⟩)
  · cases t.lockMove_release r .rolledBack with
    | kept lock holds same => exact .kept lock holds same
    | freed held lock holds => exact .freed held lock holds

theorem lockMove_run (a : Action) (t : Transaction) (r : Repository ε) :
    LockMove t r (a.run t r).2.1 (a.run t r).2.2 := by
  cases a with
  | commit => exact t.lockMove_commit r
  | rollback => exact t.lockMove_rollback r
  | put table key value => exact (onlyBuffer_run rfl t r).lockMove
  | putAll table rows => exact (onlyBuffer_run rfl t r).lockMove
  | remove table key => exact (onlyBuffer_run rfl t r).lockMove
  | clear table => exact (onlyBuffer_run rfl t r).lockMove

omit [StorageEngine ε] in
/-- Who is let go gives back what it holds, and what it does not hold it leaves alone. -/
theorem lockHeld_drop {t : Transaction} (h : t.Guarded) (r : Repository ε) :
    (t.drop r).lockHeld = if t.holdsWriter then false else r.lockHeld := by
  have hroll : ∀ q : Repository ε,
      (t.rollback q).2.2.lockHeld = if t.holdsWriter then false else q.lockHeld := by
    intro q
    unfold rollback release
    by_cases hh : t.holdsWriter = true
    · -- a hold is an active writer's, so the rollback is not refused
      unfold requireActive
      rw [(h hh).1, if_pos hh, if_pos hh]
      rfl
    · rw [if_neg hh, if_neg hh]
      split <;> rfl
  unfold drop
  dsimp only
  split
  · exact hroll _
  · exact hroll r

theorem begin_readWrite_of_held {r : Repository ε} (h : r.lockHeld = true) :
    begin .readWrite r
      = (.error (.lockTimeout ((r.config.writerWait.timeoutMs?.getD 0).toNat)), r.waited) := by
  unfold begin
  rw [Repository.acquireWriter_of_held h]

theorem begin_readWrite_of_free {r : Repository ε} (h : r.lockHeld = false) :
    begin .readWrite r = (.ok { mode := .readWrite, holdsWriter := true },
      { r.waited with lockHeld := true }.report .writeStarted) := by
  unfold begin
  rw [Repository.acquireWriter_of_free h]

/-- A reader begins without a look at the lock. -/
theorem begin_read_lock (r : Repository ε) :
    (begin .read r).2 = r ∧ ∀ t, (begin .read r).1 = .ok t → t.holdsWriter = false := by
  unfold begin
  dsimp only
  split
  · split
    · exact ⟨rfl, fun t ht => absurd ht (by simp)⟩
    · exact ⟨rfl, fun t ht => Except.ok.inj ht ▸ rfl⟩
    · exact ⟨rfl, fun t ht => Except.ok.inj ht ▸ rfl⟩
  · exact ⟨rfl, fun t ht => Except.ok.inj ht ▸ rfl⟩

/-- A begin that is refused moves no lock. -/
theorem lockHeld_of_begin_error {mode : TransactionMode} {r r' : Repository ε} {e : StoreError}
    (h : begin mode r = (.error e, r')) : r'.lockHeld = r.lockHeld := by
  cases mode with
  | read =>
      have hr : r' = r := (congrArg Prod.snd h).symm.trans (begin_read_lock r).1
      rw [hr]
  | readWrite =>
      cases hheld : r.lockHeld with
      | true =>
          rw [begin_readWrite_of_held hheld] at h
          rw [← (Prod.mk.inj h).2]
          exact hheld
      | false =>
          rw [begin_readWrite_of_free hheld] at h
          exact absurd (congrArg Prod.fst h) (by simp)

/-- What a begin did to the lock: nothing, or it took the lock that was free. -/
inductive BeginMove (r : Repository ε) (t : Transaction) (r' : Repository ε) : Prop where
  | without (lock : r'.lockHeld = r.lockHeld) (holds : t.holdsWriter = false)
  | taken (free : r.lockHeld = false) (lock : r'.lockHeld = true) (holds : t.holdsWriter = true)
    (active : t.state = .active) (writes : t.mode = .readWrite)

theorem beginMove_of_ok {mode : TransactionMode} {r r' : Repository ε} {t : Transaction}
    (h : begin mode r = (.ok t, r')) : BeginMove r t r' := by
  cases mode with
  | read =>
      have hr : r' = r := (congrArg Prod.snd h).symm.trans (begin_read_lock r).1
      exact .without (by rw [hr]) ((begin_read_lock r).2 t (congrArg Prod.fst h))
  | readWrite =>
      cases hheld : r.lockHeld with
      | true =>
          rw [begin_readWrite_of_held hheld] at h
          exact absurd (congrArg Prod.fst h) (by simp)
      | false =>
          rw [begin_readWrite_of_free hheld] at h
          obtain ⟨ht, hr⟩ := Prod.mk.inj h
          rw [← Except.ok.inj ht, ← hr]
          exact .taken hheld rfl rfl rfl rfl

end Transaction

/-! ## The account -/

namespace Session

omit [StorageEngine ε]

/-- The transaction of a name holds the writer lock. -/
def Owns (s : Session ε) (name : String) : Prop :=
  ∃ t, s.transaction? name = some t ∧ t.holdsWriter = true

/-- The flag of the lock against what the transactions have on record. -/
structure LockAccounts (s : Session ε) : Prop where
  held_iff : s.repo.lockHeld = true ↔ ∃ name, s.Owns name
  unique {a b : String} : s.Owns a → s.Owns b → a = b
  guarded {name : String} {t : Transaction} : s.transaction? name = some t → t.Guarded

theorem owns_insert {s : Session ε} {r : Repository ε} {name other : String} {t : Transaction} :
    Owns ⟨r, s.transactions.insert name t⟩ other
      ↔ if other = name then t.holdsWriter = true else s.Owns other := by
  unfold Owns
  rw [transaction?_insert]
  by_cases hne : other = name
  · rw [if_pos hne, if_pos hne]
    simp
  · rw [if_neg hne, if_neg hne]

theorem owns_erase {s : Session ε} {r : Repository ε} {name other : String} :
    Owns ⟨r, s.transactions.erase name⟩ other ↔ other ≠ name ∧ s.Owns other := by
  unfold Owns
  rw [transaction?_erase]
  by_cases hne : other = name
  · rw [if_pos hne]
    simp [hne]
  · rw [if_neg hne]
    simp [hne]

theorem owns_iff {s : Session ε} {name : String} {t : Transaction}
    (ht : s.transaction? name = some t) : s.Owns name ↔ t.holdsWriter = true := by
  unfold Owns
  rw [ht]
  simp

namespace LockAccounts

variable {s : Session ε}

/-- While the lock is free nobody holds it. -/
theorem not_owns (hs : s.LockAccounts) (hfree : s.repo.lockHeld = false) (name : String) :
    ¬ s.Owns name := by
  intro ho
  rw [hs.held_iff.mpr ⟨name, ho⟩] at hfree
  exact absurd hfree (by simp)

/-- An account where the flag and the holds are as before. -/
theorem congr (hs : s.LockAccounts) {s' : Session ε} (hlock : s'.repo.lockHeld = s.repo.lockHeld)
    (howns : ∀ name, s'.Owns name ↔ s.Owns name)
    (hguarded : ∀ name t, s'.transaction? name = some t → t.Guarded) : s'.LockAccounts where
  held_iff := by rw [hlock, hs.held_iff]; simp only [howns]
  unique ha hb := hs.unique ((howns _).mp ha) ((howns _).mp hb)
  guarded {name t} ht := hguarded name t ht

/-- An account of a free lock. -/
theorem free {s' : Session ε} (hlock : s'.repo.lockHeld = false) (hno : ∀ name, ¬ s'.Owns name)
    (hguarded : ∀ name t, s'.transaction? name = some t → t.Guarded) : s'.LockAccounts where
  held_iff := by
    rw [hlock]
    exact ⟨fun h => absurd h (by simp), fun ⟨name, ho⟩ => absurd ho (hno name)⟩
  unique {a b} ha _ := absurd ha (hno a)
  guarded {name t} ht := hguarded name t ht

/-- Those that were there, and one that took its place, hold the lock as active writers. -/
theorem guarded_insert (hs : s.LockAccounts) {r : Repository ε} {name : String} {t : Transaction}
    (ht : t.Guarded) (other : String) (u : Transaction)
    (hu : (Session.mk r (s.transactions.insert name t)).transaction? other = some u) :
    u.Guarded := by
  rw [transaction?_insert] at hu
  by_cases hne : other = name
  · rw [if_pos hne] at hu
    exact Option.some.inj hu ▸ ht
  · rw [if_neg hne] at hu
    exact hs.guarded hu

theorem guarded_erase (hs : s.LockAccounts) {r : Repository ε} {name : String} (other : String)
    (u : Transaction)
    (hu : (Session.mk r (s.transactions.erase name)).transaction? other = some u) :
    u.Guarded := by
  rw [transaction?_erase] at hu
  by_cases hne : other = name
  · rw [if_pos hne] at hu
    exact absurd hu (by simp)
  · rw [if_neg hne] at hu
    exact hs.guarded hu

variable {name : String} {t t' : Transaction} {r' : Repository ε}

/-- A transaction that worked moved the lock for itself at most. -/
theorem move (hs : s.LockAccounts) (ht : s.transaction? name = some t)
    (hm : t.LockMove s.repo t' r') : LockAccounts ⟨r', s.transactions.insert name t'⟩ := by
  have hself := owns_iff ht
  cases hm with
  | kept lock holds same =>
      have hguarded : t'.Guarded := by
        intro hh
        obtain ⟨hstate, hmode⟩ := same hh
        obtain ⟨hactive, hwrites⟩ := hs.guarded ht (holds ▸ hh)
        exact ⟨hstate.trans hactive, hmode.trans hwrites⟩
      refine hs.congr lock (fun other => ?_) (hs.guarded_insert hguarded)
      rw [owns_insert]
      by_cases hne : other = name
      · rw [if_pos hne, hne, hself, holds]
      · rw [if_neg hne]
  | freed held lock holds =>
      -- the hold was the only one, so after it nobody has any
      have hno : t'.holdsWriter ≠ true := by simp [holds]
      refine free lock (fun other ho => ?_) (hs.guarded_insert (fun hh => absurd hh hno))
      rw [owns_insert] at ho
      by_cases hne : other = name
      · rw [if_pos hne] at ho
        exact hno ho
      · rw [if_neg hne] at ho
        exact hne (hs.unique ho (hself.mpr held))

/-- A transaction that is let go takes its hold with it. -/
theorem part (hs : s.LockAccounts) (ht : s.transaction? name = some t) :
    LockAccounts ⟨t.drop s.repo, s.transactions.erase name⟩ := by
  have hlock := Transaction.lockHeld_drop (hs.guarded ht) s.repo
  by_cases hh : t.holdsWriter = true
  · rw [if_pos hh] at hlock
    refine free hlock (fun other ho => ?_) hs.guarded_erase
    obtain ⟨hne, ho⟩ := owns_erase.mp ho
    exact hne (hs.unique ho ((owns_iff ht).mpr hh))
  · rw [if_neg hh] at hlock
    refine hs.congr hlock (fun other => ?_) hs.guarded_erase
    rw [owns_erase]
    refine and_iff_right_of_imp (fun ho he => hh ?_)
    exact (owns_iff ht).mp (he ▸ ho)

/-- The lock once the transaction that had a name is let go. -/
theorem lockHeld_relieved (hs : s.LockAccounts) (name : String) (r : Repository ε) :
    (s.relieved name r).lockHeld = true ↔ r.lockHeld = true ∧ ¬ s.Owns name := by
  unfold relieved
  cases ht : s.transaction? name with
  | none =>
      have hno : ¬ s.Owns name := by
        rintro ⟨t, hsome, _⟩
        rw [ht] at hsome
        exact absurd hsome (by simp)
      exact (and_iff_left hno).symm
  | some t =>
      dsimp only
      rw [Transaction.lockHeld_drop (hs.guarded ht), owns_iff ht]
      cases t.holdsWriter <;> simp

/-- A begin that succeeds takes the lock that is free, or does not look at it. -/
theorem begun (hs : s.LockAccounts) (hm : Transaction.BeginMove s.repo t r') :
    LockAccounts ⟨s.relieved name r', s.transactions.insert name t⟩ := by
  have hlock := hs.lockHeld_relieved name r'
  cases hm with
  | without lock holds =>
      have hguarded : t.Guarded := fun hh => absurd hh (by simp [holds])
      have howns : ∀ other, Owns ⟨s.relieved name r', s.transactions.insert name t⟩ other
          ↔ other ≠ name ∧ s.Owns other := by
        intro other
        rw [owns_insert]
        by_cases hne : other = name <;> simp [hne, holds]
      refine ⟨?_, fun ha hb => hs.unique ((howns _).mp ha).2 ((howns _).mp hb).2,
        fun ht => hs.guarded_insert hguarded _ _ ht⟩
      -- the one who holds the lock is still there unless it had the name
      rw [hlock, lock, hs.held_iff]
      simp only [howns]
      constructor
      · rintro ⟨⟨other, ho⟩, hno⟩
        exact ⟨other, fun he => hno (he ▸ ho), ho⟩
      · rintro ⟨other, hne, ho⟩
        exact ⟨⟨other, ho⟩, fun hself => hne (hs.unique ho hself)⟩
  | taken free lock holds active writes =>
      have hno := hs.not_owns free
      have howns : ∀ other, Owns ⟨s.relieved name r', s.transactions.insert name t⟩ other
          ↔ other = name := by
        intro other
        rw [owns_insert]
        by_cases hne : other = name
        · simp [hne, holds]
        · simp [hne, hno other]
      refine ⟨?_, fun ha hb => ((howns _).mp ha).trans ((howns _).mp hb).symm,
        fun ht => hs.guarded_insert (fun _ => ⟨active, writes⟩) _ _ ht⟩
      simp only [howns]
      exact ⟨fun _ => ⟨name, rfl⟩, fun _ => hlock.mpr ⟨lock, hno name⟩⟩

end LockAccounts

end Session

namespace History

variable {h : History ε}

/-- **Every turn keeps the account.** -/
theorem lockAccounts_take (hs : h.session.LockAccounts) (turn : Turn ε) :
    (h.take turn).session.LockAccounts := by
  have htook := h.took_take turn
  generalize (h.take turn).session = s at htook
  cases htook with
  | nobody absent needed => exact hs
  | refused answer =>
      exact hs.congr (Transaction.lockHeld_of_begin_error answer) (fun _ => Iff.rfl)
        (fun _ _ ht => hs.guarded ht)
  | begun answer => exact hs.begun (Transaction.beginMove_of_ok answer)
  | acted present => exact hs.move present (Transaction.lockMove_run _ _ _)
  | dropped present => exact hs.part present
  | fault => exact hs.congr rfl (fun _ => Iff.rfl) (fun _ _ ht => hs.guarded ht)

/-- **The account holds in every history.** -/
theorem lockAccounts_of_reachable (hr : Reachable h) : h.session.LockAccounts := by
  induction hr with
  | opened hopen =>
      refine .free ?_ (fun name => ?_) (fun name t ht => ?_)
      · unfold Repository.onEngine at hopen
        split at hopen
        · exact absurd hopen (by simp)
        · rw [← Except.ok.inj hopen]
          rfl
      · rintro ⟨t, ht, _⟩
        exact absurd ht (by simp [start, Session.transaction?])
      · exact absurd ht (by simp [start, Session.transaction?])
  | turn _ turn ih => exact lockAccounts_take ih turn
  | resume _ ih => exact ih

/-! ## Who may free the lock -/

variable {name : String} {turn : Turn ε}

/-- Who holds nothing gets nothing but by a begin. -/
theorem not_owns_take (hno : ¬ h.session.Owns name) (hstays : ¬ h.Begins name turn) :
    ¬ (h.take turn).session.Owns name := by
  rintro ⟨u, hu, hh⟩
  cases cameFrom_take hu with
  | stayed present => exact hno ⟨u, present, hh⟩
  | began turn_eq answer => exact hstays ⟨_, _, _, turn_eq, answer⟩
  | acted turn_eq present result =>
      rename_i a t
      cases Transaction.lockMove_run a t h.repo with
      | kept lock holds same => exact hno ⟨t, present, holds.symm.trans (result ▸ hh)⟩
      | freed held lock holds => exact hno ⟨t, present, held⟩

theorem Span.not_owns {k : History ε} (hs : Span name h k) (hno : ¬ h.session.Owns name) :
    ¬ k.session.Owns name := by
  induction hs with
  | refl => exact hno
  | turn _ turn stays ih => exact not_owns_take ih stays

/-- Who holds nothing leaves the lock, and everyone's hold on it, as they are. -/
theorem lock_take_of_not_owns (hs : h.session.LockAccounts) (hno : ¬ h.session.Owns name)
    {step : Step} (hstep : ∀ mode, step ≠ .begin mode) :
    (h.take (.step name step)).repo.lockHeld = h.repo.lockHeld
      ∧ ∀ other, (h.take (.step name step)).session.Owns other ↔ h.session.Owns other := by
  have htook := h.took_take (.step name step)
  unfold repo
  generalize (h.take (.step name step)).session = s at htook
  cases htook with
  | nobody absent needed => exact ⟨rfl, fun _ => Iff.rfl⟩
  | refused answer => exact absurd rfl (hstep _)
  | begun answer => exact absurd rfl (hstep _)
  | acted present =>
      have hself := Session.owns_iff present
      cases Transaction.lockMove_run _ _ h.session.repo with
      | freed held lock holds => exact absurd (hself.mpr held) hno
      | kept lock holds same =>
          refine ⟨lock, fun other => ?_⟩
          rw [Session.owns_insert]
          split
          · rename_i he
            rw [he, hself, holds]
          · rfl
  | dropped present =>
      have hself := Session.owns_iff present
      refine ⟨?_, fun other => ?_⟩
      · rw [Transaction.lockHeld_drop (hs.guarded present), if_neg (fun hh => hno (hself.mpr hh))]
      · rw [Session.owns_erase]
        exact and_iff_right_of_imp (fun ho he => hno (he ▸ ho))

end History

namespace Transaction

variable {t t' : Transaction} {r r' : Repository ε}

omit [StorageEngine ε] in
theorem LockMove.lock_free (hm : LockMove t r t' r') (hh : t.holdsWriter = true)
    (hno : t'.holdsWriter = false) : r'.lockHeld = false := by
  cases hm with
  | kept lock holds same =>
      rw [holds, hh] at hno
      exact absurd hno (by simp)
  | freed held lock holds => exact lock

/-- A holder that commits holds nothing afterwards, whether the write succeeded or not. -/
theorem not_holds_commit (ht : t.Guarded) (hh : t.holdsWriter = true) (r : Repository ε) :
    (t.commit r).2.1.holdsWriter = false := by
  obtain ⟨hactive, hmode⟩ := ht hh
  rcases commit_cases (r := r) hactive hmode (Or.inl hh) with ⟨e, _, hc⟩ | ⟨batch, _, hc⟩
  · rw [hc]
  · rw [hc]
    rfl

omit [StorageEngine ε] in
theorem not_holds_rollback (ht : t.Guarded) (hh : t.holdsWriter = true) (r : Repository ε) :
    (t.rollback r).2.1.holdsWriter = false := by
  unfold rollback requireActive
  rw [(ht hh).1]
  rfl

end Transaction

/-- Whether a step ends the transaction that takes it, or means to. -/
def Step.isEnding : Step → Bool
  | .act .commit | .act .rollback | .drop => true
  | _ => false

/-- A holder that ends, or means to, gives the lock back. -/
theorem History.lock_take_of_owns {h : History ε} {name : String} {step : Step}
    (hs : h.session.LockAccounts) (ho : h.session.Owns name) (hstep : step.isEnding = true) :
    (h.take (.step name step)).repo.lockHeld = false
      ∧ ¬ (h.take (.step name step)).session.Owns name := by
  obtain ⟨t, ht, hh⟩ := ho
  have hguarded := hs.guarded ht
  have htook := h.took_take (.step name step)
  unfold repo
  generalize (h.take (.step name step)).session = s at htook
  cases htook with
  | nobody absent needed =>
      rw [ht] at absent
      exact absurd absent (by simp)
  | refused answer => exact absurd hstep (by simp [Step.isEnding])
  | begun answer => exact absurd hstep (by simp [Step.isEnding])
  | acted present =>
      rename_i a u
      cases Option.some.inj (ht.symm.trans present)
      have hno : (a.run t h.session.repo).2.1.holdsWriter = false := by
        cases a with
        | commit => exact Transaction.not_holds_commit hguarded hh _
        | rollback => exact Transaction.not_holds_rollback hguarded hh _
        | put table key value => exact absurd hstep (by simp [Step.isEnding])
        | putAll table rows => exact absurd hstep (by simp [Step.isEnding])
        | remove table key => exact absurd hstep (by simp [Step.isEnding])
        | clear table => exact absurd hstep (by simp [Step.isEnding])
      refine ⟨(Transaction.lockMove_run a t _).lock_free hh hno, ?_⟩
      rw [Session.owns_insert, if_pos rfl, hno]
      exact Bool.false_ne_true
  | dropped present =>
      rw [Transaction.lockHeld_drop (hs.guarded present)]
      cases Option.some.inj (ht.symm.trans present)
      exact ⟨if_pos hh, fun ho => (Session.owns_erase.mp ho).1 rfl⟩

end TableStore
