import TableStore.Proofs.Endings
import TableStore.Proofs.Lock

/-!
# What the counters count

A repository counts as it goes, each figure at the places of its own: a commit that succeeds and its
duration, a commit that fails, a rollback, a wait for the lock, a new table. That the figures are
right is about whole runs: nothing that happened is missed or counted twice, on any of the ways
through failed commits, commits tried again, and transactions that are let go.

What happened is read off the transactions and the answers, without a look at the figures
(`History.happenings`). A turn moves the figures by what happened in it (`Repository.Counted`), so a
run moves them by all that happened in it, and a repository opens with none.

Of the writers there is a second account (`Session.Balanced`), which does not need the figures. One
that begins is open, and it stays so until it commits or is rolled back. A commit that fails leaves
it open, and so does one that could not have the lock.

No law of engines is used for any of this.
-/

namespace TableStore

variable {ε : Type} [StorageEngine ε]

/-! ## What happened -/

/-- Something that happened in a turn, as far as counters care. -/
inductive Happening where
  /-- A writer tried to begin, and asked for the lock. -/
  | asked
  | begun (mode : TransactionMode)
  /-- A writer without a hold on the lock tried to commit, and asked for it again. -/
  | askedAgain
  | committed
  /-- A writer had the lock, and its commit failed. -/
  | failed
  /-- A transaction was rolled back, or let go while it was active. -/
  | rolledBack (mode : TransactionMode)
  deriving DecidableEq, Repr

namespace Transaction

omit [StorageEngine ε] in
instance (t : Transaction) (r : Repository ε) : Decidable (t.CanLock r) :=
  inferInstanceAs (Decidable (_ ∨ _))

/-- What happens when a transaction is rolled back or let go. -/
def ending (t : Transaction) : List Happening :=
  if t.state = .active then [.rolledBack t.mode] else []

/-- What happens when a transaction commits. The commit of a reader does nothing that is counted. -/
def committing (t : Transaction) (r : Repository ε) : List Happening :=
  if t.state = .active ∧ t.mode = .readWrite then
    (if t.holdsWriter then [] else [.askedAgain])
      ++ match (t.commit r).1 with
        | .ok () => [.committed]
        | .error _ => if t.CanLock r then [.failed] else []
  else []

/-- What happens when a transaction acts. -/
def acting (t : Transaction) (r : Repository ε) : Action → List Happening
  | .commit => t.committing r
  | .rollback => t.ending
  | _ => []

end Transaction

namespace Session

/-- What happens when whoever has a name is rolled back or let go. -/
def ending (s : Session ε) (name : String) : List Happening :=
  match s.transaction? name with
  | some t => t.ending
  | none => []

/-- What happens in a turn. -/
def happened (s : Session ε) : Turn ε → List Happening
  | .step name (.begin mode) =>
    (if mode = .readWrite then [.asked] else [])
      ++ match (Transaction.begin mode s.repo).1 with
        | .ok _ => .begun mode :: s.ending name
        | .error _ => []
  | .step name (.act a) =>
    match s.transaction? name with
    | some t => t.acting s.repo a
    | none => []
  | .step name .drop => s.ending name
  | .fault _ _ => []

section Happened

variable {s : Session ε} {name : String}

omit [StorageEngine ε] in
theorem ending_some {t : Transaction} (h : s.transaction? name = some t) :
    s.ending name = t.ending := by
  unfold ending
  rw [h]

omit [StorageEngine ε] in
theorem ending_none (h : s.transaction? name = none) : s.ending name = [] := by
  unfold ending
  rw [h]

theorem happened_nobody {step : Step} (h : s.transaction? name = none)
    (hneeded : ∀ mode, step ≠ .begin mode) : s.happened (.step name step) = [] := by
  cases step with
  | begin mode => exact absurd rfl (hneeded mode)
  | act a =>
      unfold happened
      dsimp only
      rw [h]
  | drop => exact ending_none h

theorem happened_refused {mode : TransactionMode} {e : StoreError} {r : Repository ε}
    (h : Transaction.begin mode s.repo = (.error e, r)) :
    s.happened (.step name (.begin mode)) = if mode = .readWrite then [.asked] else [] := by
  unfold happened
  dsimp only
  rw [h]
  exact List.append_nil _

theorem happened_begun {mode : TransactionMode} {t : Transaction} {r : Repository ε}
    (h : Transaction.begin mode s.repo = (.ok t, r)) :
    s.happened (.step name (.begin mode))
      = (if mode = .readWrite then [.asked] else []) ++ [.begun mode] ++ s.ending name := by
  unfold happened
  dsimp only
  rw [h, List.append_assoc]
  rfl

theorem happened_acted {a : Action} {t : Transaction} (h : s.transaction? name = some t) :
    s.happened (.step name (.act a)) = t.acting s.repo a := by
  unfold happened
  dsimp only
  rw [h]

end Happened

end Session

/-- What happens in a run. -/
def History.happenings (h : History ε) : List (Turn ε) → List Happening
  | [] => []
  | turn :: rest => h.session.happened turn ++ (h.take turn).happenings rest

/-! ## The figures -/

/-- The figures moved by what happened. -/
structure Repository.Counted (r r' : Repository ε) (log : List Happening) : Prop where
  commits : r'.metrics.commits = r.metrics.commits + log.count .committed
  durations :
    r'.metrics.commitDuration.count = r.metrics.commitDuration.count + log.count .committed
  failures : r'.metrics.failures = r.metrics.failures + log.count .failed
  rollbacks : r'.metrics.rollbacks
    = r.metrics.rollbacks + (log.count (.rolledBack .read) + log.count (.rolledBack .readWrite))
  waits : r'.metrics.writerWait.count
    = r.metrics.writerWait.count + (log.count .asked + log.count .askedAgain)
  tables : r.metrics.tables = r.registry.size → r'.metrics.tables = r'.registry.size

namespace Repository

section Plain

omit [StorageEngine ε]

variable {r r' r'' : Repository ε} {log log' : List Happening}

theorem Counted.refl (r : Repository ε) : Counted r r [] := ⟨rfl, rfl, rfl, rfl, rfl, id⟩

theorem Counted.trans (h : Counted r r' log) (h' : Counted r' r'' log') :
    Counted r r'' (log ++ log') where
  commits := by rw [h'.commits, h.commits, List.count_append]; omega
  durations := by rw [h'.durations, h.durations, List.count_append]; omega
  failures := by rw [h'.failures, h.failures, List.count_append]; omega
  rollbacks := by
    rw [h'.rollbacks, h.rollbacks, List.count_append, List.count_append]
    omega
  waits := by
    rw [h'.waits, h.waits, List.count_append, List.count_append]
    omega
  tables := fun hr => h'.tables (h.tables hr)

/-- A wait for the lock is counted, whoever waits and however it ends. -/
theorem counted_acquireWriter {e : Happening} (he : e = .asked ∨ e = .askedAgain) :
    Counted r r.acquireWriter.2 [e] := by
  unfold acquireWriter
  rcases he with rfl | rfl
  · split <;> exact ⟨rfl, rfl, rfl, rfl, rfl, id⟩
  · split <;> exact ⟨rfl, rfl, rfl, rfl, rfl, id⟩

theorem counted_noteCommit (r : Repository ε) (puts deletes cleared : Nat) :
    Counted r (r.noteCommit puts deletes cleared) [.committed] := ⟨rfl, rfl, rfl, rfl, rfl, id⟩

theorem counted_noteFailure (r : Repository ε) (cause : StoreError) :
    Counted r (r.noteFailure cause) [.failed] := ⟨rfl, rfl, rfl, rfl, rfl, id⟩

theorem counted_noteRollback (r : Repository ε) (mode : TransactionMode) :
    Counted r (r.noteRollback mode) [.rolledBack mode] := by
  cases mode <;> exact ⟨rfl, rfl, rfl, rfl, rfl, id⟩

/-- That a transaction has begun is not counted, but for the wait. -/
theorem counted_begun (r : Repository ε) (mode : TransactionMode) :
    Counted r r [.begun mode] := by
  cases mode <;> exact ⟨rfl, rfl, rfl, rfl, rfl, id⟩

/-- To give the lock back is not counted, nor is a report. -/
theorem counted_releaseWriter (r : Repository ε) : Counted r r.releaseWriter [] :=
  ⟨rfl, rfl, rfl, rfl, rfl, id⟩

theorem counted_report (r : Repository ε) (e : Event) : Counted r (r.report e) [] :=
  ⟨rfl, rfl, rfl, rfl, rfl, id⟩

end Plain

theorem counted_openTable (r : Repository ε) (name : String) :
    Counted r (r.openTable name).2 [] := by
  unfold openTable
  split
  · exact .refl r
  · exact .refl r
  · split
    · exact ⟨rfl, rfl, rfl, rfl, rfl, id⟩
    · exact ⟨rfl, rfl, rfl, rfl, rfl, fun _ => rfl⟩

theorem counted_writeBuffer (r : Repository ε) (b : WriteBuffer) :
    Counted r (r.writeBuffer b).2 [] := by
  unfold writeBuffer
  split
  · exact .refl r
  · split
    · exact .refl r
    · split <;> exact ⟨rfl, rfl, rfl, rfl, rfl, id⟩

end Repository

/-! ## What a transaction does to the figures -/

namespace Transaction

open Repository (Counted)

omit [StorageEngine ε] in
theorem counted_release (t : Transaction) (r : Repository ε) : Counted r (t.release r) [] := by
  unfold release
  split
  · exact r.counted_releaseWriter
  · exact .refl r

omit [StorageEngine ε] in
theorem counted_rollback (t : Transaction) (r : Repository ε) :
    Counted r (t.rollback r).2.2 t.ending := by
  unfold ending
  by_cases h : t.state = .active
  · rw [if_pos h]
    have hrolled : (t.rollback r).2.2 = (t.release r).noteRollback t.mode := by
      unfold rollback requireActive
      rw [h]
    rw [hrolled]
    exact (t.counted_release r).trans ((t.release r).counted_noteRollback t.mode)
  · rw [if_neg h, rollback_of_ended h]
    exact .refl r

omit [StorageEngine ε] in
theorem counted_drop (t : Transaction) (r : Repository ε) : Counted r (t.drop r) t.ending := by
  unfold drop
  dsimp only
  split
  · -- the report that changes are lost is not counted
    exact (r.counted_report _).trans (t.counted_rollback _)
  · exact t.counted_rollback r

theorem counted_edit (t : Transaction) (r : Repository ε) (table : String)
    (change : UInt8 → WriteBuffer → WriteBuffer) : Counted r (t.edit r table change).2.2 [] := by
  have hopen := r.counted_openTable table
  unfold edit
  split
  · exact .refl r
  · split
    · rename_i hr
      rw [hr] at hopen
      exact hopen
    · rename_i hr
      rw [hr] at hopen
      exact hopen

theorem counted_putAll (t : Transaction) (r : Repository ε) (table : String)
    (rows : List (Bytes × Bytes)) : Counted r (t.putAll r table rows).2.2 [] := by
  induction rows generalizing t r with
  | nil => exact .refl r
  | cons row rest ih =>
      have hput : Counted r (t.put r table row.1 row.2).2.2 [] := t.counted_edit r table _
      rw [putAll]
      split
      · rename_i hr
        rw [hr] at hput
        exact hput
      · rename_i t' r' hr
        rw [hr] at hput
        exact hput.trans (ih t' r')

/-- **A commit is counted once:** as a wait if it asked for the lock, and as a success or a failure
if it had the lock. -/
theorem counted_committing (t : Transaction) (r : Repository ε) :
    Counted r (t.commit r).2.2 (t.committing r) := by
  unfold committing
  by_cases hwriter : t.state = .active ∧ t.mode = .readWrite
  · obtain ⟨hactive, hmode⟩ := hwriter
    rw [if_pos ⟨hactive, hmode⟩]
    have hasked : Counted r (t.locked r) (if t.holdsWriter then [] else [.askedAgain]) := by
      unfold locked
      split
      · exact .refl r
      · exact Repository.counted_acquireWriter (Or.inr rfl)
    refine hasked.trans ?_
    by_cases hlock : t.CanLock r
    · have hwrite := (t.locked r).counted_writeBuffer t.buffer
      rcases commit_cases hactive hmode hlock with ⟨e, _, hc⟩ | ⟨batch, _, hc⟩
      · rw [hc, if_pos hlock]
        exact (hwrite.trans (Repository.counted_noteFailure _ e)).trans
          (Repository.counted_releaseWriter _)
      · rw [hc]
        exact (hwrite.trans (Repository.counted_noteCommit _ _ _ _)).trans
          (Repository.counted_releaseWriter _)
    · obtain ⟨⟨e, he⟩, hc⟩ := commit_of_not_canLock hactive hmode hlock
      have hlocked : t.locked r = r.acquireWriter.2 := if_neg (fun hh => hlock (Or.inl hh))
      rw [he, hc, if_neg hlock, hlocked]
      exact .refl _
  · rw [if_neg hwriter]
    by_cases hactive : t.state = .active
    · cases hmode : t.mode with
      | read =>
          rw [commit_of_read hactive hmode]
          exact t.counted_release r
      | readWrite => exact absurd ⟨hactive, hmode⟩ hwriter
    · rw [commit_of_ended hactive]
      exact .refl r

/-- **An action moves the figures by what happened.** -/
theorem counted_acting (a : Action) (t : Transaction) (r : Repository ε) :
    Counted r (a.run t r).2.2 (t.acting r a) := by
  cases a with
  | put table key value => exact t.counted_edit r table _
  | putAll table rows => exact t.counted_putAll r table rows
  | remove table key => exact t.counted_edit r table _
  | clear table => exact t.counted_edit r table _
  | commit => exact t.counted_committing r
  | rollback => exact t.counted_rollback r

/-- To begin is counted as the wait for the lock that it takes. -/
theorem counted_begin (mode : TransactionMode) (r : Repository ε) :
    Counted r (begin mode r).2 (if mode = .readWrite then [.asked] else []) := by
  cases mode with
  | read =>
      rw [(begin_read_lock r).1]
      exact .refl r
  | readWrite =>
      have hasked : Counted r r.acquireWriter.2 [.asked] :=
        Repository.counted_acquireWriter (Or.inl rfl)
      unfold begin
      dsimp only
      split
      · rename_i hacquire
        rw [hacquire] at hasked
        exact hasked
      · rename_i hacquire
        rw [hacquire] at hasked
        exact hasked.trans (Repository.counted_report _ _)

end Transaction

/-- **A turn moves the figures by what happened in it.** -/
theorem Session.Took.counted {s s' : Session ε} {turn : Turn ε} (h : s.Took turn s') :
    Repository.Counted s.repo s'.repo (s.happened turn) := by
  cases h with
  | nobody absent needed =>
      rw [happened_nobody absent needed]
      exact .refl s.repo
  | refused answer =>
      rename_i name mode e r
      have hbegin := Transaction.counted_begin mode s.repo
      rw [answer] at hbegin
      rw [happened_refused answer]
      exact hbegin
  | begun answer =>
      rename_i name mode t r
      have hbegin := Transaction.counted_begin mode s.repo
      rw [answer] at hbegin
      have hrelieved : Repository.Counted r (s.relieved name r) (s.ending name) := by
        unfold relieved
        split
        · rename_i older hs
          rw [ending_some hs]
          exact older.counted_drop r
        · rename_i hs
          rw [ending_none hs]
          exact .refl r
      rw [happened_begun answer]
      exact (hbegin.trans (Repository.counted_begun r mode)).trans hrelieved
  | acted present =>
      rw [happened_acted present]
      exact Transaction.counted_acting _ _ _
  | dropped present =>
      rename_i name t
      have hended : s.happened (.step name .drop) = t.ending := ending_some present
      rw [hended]
      exact t.counted_drop _
  | fault => exact ⟨rfl, rfl, rfl, rfl, rfl, id⟩

/-! ## Writers that have not ended -/

namespace Transaction

/-- A writer that has not ended. -/
def isOpenWriter (t : Transaction) : Bool := t.state = .active ∧ t.mode = .readWrite

/-- What a transaction adds to the number of open writers. -/
def openWriter (t : Transaction) : Nat := if t.isOpenWriter then 1 else 0

omit [StorageEngine ε]

theorem openWriter_eq_one {t : Transaction} (h : t.state = .active) (hmode : t.mode = .readWrite) :
    t.openWriter = 1 :=
  if_pos (by simp [isOpenWriter, h, hmode])

theorem openWriter_eq_zero {t : Transaction} (h : t.state = .active → t.mode ≠ .readWrite) :
    t.openWriter = 0 :=
  if_neg (by simpa [isOpenWriter] using h)

theorem count_ending (t : Transaction) :
    t.ending.count (.rolledBack .readWrite) = t.openWriter
    ∧ t.ending.count (.begun .readWrite) = 0 ∧ t.ending.count .committed = 0 := by
  unfold ending
  by_cases h : t.state = .active
  · rw [if_pos h]
    cases hmode : t.mode with
    | read =>
        rw [openWriter_eq_zero (fun _ => by simp [hmode])]
        exact ⟨rfl, rfl, rfl⟩
    | readWrite =>
        rw [openWriter_eq_one h hmode]
        exact ⟨rfl, rfl, rfl⟩
  · rw [if_neg h, openWriter_eq_zero (fun hactive => absurd hactive h)]
    exact ⟨rfl, rfl, rfl⟩

end Transaction

/-- The account of the writers: one that was open or has begun is open still, or has committed, or
was rolled back. -/
def Balance (before after : Nat) (log : List Happening) : Prop :=
  before + log.count (.begun .readWrite)
    = after + (log.count .committed + log.count (.rolledBack .readWrite))

theorem Balance.trans {a b c : Nat} {log log' : List Happening} (h : Balance a b log)
    (h' : Balance b c log') : Balance a c (log ++ log') := by
  unfold Balance at *
  rw [List.count_append, List.count_append, List.count_append]
  omega

/-- A writer that begins is an open one. -/
theorem Transaction.balance_begin {mode : TransactionMode} {t : Transaction} {r r' : Repository ε}
    (h : begin mode r = (.ok t, r')) :
    Balance 0 t.openWriter ((if mode = .readWrite then [.asked] else []) ++ [.begun mode]) := by
  rcases begin_cases mode r with ⟨e, q, hb, _⟩ | ⟨u, q, hb, _, _, hactive, hmode, _⟩
  · exact absurd (congrArg Prod.fst (hb.symm.trans h)) (by simp)
  · rw [Except.ok.inj (congrArg Prod.fst (hb.symm.trans h))] at hactive hmode
    cases mode with
    | read =>
        rw [openWriter_eq_zero (fun _ => by simp [hmode])]
        exact rfl
    | readWrite =>
        rw [openWriter_eq_one hactive hmode]
        exact rfl

theorem Transaction.balance_committing (t : Transaction) (r : Repository ε) :
    Balance t.openWriter (t.commit r).2.1.openWriter (t.committing r) := by
  unfold committing
  by_cases hwriter : t.state = .active ∧ t.mode = .readWrite
  · rw [if_pos hwriter, openWriter_eq_one hwriter.1 hwriter.2]
    rcases commit_of_active hwriter.1 r with ⟨hok, hended⟩ | ⟨⟨e, he⟩, hactive⟩
    · rw [hok, hended]
      split <;> exact rfl
    · -- it failed or was refused, and goes on
      have hmode : (t.commit r).2.1.mode = .readWrite := by
        rw [(continues_commit hactive).2.same]
        exact hwriter.2
      rw [he, openWriter_eq_one hactive hmode]
      dsimp only
      split <;> split <;> exact rfl
  · have hafter : (t.commit r).2.1.state = .active → (t.commit r).2.1.mode ≠ .readWrite := by
      intro hactive
      obtain ⟨hbefore, hcontinues⟩ := continues_commit hactive
      rw [hcontinues.same]
      exact fun hmode => hwriter ⟨hbefore, hmode⟩
    rw [if_neg hwriter, openWriter_eq_zero hafter,
      openWriter_eq_zero (fun hactive hmode => hwriter ⟨hactive, hmode⟩)]
    exact rfl

/-- An open writer stays open, or it ends in one of the two ways. -/
theorem Transaction.balance_acting (a : Action) (t : Transaction) (r : Repository ε) :
    Balance t.openWriter (a.run t r).2.1.openWriter (t.acting r a) := by
  have hchange : a.isChange = true →
      Balance t.openWriter (a.run t r).2.1.openWriter [] := by
    intro ha
    rw [(onlyBuffer_run ha t r).same]
    exact rfl
  cases a with
  | put table key value => exact hchange rfl
  | putAll table rows => exact hchange rfl
  | remove table key => exact hchange rfl
  | clear table => exact hchange rfl
  | rollback =>
      obtain ⟨hrolled, hbegun, hcommitted⟩ := t.count_ending
      have hended : (t.rollback r).2.1.state ≠ .active := by
        rw [state_rollback]
        split
        · simp
        · assumption
      show Balance t.openWriter (t.rollback r).2.1.openWriter t.ending
      unfold Balance
      rw [openWriter_eq_zero (fun hactive => absurd hactive hended), hrolled, hbegun, hcommitted]
      omega
  | commit => exact t.balance_committing r

namespace Session

/-- Number of writers that have not ended. -/
def openWriters (s : Session ε) : Nat :=
  s.transactions.toList.countP (fun b => b.2.isOpenWriter)

section OpenWriters

omit [StorageEngine ε]

variable {s : Session ε} {name : String} {t : Transaction}

theorem openWriters_insert (s : Session ε) (r : Repository ε) (name : String) (t : Transaction) :
    (Session.mk r (s.transactions.insert name t)).openWriters
      = (Session.mk r (s.transactions.erase name)).openWriters + t.openWriter := by
  unfold openWriters
  rw [(SortedMap.perm_insert s.transactions name t).countP_eq, List.countP_cons]
  rfl

/-- Who has a name is one of the open writers, or adds nothing to them. -/
theorem openWriters_erase_some (h : s.transaction? name = some t) (r : Repository ε) :
    s.openWriters = (Session.mk r (s.transactions.erase name)).openWriters + t.openWriter := by
  have hself : s.openWriters = (Session.mk r (s.transactions.insert name t)).openWriters := by
    unfold openWriters
    rw [transactions_insert_self h]
  rw [hself, openWriters_insert]

theorem openWriters_erase_none (h : s.transaction? name = none) (r : Repository ε) :
    (Session.mk r (s.transactions.erase name)).openWriters = s.openWriters := by
  unfold openWriters
  rw [SortedMap.erase_of_not_contains]
  rw [SortedMap.contains_eq_isSome]
  exact congrArg Option.isSome h

/-- Whoever has a name is one of the open writers as long as it is not let go. -/
theorem balance_erase (s : Session ε) (name : String) (r : Repository ε) :
    Balance s.openWriters (Session.mk r (s.transactions.erase name)).openWriters
      (s.ending name) := by
  unfold Balance
  cases h : s.transaction? name with
  | none =>
      rw [ending_none h, openWriters_erase_none h]
      rfl
  | some t =>
      obtain ⟨hrolled, hbegun, hcommitted⟩ := t.count_ending
      rw [ending_some h, openWriters_erase_some h r, hrolled, hbegun, hcommitted]
      omega

end OpenWriters

/-- **The writers are accounted for by what happens in a turn.** -/
theorem Took.balance {s s' : Session ε} {turn : Turn ε} (h : s.Took turn s') :
    Balance s.openWriters s'.openWriters (s.happened turn) := by
  cases h with
  | nobody absent needed =>
      rw [happened_nobody absent needed]
      exact rfl
  | refused answer =>
      rename_i name mode e r
      rw [happened_refused answer]
      cases mode <;> exact rfl
  | begun answer =>
      rename_i name mode t r
      have hcame := Transaction.balance_begin answer
      have hwent := s.balance_erase name (s.relieved name r)
      rw [happened_begun answer]
      generalize ((if mode = .readWrite then [.asked] else []) ++ [.begun mode] : List Happening)
        = came at hcame ⊢
      unfold Balance at hcame hwent ⊢
      rw [openWriters_insert, List.count_append, List.count_append, List.count_append]
      omega
  | acted present =>
      rename_i name a t
      have hacting := t.balance_acting a s.repo
      rw [happened_acted present]
      unfold Balance at hacting ⊢
      rw [openWriters_insert, openWriters_erase_some present (a.run t s.repo).2.2]
      omega
  | dropped present =>
      rename_i name t
      exact s.balance_erase name (t.drop s.repo)
  | fault => exact rfl

end Session

/-! ## Whole runs -/

/-- A repository opens with its tables counted, and nothing else. -/
theorem Repository.metrics_of_onEngine {engine : ε} {config : StoreConfig} {r : Repository ε}
    (h : onEngine engine config = .ok r) : r.metrics = { tables := r.registry.size } := by
  unfold onEngine at h
  split at h
  · exact absurd h (by simp)
  · rw [← Except.ok.inj h]
    rfl

omit [StorageEngine ε] in
theorem Repository.length_tables (r : Repository ε) : r.tables.length = r.registry.size := by
  unfold tables Registry.tables
  rw [List.length_mergeSort, List.length_map]
  rfl

namespace History

variable {engine : ε} {config : StoreConfig} {r : Repository ε}

theorem counted_run (h : History ε) (turns : List (Turn ε)) :
    Repository.Counted h.repo (h.run turns).repo (h.happenings turns) := by
  induction turns generalizing h with
  | nil => exact .refl h.repo
  | cons turn rest ih => exact (h.took_take turn).counted.trans (ih (h.take turn))

theorem balance_run (h : History ε) (turns : List (Turn ε)) :
    Balance h.session.openWriters (h.run turns).session.openWriters (h.happenings turns) := by
  induction turns generalizing h with
  | nil => exact rfl
  | cons turn rest ih => exact (h.took_take turn).balance.trans (ih (h.take turn))

/--
**The counters account for everything that happened,** in any run of a store since it was opened.
The commits and their durations are the commits of writers that succeeded, with or without anything
to write; the failures are those that had the lock and failed, so one that could not have the lock
is none of them; the rollbacks are the transactions, readers and writers, that were rolled back or
let go while they were active; the waits are the begins of writers and the commits without a hold on
the lock, rewarded or not. The tables are those that are registered.

Every writer that ever began has thus committed, or was rolled back, or is open.
-/
theorem counters_account (opens : Repository.onEngine engine config = .ok r)
    (turns : List (Turn ε)) :
    let h := (start r).run turns
    let log := (start r).happenings turns
    h.repo.metrics.commits = log.count .committed
    ∧ h.repo.metrics.commitDuration.count = log.count .committed
    ∧ h.repo.metrics.failures = log.count .failed
    ∧ h.repo.metrics.rollbacks
      = log.count (.rolledBack .read) + log.count (.rolledBack .readWrite)
    ∧ h.repo.metrics.writerWait.count = log.count .asked + log.count .askedAgain
    ∧ h.repo.metrics.tables = h.repo.tables.length
    ∧ log.count (.begun .readWrite) = h.repo.metrics.commits + log.count (.rolledBack .readWrite)
      + h.session.openWriters := by
  intro h log
  have hstart : (start r).repo.metrics = { tables := r.registry.size } :=
    Repository.metrics_of_onEngine opens
  obtain ⟨hcommits, hdurations, hfailures, hrollbacks, hwaits, htables⟩ :=
    (start r).counted_run turns
  have hbalance : 0 + log.count (.begun .readWrite)
      = h.session.openWriters + (log.count .committed + log.count (.rolledBack .readWrite)) :=
    (start r).balance_run turns
  rw [hstart] at hcommits hdurations hfailures hrollbacks hwaits htables
  have hsize : h.repo.metrics.tables = h.repo.tables.length := by
    rw [Repository.length_tables]
    exact htables rfl
  have hcommits : h.repo.metrics.commits = log.count .committed :=
    hcommits.trans (Nat.zero_add _)
  exact ⟨hcommits, hdurations.trans (Nat.zero_add _), hfailures.trans (Nat.zero_add _),
    hrollbacks.trans (Nat.zero_add _), hwaits.trans (Nat.zero_add _), hsize, by omega⟩

/-- Two writers and a reader. The first writer fails to commit, is refused the lock while the second
has it, and commits when the second is let go. -/
theorem counters_account_refused_commit :
    let r : Repository MemoryEngine :=
      { engine := {}, registry := {}, config := {}
        events := [.repositoryOpened "memory" "data" 0] }
    let turns : List (Turn MemoryEngine) := [
      .step "a" (.begin .readWrite), .step "b" (.begin .readWrite),
      .step "a" (.act (.put "t" [1] [5])), .fault (fun e => e.failWritesAfter 0) (fun _ => rfl),
      .step "a" (.act .commit), .step "q" (.begin .read), .step "b" (.begin .readWrite),
      .step "a" (.act .commit), .step "b" .drop, .step "a" (.act .commit),
      .step "q" (.act .rollback), .step "q" .drop, .step "c" (.begin .readWrite)]
    let h := (start r).run turns
    Repository.onEngine ({} : MemoryEngine) {} = .ok r
    ∧ h.repo.metrics.commits = 1 ∧ h.repo.metrics.commitDuration.count = 1
    ∧ h.repo.metrics.failures = 1 ∧ h.repo.metrics.rollbacks = 2
    ∧ h.repo.metrics.writerWait.count = 6 ∧ h.repo.metrics.tables = 1
    ∧ 3 = h.repo.metrics.commits + 1 + h.session.openWriters := by
  intro r turns h
  have hopened : Repository.onEngine ({} : MemoryEngine) {} = .ok r := rfl
  have hcount : ((start r).happenings turns).count .committed = 1
      ∧ ((start r).happenings turns).count .failed = 1
      ∧ ((start r).happenings turns).count (.rolledBack .read) = 1
      ∧ ((start r).happenings turns).count (.rolledBack .readWrite) = 1
      ∧ ((start r).happenings turns).count .asked = 4
      ∧ ((start r).happenings turns).count .askedAgain = 2
      ∧ ((start r).happenings turns).count (.begun .readWrite) = 3 := by decide +kernel
  have hlength : h.repo.tables.length = 1 := by decide +kernel
  obtain ⟨hcommitted, hfailed, hread, hwrite, hasked, hagain, hbegun⟩ := hcount
  have hrun : (start r).run turns = h := rfl
  have haccount := counters_account hopened turns
  dsimp only at haccount
  rw [hrun, hcommitted, hfailed, hread, hwrite, hasked, hagain, hbegun, hlength] at haccount
  exact ⟨hopened, haccount⟩

end History

end TableStore
