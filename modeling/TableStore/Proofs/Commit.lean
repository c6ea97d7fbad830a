import TableStore.Proofs.Batch
import TableStore.Proofs.Registry
import TableStore.Transaction

/-!
# A commit happens or it does not

A commit of a writer takes the lock if it does not hold it, makes one batch, writes it, and
gives the lock back. It can fail at the first three of these, and `Transaction.commit_cases`
says with what result. Between making the batch and writing it nothing else happens, so a
failure leaves the store as it was, and the transaction with everything but the lock
(`Transaction.Undone`).

That is also why trying again is worth it. The batch depends on the buffer and on the rows,
and neither changed; a second commit that meets no failure writes what the first would have
written (`commit_engine_congr`).
-/

namespace TableStore

variable {ε : Type} [StorageEngine ε]

namespace Repository

/-! ## Writing a buffer -/

/-- The config is the same, and no commit was counted in between. -/
structure SameBooks (r r' : Repository ε) : Prop where
  config : r'.config = r.config
  commits : r'.metrics.commits = r.metrics.commits
  written : r'.metrics.written = r.metrics.written
  deleted : r'.metrics.deleted = r.metrics.deleted
  commitDuration : r'.metrics.commitDuration = r.metrics.commitDuration

omit [StorageEngine ε] in
theorem SameBooks.trans {r r' r'' : Repository ε} (h : SameBooks r r') (h' : SameBooks r' r'') :
    SameBooks r r'' where
  config := h'.config.trans h.config
  commits := h'.commits.trans h.commits
  written := h'.written.trans h.written
  deleted := h'.deleted.trans h.deleted
  commitDuration := h'.commitDuration.trans h.commitDuration

theorem sameBooks_writeBuffer (r : Repository ε) (b : WriteBuffer) :
    SameBooks r (r.writeBuffer b).2 := by
  unfold writeBuffer
  split
  · exact ⟨rfl, rfl, rfl, rfl, rfl⟩
  · split
    · exact ⟨rfl, rfl, rfl, rfl, rfl⟩
    · split <;> exact ⟨rfl, rfl, rfl, rfl, rfl⟩

/-- What is written depends on the engine, the config and the buffer. -/
theorem writeBuffer_congr {r r' : Repository ε} (hengine : r'.engine = r.engine)
    (hconfig : r'.config = r.config) (b : WriteBuffer) :
    (r'.writeBuffer b).1 = (r.writeBuffer b).1
      ∧ (r'.writeBuffer b).2.engine = (r.writeBuffer b).2.engine := by
  unfold writeBuffer
  rw [hengine, hconfig]
  split
  · exact ⟨rfl, hengine⟩
  · split
    · exact ⟨rfl, hengine⟩
    · split <;> exact ⟨rfl, rfl⟩

/-- **A buffer is written as a whole or not at all.** -/
theorem writeBuffer_cases [AtomicEngine ε] (r : Repository ε) (b : WriteBuffer) :
    (∃ e, (r.writeBuffer b).1 = .error e ∧ SameStore r (r.writeBuffer b).2)
    ∨ (∃ batch, b.batch r.engine = .ok batch ∧ (r.writeBuffer b).1 = .ok batch
      ∧ (r.writeBuffer b).2.registry = r.registry
      ∧ StorageEngine.rows (r.writeBuffer b).2.engine
        = batch.applyTo (StorageEngine.rows r.engine)) := by
  unfold writeBuffer
  cases hb : b.batch r.engine with
  | error e => exact Or.inl ⟨e, rfl, rfl, rfl⟩
  | ok batch =>
      dsimp only
      by_cases hempty : batch.isEmpty = true
      · rw [if_pos hempty]
        refine Or.inr ⟨batch, rfl, rfl, rfl, ?_⟩
        rw [List.isEmpty_iff.mp hempty]
        rfl
      · rw [if_neg hempty]
        have hok := AtomicEngine.rows_write_ok r.engine batch r.config.syncOnCommit
        have herror := AtomicEngine.rows_write_error r.engine batch r.config.syncOnCommit
        cases hw : StorageEngine.write r.engine batch r.config.syncOnCommit with
        | mk answer engine =>
            rw [hw] at hok herror
            cases answer with
            | ok _ => exact Or.inr ⟨batch, rfl, rfl, rfl, hok rfl⟩
            | error e => exact Or.inl ⟨e, rfl, herror e rfl, rfl⟩

/-- On an engine that fails at nothing a buffer is written. -/
theorem writeBuffer_healthy {r : Repository ε} (h : StorageEngine.Healthy r.engine)
    (b : WriteBuffer) :
    (r.writeBuffer b).1 = .ok (b.batchOn (StorageEngine.rows r.engine)) := by
  unfold writeBuffer
  rw [b.batch_eq h.toAnswers]
  dsimp only
  split
  · rfl
  · have hok := h.write_ok (b.batchOn (StorageEngine.rows r.engine)) r.config.syncOnCommit
    split
    · rename_i e _ hw
      rw [hw] at hok
      exact absurd hok (by simp)
    · rfl

end Repository

namespace Transaction

/-! ## The commits that write nothing -/

section NoWrite

variable {t : Transaction}

omit [StorageEngine ε] in
/-- What has ended says so, whatever it is asked. -/
theorem requireActive_of_ended (h : t.state ≠ .active) :
    t.requireActive = .error (.invalidOperation (.ended t.state)) := by
  unfold requireActive
  cases hs : t.state with
  | active => exact absurd hs h
  | committed => rfl
  | rolledBack => rfl

theorem commit_of_ended (h : t.state ≠ .active) (r : Repository ε) :
    t.commit r = (.error (.invalidOperation (.ended t.state)), t, r) := by
  unfold commit
  rw [requireActive_of_ended h]

/-- A reader ends, and gives back what it holds. -/
theorem commit_of_read (h : t.state = .active) (hmode : t.mode = .read) (r : Repository ε) :
    t.commit r = (.ok (), t.finished .committed, t.release r) := by
  unfold commit requireActive
  rw [h, hmode]

end NoWrite

/-! ## The commit of a writer -/

/-- A writer that can have the lock: it holds it, or nobody does. -/
def CanLock (t : Transaction) (r : Repository ε) : Prop :=
  t.holdsWriter = true ∨ r.lockHeld = false

/-- The repository once a commit has the lock. -/
def locked (t : Transaction) (r : Repository ε) : Repository ε :=
  if t.holdsWriter then r else r.acquireWriter.2

/-- Taking the lock leaves the store as it is. -/
theorem sameStore_locked (t : Transaction) (r : Repository ε) :
    Repository.SameStore r (t.locked r) := by
  unfold locked Repository.acquireWriter
  split
  · exact ⟨rfl, rfl⟩
  · split <;> exact ⟨rfl, rfl⟩

omit [StorageEngine ε] in
theorem sameBooks_locked (t : Transaction) (r : Repository ε) :
    Repository.SameBooks r (t.locked r) := by
  unfold locked Repository.acquireWriter
  split
  · exact ⟨rfl, rfl, rfl, rfl, rfl⟩
  · split <;> exact ⟨rfl, rfl, rfl, rfl, rfl⟩

omit [StorageEngine ε] in
theorem engine_locked (t : Transaction) (r : Repository ε) : (t.locked r).engine = r.engine := by
  unfold locked Repository.acquireWriter
  split
  · rfl
  · split <;> rfl

/-- **How a commit of a writer ends,** once it has the lock: as the writing of its buffer does. -/
theorem commit_cases {t : Transaction} {r : Repository ε} (hactive : t.state = .active)
    (hmode : t.mode = .readWrite) (hlock : t.CanLock r) :
    (∃ e, ((t.locked r).writeBuffer t.buffer).1 = .error e
      ∧ t.commit r = (.error e, { t with holdsWriter := false },
          (((t.locked r).writeBuffer t.buffer).2.noteFailure e).releaseWriter))
    ∨ (∃ batch, ((t.locked r).writeBuffer t.buffer).1 = .ok batch
      ∧ t.commit r = (.ok (), t.finished .committed,
          (((t.locked r).writeBuffer t.buffer).2.noteCommit batch.puts batch.deletes
            t.buffer.cleared.size).releaseWriter)) := by
  have hgained : (if t.holdsWriter = true then (.ok (), r) else r.acquireWriter)
      = ((.ok (), t.locked r) : Except StoreError Unit × Repository ε) := by
    unfold locked
    by_cases hh : t.holdsWriter = true
    · rw [if_pos hh, if_pos hh]
    · have hfree : r.lockHeld = false := hlock.resolve_left hh
      rw [if_neg hh, if_neg hh]
      simp [Repository.acquireWriter, hfree]
  unfold commit requireActive
  rw [hactive, hmode]
  dsimp only
  rw [hgained]
  unfold Repository.commit
  cases hw : (t.locked r).writeBuffer t.buffer with
  | mk answer r' =>
      cases answer with
      | error e => exact Or.inl ⟨e, rfl, rfl⟩
      | ok batch => exact Or.inr ⟨batch, rfl, rfl⟩

/-- A commit that cannot have the lock changes nothing but the count of waits. -/
theorem commit_of_not_canLock {t : Transaction} {r : Repository ε} (hactive : t.state = .active)
    (hmode : t.mode = .readWrite) (hlock : ¬ t.CanLock r) :
    (∃ e, (t.commit r).1 = .error e) ∧ (t.commit r).2 = (t, r.acquireWriter.2) := by
  -- another transaction holds the lock
  have hh : ¬ t.holdsWriter = true := fun hh => hlock (Or.inl hh)
  have hheld : r.lockHeld = true := Bool.not_eq_false _ ▸ fun hf => hlock (Or.inr hf)
  unfold commit requireActive
  rw [hactive, hmode]
  dsimp only
  rw [if_neg hh]
  unfold Repository.acquireWriter
  rw [if_pos hheld]
  exact ⟨⟨_, rfl⟩, rfl⟩

/-! ## A commit that fails -/

/-- What a commit that failed leaves: the store as it was, the transaction with everything
but the lock, and the lock for anyone. -/
structure Undone (t : Transaction) (r : Repository ε) (t' : Transaction) (r' : Repository ε) :
    Prop where
  /-- Neither rows nor registry changed. -/
  store : Repository.SameStore r r'
  /-- No commit was counted, nor rows, nor time. -/
  books : Repository.SameBooks r r'
  /-- The transaction goes on. -/
  active : t'.state = .active
  mode : t'.mode = t.mode
  /-- It still means to write what it meant to write, cleared tables included. -/
  buffer : t'.buffer = t.buffer
  released : t'.holdsWriter = false
  lock_free : r'.lockHeld = false

section Writer

variable {t t' : Transaction} {r r' : Repository ε}

theorem undone_of_error [AtomicEngine ε] (hactive : t.state = .active)
    (hmode : t.mode = .readWrite) (hlock : t.CanLock r) {e : StoreError}
    (h : (t.commit r).1 = .error e) : Undone t r (t.commit r).2.1 (t.commit r).2.2 := by
  rcases commit_cases hactive hmode hlock with ⟨e', hw, hc⟩ | ⟨batch, _, hc⟩
  · have hsame : Repository.SameStore (t.locked r) ((t.locked r).writeBuffer t.buffer).2 := by
      rcases (t.locked r).writeBuffer_cases t.buffer with ⟨_, _, hs⟩ | ⟨_, _, hok, _⟩
      · exact hs
      · exact absurd (hw ▸ hok) (by simp)
    have hstore := (t.sameStore_locked r).trans hsame
    have hbooks := (t.sameBooks_locked r).trans ((t.locked r).sameBooks_writeBuffer t.buffer)
    rw [hc]
    exact {
      store := ⟨hstore.rows, hstore.registry⟩
      books := ⟨hbooks.config, hbooks.commits, hbooks.written, hbooks.deleted,
        hbooks.commitDuration⟩
      active := hactive
      mode := rfl
      buffer := rfl
      released := rfl
      lock_free := rfl }
  · rw [hc] at h
    exact absurd h (by simp)

/-- **Equal buffers on equal engines end alike,** whoever commits them and when. -/
theorem commit_engine_congr (hactive : t.state = .active) (hmode : t.mode = .readWrite)
    (hlock : t.CanLock r) (hactive' : t'.state = .active) (hmode' : t'.mode = .readWrite)
    (hlock' : t'.CanLock r') (hbuffer : t'.buffer = t.buffer) (hengine : r'.engine = r.engine)
    (hconfig : r'.config = r.config) :
    (t'.commit r').1 = (t.commit r).1 ∧ (t'.commit r').2.2.engine = (t.commit r).2.2.engine := by
  have hlocked : (t'.locked r').engine = (t.locked r).engine := by
    rw [engine_locked, engine_locked, hengine]
  have hsettings : (t'.locked r').config = (t.locked r).config := by
    rw [(t'.sameBooks_locked r').config, (t.sameBooks_locked r).config, hconfig]
  -- the two writings end alike, so the mixed cases are none
  obtain ⟨hanswer, hafter⟩ := Repository.writeBuffer_congr hlocked hsettings t.buffer
  rw [← hbuffer] at hanswer hafter
  rcases commit_cases hactive hmode hlock with ⟨e, hw, hc⟩ | ⟨batch, hw, hc⟩
  · rcases commit_cases hactive' hmode' hlock' with ⟨e', hw', hc'⟩ | ⟨batch', hw', hc'⟩
    · rw [hw', hbuffer, hw] at hanswer
      rw [hc, hc', Except.error.inj hanswer]
      exact ⟨rfl, by rw [← hbuffer]; exact hafter⟩
    · rw [hw', hbuffer, hw] at hanswer
      exact absurd hanswer (by simp)
  · rcases commit_cases hactive' hmode' hlock' with ⟨e', hw', hc'⟩ | ⟨batch', hw', hc'⟩
    · rw [hw', hbuffer, hw] at hanswer
      exact absurd hanswer (by simp)
    · rw [hc, hc']
      exact ⟨rfl, by rw [← hbuffer]; exact hafter⟩

/-- A commit that succeeds has written the batch that could be made, and only that. -/
theorem commit_ok [AtomicEngine ε] (hactive : t.state = .active) (hmode : t.mode = .readWrite)
    (hlock : t.CanLock r) (h : (t.commit r).1 = .ok ()) :
    (∃ batch, t.buffer.batch r.engine = .ok batch
      ∧ StorageEngine.rows (t.commit r).2.2.engine = batch.applyTo (StorageEngine.rows r.engine))
    ∧ (t.commit r).2.2.registry = r.registry ∧ (t.commit r).2.2.lockHeld = false
    ∧ (t.commit r).2.1 = t.finished .committed := by
  rcases commit_cases hactive hmode hlock with ⟨e, _, hc⟩ | ⟨_, hw, hc⟩
  · rw [hc] at h
    exact absurd h (by simp)
  · rcases (t.locked r).writeBuffer_cases t.buffer with ⟨e, he, _⟩ | ⟨batch, hb, _, hreg, hrows⟩
    · exact absurd (hw ▸ he) (by simp)
    · rw [engine_locked] at hb hrows
      rw [(t.sameStore_locked r).registry] at hreg
      rw [hc]
      exact ⟨⟨batch, hb, hrows⟩, hreg, rfl, rfl⟩

/-- On an engine that fails at nothing a commit succeeds. -/
theorem commit_healthy (h : StorageEngine.Healthy r.engine) (hactive : t.state = .active)
    (hmode : t.mode = .readWrite) (hlock : t.CanLock r) : (t.commit r).1 = .ok () := by
  have hlocked : StorageEngine.Healthy (t.locked r).engine := t.engine_locked r ▸ h
  rcases commit_cases hactive hmode hlock with ⟨e, hw, _⟩ | ⟨batch, _, hc⟩
  · rw [Repository.writeBuffer_healthy hlocked] at hw
    exact absurd hw (by simp)
  · rw [hc]

/-- What a commit writes on an engine that fails at nothing. -/
theorem rows_commit_healthy [AtomicEngine ε] (h : StorageEngine.Healthy r.engine)
    (hactive : t.state = .active) (hmode : t.mode = .readWrite) (hlock : t.CanLock r) :
    StorageEngine.rows (t.commit r).2.2.engine
      = (t.buffer.batchOn (StorageEngine.rows r.engine)).applyTo (StorageEngine.rows r.engine) := by
  obtain ⟨⟨batch, hb, hrows⟩, _⟩ :=
    commit_ok hactive hmode hlock (commit_healthy h hactive hmode hlock)
  rw [t.buffer.batch_eq h.toAnswers] at hb
  rw [hrows, ← Except.ok.inj hb]

end Writer

/-! ## The armed fault of the memory engine -/

/-- A buffer is written in memory unless its batch is longer than the armed fault allows. -/
theorem writeBuffer_armed {r : Repository MemoryEngine} {n : Nat}
    (h : r.engine.failAfter = some n) (b : WriteBuffer) :
    r.writeBuffer b
      = if n < (b.batchOn r.engine.rows).length then
          (.error (.storage (.armedFault n)), { r with engine.failAfter := none })
        else
          (.ok (b.batchOn r.engine.rows),
            { r with engine.rows := (b.batchOn r.engine.rows).applyTo r.engine.rows }) := by
  have hb : b.batch r.engine = .ok (b.batchOn r.engine.rows) := b.batch_eq r.engine.answers
  unfold Repository.writeBuffer
  rw [hb]
  dsimp only
  by_cases hempty : (b.batchOn r.engine.rows).isEmpty = true
  · -- an empty batch is not given to the engine, so no fault can fire
    have hnil := List.isEmpty_iff.mp hempty
    rw [if_pos hempty, hnil]
    exact (if_neg (Nat.not_lt_zero n)).symm
  · rw [if_neg hempty]
    have hdef : StorageEngine.write r.engine (b.batchOn r.engine.rows) r.config.syncOnCommit
        = r.engine.write (b.batchOn r.engine.rows) := rfl
    rw [hdef]
    rcases r.engine.write_cases (b.batchOn r.engine.rows) with ⟨m, hm, hlt, hw⟩ | ⟨hle, hw⟩
    · have hmn : n = m := Option.some.inj (h.symm.trans hm)
      rw [hw, hmn, if_pos hlt]
    · rw [hw, if_neg (Nat.not_lt.mpr (hle n h))]

/-- A commit with the fault armed: whether it succeeds, and the engine after it. -/
theorem commit_armed {t : Transaction} {r : Repository MemoryEngine} {n : Nat}
    (hactive : t.state = .active) (hmode : t.mode = .readWrite) (hlock : t.CanLock r)
    (h : r.engine.failAfter = some n) :
    (n < (t.buffer.batchOn r.engine.rows).length
      ∧ (t.commit r).1 = .error (.storage (.armedFault n))
      ∧ (t.commit r).2.2.engine = { r.engine with failAfter := none })
    ∨ ((t.buffer.batchOn r.engine.rows).length ≤ n ∧ (t.commit r).1 = .ok ()
      ∧ (t.commit r).2.2.engine
        = { r.engine with rows := (t.buffer.batchOn r.engine.rows).applyTo r.engine.rows }) := by
  have hlocked : (t.locked r).engine.failAfter = some n := t.engine_locked r ▸ h
  have hwrite := writeBuffer_armed hlocked t.buffer
  rw [engine_locked] at hwrite
  by_cases hn : n < (t.buffer.batchOn r.engine.rows).length
  · rw [if_pos hn] at hwrite
    rcases commit_cases hactive hmode hlock with ⟨e, hw, hc⟩ | ⟨batch, hw, _⟩
    · rw [hwrite] at hw
      rw [hc, hwrite, ← Except.error.inj hw]
      exact Or.inl ⟨hn, rfl, rfl⟩
    · rw [hwrite] at hw
      exact absurd hw (by simp)
  · rw [if_neg hn] at hwrite
    rcases commit_cases hactive hmode hlock with ⟨e, hw, _⟩ | ⟨batch, hw, hc⟩
    · rw [hwrite] at hw
      exact absurd hw (by simp)
    · rw [hc, hwrite]
      exact Or.inr ⟨Nat.le_of_not_lt hn, rfl, rfl⟩

/-! ## All or nothing, and again -/

/--
**A commit is all or nothing, and can be tried again.** If the engine fails it, store and
transaction are as they were and the lock is free; on an engine with the same rows that fails
at nothing, trying again ends in the engine that the first try would have ended in.

The armed fault of the memory engine fires on a batch of more operations than it allows, and
on no other. It fires once: trying again is then as if it had not been armed.
-/
theorem commit_all_or_nothing_again :
    (∀ {ε : Type} [StorageEngine ε] [AtomicEngine ε] {t : Transaction} {r : Repository ε}
      {e : StoreError},
      t.state = .active → t.mode = .readWrite → t.CanLock r → (t.commit r).1 = .error e →
      Undone t r (t.commit r).2.1 (t.commit r).2.2
      ∧ ∀ engine : ε, StorageEngine.Healthy engine →
        StorageEngine.rows engine = StorageEngine.rows r.engine →
        ((t.commit r).2.1.commit { (t.commit r).2.2 with engine := engine }).1 = .ok ()
        ∧ ((t.commit r).2.1.commit { (t.commit r).2.2 with engine := engine }).2.2.engine
          = (t.commit { r with engine := engine }).2.2.engine
        ∧ (t.commit { r with engine := engine }).1 = .ok ()
        ∧ StorageEngine.rows (t.commit { r with engine := engine }).2.2.engine
          = (t.buffer.batchOn (StorageEngine.rows r.engine)).applyTo
              (StorageEngine.rows r.engine))
    ∧ (∀ {t : Transaction} {r : Repository MemoryEngine} {n : Nat},
      t.state = .active → t.mode = .readWrite → t.CanLock r → r.engine.failAfter = some n →
      ∃ batch, t.buffer.batch r.engine = .ok batch
      ∧ ((∃ e, (t.commit r).1 = .error e) ↔ n < batch.length)
      ∧ (batch.length ≤ n →
        (t.commit r).1 = .ok () ∧ (t.commit r).2.2.engine.failAfter = some n)
      ∧ (n < batch.length →
        ((t.commit r).2.1.commit (t.commit r).2.2).1 = .ok ()
        ∧ ((t.commit r).2.1.commit (t.commit r).2.2).2.2.engine
          = (t.commit { r with engine.failAfter := none }).2.2.engine)) := by
  constructor
  · intro ε _ _ t r e hactive hmode hlock herror
    have hundone := undone_of_error hactive hmode hlock herror
    refine ⟨hundone, fun engine hhealthy hrows => ?_⟩
    -- the first try, had the engine not failed
    have hfirst : (t.commit { r with engine := engine }).1 = .ok () :=
      commit_healthy hhealthy hactive hmode hlock
    have hwritten := rows_commit_healthy (r := { r with engine := engine }) hhealthy hactive hmode
      hlock
    have hagain : ((t.commit r).2.1.commit { (t.commit r).2.2 with engine := engine }).1
          = (t.commit { r with engine := engine }).1
        ∧ ((t.commit r).2.1.commit { (t.commit r).2.2 with engine := engine }).2.2.engine
          = (t.commit { r with engine := engine }).2.2.engine :=
      commit_engine_congr hactive hmode hlock hundone.active (hundone.mode.trans hmode)
        (Or.inr hundone.lock_free) hundone.buffer rfl hundone.books.config
    exact ⟨hagain.1.trans hfirst, hagain.2, hfirst, hrows ▸ hwritten⟩
  · intro t r n hactive hmode hlock harmed
    refine ⟨t.buffer.batchOn r.engine.rows, t.buffer.batch_eq r.engine.answers, ?_⟩
    rcases commit_armed hactive hmode hlock harmed with ⟨hn, herror, hengine⟩ | ⟨hn, hok, hengine⟩
    · refine ⟨⟨fun _ => hn, fun _ => ⟨_, herror⟩⟩, fun hle => absurd hn (Nat.not_lt.mpr hle),
        fun _ => ?_⟩
      -- the fault has fired, so trying again is trying without it
      have hundone := undone_of_error hactive hmode hlock herror
      have hhealthy : StorageEngine.Healthy ({ r.engine with failAfter := none } : MemoryEngine) :=
        MemoryEngine.healthy rfl
      obtain ⟨hanswer, hafter⟩ := commit_engine_congr (r := { r with engine.failAfter := none })
        hactive hmode hlock hundone.active (hundone.mode.trans hmode) (Or.inr hundone.lock_free)
        hundone.buffer hengine hundone.books.config
      exact ⟨hanswer.trans (commit_healthy hhealthy hactive hmode hlock), hafter⟩
    · refine ⟨⟨fun ⟨e, he⟩ => ?_, fun hlt => absurd hlt (Nat.not_lt.mpr hn)⟩, fun _ => ⟨hok, ?_⟩,
        fun hlt => absurd hlt (Nat.not_lt.mpr hn)⟩
      · rw [hok] at he
        exact absurd he (by simp)
      · rw [hengine]
        exact harmed

/-- A cleared table with a row that cannot be read, and a batch too long for the armed fault. -/
theorem commit_all_or_nothing_again_cleared :
    let t : Transaction :=
      { mode := .readWrite, buffer := (WriteBuffer.empty.clear 1).stage 1 [7] (some [8])
        holdsWriter := true }
    let inner : MemoryEngine := { rows := .ofList [([1, 5], [6]), ([1, 7], [6])] }
    let faulty : Repository FaultyEngine :=
      { engine := { inner := inner, faults := { rowErrorAt := some 1 } }
        registry := ⟨.ofList [("t", 1)], 1⟩, config := {}, lockHeld := true }
    let armed : Repository MemoryEngine :=
      { engine := { inner with failAfter := some 1 }
        registry := ⟨.ofList [("t", 1)], 1⟩, config := {}, lockHeld := true }
    (t.commit faulty).1 = .error (.storage (.unreadableRow 1))
    ∧ Undone t faulty (t.commit faulty).2.1 (t.commit faulty).2.2
    ∧ ((t.commit faulty).2.1.commit
        { (t.commit faulty).2.2 with engine := FaultyEngine.mk inner {} }).1 = .ok ()
    ∧ (∃ e, (t.commit armed).1 = .error e)
    ∧ ((t.commit armed).2.1.commit (t.commit armed).2.2).1 = .ok () := by
  intro t inner faulty armed
  have herror : (t.commit faulty).1 = .error (.storage (.unreadableRow 1)) := rfl
  obtain ⟨hundone, hagain⟩ :=
    commit_all_or_nothing_again.1 (t := t) (r := faulty) rfl rfl (Or.inl rfl) herror
  obtain ⟨batch, hb, hfails, _, hretry⟩ :=
    commit_all_or_nothing_again.2 (t := t) (r := armed) (n := 1) rfl rfl (Or.inl rfl) rfl
  have hlength : 1 < batch.length := by
    have hbatch : t.buffer.batch armed.engine = .ok [.delete [1, 5], .put [1, 7] [8]] := rfl
    rw [← Except.ok.inj (hbatch.symm.trans hb)]
    decide
  exact ⟨herror, hundone, (hagain ⟨inner, {}⟩ (FaultyEngine.healthy rfl) rfl).1,
    hfails.mpr hlength, (hretry hlength).1⟩

end Transaction

end TableStore
