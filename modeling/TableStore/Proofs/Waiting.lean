import Mathlib.Logic.ExistsUnique
import TableStore.Proofs.Lock

/-!
# Waiting for the writer lock

Two calls wait for the lock: the begin of a writer, and a commit that has given the lock back and
needs it once more. What the second answers may also be the engine's, and one has to know which
of the two it is: an error of a commit that had the lock is a complaint of the engine
(`Repository.writeBuffer_error`), and an engine has no reason to complain about a lock
(`PatientEngine`).

A wait that is not rewarded leaves nothing but itself on record (`History.waited`). With the
account of the holds this is all there is to say of the lock (`History.lock_accounting`).
-/

namespace TableStore

variable {ε : Type} [StorageEngine ε]

/-! ## Whose refusal it is -/

/-- An error that an engine answers with: to a walk, on a walk, or to a write. -/
inductive StorageEngine.Complains (engine : ε) (e : StoreError) : Prop where
  | scan {range : KeyRange} {order : ScanOrder}
    (answer : StorageEngine.scan engine range order = .error e)
  | walk {range : KeyRange} {order : ScanOrder} {walk : Walk}
    (answer : StorageEngine.scan engine range order = .ok walk) (on : .error e ∈ walk)
  | write {batch : WriteBatch} {sync : Bool}
    (answer : (StorageEngine.write engine batch sync).1 = .error e)

/-- An engine that does not complain about the writer lock, of which it knows nothing. -/
class PatientEngine (ε : Type) [StorageEngine ε] : Prop where
  not_lockTimeout (engine : ε) (ms : Nat) : ¬ StorageEngine.Complains engine (.lockTimeout ms)

theorem not_mem_map_ok (entries : List Entry) (e : StoreError) :
    (.error e : Except StoreError Entry) ∉ entries.map .ok := by
  intro he
  obtain ⟨_, _, h⟩ := List.mem_map.mp he
  exact absurd h (by simp)

/-- An engine that fails at no read complains about its writes alone. -/
theorem PatientEngine.of_answers {ε : Type} [StorageEngine ε]
    (h : ∀ engine : ε, StorageEngine.Answers engine)
    (hwrite : ∀ (engine : ε) (batch : WriteBatch) (sync : Bool) (ms : Nat),
      (StorageEngine.write engine batch sync).1 ≠ .error (.lockTimeout ms)) : PatientEngine ε where
  not_lockTimeout engine ms hc := by
    cases hc with
    | scan answer =>
        rw [(h engine).scan_eq] at answer
        exact absurd answer (by simp)
    | walk answer on =>
        rw [(h engine).scan_eq] at answer
        exact not_mem_map_ok _ _ (Except.ok.inj answer ▸ on)
    | write answer => exact hwrite engine _ _ ms answer

instance : PatientEngine MemoryEngine := .of_answers MemoryEngine.answers (by
  intro engine batch sync ms answer
  obtain ⟨n, hn⟩ := MemoryEngine.write_error answer
  exact absurd hn (by simp))

instance : PatientEngine DiskEngine :=
  .of_answers (fun engine => engine.healthy.toAnswers) (by
    intro engine batch sync ms answer
    rw [engine.healthy.write_ok batch sync] at answer
    exact absurd answer (by simp))

instance : PatientEngine FaultyEngine where
  not_lockTimeout engine ms h := by
    -- a fault speaks in its own words, and what is behind it is patient
    have hscan : ∀ range order, StorageEngine.scan engine range order
        = FaultyEngine.guard engine.faults.scan
          (.ok (((engine.inner.rows.within range order).map .ok).mapIdx
            (FaultyEngine.spoil engine.faults))) := by
      intro range order
      show FaultyEngine.guard _ ((StorageEngine.scan engine.inner range order).map _) = _
      rw [engine.inner.scan_eq]
      rfl
    cases h with
    | scan answer =>
        rw [hscan] at answer
        unfold FaultyEngine.guard at answer
        split at answer <;> exact absurd answer (by simp)
    | walk answer on =>
        rw [hscan] at answer
        unfold FaultyEngine.guard at answer
        split at answer
        · exact absurd answer (by simp)
        · rw [← Except.ok.inj answer] at on
          obtain ⟨i, hi, he⟩ := List.mem_mapIdx.mp on
          rw [List.getElem_map] at he
          unfold FaultyEngine.spoil at he
          split at he
          · exact absurd he (by simp)
          · split at he <;> exact absurd he (by simp [Except.map])
    | write answer =>
        rename_i batch sync
        change (engine.write batch sync).1 = _ at answer
        unfold FaultyEngine.write at answer
        dsimp only at answer
        split at answer
        · exact absurd answer (by simp)
        · have hinner :
              (StorageEngine.write engine.inner batch sync).1 = .error (.lockTimeout ms) := answer
          exact PatientEngine.not_lockTimeout engine.inner ms (.write hinner)

section Complaints

variable {engine : ε} {e : StoreError}

theorem WriteBuffer.sweep_error {changes : TableChanges} {walk : Walk}
    (h : sweep changes walk = .error e) : .error e ∈ walk := by
  induction walk with
  | nil => exact absurd h (by simp [sweep])
  | cons entry rest ih =>
      cases entry with
      | error e' =>
          rw [sweep] at h
          exact Except.error.inj h ▸ List.mem_cons_self
      | ok row =>
          rw [sweep] at h
          split at h
          · rename_i hrest
            exact List.mem_cons_of_mem _ (ih (hrest.trans (congrArg _ (Except.error.inj h))))
          · exact absurd h (by simp)

theorem WriteBuffer.sweepAll_error {b : WriteBuffer} {slots : List UInt8}
    (h : b.sweepAll engine slots = .error e) : StorageEngine.Complains engine e := by
  induction slots with
  | nil => exact absurd h (by simp [sweepAll])
  | cons slot rest ih =>
      rw [sweepAll] at h
      split at h
      · rename_i hscan
        exact .scan (hscan.trans (congrArg _ (Except.error.inj h)))
      · rename_i hscan
        split at h
        · rename_i hsweep
          exact .walk hscan (sweep_error (hsweep.trans (congrArg _ (Except.error.inj h))))
        · split at h
          · rename_i hrest
            exact ih (hrest.trans (congrArg _ (Except.error.inj h)))
          · exact absurd h (by simp)

/-- A buffer that is not written is a complaint of the engine. -/
theorem Repository.writeBuffer_error {r : Repository ε} {b : WriteBuffer}
    (h : (r.writeBuffer b).1 = .error e) : StorageEngine.Complains r.engine e := by
  unfold writeBuffer at h
  split at h
  · rename_i hb
    unfold WriteBuffer.batch at hb
    split at hb
    · rename_i hsweep
      have hall : b.sweepAll r.engine b.cleared.keys = .error e := by
        rw [hsweep, Except.error.inj hb, Except.error.inj h]
      exact WriteBuffer.sweepAll_error hall
    · exact absurd hb (by simp)
  · split at h
    · exact absurd h (by simp)
    · split at h
      · rename_i hw
        exact .write ((congrArg Prod.fst hw).trans (congrArg _ (Except.error.inj h)))
      · exact absurd h (by simp)

end Complaints

namespace Transaction

variable {t : Transaction} {r : Repository ε}

/-- A commit that has to ask for the lock, and is refused, has done nothing else. -/
theorem commit_of_held (hactive : t.state = .active) (hmode : t.mode = .readWrite)
    (hno : t.holdsWriter = false) (hheld : r.lockHeld = true) :
    t.commit r = (.error (.lockTimeout ((r.config.writerWait.timeoutMs?.getD 0).toNat)), t,
      r.waited) := by
  unfold commit requireActive
  rw [hactive, hmode]
  dsimp only
  rw [if_neg (by simp [hno]), Repository.acquireWriter_of_held hheld]

/-- **A commit is refused for the lock just when somebody else has it.** -/
theorem commit_lockTimeout_iff [PatientEngine ε] (hactive : t.state = .active)
    (hmode : t.mode = .readWrite) (hno : t.holdsWriter = false) :
    (∃ ms, (t.commit r).1 = .error (.lockTimeout ms)) ↔ r.lockHeld = true := by
  constructor
  · rintro ⟨ms, he⟩
    cases hheld : r.lockHeld with
    | true => rfl
    | false =>
        exfalso
        rcases commit_cases hactive hmode (Or.inr hheld) with ⟨e, hw, hc⟩ | ⟨batch, _, hc⟩
        · rw [hc] at he
          rw [Except.error.inj he] at hw
          exact PatientEngine.not_lockTimeout _ ms (Repository.writeBuffer_error hw)
        · rw [hc] at he
          exact absurd he (by simp)
  · exact fun hheld => ⟨_, congrArg Prod.fst (commit_of_held hactive hmode hno hheld)⟩

end Transaction

/-! ## The lock over a whole history -/

namespace History

variable {h : History ε}

/-- The history after a wait for the lock: one more wait is on record, and that is all. -/
def waited (h : History ε) : History ε := { h with session.repo := h.repo.waited }

/-- A begin that finds the lock held is a wait. -/
theorem take_begin_of_held (hheld : h.repo.lockHeld = true) (name : String) :
    h.take (.step name (.begin .readWrite)) = h.waited := by
  have hbegin := Session.begin_error (Transaction.begin_readWrite_of_held hheld) name
  unfold take Session.step?
  dsimp only
  rw [hbegin]
  rfl

/-- A commit that has to ask for the lock, and finds it held, is a wait. -/
theorem take_commit_of_held {name : String} {t : Transaction}
    (ht : h.session.transaction? name = some t) (hactive : t.state = .active)
    (hmode : t.mode = .readWrite) (hno : t.holdsWriter = false) (hheld : h.repo.lockHeld = true) :
    h.take (.step name (.act .commit)) = h.waited := by
  have hcommit : Action.run .commit t h.session.repo
      = (.error (.lockTimeout ((h.repo.config.writerWait.timeoutMs?.getD 0).toNat)), t,
        h.repo.waited) := Transaction.commit_of_held hactive hmode hno hheld
  unfold take
  dsimp only
  rw [Session.update?_some ht, hcommit]
  dsimp only
  rw [Session.transactions_insert_self ht]
  rfl

/--
**The writer lock is accounted for.** In every history the flag is set just when one transaction
holds the lock, and no two do; holders are active writers. A step of a transaction that holds
nothing leaves the flag and all holds as they are, so it cannot free what is another's. A holder
that commits, is rolled back or is let go frees the lock, however that ends, and from then on it
is one that holds nothing: it frees the lock once.

With a wait of no time, a writer begins or is refused by the flag alone, and so is a commit that
has to ask for the lock again. The refusal is on record as one more wait, and nothing else is.
-/
theorem lock_accounting (hr : Reachable h) :
    (h.repo.lockHeld = true ↔ ∃! name, h.session.Owns name)
    ∧ (∀ a b, h.session.Owns a → h.session.Owns b → a = b)
    ∧ (∀ name t, h.session.transaction? name = some t → t.mode = .read ∨ t.state ≠ .active →
      t.holdsWriter = false)
    ∧ (∀ name step, (∀ mode, step ≠ .begin mode) → ¬ h.session.Owns name →
      (h.take (.step name step)).repo.lockHeld = h.repo.lockHeld
      ∧ ∀ other, (h.take (.step name step)).session.Owns other ↔ h.session.Owns other)
    ∧ (∀ name step, step.isEnding = true → h.session.Owns name →
      (h.take (.step name step)).repo.lockHeld = false
      ∧ ∀ k, Span name (h.take (.step name step)) k → ¬ k.session.Owns name)
    ∧ (h.repo.config.writerWait = .boundedMs 0 →
      (∀ name, (h.session.begin name .readWrite).1
        = if h.repo.lockHeld then .error (.lockTimeout 0) else .ok ())
      ∧ (h.repo.lockHeld = true →
        ∀ name, h.take (.step name (.begin .readWrite)) = h.waited)
      ∧ ∀ name t, h.session.transaction? name = some t → t.state = .active →
        t.mode = .readWrite → t.holdsWriter = false →
        (PatientEngine ε →
          ((∃ ms, (t.commit h.repo).1 = .error (.lockTimeout ms)) ↔ h.repo.lockHeld = true))
        ∧ (h.repo.lockHeld = true → (t.commit h.repo).1 = .error (.lockTimeout 0)
          ∧ h.take (.step name (.act .commit)) = h.waited)) := by
  have hs := lockAccounts_of_reachable hr
  refine ⟨?_, fun a b ha hb => hs.unique ha hb, fun name t ht hnot => ?_,
    fun name step hstep hno => lock_take_of_not_owns hs hno hstep, fun name step hstep ho => ?_,
    fun hwait => ⟨fun name => ?_, fun hheld name => take_begin_of_held hheld name,
      fun name t ht hactive hmode hno => ⟨fun _ => ?_, fun hheld => ⟨?_, ?_⟩⟩⟩⟩
  · exact hs.held_iff.trans ⟨fun ⟨name, ho⟩ => ⟨name, ho, fun _ hb => hs.unique hb ho⟩,
      fun ⟨name, ho, _⟩ => ⟨name, ho⟩⟩
  · refine Bool.eq_false_iff.mpr (fun hh => ?_)
    obtain ⟨hactive, hmode⟩ := hs.guarded ht hh
    rcases hnot with hread | hended
    · exact absurd (hread.symm.trans hmode) (by simp)
    · exact hended hactive
  · obtain ⟨hfree, hno⟩ := lock_take_of_owns hs ho hstep
    exact ⟨hfree, fun k hspan => hspan.not_owns hno⟩
  · cases hheld : h.repo.lockHeld with
    | true =>
        rw [Session.begin_error (Transaction.begin_readWrite_of_held hheld), if_pos rfl]
        rw [show h.session.repo.config.writerWait = _ from hwait]
        rfl
    | false =>
        rw [Session.begin_ok (Transaction.begin_readWrite_of_free hheld)]
        rfl
  · exact Transaction.commit_lockTimeout_iff hactive hmode hno
  · rw [Transaction.commit_of_held hactive hmode hno hheld, hwait]
    rfl
  · exact take_commit_of_held ht hactive hmode hno hheld

/-- A writer whose commit failed, beside the one that has the lock since. -/
theorem lock_accounting_after_failed_commit :
    let r : Repository MemoryEngine :=
      { engine := {}, registry := {}, config := { writerWait := .boundedMs 0 }
        events := [.repositoryOpened "memory" "data" 0] }
    let h := (start r).run [
      .step "a" (.begin .readWrite), .step "a" (.act (.put "t" [1] [5])),
      .fault (fun e => e.failWritesAfter 0) (fun _ => rfl), .step "a" (.act .commit),
      .step "b" (.begin .readWrite)]
    h.session.Owns "b" ∧ ¬ h.session.Owns "a"
    ∧ (h.take (.step "a" .drop)).repo.lockHeld = true
    ∧ h.take (.step "a" (.act .commit)) = h.waited
    ∧ (∃ a, h.session.transaction? "a" = some a
      ∧ ((∃ ms, (a.commit h.repo).1 = .error (.lockTimeout ms)) ↔ h.repo.lockHeld = true))
    ∧ (h.session.begin "c" .readWrite).1 = .error (.lockTimeout 0)
    ∧ (h.take (.step "b" .drop)).repo.lockHeld = false := by
  intro r h
  have hopened : Repository.onEngine ({} : MemoryEngine) { writerWait := .boundedMs 0 } = .ok r :=
    rfl
  have hreach : Reachable h := (Reachable.opened hopened).run _
  have hheld : h.repo.lockHeld = true := by decide +kernel
  have hwait : h.repo.config.writerWait = .boundedMs 0 := by decide +kernel
  have hstates : (h.session.transaction? "a").map (fun t => (t.state, t.mode, t.holdsWriter))
      = some (.active, .readWrite, false) := by decide +kernel
  have hholds : (h.session.transaction? "b").map (fun t => t.holdsWriter) = some true := by
    decide +kernel
  obtain ⟨t, ht, hsame⟩ := Option.map_eq_some_iff.mp hstates
  obtain ⟨u, hu, hh⟩ := Option.map_eq_some_iff.mp hholds
  have hb : h.session.Owns "b" := ⟨u, hu, hh⟩
  obtain ⟨_, hunique, _, hothers, hending, hbounded⟩ := lock_accounting hreach
  have ha : ¬ h.session.Owns "a" := fun ha => absurd (hunique _ _ ha hb) (by decide)
  obtain ⟨hbegins, _, hcommits⟩ := hbounded hwait
  obtain ⟨hstate, hrest⟩ := Prod.mk.inj hsame
  obtain ⟨hmode, hno⟩ := Prod.mk.inj hrest
  obtain ⟨hrefused, hwaited⟩ := hcommits "a" t ht hstate hmode hno
  refine ⟨hb, ha, ?_, (hwaited hheld).2, ⟨t, ht, hrefused inferInstance⟩, ?_,
    (hending "b" .drop rfl hb).1⟩
  · rw [(hothers "a" .drop (by simp) ha).1]
    exact hheld
  · rw [hbegins "c", hheld]
    rfl

end History

end TableStore
