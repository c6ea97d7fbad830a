import TableStore.Proofs.Lock
import TableStore.Proofs.ReadBack

/-!
# One writer at a time

A writer has the lock from its begin on, and while it has the lock nobody else begins to write
and nobody else's commit writes. So there is one writer at a time, and what it reads of the store
stays as it is.

With one exception, and it is meant: a commit whose write fails gives the lock back and leaves
the writer active, so that it can try again. From then on there may be a second writer beside it,
and a third; the first finds what they committed when it reads again
(`History.second_writer_after_failed_commit`). What holds of writers is thus said of the time
until their first failure, `History.FirstTry`, in which a writer has the lock
(`FirstTry.holds`).
-/

namespace TableStore

variable {ε : Type} [StorageEngine ε]

namespace History

/-- From the begin of a writer until a commit of it fails, or its name is another's. -/
structure FirstTry (name : String) (k h : History ε) : Prop where
  begun : ∃ before t r, Reachable before ∧ Transaction.begin .readWrite before.repo = (.ok t, r)
    ∧ k = before.take (.step name (.begin .readWrite))
  goesOn : Stretch (fun h turn => h.Begins name turn ∨ h.FailsCommit name turn) k h

variable {name : String} {k h : History ε} {t : Transaction}

/-- A writer that has just begun holds the lock. -/
theorem holds_of_begun {before : History ε} {r : Repository ε}
    (hb : Transaction.begin .readWrite before.repo = (.ok t, r)) {u : Transaction}
    (hu : (before.take (.step name (.begin .readWrite))).session.transaction? name = some u) :
    u.holdsWriter = true := by
  have hs : before.session.step? name (.begin .readWrite) = some (.ok (), _) :=
    congrArg some (Session.begin_ok hb name)
  rw [session_take hs, Session.transaction?_insert, if_pos rfl] at hu
  rw [← Option.some.inj hu]
  cases hheld : before.repo.lockHeld with
  | true =>
      rw [Transaction.begin_readWrite_of_held hheld] at hb
      exact absurd (Prod.mk.inj hb).1 (by simp)
  | false =>
      rw [Transaction.begin_readWrite_of_free hheld] at hb
      exact Except.ok.inj (Prod.mk.inj hb).1 ▸ rfl

namespace FirstTry

theorem reachable_begin (hf : FirstTry name k h) : Reachable k := by
  obtain ⟨before, t, r, hr, _, rfl⟩ := hf.begun
  exact hr.turn _

theorem reachable (hf : FirstTry name k h) : Reachable h := hf.goesOn.reachable hf.reachable_begin

/-- **In its first try a writer holds the lock.** -/
theorem holds (hf : FirstTry name k h) (ht : h.session.transaction? name = some t)
    (hactive : t.state = .active) : t.holdsWriter = true := by
  obtain ⟨hbegun, hstretch⟩ := hf
  induction hstretch generalizing t with
  | refl =>
      obtain ⟨before, u, r, _, hb, rfl⟩ := hbegun
      exact holds_of_begun hb ht
  | turn _ turn goesOn ih =>
      obtain ⟨u, hu, hbefore, hsame⟩ := continues_take (fun hb => goesOn (Or.inl hb)) ht hactive
      rcases hsame.holds with hholds | hfailed
      · exact hholds.trans (ih hu hbefore)
      · exact absurd (Or.inr hfailed) goesOn

end FirstTry

/-! ## What others store meanwhile -/

/-- While somebody holds the lock, a turn that is not its own commit makes tables at most. -/
theorem tables_take_of_owns [AtomicEngine ε] (hs : h.session.LockAccounts)
    (ho : h.session.Owns name) {turn : Turn ε} (hno : turn ≠ .step name (.act .commit)) :
    ∀ slot, slot ≠ registrySlot → (StorageEngine.rows (h.take turn).repo.engine).ofSlot slot
      = (StorageEngine.rows h.repo.engine).ofSlot slot := by
  intro slot hslot
  cases h.stored_take turn with
  | nothing same => exact congrArg (fun rows : Rows => rows.ofSlot slot) same.rows
  | opened made => exact made.ofSlot_rows hslot
  | written commit present active mode lock batch_eq registry rows =>
      -- who commits has the lock, and there is one who has it
      exfalso
      rename_i other t batch
      rcases lock with hholds | hfree
      · have hsame := hs.unique ((Session.owns_iff present).mpr hholds) ho
        exact hno (hsame ▸ commit)
      · exact hs.not_owns hfree name ho

/-- A commit that does not fail is the end of a writer. -/
theorem not_active_of_commit [AtomicEngine ε] {u : Transaction}
    (hu : h.session.transaction? name = some u) (hactive : u.state = .active)
    (hmode : u.mode = .readWrite) (hholds : u.holdsWriter = true)
    (hok : ¬ h.FailsCommit name (.step name (.act .commit)))
    (ht : (h.take (.step name (.act .commit))).session.transaction? name = some t) :
    t.state ≠ .active := by
  rw [session_take (Session.update?_some hu .commit), Session.transaction?_insert, if_pos rfl] at ht
  have hrun : (u.commit h.session.repo).2.1 = t := Option.some.inj ht
  cases hc : (u.commit h.session.repo).1 with
  | error e => exact absurd ⟨u, e, rfl, hu, hc⟩ hok
  | ok _ =>
      obtain ⟨_, _, _, hended⟩ := Transaction.commit_ok hactive hmode (Or.inl hholds) hc
      rw [← hrun, hended]
      simp [Transaction.finished]

namespace FirstTry

/-- **During the first try of a writer the tables of the store stay as they are.** -/
theorem tables_kept [AtomicEngine ε] (hf : FirstTry name k h)
    (ht : h.session.transaction? name = some t) (hactive : t.state = .active) :
    (∀ table slot, k.repo.registry.get? table = some slot →
      h.repo.registry.get? table = some slot)
    ∧ ∀ slot, slot ≠ registrySlot → (StorageEngine.rows h.repo.engine).ofSlot slot
      = (StorageEngine.rows k.repo.engine).ofSlot slot := by
  obtain ⟨hbegun, hstretch⟩ := hf
  induction hstretch generalizing t with
  | refl => exact ⟨fun _ _ hs => hs, fun _ _ => rfl⟩
  | turn before turn goesOn ih =>
      rename_i j
      have hj : FirstTry name k j := ⟨hbegun, before⟩
      obtain ⟨u, hu, hbefore, _⟩ := continues_take (fun hb => goesOn (Or.inl hb)) ht hactive
      obtain ⟨hkept, hrows⟩ := ih hu hbefore
      have haccount := lockAccounts_of_reachable hj.reachable
      have hholds := hj.holds hu hbefore
      -- its own commit would have ended it, or failed
      have hno : turn ≠ .step name (.act .commit) := by
        rintro rfl
        exact not_active_of_commit hu hbefore (haccount.guarded hu hholds).2 hholds
          (fun hfailed => goesOn (Or.inr hfailed)) ht hactive
      have htables := tables_take_of_owns haccount ⟨u, hu, hholds⟩ hno
      exact ⟨fun table slot hs => j.kept_take turn (hkept table slot hs),
        fun slot hslot => (htables slot hslot).trans (hrows slot hslot)⟩

end FirstTry

/--
**In its first try a writer is alone.** While a writer is active and no commit of it has failed,
no other writer is so: at most one writer is active without having failed to commit. And the rows
of every table, which it reads, are those of the time when it began, whatever others do
meanwhile; they may make tables, and where every row was someone's these have no rows.
-/
theorem first_try_is_alone (hf : FirstTry name k h) (ht : h.session.transaction? name = some t)
    (hactive : t.state = .active) :
    (∀ other k' u, FirstTry other k' h → h.session.transaction? other = some u →
      u.state = .active → other = name)
    ∧ (AtomicEngine ε →
      (∀ table slot, k.repo.registry.get? table = some slot →
        h.repo.registry.get? table = some slot)
      ∧ ∀ slot, slot ≠ registrySlot → (StorageEngine.rows h.repo.engine).ofSlot slot
        = (StorageEngine.rows k.repo.engine).ofSlot slot)
    ∧ (HonestEngine ε → k.repo.Covered →
      ∀ table, h.repo.committed table = k.repo.committed table) := by
  have haccount := lockAccounts_of_reachable hf.reachable
  have ho : h.session.Owns name := ⟨t, ht, hf.holds ht hactive⟩
  refine ⟨fun other k' u hf' hu hactive' => ?_, fun _ => hf.tables_kept ht hactive,
    fun _ hcovered table => ?_⟩
  · exact haccount.unique ⟨u, hu, hf'.holds hu hactive'⟩ ho
  · obtain ⟨hkept, hrows⟩ := hf.tables_kept ht hactive
    have hsound := (inv_of_reachable hf.reachable).store.sound
    have hcovers : k.repo.registry.Covers (StorageEngine.rows k.repo.engine) := hcovered
    unfold Repository.committed
    rw [Registry.rowsOf_congr hsound hrows, hcovers.rowsOf_eq hkept hsound]

/-- A writer beside one whose commit failed, which tries to commit in vain. -/
theorem first_try_is_alone_after_failed_commit :
    let r : Repository MemoryEngine :=
      { engine := {}, registry := {}, config := {}
        events := [.repositoryOpened "memory" "data" 0] }
    let before := (start r).run [
      .step "a" (.begin .readWrite), .step "a" (.act (.put "t" [1] [5])),
      .fault (fun e => e.failWritesAfter 0) (fun _ => rfl), .step "a" (.act .commit)]
    let h := (before.take (.step "b" (.begin .readWrite))).run [
      .step "b" (.act (.put "t" [2] [6])), .step "a" (.act .commit)]
    FirstTry "b" (before.take (.step "b" (.begin .readWrite))) h
    ∧ h.repo.committed "t" = before.repo.committed "t"
    ∧ ∀ k, ¬ FirstTry "a" k h := by
  intro r before h
  have hopened : Repository.onEngine ({} : MemoryEngine) {} = .ok r := rfl
  have hbefore : Reachable before := (Reachable.opened hopened).run _
  have hfree : before.repo.lockHeld = false := by decide +kernel
  have hcommitted : (before.take (.step "b" (.begin .readWrite))).repo.committed "t"
      = before.repo.committed "t" := SortedMap.ext (by decide +kernel)
  -- neither of the two turns is a begin, or a commit of "b"
  have hfirst : FirstTry "b" (before.take (.step "b" (.begin .readWrite))) h := by
    refine ⟨⟨before, _, _, hbefore, Transaction.begin_readWrite_of_free hfree, rfl⟩,
      Stretch.refl.run (fun turn hmem j => ?_)⟩
    rintro (⟨_, _, _, rfl, _⟩ | ⟨_, _, rfl, _⟩) <;> simp at hmem
  have hb : (h.session.transaction? "b").map (fun t => t.state) = some .active := by
    decide +kernel
  have ha : (h.session.transaction? "a").map (fun t => t.state) = some .active := by
    decide +kernel
  obtain ⟨t, ht, hactive⟩ := Option.map_eq_some_iff.mp hb
  obtain ⟨u, hu, hactive'⟩ := Option.map_eq_some_iff.mp ha
  obtain ⟨halone, _, hrows⟩ := first_try_is_alone hfirst ht hactive
  have hrow : (StorageEngine.rows (before.take (.step "b" (.begin .readWrite))).repo.engine).toList
      = [([0, 1], [116])] := by decide +kernel
  have hcovered : (before.take (.step "b" (.begin .readWrite))).repo.Covered := by
    intro key value hget
    have hmem := SortedMap.get?_eq_some_iff.mp hget
    rw [hrow, List.mem_singleton] at hmem
    exact Or.inl ⟨[1], congrArg Prod.fst hmem⟩
  refine ⟨hfirst, (hrows inferInstance hcovered "t").trans hcommitted, fun k hk => ?_⟩
  exact absurd (halone "a" k u hk hu hactive') (by decide)

theorem eq_ok_of_toOption {α : Type} {answer : Except StoreError α} {a : α}
    (h : answer.toOption = some a) : answer = .ok a := by
  cases answer with
  | error e => exact absurd h (by simp [Except.toOption])
  | ok b => exact congrArg _ (Option.some.inj h)

/-- **Two writers may be active.** The first failed to commit and goes on; the second has begun
since, and what it commits the first reads. -/
theorem second_writer_after_failed_commit :
    let r : Repository MemoryEngine :=
      { engine := {}, registry := {}, config := {}
        events := [.repositoryOpened "memory" "data" 0] }
    let h := (start r).run [
      .step "a" (.begin .readWrite), .step "a" (.act (.put "t" [1] [5])),
      .fault (fun e => e.failWritesAfter 0) (fun _ => rfl), .step "a" (.act .commit),
      .step "b" (.begin .readWrite), .step "b" (.act (.put "t" [2] [6]))]
    Reachable h
    ∧ (∃ a b, h.session.transaction? "a" = some a ∧ h.session.transaction? "b" = some b
      ∧ a.state = .active ∧ a.mode = .readWrite ∧ b.state = .active ∧ b.mode = .readWrite)
    ∧ ∃ a, (h.take (.step "b" (.act .commit))).session.transaction? "a" = some a
      ∧ a.state = .active ∧ a.get h.repo "t" [2] = .ok none
      ∧ a.get (h.take (.step "b" (.act .commit))).repo "t" [2] = .ok (some [6]) := by
  intro r h
  have hopened : Repository.onEngine ({} : MemoryEngine) {} = .ok r := rfl
  refine ⟨(Reachable.opened hopened).run _, ?_, ?_⟩
  · have ha : (h.session.transaction? "a").map (fun t => (t.state, t.mode))
        = some (.active, .readWrite) := by decide +kernel
    have hb : (h.session.transaction? "b").map (fun t => (t.state, t.mode))
        = some (.active, .readWrite) := by decide +kernel
    obtain ⟨a, ha, hsame⟩ := Option.map_eq_some_iff.mp ha
    obtain ⟨b, hb, hsame'⟩ := Option.map_eq_some_iff.mp hb
    exact ⟨a, b, ha, hb, congrArg Prod.fst hsame, congrArg Prod.snd hsame,
      congrArg Prod.fst hsame', congrArg Prod.snd hsame'⟩
  · have ha : ((h.take (.step "b" (.act .commit))).session.transaction? "a").map (fun t =>
        (t.state, (t.get h.repo "t" [2]).toOption,
          (t.get (h.take (.step "b" (.act .commit))).repo "t" [2]).toOption))
        = some (.active, some none, some (some [6])) := by decide +kernel
    obtain ⟨a, ha, hsame⟩ := Option.map_eq_some_iff.mp ha
    obtain ⟨hactive, hreads⟩ := Prod.mk.inj hsame
    obtain ⟨hfirst, hsecond⟩ := Prod.mk.inj hreads
    exact ⟨a, ha, hactive, eq_ok_of_toOption hfirst, eq_ok_of_toOption hsecond⟩

end History

end TableStore
