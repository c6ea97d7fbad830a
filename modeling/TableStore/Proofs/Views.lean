import TableStore.Proofs.Reads
import TableStore.Proofs.Serial

/-!
# What a writer reads is what it commits

The two ends of a writer's work meet here. On the one side all its reads show one table for
each name (`Transaction.reads_view`); on the other its buffer means the list of its changes
(`Registry.Mirrors`). So what it reads of a name is its own list replayed on the rows that are
committed at that moment (`view_eq`), and a reader of the code may forget the buffer.

And the batch of a commit makes every table what the buffer over it is. So a commit that
succeeds stores what the writer was reading, also when it is a second try and others have
committed since the first.
-/

namespace TableStore

variable {ε : Type} [StorageEngine ε]

namespace Transaction

variable {t : Transaction} {r : Repository ε} {log : List Action}

/-- Whoever reads the engine as it is reads its changes over the committed rows. -/
theorem view_eq_of_live (h : t.Tracked r.registry log) (hactive : t.state = .active)
    (hlive : t.source = .live) (table : String) :
    t.view r table = replay log table (r.committed table) := by
  have hsource : t.source.rows r.engine = StorageEngine.rows r.engine := by
    rw [hlive]
    rfl
  unfold view Repository.committed Registry.rowsOf Repository.slot?
  cases hs : r.registry.get? table with
  | none => exact ((h.mirrors hactive).of_none hs .empty).symm
  | some slot =>
      dsimp only
      rw [(h.mirrors hactive).of_some hs]
      unfold tableAt
      rw [hsource]

/-- **A writer reads its changes over the committed rows,** as if they had been made there one
after the other. -/
theorem view_eq (h : t.Tracked r.registry log) (hactive : t.state = .active)
    (hmode : t.mode = .readWrite) (table : String) :
    t.view r table = replay log table (r.committed table) :=
  view_eq_of_live h hactive (h.live hmode) table

/-- A transaction that begins reads what is committed. -/
theorem view_of_fresh (hbuffer : t.buffer = .empty)
    (hsource : t.source.rows r.engine = StorageEngine.rows r.engine) (table : String) :
    t.view r table = r.committed table := by
  unfold view tableAt Repository.committed Registry.rowsOf Repository.slot?
  rw [hbuffer, hsource]
  cases r.registry.get? table with
  | none => rfl
  | some slot => exact WriteBuffer.overlay_empty slot _

/-- Whoever can begin reads precisely what is committed; only a writer waits for the lock. -/
theorem begin_reads_of_lock (mode : TransactionMode)
    (hfree : mode = .readWrite → r.lockHeld = false)
    (hsound : r.registry.Sound) (h : StorageEngine.Answers r.engine) :
    ∃ t' r', begin mode r = (.ok t', r') ∧ t'.ReadsAs r' r.committed := by
  have hfresh : ∀ (t' : Transaction) (r' : Repository ε), t'.buffer = .empty →
      t'.state = .active → r'.engine = r.engine → r'.registry = r.registry →
      t'.source.rows r.engine = StorageEngine.rows r.engine → t'.ReadsAs r' r.committed := by
    intro t' r' hbuffer hactive hengine hregistry hsource
    have hreads := reads_view hactive (hregistry ▸ hsound) (hengine ▸ h)
    have hview : t'.view r' = r.committed := by
      funext table
      rw [view_of_fresh hbuffer (hengine ▸ hsource)]
      unfold Repository.committed
      rw [hengine, hregistry]
    exact hview ▸ hreads
  unfold begin
  cases mode with
  | read =>
      dsimp only
      by_cases hs : r.config.useSnapshots = true
      · rw [if_pos hs]
        rcases h.snapshot_eq with hnone | hsome
        · rw [hnone]
          exact ⟨_, r, rfl, hfresh _ r rfl rfl rfl rfl rfl⟩
        · rw [hsome]
          exact ⟨_, r, rfl, hfresh _ r rfl rfl rfl rfl rfl⟩
      · rw [if_neg hs]
        exact ⟨_, r, rfl, hfresh _ r rfl rfl rfl rfl rfl⟩
  | readWrite =>
      unfold Repository.acquireWriter
      rw [hfree rfl]
      exact ⟨_, _, rfl, hfresh _ _ rfl rfl rfl rfl rfl⟩

theorem begin_reads (mode : TransactionMode) (hfree : r.lockHeld = false)
    (hsound : r.registry.Sound) (h : StorageEngine.Answers r.engine) :
    ∃ t' r', begin mode r = (.ok t', r') ∧ t'.ReadsAs r' r.committed :=
  begin_reads_of_lock mode (fun _ => hfree) hsound h

end Transaction

namespace History

variable {h : History ε} {name : String} {t : Transaction}

/-! ## Reads -/

/--
**Reads refine a plain map for each name.** Begin a record at any time at which every row is
the registry's or a table's. As long as no change is committed, whatever else happens, a writer
reads of every name the rows that were committed at that time with its own changes made on
them, one after the other: put, erase, make empty.
-/
theorem reads_refine_maps [HonestEngine ε] (hr : Reachable h) (hcovered : h.origin.Covered)
    (hquiet : h.commits.flatten = []) (ht : h.session.transaction? name = some t)
    (hactive : t.state = .active) (hmode : t.mode = .readWrite)
    (hanswers : StorageEngine.Answers h.repo.engine) :
    t.ReadsAs h.repo (fun table => replay (h.pending name) table (h.origin.committed table)) := by
  have hi := inv_of_reachable hr
  have hview : t.view h.repo
      = fun table => replay (h.pending name) table (h.origin.committed table) := by
    funext table
    rw [Transaction.view_eq (hi.tracked ht) hactive hmode, hi.store.committed_eq hcovered, hquiet]
    rfl
  rw [← hview]
  exact Transaction.reads_view hactive hi.store.sound hanswers

/-- A writer whose commit failed, beside one that has made a table since. -/
theorem reads_refine_maps_after_failed_commit :
    let r : Repository MemoryEngine :=
      { engine := {}, registry := {}, config := {}
        events := [.repositoryOpened "memory" "data" 0] }
    let stored := (start r).run [
      .step "a" (.begin .readWrite), .step "a" (.act (.put "t" [1] [5])),
      .step "a" (.act (.put "t" [2] [6])), .step "a" (.act .commit)]
    let h := stored.resume.run [
      .step "a" (.begin .readWrite), .step "a" (.act (.clear "t")),
      .step "a" (.act (.put "t" [2] [7])), .fault (fun e => e.failWritesAfter 0) (fun _ => rfl),
      .step "a" (.act .commit), .step "b" (.begin .readWrite),
      .step "b" (.act (.put "u" [3] [8]))]
    ∃ t, h.session.transaction? "a" = some t
    ∧ t.ReadsAs h.repo
      (fun table => replay [.clear "t", .put "t" [2] [7]] table (stored.repo.committed table))
    ∧ t.getMany h.repo "t" [[1], [2]] = .ok [none, some [7]] := by
  intro r stored h
  have hopened : Repository.onEngine ({} : MemoryEngine) {} = .ok r := rfl
  have hreach : Reachable h := (((Reachable.opened hopened).run _).resume).run _
  have horigin : h.origin = stored.repo := origin_run _ _
  have hrows : (StorageEngine.rows stored.repo.engine).toList
      = [([0, 1], [116]), ([1, 1], [5]), ([1, 2], [6])] := by decide +kernel
  have hcovered : h.origin.Covered := by
    rw [horigin]
    intro key value hrow
    have hmem := SortedMap.get?_eq_some_iff.mp hrow
    rw [hrows] at hmem
    have ht : stored.repo.registry.get? "t" = some 1 := by decide +kernel
    simp only [List.mem_cons, Prod.mk.injEq, List.not_mem_nil, or_false] at hmem
    rcases hmem with ⟨hk, _⟩ | ⟨hk, _⟩ | ⟨hk, _⟩
    · exact Or.inl ⟨[1], hk⟩
    · exact Or.inr ⟨"t", 1, [1], ht, hk⟩
    · exact Or.inr ⟨"t", 1, [2], ht, hk⟩
  have hquiet : h.commits.flatten = [] := by decide +kernel
  have hpending : h.pending "a" = [.clear "t", .put "t" [2] [7]] := by decide +kernel
  have hstate : (h.session.transaction? "a").map (fun t => (t.state, t.mode))
      = some (.active, .readWrite) := by decide +kernel
  obtain ⟨t, ht, hsame⟩ := Option.map_eq_some_iff.mp hstate
  have hreads := reads_refine_maps hreach hcovered hquiet ht (congrArg Prod.fst hsame)
    (congrArg Prod.snd hsame) h.repo.engine.answers
  rw [hpending, horigin] at hreads
  refine ⟨t, ht, hreads, (hreads.getMany_eq "t" [[1], [2]]).trans (congrArg Except.ok ?_)⟩
  decide +kernel

/-! ## Commits -/

/--
**A commit stores what the writer was reading.** For every name a walk over all keys just
before a commit that succeeds shows the rows that are committed just after it. Rows of tables
that the writer did not touch are as they were, and so are the registry and its rows. Whoever
begins then reads precisely the rows that are committed.
-/
theorem commit_installs_view [HonestEngine ε] (hr : Reachable h)
    (ht : h.session.transaction? name = some t) (hactive : t.state = .active)
    (hmode : t.mode = .readWrite) (hanswers : StorageEngine.Answers h.repo.engine)
    (hok : (t.commit h.repo).1 = .ok ()) :
    (∀ table order, ∃ cursor, t.scan h.repo table .all order false = .ok cursor
      ∧ ∀ n, (cursor.takeRows n).1
        = ((order.arrange ((t.commit h.repo).2.2.committed table).toList).map
            (fun e => .ok ⟨e.1, some e.2⟩)).take n)
    ∧ (∀ slot, ¬ t.buffer.Touches slot →
      (StorageEngine.rows (t.commit h.repo).2.2.engine).ofSlot slot
        = (StorageEngine.rows h.repo.engine).ofSlot slot)
    ∧ (t.commit h.repo).2.2.registry = h.repo.registry
    ∧ (StorageEngine.rows (t.commit h.repo).2.2.engine).ofSlot registrySlot
      = (StorageEngine.rows h.repo.engine).ofSlot registrySlot
    ∧ (StorageEngine.Answers (t.commit h.repo).2.2.engine → ∀ mode, ∃ t' r',
      Transaction.begin mode (t.commit h.repo).2.2 = (.ok t', r')
      ∧ t'.ReadsAs r' (t.commit h.repo).2.2.committed) := by
  have hi := inv_of_reachable hr
  have htracked := hi.tracked ht
  -- without the lock the commit would have failed
  have hlock : t.CanLock h.repo := by
    refine Classical.byContradiction (fun hlock => ?_)
    obtain ⟨⟨e, he⟩, _⟩ := Transaction.commit_of_not_canLock hactive hmode hlock
    rw [hok] at he
    exact absurd he (by simp)
  obtain ⟨⟨batch, hb, hrows⟩, hregistry, hfree, _⟩ :=
    Transaction.commit_ok hactive hmode hlock hok
  rw [WriteBuffer.batch_honest hb] at hrows
  have hslot : ∀ slot, (StorageEngine.rows (t.commit h.repo).2.2.engine).ofSlot slot
      = t.buffer.overlay slot ((StorageEngine.rows h.repo.engine).ofSlot slot) := by
    intro slot
    rw [hrows, WriteBuffer.ofSlot_applyTo_batchOn]
  have huntouched : ∀ slot, ¬ t.buffer.Touches slot →
      (StorageEngine.rows (t.commit h.repo).2.2.engine).ofSlot slot
        = (StorageEngine.rows h.repo.engine).ofSlot slot := by
    intro slot hno
    rw [hslot, WriteBuffer.overlay_of_not_touches hno]
  have hview : ∀ table, t.view h.repo table = (t.commit h.repo).2.2.committed table := by
    intro table
    unfold Transaction.view Transaction.tableAt Repository.committed Registry.rowsOf
      Repository.slot?
    rw [hregistry, htracked.live hmode]
    cases h.repo.registry.get? table with
    | none => rfl
    | some slot => exact (hslot slot).symm
  refine ⟨fun table order => ?_, huntouched, hregistry, huntouched registrySlot ?_, fun ha mode =>
    Transaction.begin_reads mode hfree (hregistry ▸ hi.store.sound) ha⟩
  · obtain ⟨cursor, hscan, hcursor⟩ :=
      (Transaction.reads_view hactive hi.store.sound hanswers).scan_eq table .all order false
    refine ⟨cursor, hscan, fun n => ?_⟩
    rw [hcursor n, hview table, Rows.within_all, List.map_map]
    rfl
  · exact htracked.owns.not_touches
      (fun table htable => hi.store.sound.ne_registrySlot htable rfl)

/-- A second try, after another writer has committed to the table that is to be cleared. -/
theorem commit_installs_view_second_try :
    let r : Repository MemoryEngine :=
      { engine := {}, registry := {}, config := {}
        events := [.repositoryOpened "memory" "data" 0] }
    let h := (start r).run [
      .step "a" (.begin .readWrite), .step "a" (.act (.clear "t")),
      .step "a" (.act (.put "t" [2] [7])), .fault (fun e => e.failWritesAfter 0) (fun _ => rfl),
      .step "a" (.act .commit), .step "b" (.begin .readWrite),
      .step "b" (.act (.put "t" [1] [5])), .step "b" (.act .commit)]
    ∃ t, h.session.transaction? "a" = some t ∧ (t.commit h.repo).1 = .ok ()
    ∧ ((t.commit h.repo).2.2.committed "t").toList = [([2], [7])]
    ∧ ∃ cursor, t.scan h.repo "t" .all .ascending false = .ok cursor
      ∧ (cursor.takeRows 9).1 = [.ok ⟨[2], some [7]⟩] := by
  intro r h
  have hopened : Repository.onEngine ({} : MemoryEngine) {} = .ok r := rfl
  have hreach : Reachable h := (Reachable.opened hopened).run _
  have hstate : (h.session.transaction? "a").map (fun t => (t.state, t.mode))
      = some (.active, .readWrite) := by decide +kernel
  have hanswer : (h.session.transaction? "a").map (fun t => (t.commit h.repo).1.isOk)
      = some true := by decide +kernel
  have hafter : (h.session.transaction? "a").map (fun t =>
      ((t.commit h.repo).2.2.committed "t").toList) = some [([2], [7])] := by decide +kernel
  obtain ⟨t, ht, hsame⟩ := Option.map_eq_some_iff.mp hstate
  rw [ht] at hanswer hafter
  have hrows : ((t.commit h.repo).2.2.committed "t").toList = [([2], [7])] :=
    Option.some.inj hafter
  have hok : (t.commit h.repo).1 = .ok () := by
    cases hc : (t.commit h.repo).1 with
    | ok _ => rfl
    | error e =>
        rw [Option.map_some, hc] at hanswer
        exact absurd (Option.some.inj hanswer) (by simp [Except.isOk, Except.toBool])
  obtain ⟨hview, _⟩ :=
    commit_installs_view hreach ht (congrArg Prod.fst hsame) (congrArg Prod.snd hsame)
      h.repo.engine.answers hok
  obtain ⟨cursor, hscan, hcursor⟩ := hview "t" .ascending
  refine ⟨t, ht, hok, hrows, cursor, hscan, ?_⟩
  rw [hcursor 9, ScanOrder.arrange, hrows]
  rfl

end History

end TableStore
