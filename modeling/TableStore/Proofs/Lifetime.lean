import TableStore.Proofs.Opening
import TableStore.Proofs.Turns
import TableStore.Proofs.Views

/-!
# The whole life of a store

A store is opened on some rows, works, is closed and is opened again on what it left. A
`Lifetime` is a history of this kind, and it begins on rows of which every one is the registry's
or a table's. `History.Intact` is what every moment of it has in common: the registry in memory
is the one among the rows, and no row is nobody's, neither now nor in a snapshot that is still
being read.

The three steps in which a table is made are one turn here, and a turn that fails stores nothing.
So the invariant has three cases for the store (`Session.Stored`), and each of them is a lemma
about `Registry.Faithful`. Reopening reads back what the rows say, which is what was there.

Nobody's rows are what a new table could inherit. There are none: its slot is new, so nobody had
it, neither among the rows nor in a snapshot nor in a buffer.
-/

namespace TableStore

open Repository (SameStore)

variable {ε : Type} [StorageEngine ε]

/-- An engine whose snapshots, if it has them, are its rows. -/
class SnapshotEngine (ε : Type) [StorageEngine ε] : Prop where
  snapshot_honest (engine : ε) (rows : Rows) :
    StorageEngine.snapshot engine = .ok (some rows) → rows = StorageEngine.rows engine

instance : SnapshotEngine MemoryEngine where
  snapshot_honest _ _ h := (Option.some.inj (Except.ok.inj h)).symm

instance : SnapshotEngine DiskEngine where
  snapshot_honest _ _ h := absurd (Except.ok.inj h) (by simp)

/-- The histories of a store over its whole life. -/
inductive Lifetime : History ε → Prop where
  | opened {engine : ε} {config : StoreConfig} {r : Repository ε}
    (opens : Repository.onEngine engine config = .ok r) (covered : r.Covered) :
    Lifetime (.start r)
  | turn {h : History ε} (before : Lifetime h) (turn : Turn ε) : Lifetime (h.take turn)
  | reopened {h : History ε} {s : Session ε} (before : Lifetime h)
    (again : h.session.reopen = .ok s) : Lifetime (.start s.repo)

theorem Lifetime.run {h : History ε} (hl : Lifetime h) (turns : List (Turn ε)) :
    Lifetime (h.run turns) := by
  induction turns generalizing h with
  | nil => exact hl
  | cons turn rest ih => exact ih (hl.turn turn)

/-! ## Opening and closing -/

theorem Repository.load_of_onEngine {engine : ε} {config : StoreConfig} {r : Repository ε}
    (h : onEngine engine config = .ok r) :
    r.engine = engine ∧ Registry.load engine = .ok r.registry := by
  unfold onEngine at h
  split at h
  · exact absurd h (by simp)
  · rename_i registry hload
    rw [← Except.ok.inj h]
    exact ⟨rfl, hload⟩

namespace Session

omit [StorageEngine ε] in
theorem engine_letGo (s : Session ε) (t : Transaction) :
    (s.letGo t).repo.engine = s.repo.engine := by
  have hroll : ∀ q : Repository ε, (t.rollback q).2.2.engine = q.engine := by
    intro q
    unfold Transaction.rollback Transaction.release
    split
    · rfl
    · split <;> rfl
  unfold letGo Transaction.drop
  dsimp only
  split
  · exact hroll _
  · exact hroll _

omit [StorageEngine ε] in
/-- Closing writes nothing. -/
theorem engine_close (s : Session ε) : s.close.repo.engine = s.repo.engine := by
  have hfold : ∀ (l : List (String × Transaction)) (s : Session ε),
      (l.foldl (fun s b => s.letGo b.2) s).repo.engine = s.repo.engine := by
    intro l
    induction l with
    | nil => exact fun s => rfl
    | cons b rest ih => exact fun s => (ih (s.letGo b.2)).trans (s.engine_letGo b.2)
  exact hfold _ _

theorem reopen_ok {s s' : Session ε} (h : s.reopen = .ok s') :
    s'.repo.engine = s.repo.engine ∧ Registry.load s.repo.engine = .ok s'.repo.registry := by
  unfold reopen at h
  dsimp only at h
  split at h
  · exact absurd h (by simp)
  · rename_i r hr
    obtain ⟨hengine, hload⟩ := Repository.load_of_onEngine hr
    rw [s.engine_close] at hengine hload
    rw [← Except.ok.inj h]
    exact ⟨hengine, hload⟩

end Session

/-! ## The snapshots -/

namespace Transaction

theorem snapshot_of_begin [SnapshotEngine ε] {mode : TransactionMode} {r r' : Repository ε}
    {t : Transaction} {rows : Rows} (h : begin mode r = (.ok t, r'))
    (hs : t.source = .snapshot rows) : rows = StorageEngine.rows r.engine := by
  unfold begin at h
  cases mode with
  | read =>
      dsimp only at h
      split at h
      · split at h
        · exact absurd (Prod.mk.inj h).1 (by simp)
        · rename_i rows' hsnapshot
          rw [← Except.ok.inj (Prod.mk.inj h).1] at hs
          exact SnapshotEngine.snapshot_honest _ _
            (hsnapshot.trans (by rw [ReadSource.snapshot.inj hs]))
        · rw [← Except.ok.inj (Prod.mk.inj h).1] at hs
          exact absurd hs (by simp)
      · rw [← Except.ok.inj (Prod.mk.inj h).1] at hs
        exact absurd hs (by simp)
  | readWrite =>
      dsimp only at h
      split at h
      · exact absurd (Prod.mk.inj h).1 (by simp)
      · rw [← Except.ok.inj (Prod.mk.inj h).1] at hs
        exact absurd hs (by simp)

/-- An action leaves a snapshot alone, or gives it up. -/
theorem source_run (a : Action) (t : Transaction) (r : Repository ε) :
    (a.run t r).2.1.source = t.source ∨ (a.run t r).2.1.source = .live := by
  by_cases ha : a.isChange = true
  · exact Or.inl (by rw [(onlyBuffer_run ha t r).same])
  · rcases Action.ends_of_not_isChange ha with rfl | rfl
    · show (t.commit r).2.1.source = _ ∨ (t.commit r).2.1.source = _
      unfold commit
      split
      · exact Or.inl rfl
      · split
        · exact Or.inr rfl
        · dsimp only
          split
          · exact Or.inl rfl
          · split
            · exact Or.inl rfl
            · exact Or.inr rfl
    · show (t.rollback r).2.1.source = _ ∨ (t.rollback r).2.1.source = _
      rcases t.rollback_cases r with ⟨e, hr⟩ | ⟨r', hr, _⟩
      · exact Or.inl (by rw [hr])
      · exact Or.inr (by rw [hr]; rfl)

end Transaction

namespace History

/-- A snapshot is an old one, or it was taken just now. -/
theorem snapshot_take [SnapshotEngine ε] {h : History ε} {turn : Turn ε} {name : String}
    {u : Transaction} {rows : Rows} (hu : (h.take turn).session.transaction? name = some u)
    (hs : u.source = .snapshot rows) :
    (∃ t, h.session.transaction? name = some t ∧ t.source = .snapshot rows)
    ∨ rows = StorageEngine.rows h.repo.engine := by
  cases cameFrom_take hu with
  | stayed present => exact Or.inl ⟨u, present, hs⟩
  | began turn_eq answer => exact Or.inr (Transaction.snapshot_of_begin answer hs)
  | acted turn_eq present result =>
      rename_i a t
      rw [← result] at hs
      rcases Transaction.source_run a t h.repo with hsame | hlive
      · exact Or.inl ⟨t, present, hsame ▸ hs⟩
      · rw [hlive] at hs
        exact absurd hs (by simp)

/-! ## The invariant -/

/-- What every moment in the life of a store has in common. -/
structure Intact (h : History ε) : Prop where
  inv : h.Inv
  faithful : h.repo.registry.Faithful (StorageEngine.rows h.repo.engine)
  /-- In a snapshot, too, every row is someone's. -/
  snapshots {name : String} {t : Transaction} {rows : Rows} :
    h.session.transaction? name = some t → t.source = .snapshot rows →
    h.repo.registry.Covers rows

theorem intact_start {r : Repository ε} (hf : r.registry.Faithful (StorageEngine.rows r.engine)) :
    Intact (start r) where
  inv := inv_start hf.sound
  faithful := hf
  snapshots ht := absurd ht (by simp [start, Session.transaction?])

theorem faithful_take [HonestEngine ε] {h : History ε} (hi : Intact h) (turn : Turn ε) :
    (h.take turn).repo.registry.Faithful (StorageEngine.rows (h.take turn).repo.engine) := by
  have hf := hi.faithful
  unfold repo at hf ⊢
  cases h.stored_take turn with
  | nothing same =>
      rw [same.registry, same.rows]
      exact hf
  | opened made => exact hf.opened made
  | written commit present active mode lock batch_eq registry rows =>
      -- the batch is the one over the rows of this moment, and the buffer's slots are tables'
      rw [registry, rows, WriteBuffer.batch_honest batch_eq]
      exact hf.written (hi.inv.tracked present).owns

theorem intact_take [HonestEngine ε] [SnapshotEngine ε] {h : History ε} (hi : Intact h)
    (turn : Turn ε) : Intact (h.take turn) where
  inv := inv_take hi.inv turn
  faithful := faithful_take hi turn
  snapshots hu hs := by
    have hcovers : ∀ rows, h.repo.registry.Covers rows → (h.take turn).repo.registry.Covers rows :=
      fun rows hc => hc.mono (fun _ _ ht => h.kept_take turn ht)
    rcases snapshot_take hu hs with ⟨t, ht, hsource⟩ | hnow
    · exact hcovers _ (hi.snapshots ht hsource)
    · exact hcovers _ (hnow ▸ hi.faithful.covers)

/-- **The invariant holds all life long.** -/
theorem intact_of_lifetime [HonestEngine ε] [SnapshotEngine ε] {h : History ε}
    (hl : Lifetime h) : Intact h := by
  induction hl with
  | opened opens covered =>
      obtain ⟨hengine, hload⟩ := Repository.load_of_onEngine opens
      rw [← hengine] at hload
      exact intact_start ⟨Registry.ofRows_of_load hload, covered⟩
  | turn _ turn ih => exact intact_take ih turn
  | reopened _ again ih =>
      obtain ⟨hengine, hload⟩ := Session.reopen_ok again
      have hread := Registry.ofRows_of_load hload
      -- what is read back is what was in memory, since the rows say one thing only
      have hregistry := Except.ok.inj (hread.symm.trans ih.faithful.readsBack)
      refine intact_start ⟨hengine ▸ hread, ?_⟩
      rw [hengine, hregistry]
      exact ih.faithful.covers

/-! ## New tables -/

variable {h : History ε} {table : String} {slot : UInt8}

/-- A table that a turn brought about was made in it. -/
theorem opened_of_new [AtomicEngine ε] {turn : Turn ε}
    (hnone : h.repo.registry.get? table = none)
    (hs : (h.take turn).repo.registry.get? table = some slot) :
    Repository.Opened h.repo (h.take turn).repo table slot := by
  have hsame : ¬ (h.take turn).repo.registry = h.repo.registry := by
    intro hregistry
    rw [hregistry, hnone] at hs
    exact absurd hs (by simp)
  cases h.stored_take turn with
  | nothing same => exact absurd same.registry hsame
  | written commit present active mode lock batch_eq registry rows => exact absurd registry hsame
  | opened made =>
      rename_i name slot'
      change Repository.Opened h.repo (h.take turn).repo name slot' at made
      have hname : table = name := by
        refine Classical.byContradiction (fun hne => ?_)
        rw [made.get?_of_ne hne, hnone] at hs
        exact absurd hs (by simp)
      subst hname
      exact Option.some.inj (made.known.symm.trans hs) ▸ made

/-- Under a new slot nobody reads anything, whether now or in a snapshot. -/
theorem Intact.view_new (hi : Intact h) {r' : Repository ε} {name : String} {u : Transaction}
    (hnone : h.repo.registry.get? table = none) (ho : Repository.Opened h.repo r' table slot)
    (hu : h.session.transaction? name = some u) : u.view r' table = .empty := by
  have hunused := ho.unused hi.faithful.sound hnone
  have hslot := (ho.sound hi.faithful.sound).ne_registrySlot ho.known
  have hsource : (u.source.rows r'.engine).ofSlot slot = .empty := by
    cases hs : u.source with
    | live =>
        show (StorageEngine.rows r'.engine).ofSlot slot = .empty
        rw [ho.ofSlot_rows hslot]
        exact hi.faithful.covers.ofSlot_eq_empty hslot hunused
    | snapshot rows => exact (hi.snapshots hu hs).ofSlot_eq_empty hslot hunused
  have hbuffer : ¬ u.buffer.Touches slot := (hi.inv.tracked hu).owns.not_touches hunused
  unfold Transaction.view Transaction.tableAt Repository.slot?
  rw [ho.known]
  dsimp only
  rw [hsource, WriteBuffer.overlay_of_not_touches hbuffer]

/-- A commit leaves the rows under the registry's slot as they are. -/
theorem ofSlot_registrySlot_commit [HonestEngine ε] (hi : Intact h) (name : String) :
    (StorageEngine.rows (h.take (.step name (.act .commit))).repo.engine).ofSlot registrySlot
      = (StorageEngine.rows h.repo.engine).ofSlot registrySlot := by
  have hstored := h.stored_take (.step name (.act .commit))
  have htook := h.took_take (.step name (.act .commit))
  unfold repo
  generalize (h.take (.step name (.act .commit))).session = s at hstored htook
  cases htook with
  | nobody absent needed => rfl
  | acted present =>
      rename_i t
      rcases t.stored_commit h.session.repo with hsame | ⟨_, _, _, _, batch, hbatch, hrows⟩
      · exact congrArg (fun rows : Rows => rows.ofSlot registrySlot) hsame.rows
      · rw [WriteBuffer.batch_honest hbatch] at hrows
        show (StorageEngine.rows (t.commit h.session.repo).2.2.engine).ofSlot registrySlot = _
        rw [hrows]
        exact hi.faithful.ofSlot_registrySlot (hi.inv.tracked present).owns

/--
**The registry never drifts, and no table inherits rows.** At every moment in the life of a store
an engine that holds its rows, and answers, reads back the registry that is in memory, mark and
all; and closing the store and opening it again ends with that registry. The mark is the highest
slot in use, different names have different slots, and the slots lie between the first and the
last of tables. Every row that is stored is the registry's row of a table or lies under the slot
of one.

So a table that is made has no rows, and no other transaction reads any in it, whenever it began.
And a commit leaves what is stored under the registry's slot as it is.
-/
theorem registry_never_drifts [HonestEngine ε] [SnapshotEngine ε] (hl : Lifetime h) :
    (∀ engine : ε, StorageEngine.Answers engine →
      StorageEngine.rows engine = StorageEngine.rows h.repo.engine →
      Registry.load engine = .ok h.repo.registry)
    ∧ (StorageEngine.Answers h.repo.engine →
      ∃ s, h.session.reopen = .ok s ∧ s.repo.registry = h.repo.registry)
    ∧ (∀ table slot, h.repo.registry.get? table = some slot →
      firstSlot ≤ slot ∧ slot ≤ h.repo.registry.lastGiven ∧ slot ≤ lastSlot)
    ∧ ((∃ table, h.repo.registry.get? table = some h.repo.registry.lastGiven)
      ∨ h.repo.registry.lastGiven = registrySlot ∧ ∀ table, h.repo.registry.get? table = none)
    ∧ (∀ a b slot, h.repo.registry.get? a = some slot → h.repo.registry.get? b = some slot → a = b)
    ∧ (∀ key value, (StorageEngine.rows h.repo.engine).get? key = some value →
      ∃ table slot, h.repo.registry.get? table = some slot
        ∧ (key = Registry.rowKey slot ∨ ∃ rest, key = physicalKey slot rest))
    ∧ (∀ name a table slot, h.repo.registry.get? table = none →
      (h.take (.step name (.act a))).repo.registry.get? table = some slot →
      (h.take (.step name (.act a))).repo.committed table = .empty
      ∧ ∀ other u, other ≠ name →
        (h.take (.step name (.act a))).session.transaction? other = some u → u.state = .active →
        StorageEngine.Answers (h.take (.step name (.act a))).repo.engine →
        ∃ tables, u.ReadsAs (h.take (.step name (.act a))).repo tables ∧ tables table = .empty)
    ∧ (∀ name,
      (StorageEngine.rows (h.take (.step name (.act .commit))).repo.engine).ofSlot registrySlot
        = (StorageEngine.rows h.repo.engine).ofSlot registrySlot) := by
  have hi := intact_of_lifetime hl
  have hsound := hi.faithful.sound
  refine ⟨fun engine ha hrows => ?_, fun ha => ?_, fun table slot hs => ?_, ?_,
    fun a b slot hx hy => hsound.injective hx hy, fun key value hrow => hi.faithful.mem_cases hrow,
    fun name a table slot hnone hs => ⟨?_, fun other u hne hu hactive ha => ?_⟩,
    fun name => ofSlot_registrySlot_commit hi name⟩
  · rw [Registry.load_eq ha, hrows]
    exact hi.faithful.readsBack
  · have hload : Registry.load h.session.close.repo.engine = .ok h.repo.registry := by
      rw [h.session.engine_close]
      exact (Registry.load_eq ha).trans hi.faithful.readsBack
    unfold Session.reopen Repository.onEngine
    dsimp only
    rw [hload]
    exact ⟨_, rfl, rfl⟩
  · obtain ⟨hfirst, hmark⟩ := hsound.inRange hs
    exact ⟨hfirst, hmark, UInt8.le_trans hmark hsound.mark_le⟩
  · exact (Registry.isHighest_of_ofRows hi.faithful.readsBack).2
  · have ho := opened_of_new hnone hs
    have hslot := (ho.sound hsound).ne_registrySlot ho.known
    unfold Repository.committed Registry.rowsOf
    rw [hs]
    dsimp only
    rw [ho.ofSlot_rows hslot]
    exact hi.faithful.covers.ofSlot_eq_empty hslot (ho.unused hsound hnone)
  · have ho := opened_of_new hnone hs
    have hold : h.session.transaction? other = some u := by
      cases cameFrom_take hu with
      | stayed present => exact present
      | began turn_eq answer => exact absurd turn_eq (by simp)
      | acted turn_eq present result =>
          -- the turn was another's
          simp only [Turn.step.injEq] at turn_eq
          exact absurd turn_eq.1.symm hne
    exact ⟨_, Transaction.reads_view hactive (ho.sound hsound) ha, hi.view_new hnone ho hold⟩

/-- A table whose making failed at first, a commit that failed, and a store opened anew. -/
theorem registry_never_drifts_failed_making :
    let r : Repository MemoryEngine :=
      { engine := {}, registry := {}, config := {}
        events := [.repositoryOpened "memory" "data" 0] }
    let h := (start r).run [
      .step "q" (.begin .read), .step "a" (.begin .readWrite),
      .fault (fun e => e.failWritesAfter 0) (fun _ => rfl), .step "a" (.act (.put "t" [1] [5])),
      .step "a" (.act (.put "t" [1] [5])), .fault (fun e => e.failWritesAfter 0) (fun _ => rfl),
      .step "a" (.act .commit), .step "a" (.act .rollback), .step "b" (.begin .readWrite)]
    Registry.load h.repo.engine = .ok h.repo.registry
    ∧ (∃ s, h.session.reopen = .ok s ∧ s.repo.registry.get? "t" = some 1
      ∧ Registry.load s.repo.engine = .ok s.repo.registry)
    ∧ (h.take (.step "b" (.act (.put "u" [3] [8])))).repo.committed "u" = .empty
    ∧ ∃ q, (h.take (.step "b" (.act (.put "u" [3] [8])))).session.transaction? "q" = some q
      ∧ q.get (h.take (.step "b" (.act (.put "u" [3] [8])))).repo "u" [3] = .ok none := by
  intro r h
  have hopened : Repository.onEngine ({} : MemoryEngine) {} = .ok r := rfl
  have hcovered : r.Covered :=
    fun key value hrow => absurd (show none = some value from hrow) (by simp)
  have hlife : Lifetime h := (Lifetime.opened hopened hcovered).run _
  have ht : h.repo.registry.get? "t" = some 1 := by decide +kernel
  have hu : h.repo.registry.get? "u" = none := by decide +kernel
  have hmade : (h.take (.step "b" (.act (.put "u" [3] [8])))).repo.registry.get? "u" = some 2 := by
    decide +kernel
  have hstate : ((h.take (.step "b" (.act (.put "u" [3] [8])))).session.transaction? "q").map
      (fun q => q.state) = some .active := by decide +kernel
  obtain ⟨q, hq, hactive⟩ := Option.map_eq_some_iff.mp hstate
  obtain ⟨hload, hreopen, _, _, _, _, hnew, _⟩ := registry_never_drifts hlife
  obtain ⟨s, hs, hregistry⟩ := hreopen h.repo.engine.answers
  obtain ⟨hloads, _⟩ := registry_never_drifts (hlife.reopened hs)
  obtain ⟨hempty, hreads⟩ := hnew "b" (.put "u" [3] [8]) "u" 2 hu hmade
  obtain ⟨tables, has, hnone⟩ := hreads "q" q (by decide) hq hactive (MemoryEngine.answers _)
  refine ⟨hload _ h.repo.engine.answers rfl, ⟨s, hs, by rw [hregistry]; exact ht, ?_⟩, hempty,
    q, hq, ?_⟩
  · exact hloads _ s.repo.engine.answers rfl
  · rw [has.get_eq, hnone]
    rfl

end History

end TableStore
