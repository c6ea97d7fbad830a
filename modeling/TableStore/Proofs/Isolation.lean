import TableStore.Proofs.Lifetime

/-!
# What a reader sees of others

A reader has no changes of its own, and while it is active it stays the transaction that began
(`History.Stretch.reader`). So what it reads depends on where it reads and on which tables there
are. The rows of a snapshot do not change; the registry does, for it is not part of a snapshot.
It gains tables, and the reader will find them if it asks. But the slot of a new table was
nobody's when the snapshot was taken, and where every row was someone's then there is nothing to
be found under it. So the reader sees the store of its begin, for every name
(`reads_of_snapshot`).

Without snapshots a reader sees what is committed, and that is the committed lists of changes
replayed on the first rows: of what others have pending there is nothing in it.

A range read is the third case. In memory its cursor walks over the rows of the time when it was
opened, so all that may happen between two of its steps is the same to it (`readAlong_eq`).
-/

namespace TableStore

variable {ε : Type} [StorageEngine ε]

namespace Transaction

variable {t : Transaction} {r : Repository ε}

/-- Without changes of its own a transaction counts the rows where it reads. -/
theorem count_of_clean (h : StorageEngine.Answers r.engine) (hactive : t.state = .active)
    (hclean : t.buffer = .empty) (table : String) :
    t.count r table = .ok (t.view r table).size := by
  unfold count view
  rw [readTable_of_active hactive]
  cases r.slot? table with
  | none => rfl
  | some slot =>
      dsimp only
      rw [stored_count_eq h slot]
      unfold tableAt
      rw [hclean, WriteBuffer.overlay_empty]
      rfl

theorem view_of_clean (hclean : t.buffer = .empty) (table : String) :
    t.view r table = r.registry.rowsOf (t.source.rows r.engine) table := by
  unfold view tableAt Registry.rowsOf Repository.slot?
  rw [hclean]
  cases r.registry.get? table with
  | none => rfl
  | some slot => exact WriteBuffer.overlay_empty slot _

/-- The reader that begins on a store in memory. -/
def reader (r : Repository MemoryEngine) : Transaction where
  mode := .read
  source := if r.config.useSnapshots then .snapshot (StorageEngine.rows r.engine) else .live

/-- It begins without fail. -/
theorem begin_read_memory (r : Repository MemoryEngine) : begin .read r = (.ok (reader r), r) := by
  have hsnapshot : StorageEngine.snapshot r.engine = .ok (some (StorageEngine.rows r.engine)) := rfl
  unfold begin reader
  dsimp only
  split
  · rw [hsnapshot]
  · rfl

end Transaction

/-! ## Readers -/

namespace History

theorem Stretch.lifetime {ends : History ε → Turn ε → Prop} {h k : History ε}
    (hs : Stretch ends h k) (hl : Lifetime h) : Lifetime k := by
  induction hs with
  | refl => exact hl
  | turn _ turn _ ih => exact ih.turn turn

theorem Stretch.kept [AtomicEngine ε] {ends : History ε → Turn ε → Prop} {h k : History ε}
    (hs : Stretch ends h k) {table : String} {slot : UInt8}
    (ht : h.repo.registry.get? table = some slot) : k.repo.registry.get? table = some slot := by
  induction hs with
  | refl => exact ht
  | turn _ turn _ ih => exact kept_take _ turn ih

/-- **A reader that is still active is the one that began.** -/
theorem Stretch.reader {name : String} {h k : History ε} {t u : Transaction}
    (hs : Span name h k) (ht : h.session.transaction? name = some t) (hread : t.mode = .read)
    (hu : k.session.transaction? name = some u) (hactive : u.state = .active) : u = t := by
  induction hs generalizing u with
  | refl => exact Option.some.inj (hu.symm.trans ht)
  | turn _ turn stays ih =>
      obtain ⟨v, hv, hbefore, hsame⟩ := continues_take stays hu hactive
      have hvt := ih hv hbefore
      exact (hsame.reader (hvt ▸ hread)).trans hvt

/-- Every row was someone's when the record began. -/
theorem covered_origin [HonestEngine ε] [SnapshotEngine ε] {h : History ε} (hl : Lifetime h) :
    h.origin.Covered := by
  induction hl with
  | opened opens covered => exact covered
  | turn _ turn ih =>
      rw [origin_take]
      exact ih
  | reopened before again _ =>
      exact (intact_of_lifetime (.reopened before again)).faithful.covers

section Memory

variable {h k : History MemoryEngine} {name : String} {u : Transaction}

theorem begun_reader (h : History MemoryEngine) (name : String) :
    (h.take (.step name (.begin .read))).session.transaction? name = some (.reader h.repo) := by
  have hs : h.session.step? name (.begin .read) = some (.ok (), _) :=
    congrArg some (Session.begin_ok (Transaction.begin_read_memory h.session.repo) name)
  rw [session_take hs, Session.transaction?_insert, if_pos rfl]
  rfl

theorem eq_reader (hs : Span name (h.take (.step name (.begin .read))) k)
    (hu : k.session.transaction? name = some u) (hactive : u.state = .active) :
    u = .reader h.repo :=
  hs.reader (h.begun_reader name) rfl hu hactive

/-- **A snapshot is the store of the begin,** also for tables that were made since. -/
theorem view_of_snapshot (hl : Lifetime h) (hsnapshots : h.repo.config.useSnapshots = true)
    (hs : Span name (h.take (.step name (.begin .read))) k)
    (hu : k.session.transaction? name = some u) (hactive : u.state = .active) :
    u.view k.repo = h.repo.committed := by
  have hreader := eq_reader hs hu hactive
  have hclean : u.buffer = .empty := by rw [hreader]; rfl
  have hsource : u.source.rows k.repo.engine = StorageEngine.rows h.repo.engine := by
    rw [hreader]
    unfold Transaction.reader
    rw [if_pos hsnapshots]
    rfl
  have hkept : ∀ table slot, h.repo.registry.get? table = some slot →
      k.repo.registry.get? table = some slot :=
    fun table slot ht => hs.kept (h.kept_take _ ht)
  have hsound := (intact_of_lifetime (hs.lifetime (hl.turn _))).faithful.sound
  funext table
  rw [Transaction.view_of_clean hclean, hsource]
  exact (intact_of_lifetime hl).faithful.covers.rowsOf_eq hkept hsound table

/-- Without snapshots a reader reads what is committed. -/
theorem view_of_live (hlive : h.repo.config.useSnapshots = false)
    (hs : Span name (h.take (.step name (.begin .read))) k)
    (hu : k.session.transaction? name = some u) (hactive : u.state = .active) :
    u.view k.repo = k.repo.committed := by
  have hreader := eq_reader hs hu hactive
  have hclean : u.buffer = .empty := by rw [hreader]; rfl
  have hsource : u.source = .live := by
    rw [hreader]
    unfold Transaction.reader
    rw [if_neg (by simp [hlive])]
  funext table
  exact Transaction.view_of_fresh hclean (by rw [hsource]; rfl) table

end Memory

/-! ## Cursors -/

/-- What a cursor returns that is asked for a row after each group of turns. -/
def readAlong (h : History ε) (c : MergeCursor) :
    (schedule : List (List (Turn ε))) → List (Except StoreError Row)
  | [] => []
  | turns :: rest =>
    match (c.catchUp (h.run turns).repo.engine).next with
    | (none, _) => []
    | (some row, c) => row :: (h.run turns).readAlong c rest

/-- A cursor follows its engine no more once it was asked for a row. -/
theorem following_next {c : MergeCursor} (h : c.following = none) : c.next.2.following = none := by
  unfold MergeCursor.next
  split
  · exact h
  · split <;> rfl

/-- **What happens between two steps of a cursor is the same to it,** unless it still follows its
engine. -/
theorem readAlong_eq (h : History ε) {c : MergeCursor} (hc : c.following = none)
    (schedule : List (List (Turn ε))) :
    h.readAlong c schedule = (c.takeRows schedule.length).1 := by
  induction schedule generalizing h c with
  | nil => rfl
  | cons turns rest ih =>
      have hstill : c.catchUp (h.run turns).repo.engine = c := by
        unfold MergeCursor.catchUp
        rw [hc]
      have hnext := following_next hc
      rw [readAlong, hstill, List.length_cons, MergeCursor.takeRows]
      generalize c.next = result at hnext
      obtain ⟨row, c'⟩ := result
      cases row with
      | none => rfl
      | some row => exact congrArg (row :: ·) (ih (h.run turns) hnext)

/-- A cursor over rows in memory has what it walks over. -/
theorem following_of_scan {t : Transaction} {r : Repository MemoryEngine} {table : String}
    {range : KeyRange} {order : ScanOrder} {keysOnly : Bool} {c : MergeCursor}
    (h : t.scan r table range order keysOnly = .ok c) : c.following = none := by
  unfold Transaction.scan Transaction.readTable at h
  split at h
  · exact absurd h (by simp)
  · split at h
    · exact Except.ok.inj h ▸ rfl
    · rename_i slot _
      dsimp only at h
      split at h
      · exact Except.ok.inj h ▸ rfl
      · split at h
        · exact absurd h (by simp)
        · rw [← Except.ok.inj h]
          show t.followed r slot range = none
          unfold Transaction.followed
          split
          · rfl
          · rfl

/-! ## Isolation -/

/--
**Reads are isolated,** over any interleaving in the life of a store in memory. A reader begins
without fail, and for as long as it is active each of its reads, whenever it is made, answers for
every name from one table. With snapshots it is the table that was committed when the reader
began; without them it is the one that is committed now, which is made by the changes of those
who committed and of nobody else.

A cursor of any active transaction returns the rows that the transaction saw when it opened the
cursor, whatever happens before and between its steps.
-/
theorem reads_are_isolated {h : History MemoryEngine} (hl : Lifetime h) :
    (∀ name, (h.session.begin name .read).1 = .ok ())
    ∧ (∀ name k u, Span name (h.take (.step name (.begin .read))) k →
      k.session.transaction? name = some u → u.state = .active →
      (h.repo.config.useSnapshots = true →
        u.ReadsAs k.repo h.repo.committed
        ∧ ∀ table, u.count k.repo table = .ok (h.repo.committed table).size)
      ∧ (h.repo.config.useSnapshots = false →
        u.ReadsAs k.repo k.repo.committed
        ∧ (∀ table, u.count k.repo table = .ok (k.repo.committed table).size)
        ∧ ∀ table,
          k.repo.committed table = replay k.commits.flatten table (k.origin.committed table)))
    ∧ (∀ name t, h.session.transaction? name = some t → t.state = .active →
      ∀ table range order keysOnly, ∃ c, t.scan h.repo table range order keysOnly = .ok c
        ∧ ∀ schedule, h.readAlong c schedule
          = ((((t.view h.repo table).within range order).map (Row.of keysOnly)).map .ok).take
              schedule.length) := by
  refine ⟨fun name => ?_, fun name k u hs hu hactive => ?_,
    fun name t ht hactive table range order keysOnly => ?_⟩
  · rw [Session.begin_ok (Transaction.begin_read_memory h.session.repo) name]
  · have hlife := hs.lifetime (hl.turn _)
    have hi := intact_of_lifetime hlife
    have hanswers := k.repo.engine.answers
    have hreads := Transaction.reads_view hactive hi.faithful.sound hanswers
    have hclean : u.buffer = .empty := by
      rw [eq_reader hs hu hactive]
      rfl
    have hcount := fun table => Transaction.count_of_clean hanswers hactive hclean table
    refine ⟨fun hsnapshots => ?_, fun hlive => ?_⟩
    · rw [view_of_snapshot hl hsnapshots hs hu hactive] at hreads hcount
      exact ⟨hreads, hcount⟩
    · rw [view_of_live hlive hs hu hactive] at hreads hcount
      exact ⟨hreads, hcount, hi.inv.store.committed_eq (covered_origin hlife)⟩
  · have hsound := (intact_of_lifetime hl).faithful.sound
    obtain ⟨c, hscan, hrows⟩ :=
      (Transaction.reads_view hactive hsound h.repo.engine.answers).scan_eq table range order
        keysOnly
    refine ⟨c, hscan, fun schedule => ?_⟩
    rw [h.readAlong_eq (following_of_scan hscan), hrows]

/-- A reader while another transaction changes its table and makes a new one, with snapshots and
without, and a cursor while the table is cleared. -/
theorem reads_are_isolated_from_commit :
    let r (snapshots : Bool) : Repository MemoryEngine :=
      { engine := {}, registry := {}, config := { useSnapshots := snapshots }
        events := [.repositoryOpened "memory" "data" 0] }
    let h (snapshots : Bool) := (start (r snapshots)).run [
      .step "a" (.begin .readWrite), .step "a" (.act (.put "t" [1] [5])), .step "a" (.act .commit)]
    let k (snapshots : Bool) := ((h snapshots).take (.step "q" (.begin .read))).run [
      .step "a" (.begin .readWrite), .step "a" (.act (.put "t" [1] [9])),
      .step "a" (.act (.put "u" [3] [8])), .step "a" (.act .commit)]
    (∃ q, (k true).session.transaction? "q" = some q
      ∧ q.get (k true).repo "t" [1] = .ok (some [5]) ∧ q.get (k true).repo "u" [3] = .ok none
      ∧ ∃ c, q.scan (k true).repo "t" .all .ascending false = .ok c
        ∧ (k true).readAlong c [[.step "b" (.begin .readWrite), .step "b" (.act (.clear "t")),
          .step "b" (.act .commit)], []] = [.ok ⟨[1], some [5]⟩])
    ∧ ∃ q, (k false).session.transaction? "q" = some q
      ∧ q.get (k false).repo "t" [1] = .ok (some [9]) ∧ q.count (k false).repo "u" = .ok 1 := by
  intro r h k
  have hlife : ∀ snapshots, Lifetime (h snapshots) := by
    intro snapshots
    have hopened : Repository.onEngine ({} : MemoryEngine) { useSnapshots := snapshots }
        = .ok (r snapshots) := rfl
    have hcovered : (r snapshots).Covered :=
      fun key value hrow => absurd (show none = some value from hrow) (by simp)
    exact (Lifetime.opened hopened hcovered).run _
  have hspan : ∀ snapshots, Span "q" ((h snapshots).take (.step "q" (.begin .read)))
      (k snapshots) := by
    intro snapshots
    refine Stretch.refl.run (fun turn hmem j => ?_)
    rintro ⟨_, _, _, rfl, _⟩
    simp at hmem
  constructor
  · have hstate : ((k true).session.transaction? "q").map (fun q => q.state) = some .active := by
      decide +kernel
    obtain ⟨q, hq, hactive⟩ := Option.map_eq_some_iff.mp hstate
    obtain ⟨_, hreads, _⟩ := reads_are_isolated (hlife true)
    obtain ⟨_, _, hcursors⟩ := reads_are_isolated ((hspan true).lifetime ((hlife true).turn _))
    obtain ⟨has, _⟩ := (hreads "q" _ q (hspan true) hq hactive).1 (by decide +kernel)
    obtain ⟨c, hscan, hrows⟩ := hcursors "q" q hq hactive "t" .all .ascending false
    have hview := view_of_snapshot (hlife true) (by decide +kernel) (hspan true) hq hactive
    refine ⟨q, hq, (has.get_eq _ _).trans (congrArg _ (by decide +kernel)),
      (has.get_eq _ _).trans (congrArg _ (by decide +kernel)), c, hscan, ?_⟩
    have hlist : ((h true).repo.committed "t").toList = [([1], [5])] := by decide +kernel
    rw [hrows, hview, Rows.within_all, ScanOrder.arrange, hlist]
    rfl
  · have hstate : ((k false).session.transaction? "q").map (fun q => q.state) = some .active := by
      decide +kernel
    obtain ⟨q, hq, hactive⟩ := Option.map_eq_some_iff.mp hstate
    obtain ⟨_, hreads, _⟩ := reads_are_isolated (hlife false)
    obtain ⟨has, hcount, _⟩ := (hreads "q" _ q (hspan false) hq hactive).2 (by decide +kernel)
    exact ⟨q, hq, (has.get_eq _ _).trans (congrArg _ (by decide +kernel)),
      (hcount "u").trans (congrArg _ (by decide +kernel))⟩

end History

end TableStore
