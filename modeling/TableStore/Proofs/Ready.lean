import TableStore.Proofs.Catalogue
import TableStore.Proofs.Lifetime
import TableStore.Proofs.Lock
import TableStore.Proofs.Views

/-!
# A store between two commands

A command opens a transaction, does its work and lets the transaction go. On a store that fails
at nothing, whose registry says what is stored and whose lock is free (`Ready`), the transaction
begins, and it reads the catalogue (`exists_begun`). If it changes nothing, letting it go leaves
the store as it was (`Begun.drop`).

A change opens its table, notes itself in the buffer and is committed, and either all of this
happens or the table cannot be opened and nothing does (`served_change`). There is no third way:
with the table open and the lock held nothing is left that could fail.
-/

namespace TableStore

open Repository (SameStore)

/-! ## Stores that are ready -/

/-- A store between two commands. -/
structure Ready (backend : Backend) (r : Repository Engine) : Prop where
  steady : r.engine.Steady backend
  /-- The registry in memory is the one among the rows. -/
  faithful : r.registry.Faithful (StorageEngine.rows r.engine)
  free : r.lockHeld = false

/-- A store that is ready as another, with the same in it. -/
structure ReadyAs (backend : Backend) (c : Catalogue) (r : Repository Engine) : Prop
    extends Ready backend r where
  catalogue : Catalogue.of r = c

variable {backend : Backend} {r r' : Repository Engine} {t : Transaction} {mode : TransactionMode}

theorem Ready.same (h : Ready backend r) (hengine : r'.engine = r.engine)
    (hregistry : r'.registry = r.registry) (hfree : r'.lockHeld = false) :
    ReadyAs backend (Catalogue.of r) r' where
  steady := hengine ▸ h.steady
  faithful := by
    rw [hengine, hregistry]
    exact h.faithful
  free := hfree
  catalogue := by
    unfold Catalogue.of Repository.tables Repository.committed
    rw [hengine, hregistry]

/-! ## What a command does -/

/-- The answer of a command and its output, which somebody reads. -/
def Catalogue.printed : Except CommandError String → Except CommandError Unit × Output
  | .ok text => (.ok (), { text := text })
  | .error e => (.error e, {})

/-- A command did what the catalogue says. -/
structure Served (backend : Backend) (done : Except CommandError Unit × Output × Repository Engine)
    (answer : Except CommandError String × Catalogue) : Prop where
  printed : (done.1, done.2.1) = Catalogue.printed answer.1
  ready : ReadyAs backend answer.2 done.2.2

/-- A command that fails before it does anything. -/
theorem served_error (h : Ready backend r) (e : CommandError) :
    Served backend (.error e, {}, r) (.error e, Catalogue.of r) :=
  ⟨rfl, h.same rfl rfl h.free⟩

/-! ## Transactions of a command -/

/-- A transaction of a command, before it changes anything. -/
structure Begun (r : Repository Engine) (mode : TransactionMode) (t : Transaction)
    (r' : Repository Engine) : Prop where
  reads : t.ReadsAs r' r.committed
  active : t.state = .active
  mode_eq : t.mode = mode
  clean : t.buffer = .empty
  engine : r'.engine = r.engine
  registry : r'.registry = r.registry
  writer : mode = .readWrite → t.holdsWriter = true ∧ t.source = .live
  reader : mode = .read → t.holdsWriter = false ∧ r'.lockHeld = false

/-- **A transaction of a command begins,** and reads what is stored. -/
theorem exists_begun (h : Ready backend r) (mode : TransactionMode) :
    ∃ t r', Transaction.begin mode r = (.ok t, r') ∧ Begun r mode t r' := by
  obtain ⟨t, r', hbegin, hreads⟩ :=
    Transaction.begin_reads mode h.free h.faithful.sound h.steady.healthy.toAnswers
  refine ⟨t, r', hbegin, ?_⟩
  cases mode with
  | read =>
      obtain ⟨hsame, hlock⟩ := Transaction.begin_read_lock r
      rw [hbegin] at hsame hlock
      have hr' : r' = r := hsame
      have hfree : r'.lockHeld = false := by
        rw [hr']
        exact h.free
      rcases Transaction.begin_cases .read r with ⟨e, r'', he, _⟩ | ⟨u, r'', hu, _, hclean, hactive,
        hmode, _⟩
      · rw [hbegin] at he
        exact absurd (congrArg Prod.fst he) (by simp)
      · rw [hbegin] at hu
        have htu : t = u := Except.ok.inj (congrArg Prod.fst hu)
        subst htu
        exact ⟨hreads, hactive, hmode, hclean, by rw [hr'], by rw [hr'], by simp,
          fun _ => ⟨hlock t rfl, hfree⟩⟩
  | readWrite =>
      rw [Transaction.begin_readWrite_of_free h.free] at hbegin
      obtain ⟨ht, hr'⟩ := Prod.mk.inj hbegin
      cases Except.ok.inj ht
      subst hr'
      exact ⟨hreads, rfl, rfl, rfl, rfl, rfl, fun _ => ⟨rfl, rfl⟩, by simp⟩

theorem engine_drop (t : Transaction) (r : Repository Engine) : (t.drop r).engine = r.engine :=
  (Session.mk r .empty).engine_letGo t

/-- A transaction that is let go before it changes anything leaves the store as it was. -/
theorem Begun.drop (hb : Begun r mode t r') (h : Ready backend r) :
    ReadyAs backend (Catalogue.of r) (t.drop r') := by
  have hregistry := (t.sameStore_drop r').registry
  have hlock : (t.drop r').lockHeld = false := by
    cases mode with
    | read =>
        obtain ⟨hno, hfree⟩ := hb.reader rfl
        have hguarded : t.Guarded := fun hh => absurd (hno.symm.trans hh) (by simp)
        rw [Transaction.lockHeld_drop hguarded, if_neg (by simp [hno])]
        exact hfree
    | readWrite =>
        have hholds := (hb.writer rfl).1
        have hguarded : t.Guarded := fun _ => ⟨hb.active, hb.mode_eq⟩
        rw [Transaction.lockHeld_drop hguarded, if_pos hholds]
  exact h.same ((engine_drop t r').trans hb.engine) (hregistry.trans hb.registry) hlock

/-! ## Opening a table -/

/-- A steady store opens every table that can be had. -/
theorem openTable_steady (h : r.engine.Steady backend) (table : String) :
    (∃ e, r.registry.reserve table = .error e ∧ r.openTable table = (.error e, r))
    ∨ ∃ slot r', r.openTable table = (.ok slot, r') ∧ r'.engine.Steady backend
      ∧ Repository.Opened r r' table slot
      ∧ (r.registry.get? table = none → slot = r.registry.lastGiven + 1) := by
  have hcases := r.openTable_cases table
  unfold Repository.openTable at hcases ⊢
  cases hres : r.registry.reserve table with
  | error e => exact Or.inl ⟨e, rfl, rfl⟩
  | ok reservation =>
      rw [hres] at hcases
      cases reservation with
      | existing slot =>
          have hknown := Registry.get?_of_reserve hres
          refine Or.inr ⟨slot, r, rfl, h, .found hknown (.refl r), fun hnone => ?_⟩
          rw [hnone] at hknown
          exact absurd hknown (by simp)
      | new slot =>
          have hslot : slot = r.registry.lastGiven + 1 := by
            unfold Registry.reserve at hres
            split at hres
            · exact absurd hres (by simp)
            · split at hres
              · exact absurd hres (by simp)
              · split at hres
                · exact absurd hres (by simp)
                · exact (Reservation.new.inj (Except.ok.inj hres)).symm
          have hok := h.healthy.write_ok (Registry.rowBatch table slot) r.config.syncOnCommit
          have hsteady := h.write (Registry.rowBatch table slot) r.config.syncOnCommit
          dsimp only at hcases ⊢
          cases hw : StorageEngine.write r.engine (Registry.rowBatch table slot)
              r.config.syncOnCommit with
          | mk answer engine =>
              rw [hw] at hok hsteady hcases
              cases answer with
              | error e => exact absurd hok (by simp)
              | ok _ =>
                  rcases hcases with ⟨slot', he, hopened⟩ | ⟨e, he, _⟩
                  · cases Except.ok.inj he
                    exact Or.inr ⟨slot, _, rfl, hsteady, hopened, fun _ => hslot⟩
                  · exact absurd he (by simp)

/-- **What can be opened is what the catalogue can have.** -/
theorem opened_of_error {e : StoreError} {table : String}
    (h : r.registry.Faithful (StorageEngine.rows r.engine))
    (hres : r.registry.reserve table = .error e) : (Catalogue.of r).opened table = .error e := by
  have hlast := Catalogue.lastSlot_of h.sound (Registry.attained_of_ofRows h.readsBack)
  unfold Registry.reserve at hres
  unfold Catalogue.opened
  split at hres
  · exact absurd hres (by simp)
  · rename_i hnone
    have hhas : ¬ (Catalogue.of r).has table = true := fun hh => Catalogue.has_iff.mp hh hnone
    rw [if_neg hhas]
    split at hres
    · rename_i hname
      rw [if_pos hname]
      exact congrArg Except.error (Except.error.inj hres)
    · rename_i hname
      rw [if_neg hname]
      split at hres
      · rename_i hfull
        have hge : 254 ≤ (Catalogue.of r).lastSlot := by
          rw [hlast]
          exact UInt8.le_iff_toNat_le.mp hfull
        rw [if_pos hge]
        exact congrArg Except.error (Except.error.inj hres)
      · exact absurd hres (by simp)

theorem opened_of_ok {table : String} {slot : UInt8}
    (h : r.registry.Faithful (StorageEngine.rows r.engine))
    (ho : Repository.Opened r r' table slot)
    (hslot : r.registry.get? table = none → slot = r.registry.lastGiven + 1) :
    (Catalogue.of r).opened table = .ok ⟨r'.tables, r.committed⟩ := by
  have hlast := Catalogue.lastSlot_of h.sound (Registry.attained_of_ofRows h.readsBack)
  unfold Catalogue.opened
  cases ho with
  | found known same =>
      have hhas : (Catalogue.of r).has table = true := Catalogue.has_iff.mpr (by simp [known])
      rw [if_pos hhas]
      unfold Catalogue.of Repository.tables
      rw [same.registry]
  | made unknown named above isTable registry rows =>
      have hhas : ¬ (Catalogue.of r).has table = true := fun hh => Catalogue.has_iff.mp hh unknown
      have hfits : r.registry.lastGiven.toNat + 1 ≤ 254 :=
        Nat.le_trans (UInt8.lt_iff_toNat_lt.mp above) (UInt8.le_iff_toNat_le.mp isTable)
      have hnext : UInt8.ofNat ((Catalogue.of r).lastSlot + 1) = slot := by
        rw [hlast, hslot unknown]
        refine UInt8.toNat_inj.mp ?_
        rw [UInt8.toNat_add]
        rfl
      rw [if_neg hhas, if_neg named, if_neg (by omega), hnext]
      unfold Catalogue.of Repository.tables
      rw [registry, Registry.tables_publish h.sound unknown above isTable]

/-! ## Changing a table -/

/-- A commit leaves a steady store steady. -/
theorem steady_commit (h : r.engine.Steady backend) (hactive : t.state = .active)
    (hmode : t.mode = .readWrite) (hlock : t.CanLock r) :
    (t.commit r).2.2.engine.Steady backend := by
  have hwrite : ∀ q : Repository Engine, q.engine.Steady backend →
      (q.writeBuffer t.buffer).2.engine.Steady backend := by
    intro q hq
    unfold Repository.writeBuffer
    split
    · exact hq
    · rename_i batch _
      split
      · exact hq
      · have hsteady := hq.write batch q.config.syncOnCommit
        split <;> rename_i hw <;> rw [hw] at hsteady <;> exact hsteady
  have hlocked := hwrite (t.locked r) (t.engine_locked r ▸ h)
  rcases Transaction.commit_cases hactive hmode hlock with ⟨e, _, hc⟩ | ⟨batch, _, hc⟩
  · rw [hc]
    exact hlocked
  · rw [hc]
    exact hlocked

/-- What was opened on a store is opened on one with the same in it. -/
theorem Opened.of_same {r₂ : Repository Engine} {table : String} {slot : UInt8}
    (hsame : SameStore r r') (h : Repository.Opened r' r₂ table slot) :
    Repository.Opened r r₂ table slot := by
  cases h with
  | found known same => exact .found (hsame.registry ▸ known) (hsame.trans same)
  | made unknown named above isTable registry rows =>
      rw [hsame.registry] at unknown above registry
      rw [hsame.rows] at rows
      exact .made unknown named above isTable registry rows

/-- With its table open a change is committed, and the rows of its table are changed. -/
theorem commit_change {r₂ : Repository Engine} (h : Ready backend r)
    (hb : Begun r .readWrite t r') {a : Action} {table : String} {slot : UInt8}
    (ha : a.table? = some table) (ho : Repository.Opened r r₂ table slot)
    (hsteady : r₂.engine.Steady backend) :
    let t₂ : Transaction := { t with buffer := a.onBuffer slot t.buffer }
    (t₂.commit r₂).1 = .ok () ∧ (t₂.commit r₂).2.1 = t₂.finished .committed
      ∧ ReadyAs backend (Catalogue.setRows ⟨r₂.tables, r.committed⟩ table
          (a.onRows (r.committed table))) (t₂.commit r₂).2.2 := by
  intro t₂
  obtain ⟨hholds, hlive⟩ := hb.writer rfl
  have hactive : t₂.state = .active := hb.active
  have hmode : t₂.mode = .readWrite := hb.mode_eq
  have hlock : t₂.CanLock r₂ := Or.inl hholds
  have hok := Transaction.commit_healthy hsteady.healthy hactive hmode hlock
  have hrows := Transaction.rows_commit_healthy hsteady.healthy hactive hmode hlock
  obtain ⟨_, hregistry, hfree, hended⟩ := Transaction.commit_ok hactive hmode hlock hok
  -- the buffer is the one change, noted on both sides
  have hfresh : t.Tracked r.registry [] := .fresh hb.clean (fun _ => hlive)
  have htracked := hfresh.change h.faithful.sound ha hb.mode_eq ho
  have hmirrors : r₂.registry.Mirrors t₂.buffer [a] := htracked.mirrors hactive
  have hfaithful := (h.faithful.opened ho).written htracked.owns
  have hserial := ((Repository.Serial.refl h.faithful.sound).opened ha ho).commit htracked.owns
    hmirrors hregistry hrows
  refine ⟨hok, hended, ⟨steady_commit hsteady hactive hmode hlock, ?_, hfree⟩, ?_⟩
  · rw [hregistry, hrows]
    exact hfaithful
  · have hcommitted : (t₂.commit r₂).2.2.committed
        = fun other => if other = table then a.onRows (r.committed table)
          else r.committed other := by
      funext other
      rw [hserial.committed_eq h.faithful.covers]
      show a.onTable other (r.committed other) = _
      by_cases hother : other = table
      · rw [if_pos hother, hother, Action.onTable_self ha]
      · rw [if_neg hother, Action.onTable_of_ne]
        rw [ha]
        exact fun he => hother (Option.some.inj he).symm
    unfold Catalogue.of Repository.tables Catalogue.setRows
    rw [hcommitted, hregistry]

/-- **A change of a command** is made as a whole and committed, or its table cannot be opened and
nothing has happened. -/
theorem served_change (h : Ready backend r) (hb : Begun r .readWrite t r') {a : Action}
    {table : String} (ha : a.table? = some table)
    (hrun : a.run t r' = t.edit r' table (fun slot b => a.onBuffer slot b)) (done : Event) :
    let out := Command.commitChange (a.run t r') done
    Served backend (out.1, {}, out.2.1.drop out.2.2)
      (match (Catalogue.of r).opened table with
        | .error e => (.error (.store e), Catalogue.of r)
        | .ok c => (.ok "", c.setRows table (a.onRows (r.committed table)))) := by
  have hwritable : t.requireWritable = .ok () :=
    Transaction.requireWritable_ok_iff.mpr ⟨hb.active, hb.mode_eq⟩
  have hsame : SameStore r r' := ⟨by rw [hb.engine], hb.registry⟩
  rw [hrun, Transaction.edit_of_writable hwritable]
  rcases openTable_steady (hb.engine ▸ h.steady) table with
    ⟨e, hres, hopen⟩ | ⟨slot, r₂, hopen, hsteady, hmade, hslot⟩
  · rw [hb.registry] at hres
    rw [opened_of_error h.faithful hres, hopen]
    exact ⟨rfl, hb.drop h⟩
  · have ho := Opened.of_same hsame hmade
    obtain ⟨hok, hended, hready⟩ := commit_change h hb ha ho hsteady
    rw [hb.registry] at hslot
    rw [opened_of_ok h.faithful ho hslot, hopen]
    unfold Command.commitChange
    dsimp only
    generalize Transaction.commit _ r₂ = committed at hok hended hready
    obtain ⟨answer, t₃, r₃⟩ := committed
    dsimp only at hok hended hready
    subst hok
    refine ⟨rfl, ?_⟩
    have hguarded : t₃.Guarded := by
      rw [hended]
      exact fun hh => absurd hh (by simp [Transaction.finished])
    have hlock : (t₃.drop (r₃.report done)).lockHeld = false := by
      rw [Transaction.lockHeld_drop hguarded, hended]
      exact hready.free
    exact hready.catalogue ▸ hready.toReady.same (engine_drop t₃ _)
      (t₃.sameStore_drop _).registry hlock

end TableStore
