import TableStore.Proofs.Growth
import TableStore.Proofs.Opening

/-!
# A slot is given out once, and for good

A store works, is closed, and is opened again on what it left, under the same config or another.
`History.Later` is any amount of this. A table that is there at some moment is there at every later
one, under the slot that it had; one that is new lies above every slot that was ever given out.

For the turns this is so because they only make the registry grow (`History.grew_take`). Opening
anew counts up from the rows, and could start below a slot that had been given out before. It does
not: the rows say at every moment what the registry in memory says (`History.Recorded`), the mark
included, whatever gaps there were at the start. A table whose row was not written has left nothing
behind, neither there nor here, and its slot is the next table's.

The slots are used up when the last of them belongs to a table, however many below it are free.
Whether a call is refused for that reason shows in the error, as long as the engine does not give
the same error for reasons of its own (`RoomyEngine`).
-/

namespace TableStore

variable {ε : Type} [StorageEngine ε]

/-- An engine that does not complain about slots, of which it knows nothing. -/
class RoomyEngine (ε : Type) [StorageEngine ε] : Prop where
  not_exhausted (engine : ε) (batch : WriteBatch) (sync : Bool) (why : Exhaustion) :
    (StorageEngine.write engine batch sync).1 ≠ .error (.resourceExhausted why)

instance : RoomyEngine MemoryEngine where
  not_exhausted engine batch sync why answer := by
    obtain ⟨n, hn⟩ := MemoryEngine.write_error answer
    exact absurd hn (by simp)

instance : RoomyEngine DiskEngine where
  not_exhausted engine batch sync why answer := by
    rw [engine.healthy.write_ok batch sync] at answer
    exact absurd answer (by simp)

/-! ## Asking for a table that is not there -/

namespace Registry

variable {g : Registry}

/-- **The mark has reached the last slot just when that is a table's.** -/
theorem lastSlot_le_iff (hsound : g.Sound) (hmark : g.IsHighest g.lastGiven) :
    lastSlot ≤ g.lastGiven ↔ ∃ table, g.get? table = some lastSlot := by
  constructor
  · intro hle
    have hlast : g.lastGiven = lastSlot := UInt8.le_antisymm hsound.mark_le hle
    rcases hmark.2 with ⟨table, ht⟩ | ⟨hzero, _⟩
    · exact ⟨table, hlast ▸ ht⟩
    · rw [hzero] at hlast
      exact absurd hlast (by decide)
  · intro ⟨table, ht⟩
    exact (hsound.inRange ht).2

/-- No table is without a name. -/
theorem get?_empty_of_ofRows {rows : Rows} (h : ofRows rows = .ok g) : g.get? "" = none := by
  cases hs : g.get? "" with
  | none => rfl
  | some slot =>
      obtain ⟨e, _, hrow⟩ := (tells_of_ofRows h).2.get?_iff.mp hs
      exact absurd rfl hrow.named

end Registry

namespace Repository

variable {r : Repository ε} {table : String}

theorem openTable_empty (hnone : r.registry.get? "" = none) :
    r.openTable "" = (.error (.invalidOperation .emptyTableName), r) := by
  unfold openTable Registry.reserve
  rw [hnone]
  rfl

theorem openTable_full (hnone : r.registry.get? table = none) (hnamed : table ≠ "")
    (hfull : lastSlot ≤ r.registry.lastGiven) :
    r.openTable table = (.error (.resourceExhausted (.slots table)), r) := by
  unfold openTable Registry.reserve
  rw [hnone]
  dsimp only
  rw [if_neg hnamed, if_pos hfull]

/-- While there is room, a table that cannot be opened could not be written. -/
theorem write_error_of_room {e : StoreError} (hnone : r.registry.get? table = none)
    (hnamed : table ≠ "") (hroom : ¬ lastSlot ≤ r.registry.lastGiven)
    (he : (r.openTable table).1 = .error e) :
    (StorageEngine.write r.engine (Registry.rowBatch table (r.registry.lastGiven + 1))
      r.config.syncOnCommit).1 = .error e := by
  unfold openTable Registry.reserve at he
  rw [hnone] at he
  dsimp only at he
  rw [if_neg hnamed, if_neg hroom] at he
  dsimp only at he
  split at he
  · rename_i hwrite
    rw [hwrite, Except.error.inj he]
  · exact absurd he (by simp)

end Repository

/-- A change that fails is one whose table could not be opened. -/
theorem Action.run_error [AtomicEngine ε] {a : Action} {t : Transaction} {r : Repository ε}
    {table : String} {e : StoreError} (ha : a.table? = some table)
    (hw : t.requireWritable = .ok ()) (he : (a.run t r).1 = .error e) :
    (r.openTable table).1 = .error e ∧ a.run t r = (.error e, t, (r.openTable table).2)
      ∧ Repository.SameStore r (r.openTable table).2 := by
  have hrun := run_of_writable ha hw r
  have hcases := r.openTable_cases table
  cases ho : r.openTable table with
  | mk answer r' =>
      rw [ho] at hrun hcases
      rcases hcases with ⟨slot, hs, _⟩ | ⟨e', he', hsame⟩
      · dsimp only at hs
        subst hs
        rw [hrun] at he
        exact absurd he (by simp)
      · dsimp only at he'
        subst he'
        rw [hrun] at he
        cases he
        exact ⟨rfl, hrun, hsame⟩

/-! ## The rest of a store's life -/

/-- The session under another config. -/
def Session.under (s : Session ε) (config : StoreConfig) : Session ε :=
  { s with repo.config := config }

namespace History

/-- The moments after a moment: the store works on, or is opened anew. -/
inductive Later (h : History ε) : History ε → Prop where
  | now : Later h h
  | turn {k : History ε} (before : Later h k) (turn : Turn ε) : Later h (k.take turn)
  | reopened {k : History ε} {config : StoreConfig} {s : Session ε} (before : Later h k)
    (again : (k.session.under config).reopen = .ok s) : Later h (.start s.repo)

/-- The registry in memory is the one that the rows say. -/
structure Recorded (h : History ε) : Prop where
  inv : h.Inv
  readsBack : Registry.ofRows (StorageEngine.rows h.repo.engine) = .ok h.repo.registry

variable {h k : History ε}

theorem Later.run (hl : Later h k) (turns : List (Turn ε)) : Later h (k.run turns) := by
  induction turns generalizing k with
  | nil => exact hl
  | cons turn rest ih => exact ih (hl.turn turn)

namespace Recorded

theorem sound (hi : Recorded h) : h.repo.registry.Sound := Registry.sound_of_ofRows hi.readsBack

theorem isHighest (hi : Recorded h) : h.repo.registry.IsHighest h.repo.registry.lastGiven :=
  Registry.isHighest_of_ofRows hi.readsBack

theorem start {r : Repository ε}
    (hread : Registry.ofRows (StorageEngine.rows r.engine) = .ok r.registry) :
    Recorded (History.start r) where
  inv := inv_start (Registry.sound_of_ofRows hread)
  readsBack := hread

theorem take [HonestEngine ε] (hi : Recorded h) (turn : Turn ε) : Recorded (h.take turn) where
  inv := inv_take hi.inv turn
  readsBack := by
    have hread := hi.readsBack
    unfold repo at hread ⊢
    cases h.stored_take turn with
    | nothing same =>
        rw [same.registry, same.rows]
        exact hread
    | opened made => exact Registry.ofRows_opened hread made
    | written commit present active mode lock batch_eq registry rows =>
        -- no table has the registry's own slot, so nothing is written under it
        rw [registry, rows, WriteBuffer.batch_honest batch_eq]
        exact Registry.ofRows_written hread (hi.inv.tracked present).owns

/-- **What is read back is what was in memory,** for the rows say one thing only. -/
theorem registry_reopen [HonestEngine ε] (hi : Recorded h) {config : StoreConfig} {s : Session ε}
    (again : (h.session.under config).reopen = .ok s) :
    s.repo.registry = h.repo.registry ∧ Recorded (History.start s.repo) := by
  obtain ⟨hengine, hload⟩ := Session.reopen_ok again
  have hread := Registry.ofRows_of_load hload
  refine ⟨Except.ok.inj (hread.symm.trans hi.readsBack), start ?_⟩
  rw [hengine]
  exact hread

end Recorded

theorem recorded_of_onEngine [HonestEngine ε] {engine : ε} {config : StoreConfig}
    {r : Repository ε} (opens : Repository.onEngine engine config = .ok r) :
    Recorded (start r) := by
  obtain ⟨hengine, hload⟩ := Repository.load_of_onEngine opens
  rw [← hengine] at hload
  exact .start (Registry.ofRows_of_load hload)

/-- **From one moment to a later one the registry grows,** and nothing else becomes of it. -/
theorem Later.grew [HonestEngine ε] (hl : Later h k) (hi : Recorded h) :
    Recorded k ∧ Registry.Grew h.repo.registry k.repo.registry := by
  induction hl with
  | now => exact ⟨hi, .refl⟩
  | turn before turn ih => exact ⟨ih.1.take turn, ih.2.trans (grew_take _ turn)⟩
  | reopened before again ih =>
      obtain ⟨hregistry, hagain⟩ := ih.1.registry_reopen again
      exact ⟨hagain, hregistry ▸ ih.2⟩

/-! ## Who gets which slot -/

/-- A table that is made in a turn is the only one, and gets the slot above the mark. -/
theorem toNat_of_new [AtomicEngine ε] {turn : Turn ε} {table : String} {slot : UInt8}
    (hnone : h.repo.registry.get? table = none)
    (hs : (h.take turn).repo.registry.get? table = some slot) :
    slot.toNat = h.repo.registry.lastGiven.toNat + 1 := by
  -- some table got the successor of the mark, and no other table is new
  have hopened := opened_of_new hnone hs
  rcases (h.grew_take turn).first with hsame | ⟨other, s, hother, hs', hsucc⟩
  · rw [hsame, hnone] at hs
    exact absurd hs (by simp)
  · by_cases hne : other = table
    · rw [hne, hs] at hs'
      rw [Option.some.inj hs']
      exact hsucc
    · rw [hopened.get?_of_ne hne, hother] at hs'
      exact absurd hs' (by simp)

/-! ## Who gets none -/

namespace Recorded

variable {t : Transaction} {a : Action} {table : String} {e : StoreError}

theorem run_unnamed [AtomicEngine ε] (hi : Recorded h) (hw : t.requireWritable = .ok ())
    (ha : a.table? = some "") :
    a.run t h.repo = (.error (.invalidOperation .emptyTableName), t, h.repo) := by
  have hnone := Registry.get?_empty_of_ofRows hi.readsBack
  rw [Action.run_of_writable ha hw, Repository.openTable_empty hnone]

theorem run_full [AtomicEngine ε] (hi : Recorded h) (hw : t.requireWritable = .ok ())
    (ha : a.table? = some table) (hnone : h.repo.registry.get? table = none) (hnamed : table ≠ "")
    (hlast : ∃ other, h.repo.registry.get? other = some lastSlot) :
    a.run t h.repo = (.error (.resourceExhausted (.slots table)), t, h.repo) := by
  have hfull := (Registry.lastSlot_le_iff hi.sound hi.isHighest).mpr hlast
  rw [Action.run_of_writable ha hw, Repository.openTable_full hnone hnamed hfull]

/-- **A change of a new table fails for one of three reasons:** the name, the slots, the engine. -/
theorem reason_of_error [AtomicEngine ε] (hi : Recorded h) (hw : t.requireWritable = .ok ())
    (ha : a.table? = some table) (hnone : h.repo.registry.get? table = none)
    (he : (a.run t h.repo).1 = .error e) :
    table = "" ∨ (∃ other, h.repo.registry.get? other = some lastSlot)
    ∨ ∃ slot, (StorageEngine.write h.repo.engine (Registry.rowBatch table slot)
      h.repo.config.syncOnCommit).1 = .error e := by
  have hfull := Registry.lastSlot_le_iff hi.sound hi.isHighest
  obtain ⟨hopen, _⟩ := Action.run_error ha hw he
  by_cases hnamed : table = ""
  · exact Or.inl hnamed
  · by_cases hlast : ∃ other, h.repo.registry.get? other = some lastSlot
    · exact Or.inr (Or.inl hlast)
    · have hroom : ¬ lastSlot ≤ h.repo.registry.lastGiven := fun hle => hlast (hfull.mp hle)
      exact Or.inr (Or.inr ⟨_, Repository.write_error_of_room hnone hnamed hroom hopen⟩)

theorem exhausted_iff [AtomicEngine ε] [RoomyEngine ε] (hi : Recorded h)
    (hw : t.requireWritable = .ok ()) (ha : a.table? = some table)
    (hnone : h.repo.registry.get? table = none) :
    (∃ why, (a.run t h.repo).1 = .error (.resourceExhausted why))
      ↔ table ≠ "" ∧ ∃ other, h.repo.registry.get? other = some lastSlot := by
  constructor
  · intro ⟨why, hwhy⟩
    have hnamed : table ≠ "" := by
      intro hname
      rw [hi.run_unnamed hw (hname ▸ ha)] at hwhy
      exact absurd hwhy (by simp)
    rcases hi.reason_of_error hw ha hnone hwhy with hname | hlast | ⟨slot, hslot⟩
    · exact absurd hname hnamed
    · exact ⟨hnamed, hlast⟩
    · exact absurd hslot (RoomyEngine.not_exhausted _ _ _ why)
  · intro ⟨hnamed, hlast⟩
    rw [hi.run_full hw ha hnone hnamed hlast]
    exact ⟨_, rfl⟩

end Recorded

/--
**A slot is given out once, and for good.** A store is opened on rows that it can be opened on,
with gaps between their slots or without; `h` is some moment after that, and `k` the same moment or
a later one. What happens in between is any number of turns and reopenings: tables are made, or
fail to be made, and transactions commit, or fail to, and are rolled back.

A table that `h` knows is known to `k` under its slot, which is that of a table, and no other name
has the slot in `k`; a name that `h` does not know and `k` does has a slot above all that `h` knows.
A table that is made in a turn of `k` gets the successor of the highest slot, and that is above
every slot of `h`. Reopening finds the registry that was in memory.

A change of a table without a name is always refused. One that names a table that is not there is
refused for want of a slot if and only if the last slot is a table's. Neither of the two goes so far
as to ask the engine, and there is no third reason but an engine that does not write the table's
row. Whatever the reason, nothing that is stored changed, and each table that is there is still
opened, under its slot.
-/
theorem slots_given_out_once [HonestEngine ε] [RoomyEngine ε] {engine : ε} {config : StoreConfig}
    {r : Repository ε} (opens : Repository.onEngine engine config = .ok r)
    (hh : Later (start r) h) (hk : Later h k) :
    (∀ table slot, h.repo.registry.get? table = some slot →
      k.repo.registry.get? table = some slot ∧ firstSlot ≤ slot ∧ slot ≤ lastSlot
      ∧ ∀ other, k.repo.registry.get? other = some slot → other = table)
    ∧ (∀ old new slot slot', h.repo.registry.get? old = some slot →
      h.repo.registry.get? new = none → k.repo.registry.get? new = some slot' → slot < slot')
    ∧ (∀ turn table slot, k.repo.registry.get? table = none →
      (k.take turn).repo.registry.get? table = some slot →
      (∃ highest, k.repo.registry.IsHighest highest ∧ slot.toNat = highest.toNat + 1)
      ∧ ∀ old s, h.repo.registry.get? old = some s → s < slot)
    ∧ (∀ config s, (k.session.under config).reopen = .ok s →
      s.repo.registry = k.repo.registry)
    ∧ (∀ (t : Transaction) (a : Action), t.state = .active → t.mode = .readWrite →
      a.table? = some "" →
      a.run t k.repo = (.error (.invalidOperation .emptyTableName), t, k.repo))
    ∧ ∀ (t : Transaction) (a : Action) (table : String), t.state = .active →
      t.mode = .readWrite → a.table? = some table → k.repo.registry.get? table = none →
      ((∃ why, (a.run t k.repo).1 = .error (.resourceExhausted why))
        ↔ table ≠ "" ∧ ∃ other, k.repo.registry.get? other = some lastSlot)
      ∧ ((∃ other, k.repo.registry.get? other = some lastSlot) → table ≠ "" →
        a.run t k.repo = (.error (.resourceExhausted (.slots table)), t, k.repo))
      ∧ ∀ e, (a.run t k.repo).1 = .error e →
        (table = "" ∨ (∃ other, k.repo.registry.get? other = some lastSlot)
          ∨ ∃ slot, (StorageEngine.write k.repo.engine (Registry.rowBatch table slot)
            k.repo.config.syncOnCommit).1 = .error e)
        ∧ Repository.SameStore k.repo (a.run t k.repo).2.2
        ∧ ∀ other slot, k.repo.registry.get? other = some slot →
          (a.run t k.repo).2.2.openTable other = (.ok slot, (a.run t k.repo).2.2) := by
  obtain ⟨hhi, _⟩ := hh.grew (recorded_of_onEngine opens)
  obtain ⟨hki, hgrew⟩ := hk.grew hhi
  have hbelow : ∀ old s, h.repo.registry.get? old = some s → s ≤ h.repo.registry.lastGiven :=
    fun old s hs => (hhi.sound.inRange hs).2
  have hw : ∀ t : Transaction, t.state = .active → t.mode = .readWrite →
      t.requireWritable = .ok () :=
    fun t hactive hmode => Transaction.requireWritable_ok_iff.mpr ⟨hactive, hmode⟩
  refine ⟨fun table slot hs => ?_, fun old new slot slot' hold hnew hs => ?_,
    fun turn table slot hnone hs => ⟨⟨_, hki.isHighest, toNat_of_new hnone hs⟩,
      fun old s hold => ?_⟩,
    fun config s again => (hki.registry_reopen again).1,
    fun t a hactive hmode ha => hki.run_unnamed (hw t hactive hmode) ha,
    fun t a table hactive hmode ha hnone => ⟨hki.exhausted_iff (hw t hactive hmode) ha hnone,
      fun hlast hnamed => hki.run_full (hw t hactive hmode) ha hnone hnamed hlast,
      fun e he => ⟨hki.reason_of_error (hw t hactive hmode) ha hnone he, ?_⟩⟩⟩
  · have hkept := hgrew.kept hs
    obtain ⟨hfirst, hmark⟩ := hki.sound.inRange hkept
    exact ⟨hkept, hfirst, UInt8.le_trans hmark hki.sound.mark_le,
      fun other ho => hki.sound.injective ho hkept⟩
  · exact Std.lt_of_le_of_lt (hbelow old slot hold) (hgrew.above hnew hs)
  · have hnew : k.repo.registry.lastGiven < slot := (k.grew_take turn).above hnone hs
    exact Std.lt_of_le_of_lt (UInt8.le_trans (hbelow old s hold) hgrew.mark_le) hnew
  · obtain ⟨_, hrun, hsame⟩ := Action.run_error ha (hw t hactive hmode) he
    rw [hrun]
    exact ⟨hsame, fun other slot hs => Repository.openTable_of_some (hsame.registry.symm ▸ hs)⟩

/-- A gap between the slots, a table whose making failed at first, and the last slot given out
before the store was opened anew. -/
theorem slots_given_out_once_up_to_the_last :
    let r : Repository MemoryEngine :=
      { engine := { rows := .ofList [([0, 2], Utf8.encode "a"), ([0, 253], Utf8.encode "b")] }
        registry := { byName := .ofList [("a", 2), ("b", 253)], lastGiven := 253 }, config := {}
        metrics := { tables := 2 }, events := [.repositoryOpened "memory" "data" 2] }
    let h := (start r).run [.step "w" (.begin .readWrite),
      .fault (fun e => e.failWritesAfter 0) (fun _ => rfl),
      .step "w" (.act (.put "c" [1] [5])), .step "w" (.act (.put "c" [1] [5]))]
    let t : Transaction := { mode := .readWrite, holdsWriter := true }
    Repository.onEngine r.engine {} = .ok r
    ∧ ∃ s, (h.session.under { syncOnCommit := false }).reopen = .ok s
      ∧ s.repo.registry.get? "a" = some 2 ∧ s.repo.registry.get? "c" = some lastSlot
      ∧ (∀ other, s.repo.registry.get? other = some lastSlot → other = "c")
      ∧ Action.run (.remove "d" [1]) t s.repo
        = (.error (.resourceExhausted (.slots "d")), t, s.repo)
      ∧ Action.run (.clear "") t s.repo = (.error (.invalidOperation .emptyTableName), t, s.repo)
      ∧ s.repo.openTable "b" = (.ok 253, s.repo) := by
  intro r h t
  have hopened : Repository.onEngine r.engine {} = .ok r := rfl
  have hlater : Later (start r) h := Later.now.run _
  have ha : h.repo.registry.get? "a" = some 2 := by decide +kernel
  have hb : h.repo.registry.get? "b" = some 253 := by decide +kernel
  have hc : h.repo.registry.get? "c" = some lastSlot := by decide +kernel
  have hd : h.repo.registry.get? "d" = none := by decide +kernel
  have hopens : (h.session.under { syncOnCommit := false }).reopen.isOk = true := by
    decide +kernel
  cases hs : (h.session.under { syncOnCommit := false }).reopen with
  | error e =>
      rw [hs] at hopens
      exact absurd hopens (by simp [Except.isOk, Except.toBool])
  | ok s =>
      obtain ⟨_, _, _, hreopen, _⟩ := slots_given_out_once hopened hlater .now
      have hregistry := hreopen _ _ hs
      obtain ⟨hkept, _, _, _, hunnamed, hrefused⟩ :=
        slots_given_out_once hopened hlater (Later.now.reopened hs)
      have hfull := (hkept "c" lastSlot hc).1
      obtain ⟨_, hexhausted, hserved⟩ := hrefused t (.remove "d" [1]) "d" rfl rfl rfl
        ((congrArg (Registry.get? · "d") hregistry).trans hd)
      have hanswer := hexhausted ⟨"c", hfull⟩ (by decide)
      refine ⟨hopened, s, rfl, (hkept "a" 2 ha).1, hfull, (hkept "c" lastSlot hc).2.2.2, hanswer,
        hunnamed t _ rfl rfl rfl, ?_⟩
      have hopen := (hserved _ (congrArg Prod.fst hanswer)).2.2 "b" 253 (hkept "b" 253 hb).1
      rw [hanswer] at hopen
      exact hopen

end History

end TableStore
