import TableStore.Proofs.Allocation

/-!
# A call changes a buffer, or nothing

In the middle of a call that only notes something in a buffer, a table may be made, and that is
for good: its row is written and its name is known, whatever becomes of the transaction. So the
order matters. Whether the transaction may write is asked first, then the value is encoded, then
the table is opened, and the buffer comes last; and of making a table, writing its row is the last
step that can fail. A call that fails has thus done nothing that another call could see
(`Repository.Spared`), and one that succeeds has made one table at most.

`Call` is any call that changes rows, or expects something of one. Typed calls are among them, with
the key as its bytes and the value as the encoder left it, which may have refused it. The outcomes
are in `Call.Ended`; what a change makes of a buffer is in `Call.Noted`.
-/

namespace TableStore

/-- A call that changes rows of a table, or expects something of one. -/
inductive Call where
  | put (table : String) (key value : Bytes)
  /-- Set a row to a value that comes from an encoder. -/
  | insert (table : String) (key : Bytes) (value : Except StoreError Bytes)
  | remove (table : String) (key : Bytes)
  | clear (table : String)
  | ensure (table : String) (key : Bytes) (expected : Except StoreError (Option Bytes))

namespace Call

def table : Call → String
  | put table _ _ | insert table _ _ | remove table _ | clear table | ensure table _ _ => table

/-- Whether a call expects something, and changes nothing. -/
def expects : Call → Bool
  | ensure _ _ _ => true
  | _ => false

/-- The row that a call changes, with what is noted for it. -/
def staged? : Call → Option (Bytes × Option Bytes)
  | put _ key value | insert _ key (.ok value) => some (key, some value)
  | remove _ key => some (key, none)
  | _ => none

/-- The change that a call makes if it succeeds. -/
def action? : Call → Option Action
  | put table key value | insert table key (.ok value) => some (.put table key value)
  | remove table key => some (.remove table key)
  | clear table => some (.clear table)
  | _ => none

/-- Make a call. An encoder is asked once the transaction is found able to write, or the row to be
read; what it refuses goes no further. -/
def run {ε : Type} [StorageEngine ε] (c : Call) (t : Transaction) (r : Repository ε) :
    Except StoreError Unit × Transaction × Repository ε :=
  match c with
  | put table key value => t.put r table key value
  | insert table key (.ok value) => t.put r table key value
  | insert _ _ (.error e) => (t.requireWritable.bind (fun _ => .error e), t, r)
  | remove table key => t.remove r table key
  | clear table => t.clear r table
  | ensure table key (.ok expected) => (t.ensure r table key expected, t, r)
  | ensure table key (.error e) => ((t.get r table key).bind (fun _ => .error e), t, r)

section Run

variable {ε : Type} [StorageEngine ε] {c : Call}

/-- Setting a typed value is such a call. -/
theorem run_insert (t : Transaction) (r : Repository ε) (table : String) {k : KeyShape}
    (key : k.Value) {s : ValueShape} (value : s.Value) :
    (insert table (k.encode key) (.ok (s.encode value))).run t r = t.insert r table key value := rfl

/-- A call with a change is that change of its table. -/
theorem run_of_action {a : Action} (h : c.action? = some a) (t : Transaction) (r : Repository ε) :
    c.expects = false ∧ a.table? = some c.table ∧ c.run t r = a.run t r := by
  cases c with
  | put table key value => cases h; exact ⟨rfl, rfl, rfl⟩
  | insert table key value =>
      cases value with
      | ok value => cases h; exact ⟨rfl, rfl, rfl⟩
      | error e => exact absurd h (by simp [action?])
  | remove table key => cases h; exact ⟨rfl, rfl, rfl⟩
  | clear table => cases h; exact ⟨rfl, rfl, rfl⟩
  | ensure table key expected => exact absurd h (by simp [action?])

/-- A call without a change leaves everything as it is, and succeeds only where it expects. -/
theorem run_of_no_action (h : c.action? = none) (t : Transaction) (r : Repository ε) :
    ∃ answer, c.run t r = (answer, t, r) ∧ (answer = .ok () → c.expects = true) := by
  cases c with
  | put table key value => exact absurd h (by simp [action?])
  | insert table key value =>
      cases value with
      | ok value => exact absurd h (by simp [action?])
      | error e =>
          refine ⟨_, rfl, fun hok => ?_⟩
          cases hw : t.requireWritable with
          | error e' => rw [hw] at hok; exact absurd hok (by simp [Except.bind])
          | ok _ => rw [hw] at hok; exact absurd hok (by simp [Except.bind])
  | remove table key => exact absurd h (by simp [action?])
  | clear table => exact absurd h (by simp [action?])
  | ensure table key expected =>
      cases expected with
      | ok expected => exact ⟨_, rfl, fun _ => rfl⟩
      | error e => exact ⟨_, rfl, fun _ => rfl⟩

end Run

end Call

/-! ## What becomes of a buffer -/

theorem WriteBuffer.get?_stage (b : WriteBuffer) (slot : UInt8) (key k : Bytes)
    (entry : Option Bytes) :
    (b.stage slot key entry).get? slot k = if k = key then some entry else b.get? slot k := by
  unfold get?
  rw [ofTable_stage, if_pos rfl, SortedMap.get?_insert]

/-- A buffer after a change under a slot. -/
structure Call.Noted (c : Call) (slot : UInt8) (b b' : WriteBuffer) : Prop where
  /-- What is pending for other tables is the same. -/
  others {s : UInt8} : s ≠ slot → b'.ofTable s = b.ofTable s ∧ b'.isCleared s = b.isCleared s
  /-- The change of a row changes nothing for other rows, and clears nothing. -/
  row {key : Bytes} {entry : Option Bytes} : c.staged? = some (key, entry) →
    b'.cleared = b.cleared ∧ ∀ k, b'.get? slot k = if k = key then some entry else b.get? slot k
  cleared : c = .clear c.table → b'.ofTable slot = .empty ∧ b'.isCleared slot = true

namespace Call

variable {c : Call}

theorem noted_stage {slot : UInt8} {key : Bytes} {entry : Option Bytes}
    (h : c.staged? = some (key, entry)) (b : WriteBuffer) :
    c.Noted slot b (b.stage slot key entry) where
  others hne := by
    rw [WriteBuffer.ofTable_stage, if_neg hne]
    exact ⟨rfl, rfl⟩
  row he := by
    rw [h] at he
    cases he
    exact ⟨rfl, fun k => b.get?_stage slot key k entry⟩
  cleared hc := by
    rw [hc] at h
    exact absurd h (by simp [staged?])

theorem noted_clear {slot : UInt8} {table : String} (h : c = .clear table) (b : WriteBuffer) :
    c.Noted slot b (b.clear slot) where
  others hne := by
    rw [WriteBuffer.ofTable_clear, if_neg hne, WriteBuffer.isCleared_clear,
      beq_eq_false_iff_ne.mpr hne, Bool.false_or]
    exact ⟨rfl, rfl⟩
  row he := by
    rw [h] at he
    exact absurd he (by simp [staged?])
  cleared _ := by
    rw [WriteBuffer.ofTable_clear, if_pos rfl, WriteBuffer.isCleared_clear, beq_self_eq_true]
    exact ⟨rfl, rfl⟩

theorem noted_onBuffer {a : Action} (h : c.action? = some a) (slot : UInt8) (b : WriteBuffer) :
    c.Noted slot b (a.onBuffer slot b) := by
  cases c with
  | put table key value => cases h; exact noted_stage rfl b
  | insert table key value =>
      cases value with
      | ok value => cases h; exact noted_stage rfl b
      | error e => exact absurd h (by simp [action?])
  | remove table key => cases h; exact noted_stage rfl b
  | clear table => cases h; exact noted_clear rfl b
  | ensure table key expected => exact absurd h (by simp [action?])

end Call

/-! ## What becomes of a store -/

namespace Repository

variable {ε : Type} [StorageEngine ε]

/-- Nothing may have changed but what is going to fail in the engine. -/
structure Spared (r r' : Repository ε) : Prop where
  same : r' = { r with engine := r'.engine }
  rows : StorageEngine.rows r'.engine = StorageEngine.rows r.engine

theorem Spared.refl (r : Repository ε) : Spared r r := ⟨rfl, rfl⟩

/-- **A table that cannot be opened leaves no trace.** -/
theorem spared_openTable [AtomicEngine ε] {r : Repository ε} {name : String} {e : StoreError}
    (he : (r.openTable name).1 = .error e) : Spared r (r.openTable name).2 := by
  have hrows : SameStore r (r.openTable name).2 := by
    rcases r.openTable_cases name with ⟨slot, hs, _⟩ | ⟨e', _, hsame⟩
    · rw [hs] at he
      exact absurd he (by simp)
    · exact hsame
  refine ⟨?_, hrows.rows⟩
  -- a table is published once its row is written, so a failing write is met before that
  unfold openTable at he ⊢
  split at he
  · rfl
  · exact absurd he (by simp)
  · split at he
    · rfl
    · exact absurd he (by simp)

end Repository

section Ended

variable {ε : Type} [StorageEngine ε]

/-- What a call did: nothing, or nothing because it only expects, or its change. -/
inductive Call.Ended (c : Call) (t : Transaction) (r : Repository ε) :
    Except StoreError Unit × Transaction × Repository ε → Prop where
  | failed {e : StoreError} {r' : Repository ε} (spared : r.Spared r') :
    c.Ended t r (.error e, t, r')
  | passed (expects : c.expects = true) : c.Ended t r (.ok (), t, r)
  | changed {slot : UInt8} {b : WriteBuffer} {r' : Repository ε} (expects : c.expects = false)
    (noted : c.Noted slot t.buffer b) (opened : Repository.Opened r r' c.table slot)
    (found : r.registry.get? c.table = some slot → r' = r) (lock : r'.lockHeld = r.lockHeld) :
    c.Ended t r (.ok (), { t with buffer := b }, r')

/-- **The outcomes of a call.** -/
theorem Call.ended_run [AtomicEngine ε] (c : Call) (t : Transaction) (r : Repository ε) :
    c.Ended t r (c.run t r) := by
  cases ha : c.action? with
  | none =>
      obtain ⟨answer, hrun, hok⟩ := run_of_no_action ha t r
      rw [hrun]
      cases answer with
      | error e => exact .failed (.refl r)
      | ok _ => exact .passed (hok rfl)
  | some a =>
      obtain ⟨hexpects, htable, hrun⟩ := run_of_action ha t r
      rw [hrun]
      cases hw : t.requireWritable with
      | error e =>
          rw [Action.run_of_not_writable htable hw]
          exact .failed (.refl r)
      | ok _ =>
          -- from here on only the opening of the table can fail
          rw [Action.run_of_writable htable hw]
          have hcases := r.openTable_cases c.table
          have hspared : ∀ e, (r.openTable c.table).1 = .error e →
              r.Spared (r.openTable c.table).2 := fun _ he => Repository.spared_openTable he
          have hlock := r.lockHeld_openTable c.table
          have hfound : ∀ slot, r.registry.get? c.table = some slot → (r.openTable c.table).2 = r :=
            fun slot hs => by rw [Repository.openTable_of_some hs]
          cases ho : r.openTable c.table with
          | mk answer r' =>
              rw [ho] at hcases hspared hlock hfound
              rcases hcases with ⟨slot, he, hopened⟩ | ⟨e, he, _⟩
              · dsimp only at he
                subst he
                have hnoted := noted_onBuffer ha slot t.buffer
                exact .changed hexpects hnoted hopened (hfound slot) hlock
              · dsimp only at he
                subst he
                exact .failed (hspared e rfl)

/-- A writer's change of a table that is there is made. -/
theorem Call.run_of_known [AtomicEngine ε] {c : Call} {t : Transaction} {r : Repository ε}
    {slot : UInt8} (hactive : t.state = .active) (hmode : t.mode = .readWrite)
    (hchanges : c.action? ≠ none) (hs : r.registry.get? c.table = some slot) :
    (c.run t r).1 = .ok () := by
  obtain ⟨a, ha⟩ := Option.ne_none_iff_exists'.mp hchanges
  obtain ⟨_, htable, hrun⟩ := run_of_action ha t r
  have hw := Transaction.requireWritable_ok_iff.mpr ⟨hactive, hmode⟩
  rw [hrun, Action.run_of_writable htable hw, Repository.openTable_of_some hs]

end Ended

/-! ## Calls in a history -/

namespace History

variable {ε : Type} [StorageEngine ε] {h : History ε}

theorem recorded_of_reachable [HonestEngine ε] (hr : Reachable h) : Recorded h := by
  induction hr with
  | opened opens => exact recorded_of_onEngine opens
  | turn _ turn ih => exact ih.take turn
  | resume _ ih => exact ⟨inv_resume ih.inv, ih.readsBack⟩

/-- No row is stored under the key of a slot that nobody has. -/
theorem Recorded.rowKey_free (hi : Recorded h) {slot : UInt8}
    (hno : ∀ table, h.repo.registry.get? table ≠ some slot) :
    (StorageEngine.rows h.repo.engine).get? (Registry.rowKey slot) = none := by
  cases hrow : (StorageEngine.rows h.repo.engine).get? (Registry.rowKey slot) with
  | none => rfl
  | some value =>
      have hrow' : (StorageEngine.rows h.repo.engine).get? (physicalKey registrySlot [slot])
          = some value := hrow
      obtain ⟨table, s, hkey, hs⟩ := Registry.rowKey_of_ofRows hi.readsBack hrow'
      have hslot : slot = s := (List.cons.inj (List.cons.inj hkey).2).1
      exact absurd (hslot ▸ hs) (hno table)

/--
**A call changes a buffer, or nothing.** The transaction may be of either mode and may have ended;
the table may be there, or not be there, or be one that cannot be made.

If the call fails, every transaction is as it was, with its buffer, its state and its hold on the
lock; the repository is as it was, with its registry, the mark, the counts, the lock and the
reports; and so are the rows. The engine may have used up a fault. If the call succeeds and only
expects something, nothing at all has changed.

If it succeeds and changes something, the buffer is the only thing that changed in this transaction,
under the slot of the table and nowhere else: at the key, or for the whole table where that was
cleared. Other transactions are as they were. If the table was there the repository is as it was;
otherwise there is one row more, which gives the table its slot. That row is a new one, and names
that differ have different slots, as long as the engine's walks are right. A writer's change of a
table that is there does succeed.
-/
theorem call_changes_buffer_or_nothing [AtomicEngine ε] (hr : Reachable h) {name : String}
    {c : Call} {answer : Except StoreError Unit} {s : Session ε}
    (hc : h.session.update? name c.run = some (answer, s)) :
    (∀ e, answer = .error e →
      s.transactions = h.session.transactions ∧ h.repo.Spared s.repo)
    ∧ (answer = .ok () → c.expects = true → s = h.session)
    ∧ (answer = .ok () → c.expects = false → ∃ t b slot,
      h.session.transaction? name = some t
      ∧ s.transactions = h.session.transactions.insert name { t with buffer := b }
      ∧ c.Noted slot t.buffer b
      ∧ s.repo.lockHeld = h.repo.lockHeld
      ∧ (h.repo.registry.get? c.table = some slot ∧ s.repo = h.repo
        ∨ h.repo.registry.get? c.table = none ∧ c.table ≠ ""
          ∧ s.repo.registry = h.repo.registry.publish c.table slot
          ∧ StorageEngine.rows s.repo.engine
            = (StorageEngine.rows h.repo.engine).insert (Registry.rowKey slot)
              (Utf8.encode c.table)
          ∧ (HonestEngine ε →
            (StorageEngine.rows h.repo.engine).get? (Registry.rowKey slot) = none))
      ∧ (HonestEngine ε → ∀ other s', other ≠ c.table →
        s.repo.registry.get? other = some s' → s' ≠ slot))
    ∧ (∀ t slot, h.session.transaction? name = some t → t.state = .active →
      t.mode = .readWrite → c.action? ≠ none → h.repo.registry.get? c.table = some slot →
      answer = .ok ()) := by
  obtain ⟨t, ht, hrun⟩ := Option.map_eq_some_iff.mp hc
  have hgoes : ∀ u slot, h.session.transaction? name = some u → u.state = .active →
      u.mode = .readWrite → c.action? ≠ none → h.repo.registry.get? c.table = some slot →
      answer = .ok () := by
    intro u slot hu hactive hmode hchanges hs
    cases Option.some.inj (ht.symm.trans hu)
    rw [← (Prod.mk.inj hrun).1]
    exact Call.run_of_known hactive hmode hchanges hs
  have hended := c.ended_run t h.session.repo
  generalize c.run t h.session.repo = result at hended hrun
  cases hended with
  | failed spared =>
      obtain ⟨rfl, rfl⟩ := Prod.mk.inj hrun
      exact ⟨fun _ _ => ⟨Session.transactions_insert_self ht, spared⟩,
        fun hok => absurd hok (by simp), fun hok => absurd hok (by simp), hgoes⟩
  | passed expects =>
      obtain ⟨rfl, rfl⟩ := Prod.mk.inj hrun
      refine ⟨fun e he => absurd he (by simp), fun _ _ => ?_,
        fun _ hno => absurd (expects.symm.trans hno) (by simp), hgoes⟩
      rw [Session.transactions_insert_self ht]
  | changed expects noted opened found lock =>
      rename_i slot b r'
      obtain ⟨rfl, rfl⟩ := Prod.mk.inj hrun
      refine ⟨fun e he => absurd he (by simp),
        fun _ hyes => absurd (expects.symm.trans hyes) (by simp),
        fun _ _ => ⟨t, b, slot, ht, rfl, noted, lock, ?_, fun _ other s' hne hs => ?_⟩, hgoes⟩
      · cases opened with
        | found known same => exact Or.inl ⟨known, found known⟩
        | made unknown named above isTable registry rows =>
            refine Or.inr ⟨unknown, named, registry, rows, fun _ => ?_⟩
            have hi := recorded_of_reachable hr
            exact hi.rowKey_free (hi.sound.unused above)
      · intro he
        rw [he] at hs
        exact hne ((opened.sound (recorded_of_reachable hr).sound).injective hs opened.known)

/-- A table whose making fails at first, beside a table that has changes pending. -/
theorem call_changes_buffer_or_nothing_second_try :
    let r : Repository MemoryEngine :=
      { engine := {}, registry := {}, config := {}
        events := [.repositoryOpened "memory" "data" 0] }
    let h := (start r).run [
      .step "q" (.begin .read), .step "a" (.begin .readWrite), .step "a" (.act (.put "t" [1] [5])),
      .fault (fun e => e.failWritesAfter 0) (fun _ => rfl)]
    let k := h.take (.step "a" (.act (.clear "u")))
    let c : Call := .insert "u" [1] (.ok [7])
    (∃ e s, h.session.update? "a" c.run = some (.error e, s)
      ∧ s.transactions = h.session.transactions ∧ s.repo.registry = h.repo.registry
      ∧ s.repo.metrics = h.repo.metrics
      ∧ StorageEngine.rows s.repo.engine = StorageEngine.rows h.repo.engine)
    ∧ ∃ s t b slot, k.session.update? "a" c.run = some (.ok (), s)
      ∧ k.session.transaction? "a" = some t
      ∧ s.transactions = k.session.transactions.insert "a" { t with buffer := b }
      ∧ b.get? slot [1] = some (some [7]) ∧ b.cleared = t.buffer.cleared
      ∧ StorageEngine.rows s.repo.engine
        = (StorageEngine.rows k.repo.engine).insert (Registry.rowKey slot) (Utf8.encode "u")
      ∧ (StorageEngine.rows k.repo.engine).get? (Registry.rowKey slot) = none := by
  intro r h k c
  have hopened : Repository.onEngine ({} : MemoryEngine) {} = .ok r := rfl
  have hreach : Reachable h := (Reachable.opened hopened).run _
  have hreach' : Reachable k := hreach.turn _
  have hrefused : (h.session.update? "a" c.run).map (fun p => p.1.toOption) = some none := by
    decide +kernel
  have hdone : (k.session.update? "a" c.run).map (fun p => p.1.toOption) = some (some ()) := by
    decide +kernel
  have hunknown : k.repo.registry.get? "u" = none := by decide +kernel
  obtain ⟨⟨answer, s⟩, hs, hanswer⟩ := Option.map_eq_some_iff.mp hrefused
  obtain ⟨⟨answer', s'⟩, hs', hanswer'⟩ := Option.map_eq_some_iff.mp hdone
  obtain ⟨hfailed, _⟩ := call_changes_buffer_or_nothing hreach hs
  obtain ⟨_, _, hchanged, _⟩ := call_changes_buffer_or_nothing hreach' hs'
  cases answer with
  | ok _ => exact absurd hanswer (by simp [Except.toOption])
  | error e =>
      cases answer' with
      | error e' => exact absurd hanswer' (by simp [Except.toOption])
      | ok _ =>
          obtain ⟨htransactions, hspared⟩ := hfailed e rfl
          obtain ⟨t, b, slot, ht, hinsert, hnoted, _, hstore, _⟩ := hchanged rfl rfl
          obtain ⟨hcleared, hrow⟩ := hnoted.row rfl
          rcases hstore with ⟨hknown, _⟩ | ⟨_, _, _, hrows, hfree⟩
          · exact absurd (hunknown.symm.trans hknown) (by simp)
          · have hregistry : s.repo.registry = h.repo.registry := by rw [hspared.same]
            have hmetrics : s.repo.metrics = h.repo.metrics := by rw [hspared.same]
            refine ⟨⟨e, s, hs, htransactions, hregistry, hmetrics, hspared.rows⟩,
              s', t, b, slot, hs', ht, hinsert, ?_, hcleared, hrows, hfree inferInstance⟩
            rw [hrow, if_pos rfl]

end History

end TableStore
