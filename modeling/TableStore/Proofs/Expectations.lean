import TableStore.Proofs.Calls
import TableStore.Proofs.ValueShape
import TableStore.Proofs.Views

/-!
# An expectation is a read that is compared

A caller that relies on the value of a row can have it checked. The check compares bytes: what the
row resolves to against the encoding of the expected value. A typed read goes the other way and
decodes. The two agree because a value has one encoding and is read back from it; where the bytes
are not the encoding of a value of the type, a read may still make something of them, and only then
can it find a value that the check refuses.

So the question is who wrote the bytes. `LastPut` says of a list of changes that the last of a row
set it to given bytes, whatever tables and rows the others were about, and replaying the list leaves
these bytes there (`LastPut.get?_replay`).
-/

namespace TableStore

/-! ## The last change of a row -/

/-- Whether an action leaves a row as it is, over any rows of its table. -/
def Action.Spares (a : Action) (table : String) (key : Bytes) : Prop :=
  ∀ rows : Rows, (a.onTable table rows).get? key = rows.get? key

/-- The last of the actions that is about a row sets it to these bytes. -/
def LastPut (log : List Action) (table : String) (key value : Bytes) : Prop :=
  ∃ before after, log = before ++ .put table key value :: after
    ∧ ∀ a ∈ after, a.Spares table key

theorem get?_replay_of_spares {log : List Action} {table : String} {key : Bytes}
    (h : ∀ a ∈ log, a.Spares table key) (rows : Rows) :
    (replay log table rows).get? key = rows.get? key := by
  induction log generalizing rows with
  | nil => rfl
  | cons a rest ih =>
      show (replay rest table (a.onTable table rows)).get? key = _
      rw [ih (fun b hb => h b (List.mem_cons_of_mem _ hb)), h a List.mem_cons_self]

theorem LastPut.get?_replay {log : List Action} {table : String} {key value : Bytes}
    (h : LastPut log table key value) (rows : Rows) :
    (replay log table rows).get? key = some value := by
  obtain ⟨before, after, rfl, hspares⟩ := h
  rw [replay_append]
  show (replay after table ((Action.put table key value).onTable table _)).get? key = _
  rw [get?_replay_of_spares hspares, Action.onTable_self rfl]
  exact SortedMap.get?_insert_self _ _ _

/-! ## Presence and value -/

/-- An engine that says of a row that it is there when a look-up finds it, and fails to say so when
the look-up fails. -/
def StorageEngine.Coherent {ε : Type} [StorageEngine ε] (engine : ε) : Prop :=
  ∀ key, StorageEngine.contains engine key = (StorageEngine.get engine key).map Option.isSome

section Reads

variable {ε : Type} [StorageEngine ε] {t : Transaction} {r : Repository ε}

theorem StorageEngine.Answers.coherent {engine : ε} (h : StorageEngine.Answers engine) :
    StorageEngine.Coherent engine := by
  intro key
  rw [h.contains_eq, h.get_eq, SortedMap.contains_eq_isSome]
  rfl

theorem ReadSource.contains_eq_map {engine : ε} (h : StorageEngine.Coherent engine)
    (s : ReadSource) (key : Bytes) :
    s.contains engine key = (s.get engine key).map Option.isSome := by
  cases s with
  | live => exact h key
  | snapshot rows => exact congrArg Except.ok (SortedMap.contains_eq_isSome rows key)

namespace Transaction

theorem hasKey_eq_map (h : StorageEngine.Coherent r.engine) (slot : UInt8) (key : Bytes) :
    t.hasKey r slot key = (t.lookup r slot key).map Option.isSome := by
  unfold hasKey lookup
  cases t.buffer.get? slot key with
  | some entry => rfl
  | none =>
      dsimp only
      by_cases hcleared : t.buffer.isCleared slot = true
      · rw [if_pos hcleared, if_pos hcleared]
        rfl
      · rw [if_neg hcleared, if_neg hcleared]
        exact t.source.contains_eq_map h _

/-- **A row is there when a read of it finds a value,** and cannot be told when the read fails. -/
theorem contains_eq_map (h : StorageEngine.Coherent r.engine) (table : String) (key : Bytes) :
    t.contains r table key = (t.get r table key).map Option.isSome := by
  unfold Transaction.contains Transaction.get readTable
  cases t.requireActive with
  | error e => rfl
  | ok _ =>
      cases r.slot? table with
      | none => rfl
      | some slot => exact hasKey_eq_map h slot key

theorem get_eq_none_iff (h : StorageEngine.Coherent r.engine) (table : String) (key : Bytes) :
    t.get r table key = .ok none ↔ t.contains r table key = .ok false := by
  rw [contains_eq_map h]
  cases t.get r table key with
  | error e => simp [Except.map]
  | ok found => cases found <;> simp [Except.map]

/-! ## The check -/

/-- **An expectation is met when the read finds it,** and never otherwise. -/
theorem ensure_ok_iff (table : String) (key : Bytes) (expected : Option Bytes) :
    t.ensure r table key expected = .ok () ↔ t.get r table key = .ok expected := by
  unfold ensure
  cases t.get r table key with
  | error e => simp
  | ok found => by_cases hf : found = expected <;> simp [hf]

/-- What a read finds instead of what was expected is in the error, with the row. -/
theorem ensure_of_ne {table : String} {key : Bytes} {expected found : Option Bytes}
    (hget : t.get r table key = .ok found) (hne : found ≠ expected) :
    t.ensure r table key expected
      = .error (.contractViolation (.unexpectedValue table key expected found)) := by
  unfold ensure
  rw [hget]
  exact if_neg hne

theorem select_of_get {table : String} {key : Bytes} {s : ValueShape} {v : s.Value}
    (hv : s.Fits v) (hget : t.get r table key = .ok (some (s.encode v))) :
    t.select r table key s = .ok (some v) := by
  unfold select decodeOptional
  rw [hget]
  dsimp only
  rw [s.decode_encode hv]

end Transaction

end Reads

/-- A value with room where it is written has an encoding of its own. -/
theorem ValueShape.encode_injective {s : ValueShape} {v w : s.Value} (hv : s.Fits v)
    (hw : s.Fits w) (h : s.encode v = s.encode w) : v = w := by
  have hread := s.decode_encode hv
  rw [h, s.decode_encode hw] at hread
  exact (Except.ok.inj hread).symm

/-- A writer reads the engine as it is, and so does a reader without a snapshot. -/
theorem Transaction.live_of_reads {t : Transaction} {g : Registry} {log : List Action}
    (h : t.Tracked g log) (hreads : t.mode = .readWrite ∨ t.usesSnapshot = false) :
    t.source = .live := by
  rcases hreads with hmode | hsnapshot
  · exact h.live hmode
  · cases hsource : t.source with
    | live => rfl
    | snapshot rows =>
        unfold Transaction.usesSnapshot at hsnapshot
        rw [hsource] at hsnapshot
        exact absurd hsnapshot (by simp)

/-! ## Checks in a history -/

namespace History

variable {ε : Type} [StorageEngine ε] {h : History ε} {name : String} {t : Transaction}
  {table : String} {key value : Bytes}

/-- Whoever reads the engine as it is finds what was put last. -/
theorem get_of_lastPut [HonestEngine ε] (hr : Reachable h) (hcovered : h.origin.Covered)
    (hanswers : StorageEngine.Answers h.repo.engine)
    (ht : h.session.transaction? name = some t) (hactive : t.state = .active)
    (hreads : t.mode = .readWrite ∨ t.usesSnapshot = false)
    (hput : LastPut (h.commits.flatten ++ h.pending name) table key value) :
    t.get h.repo table key = .ok (some value) := by
  have hi := inv_of_reachable hr
  have htracked := hi.tracked ht
  have hview : t.view h.repo table
      = replay (h.commits.flatten ++ h.pending name) table (h.origin.committed table) := by
    rw [Transaction.view_eq_of_live htracked hactive (Transaction.live_of_reads htracked hreads),
      hi.store.committed_eq hcovered, replay_append]
  rw [(Transaction.reads_view hactive hi.store.sound hanswers).get_eq, hview, hput.get?_replay]

/-- A check leaves no trace, whatever comes of it. -/
theorem session_of_ensure {expected : Except StoreError (Option Bytes)}
    {answer : Except StoreError Unit} {s : Session ε}
    (hc : h.session.update? name (Call.ensure table key expected).run = some (answer, s)) :
    s = h.session := by
  unfold Session.update? at hc
  obtain ⟨t, ht, hsame⟩ := Option.map_eq_some_iff.mp hc
  obtain ⟨told, hrun, _⟩ :=
    Call.run_of_no_action (c := .ensure table key expected) rfl t h.session.repo
  rw [hrun] at hsame
  rw [← (Prod.mk.inj hsame).2, Session.transactions_insert_self ht]

/--
**A check agrees with reads.** Take any moment of a store and any transaction that is active then,
with what it has pending and cleared and whatever else there is; any table, any key and any shape
of values, with maps in it or without.

To expect no value is met just when the row is said not to be there. To expect a value is met just
when the row resolves to the encoding of that value; then a typed read returns the value. If the
row resolves to the encoding of some value of the shape, the other way round holds too: where a
typed read returns the expected value the check is met, and where it returns another one the check
fails as a violation of contract, which names the row with both encodings. A row does so resolve
when the last change of it, among those committed and those of the transaction, was to insert a
value of the shape.

A table that is not there is one without rows. And no check changes anything: the session is the
same after it, with every transaction, the tables and the engine.
-/
theorem check_agrees_with_reads (hr : Reachable h) (ht : h.session.transaction? name = some t)
    (hactive : t.state = .active) (hcoherent : StorageEngine.Coherent h.repo.engine)
    (table : String) (key : Bytes) (s : ValueShape) :
    let check (expected : Option s.Value) := t.ensure h.repo table key (expected.map s.encode)
    (check none = .ok () ↔ t.contains h.repo table key = .ok false)
    ∧ (∀ v, check (some v) = .ok () ↔ t.get h.repo table key = .ok (some (s.encode v)))
    ∧ (∀ v, s.Fits v → check (some v) = .ok () → t.select h.repo table key s = .ok (some v))
    ∧ (∀ w, s.Fits w → t.get h.repo table key = .ok (some (s.encode w)) → ∀ v,
      (t.select h.repo table key s = .ok (some v) → check (some v) = .ok ())
      ∧ ∀ u, t.select h.repo table key s = .ok (some u) → s.Fits v → u ≠ v →
        check (some v) = .error (.contractViolation
          (.unexpectedValue table key (some (s.encode v)) (some (s.encode u)))))
    ∧ (HonestEngine ε → StorageEngine.Answers h.repo.engine → h.origin.Covered →
      (t.mode = .readWrite ∨ t.usesSnapshot = false) → ∀ w : s.Value,
        LastPut (h.commits.flatten ++ h.pending name) table key (s.encode w) →
        t.get h.repo table key = .ok (some (s.encode w)))
    ∧ (h.repo.slot? table = none → t.get h.repo table key = .ok none ∧ check none = .ok ()
      ∧ ∀ v, check (some v)
        = .error (.contractViolation (.unexpectedValue table key (some (s.encode v)) none)))
    ∧ ∀ (expected : Except StoreError (Option Bytes)) answer session',
      h.session.update? name (Call.ensure table key expected).run = some (answer, session') →
      session' = h.session := by
  intro check
  have hmet : ∀ v, check (some v) = .ok () ↔ t.get h.repo table key = .ok (some (s.encode v)) :=
    fun v => Transaction.ensure_ok_iff table key (some (s.encode v))
  refine ⟨?_, hmet, fun v hv hok => Transaction.select_of_get hv ((hmet v).mp hok),
    fun w hw hget v => ⟨fun hselect => ?_, fun u hselect hv hne => ?_⟩,
    fun _ hanswers hcovered hreads w hput =>
      get_of_lastPut hr hcovered hanswers ht hactive hreads hput,
    fun hnone => ?_, fun _ _ _ => session_of_ensure⟩
  · exact (Transaction.ensure_ok_iff table key none).trans
      (Transaction.get_eq_none_iff hcoherent table key)
  · -- the value that is read is the one that was written
    rw [Transaction.select_of_get hw hget] at hselect
    cases hselect
    exact (hmet _).mpr hget
  · rw [Transaction.select_of_get hw hget] at hselect
    cases hselect
    refine Transaction.ensure_of_ne hget (fun he => hne ?_)
    exact ValueShape.encode_injective hw hv (Option.some.inj he)
  · have hget : t.get h.repo table key = .ok none := by
      unfold Transaction.get
      rw [Transaction.readTable_of_active hactive, hnone]
    exact ⟨hget, (Transaction.ensure_ok_iff table key none).mpr hget,
      fun v => Transaction.ensure_of_ne hget (by simp)⟩

/-- A map that was committed, beside a row that the writer has removed since. -/
theorem check_agrees_with_reads_map :
    let s : ValueShape := .map
    let v : s.Value := SortedMap.ofList [("b", 1), ("a", 2)]
    let other : s.Value := SortedMap.empty
    let r : Repository MemoryEngine :=
      { engine := {}, registry := {}, config := {}
        events := [.repositoryOpened "memory" "data" 0] }
    let h := (start r).run [
      .step "a" (.begin .readWrite), .step "a" (.act (.put "t" [8] [])),
      .step "a" (.act (.put "t" [1] (s.encode v))), .step "a" (.act .commit),
      .step "a" (.begin .readWrite), .step "a" (.act (.clear "u")),
      .step "a" (.act (.remove "t" [8]))]
    ∃ t, h.session.transaction? "a" = some t
      ∧ t.ensure h.repo "t" [1] (some (s.encode v)) = .ok ()
      ∧ t.select h.repo "t" [1] s = .ok (some v)
      ∧ t.ensure h.repo "t" [1] (some (s.encode other)) = .error (.contractViolation
          (.unexpectedValue "t" [1] (some (s.encode other)) (some (s.encode v))))
      ∧ t.ensure h.repo "t" [8] none = .ok ()
      ∧ t.ensure h.repo "w" [] none = .ok () := by
  intro s v other r h
  have hopened : Repository.onEngine ({} : MemoryEngine) {} = .ok r := rfl
  have hreach : Reachable h := (Reachable.opened hopened).run _
  have horigin : h.origin = r := origin_run _ _
  have hcovered : h.origin.Covered := by
    rw [horigin]
    exact fun key value hrow => absurd (show none = some value from hrow) (by simp)
  have hanswers := h.repo.engine.answers
  have hv : s.Fits v :=
    ⟨by decide, show ∀ e ∈ v.toList, (Utf8.encode e.1).length < 256 ^ 8 by decide⟩
  have hother : s.Fits other := ⟨by decide, by simp [other, SortedMap.empty]⟩
  have hne : v ≠ other := fun he => absurd (congrArg SortedMap.size he) (by decide)
  have hlog : h.commits.flatten ++ h.pending "a"
      = [.put "t" [8] []] ++ .put "t" [1] (s.encode v) :: [.clear "u", .remove "t" [8]] := by
    decide +kernel
  have hput : LastPut (h.commits.flatten ++ h.pending "a") "t" [1] (s.encode v) := by
    refine ⟨_, _, hlog, fun a ha rows => ?_⟩
    rcases List.mem_cons.mp ha with rfl | ha
    · rw [Action.onTable_of_ne (by decide)]
    · cases List.mem_singleton.mp ha
      exact SortedMap.get?_erase_of_ne rows (by decide)
  have hstate : (h.session.transaction? "a").map (fun t =>
      (t.state, t.mode, (t.contains h.repo "t" [8]).toOption))
      = some (.active, .readWrite, some false) := by
    decide +kernel
  obtain ⟨t, ht, hsame⟩ := Option.map_eq_some_iff.mp hstate
  have hactive : t.state = .active := congrArg Prod.fst hsame
  have hmode : t.mode = .readWrite := congrArg (fun p => p.2.1) hsame
  have hcontains : t.contains h.repo "t" [8] = .ok false := by
    have htold := congrArg (fun p => p.2.2) hsame
    cases hc : t.contains h.repo "t" [8] with
    | error e => simp [hc, Except.toOption] at htold
    | ok b => simpa [hc, Except.toOption] using htold
  obtain ⟨_, hmet, hselect, hwritten, hlast, _⟩ :=
    check_agrees_with_reads hreach ht hactive hanswers.coherent "t" [1] s
  obtain ⟨hnone, _⟩ := check_agrees_with_reads hreach ht hactive hanswers.coherent "t" [8] s
  obtain ⟨_, _, _, _, _, hunknown, _⟩ :=
    check_agrees_with_reads hreach ht hactive hanswers.coherent "w" [] s
  have hget := hlast inferInstance hanswers hcovered (Or.inl hmode) v hput
  have hread := hselect v hv ((hmet v).mpr hget)
  exact ⟨t, ht, (hmet v).mpr hget, hread, (hwritten v hv hget other).2 v hread hother hne,
    hnone.mpr hcontains, (hunknown (by decide +kernel)).2.1⟩

end History

end TableStore
