import TableStore.Proofs.Changes
import TableStore.Proofs.Commit

/-!
# Histories

A history is a session and a record of what happened in it. Its turns are the steps that do
something; a read can stand between any two of them, for it leaves nothing behind. The record
is a ghost: no step looks at it. It says what each transaction changed since it began, which
of these lists were committed and in what order, and what was changed at all.

The invariant has two sides. `Repository.Serial` is about the store: the rows of every table
are those of the start with the committed lists replayed on them, one after the other, and
the tables are those of the start and those that a change named. `Transaction.Tracked` is
about each open transaction: its buffer means what its list means (`Registry.Mirrors`).

They meet at a commit. The batch lays the buffer over the rows *of that moment*, whatever
other writers made of them since the transaction began, and the buffer over any rows is the
list replayed on them. That is why a commit that failed can be tried again after others have
committed, and still counts as one list replayed at the end.
-/

namespace TableStore

variable {ε : Type} [StorageEngine ε]

/-! ## Histories and their record -/

/-- A turn of a history: a step of the transaction of some name, or a change of what fails
below. -/
inductive Turn (ε : Type) [StorageEngine ε] where
  | step (name : String) (step : Step)
  /-- Faults come and go; rows do not. -/
  | fault (change : ε → ε)
    (same : ∀ engine, StorageEngine.rows (change engine) = StorageEngine.rows engine)

/-- A session with a record of what happened in it. -/
structure History (ε : Type) where
  session : Session ε
  /-- The repository when the record begins. -/
  origin : Repository ε
  /-- The changes of each transaction since it began, by its name. -/
  pending : String → List Action := fun _ => []
  /-- The changes of the transactions that committed, in the order of the commits. -/
  commits : List (List Action) := []
  /-- All changes that succeeded, committed or not. -/
  changes : List Action := []

namespace History

/-- The repository as it is. -/
def repo (h : History ε) : Repository ε := h.session.repo

/-- A history without a past. -/
def start (r : Repository ε) : History ε := { session := { repo := r }, origin := r }

/-- The same session, on record from now on. -/
def resume (h : History ε) : History ε := { h with origin := h.repo, commits := [], changes := [] }

/-- Set the changes of one transaction. -/
def setPending (h : History ε) (name : String) (log : List Action) : String → List Action :=
  fun other => if other = name then log else h.pending other

/-- Put a step that was answered on record. -/
def note (h : History ε) (name : String) (step : Step) (answer : Except StoreError Unit)
    (s : Session ε) : History ε :=
  match answer, step with
  | .error _, _ => { h with session := s }
  | .ok (), .begin _ => { h with session := s, pending := h.setPending name [] }
  | .ok (), .act .commit => { h with session := s, commits := h.commits ++ [h.pending name] }
  | .ok (), .act .rollback => { h with session := s }
  | .ok (), .act a =>
    { h with
      session := s
      pending := h.setPending name (h.pending name ++ [a])
      changes := h.changes ++ [a] }
  | .ok (), .drop => { h with session := s }

/-- Take a turn. A step of a transaction that is not there is no turn. -/
def take (h : History ε) (turn : Turn ε) : History ε :=
  match turn with
  | .step name step =>
    match h.session.step? name step with
    | some (answer, s) => h.note name step answer s
    | none => h
  | .fault change _ => { h with session := h.session.mapEngine change }

/-- Take turns, one after the other. -/
def run (h : History ε) (turns : List (Turn ε)) : History ε := turns.foldl take h

theorem origin_take (h : History ε) (turn : Turn ε) : (h.take turn).origin = h.origin := by
  cases turn with
  | fault change same => rfl
  | step name step =>
      unfold take
      dsimp only
      split
      · unfold note
        split <;> rfl
      · rfl

theorem origin_run (h : History ε) (turns : List (Turn ε)) : (h.run turns).origin = h.origin := by
  induction turns generalizing h with
  | nil => rfl
  | cons turn rest ih => exact (ih (h.take turn)).trans (h.origin_take turn)

end History

/-- The histories of a store that was opened on an engine. A record may begin at any time. -/
inductive Reachable : History ε → Prop where
  | opened {engine : ε} {config : StoreConfig} {r : Repository ε}
    (h : Repository.onEngine engine config = .ok r) : Reachable (.start r)
  | turn {h : History ε} (before : Reachable h) (turn : Turn ε) : Reachable (h.take turn)
  | resume {h : History ε} (before : Reachable h) : Reachable h.resume

theorem Reachable.run {h : History ε} (hr : Reachable h) (turns : List (Turn ε)) :
    Reachable (h.run turns) := by
  induction turns generalizing h with
  | nil => exact hr
  | cons turn rest ih => exact ih (hr.turn turn)

/-! ## Steps that change nothing that is stored -/

open Repository (SameStore)

namespace Transaction

theorem begin_cases (mode : TransactionMode) (r : Repository ε) :
    (∃ e r', begin mode r = (.error e, r') ∧ SameStore r r')
    ∨ (∃ t r', begin mode r = (.ok t, r') ∧ SameStore r r' ∧ t.buffer = .empty
      ∧ t.state = .active ∧ t.mode = mode ∧ (mode = .readWrite → t.source = .live)) := by
  unfold begin
  cases mode with
  | read =>
      dsimp only
      split
      · split
        · exact Or.inl ⟨_, r, rfl, .refl r⟩
        · exact Or.inr ⟨_, r, rfl, .refl r, rfl, rfl, rfl, by simp⟩
        · exact Or.inr ⟨_, r, rfl, .refl r, rfl, rfl, rfl, by simp⟩
      · exact Or.inr ⟨_, r, rfl, .refl r, rfl, rfl, rfl, by simp⟩
  | readWrite =>
      unfold Repository.acquireWriter
      by_cases hheld : r.lockHeld = true
      · rw [if_pos hheld]
        exact Or.inl ⟨_, _, rfl, rfl, rfl⟩
      · rw [if_neg hheld]
        exact Or.inr ⟨_, _, rfl, ⟨rfl, rfl⟩, rfl, rfl, rfl, fun _ => rfl⟩

theorem sameStore_release (t : Transaction) (r : Repository ε) : SameStore r (t.release r) := by
  unfold release
  split <;> exact ⟨rfl, rfl⟩

theorem rollback_cases (t : Transaction) (r : Repository ε) :
    (∃ e, t.rollback r = (.error e, t, r))
    ∨ (∃ r', t.rollback r = (.ok (), t.finished .rolledBack, r') ∧ SameStore r r') := by
  unfold rollback
  split
  · exact Or.inl ⟨_, rfl⟩
  · have hsame := t.sameStore_release r
    exact Or.inr ⟨_, rfl, hsame.rows, hsame.registry⟩

theorem sameStore_drop (t : Transaction) (r : Repository ε) : SameStore r (t.drop r) := by
  have hroll : ∀ q : Repository ε, SameStore q (t.rollback q).2.2 := by
    intro q
    rcases t.rollback_cases q with ⟨e, hq⟩ | ⟨q', hq, hsame⟩
    · rw [hq]; exact .refl q
    · rw [hq]; exact hsame
  have hnoted : ∀ q : Repository ε, SameStore r q → SameStore r (t.rollback q).2.2 :=
    fun q hq => hq.trans (hroll q)
  unfold drop
  dsimp only
  split
  · exact hnoted _ ⟨rfl, rfl⟩
  · exact hnoted _ (.refl r)

/-! ## The outcomes of a commit -/

/-- What a commit did: nothing that is stored, or the whole buffer. -/
inductive CommitRan (t : Transaction) (r : Repository ε) :
    Except StoreError Unit × Transaction × Repository ε → Prop where
  | failed {e : StoreError} {r' : Repository ε} (holds : Bool) (same : SameStore r r') :
      t.CommitRan r (.error e, { t with holdsWriter := holds }, r')
  | read {r' : Repository ε} (active : t.state = .active) (mode : t.mode = .read)
      (same : SameStore r r') : t.CommitRan r (.ok (), t.finished .committed, r')
  | written {r' : Repository ε} (active : t.state = .active) (mode : t.mode = .readWrite)
      (registry : r'.registry = r.registry)
      (rows : StorageEngine.rows r'.engine
        = (t.buffer.batchOn (StorageEngine.rows r.engine)).applyTo (StorageEngine.rows r.engine)) :
      t.CommitRan r (.ok (), t.finished .committed, r')

theorem ran_commit [HonestEngine ε] (t : Transaction) (r : Repository ε) :
    t.CommitRan r (t.commit r) := by
  by_cases hactive : t.state = .active
  · cases hmode : t.mode with
    | read =>
        rw [commit_of_read hactive hmode]
        exact .read hactive hmode (t.sameStore_release r)
    | readWrite =>
        by_cases hlock : t.CanLock r
        · rcases commit_cases hactive hmode hlock with ⟨e, _, hc⟩ | ⟨_, _, hc⟩
          · have hundone := undone_of_error hactive hmode hlock (congrArg Prod.fst hc)
            have hstore := hundone.store
            rw [hc] at hstore ⊢
            exact .failed false hstore
          · obtain ⟨⟨batch, hb, hrows⟩, hreg, _⟩ :=
              commit_ok hactive hmode hlock (congrArg Prod.fst hc)
            rw [WriteBuffer.batch_honest hb] at hrows
            rw [hc] at hrows hreg ⊢
            exact .written hactive hmode hreg hrows
        · -- the lock is another's, and asking for it is all that happened
          obtain ⟨⟨e, he⟩, hrest⟩ := commit_of_not_canLock hactive hmode hlock
          have hc : t.commit r = (.error e, t, r.acquireWriter.2) := Prod.ext he hrest
          have hsame : SameStore r r.acquireWriter.2 := by
            unfold Repository.acquireWriter
            split <;> exact ⟨rfl, rfl⟩
          rw [hc]
          exact .failed t.holdsWriter hsame
  · -- a transaction that has ended refuses
    rw [commit_of_ended hactive]
    exact .failed t.holdsWriter (.refl r)

end Transaction

end TableStore
