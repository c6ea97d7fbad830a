import TableStore.Transaction

/-!
# Sessions

A session is a repository with the transactions that are open on it, each under a
name. It is where transactions meet: a writer that begins while another one is open
finds the lock held, and what one commits the others read.

What a transaction can do to a session is an `Action`; beginning, acting and letting go
are the `Step`s of a history. Names are the session's own: a transaction that begins
under a name in use takes the name over, and the older one is let go, but only after
the new one has begun, so a writer cannot replace itself.
-/

namespace TableStore

/-- A change that a transaction makes, or its end. -/
inductive Action where
  | put (table : String) (key value : Bytes)
  | putAll (table : String) (rows : List (Bytes × Bytes))
  | remove (table : String) (key : Bytes)
  | clear (table : String)
  | commit
  | rollback
  deriving DecidableEq, Repr

/-- Let a transaction act. -/
def Action.run {ε : Type} [StorageEngine ε] (action : Action) (t : Transaction)
    (r : Repository ε) : Except StoreError Unit × Transaction × Repository ε :=
  match action with
  | put table key value => t.put r table key value
  | putAll table rows => t.putAll r table rows
  | remove table key => t.remove r table key
  | clear table => t.clear r table
  | commit => t.commit r
  | rollback => t.rollback r

/-- A step of a history, taken by the transaction of some name. -/
inductive Step where
  | begin (mode : TransactionMode)
  | act (action : Action)
  /-- Let the transaction go. -/
  | drop
  deriving DecidableEq, Repr

/-- A repository and the transactions open on it. -/
structure Session (ε : Type) where
  repo : Repository ε
  transactions : SortedMap String Transaction := .empty

namespace Session

variable {ε : Type}

def transaction? (s : Session ε) (name : String) : Option Transaction := s.transactions.get? name

/-- Change the engine below the repository. -/
def mapEngine (s : Session ε) (f : ε → ε) : Session ε :=
  { s with repo.engine := f s.repo.engine }

def letGo (s : Session ε) (t : Transaction) : Session ε := { s with repo := t.drop s.repo }

/-- Keep a transaction under a name; the one that had the name before is let go. -/
def adopt (s : Session ε) (name : String) (t : Transaction) : Session ε :=
  let kept := { s with transactions := s.transactions.insert name t }
  match s.transaction? name with
  | some older => kept.letGo older
  | none => kept

/-- Take a transaction out, so that its name is free. -/
def take? (s : Session ε) (name : String) : Option (Transaction × Session ε) :=
  (s.transaction? name).map
    (fun t => (t, { s with transactions := s.transactions.erase name }))

/-- Take a transaction out and let it go. -/
def drop? (s : Session ε) (name : String) : Option (Session ε) :=
  (s.take? name).map (fun (t, s) => s.letGo t)

def update? {α : Type} (s : Session ε) (name : String)
    (work : Transaction → Repository ε → α × Transaction × Repository ε) :
    Option (α × Session ε) :=
  (s.transaction? name).map (fun t =>
    let (answer, t, r) := work t s.repo
    (answer, ⟨r, s.transactions.insert name t⟩))

/-- Let every transaction go, in the order of their names. -/
def close (s : Session ε) : Session ε :=
  s.transactions.toList.foldl (fun s b => s.letGo b.2) { s with transactions := .empty }

variable [StorageEngine ε]

/-- Begin a transaction outside of the names. -/
def beginUnnamed (s : Session ε) (mode : TransactionMode) :
    Except StoreError Transaction × Session ε :=
  let (begun, r) := Transaction.begin mode s.repo
  (begun, { s with repo := r })

def begin (s : Session ε) (name : String) (mode : TransactionMode) :
    Except StoreError Unit × Session ε :=
  match s.beginUnnamed mode with
  | (.error e, s) => (.error e, s)
  | (.ok t, s) => (.ok (), s.adopt name t)

/-- Take one step under a name; `none` when the step needs a transaction and there is
none of the name. -/
def step? (s : Session ε) (name : String) (step : Step) :
    Option (Except StoreError Unit × Session ε) :=
  match step with
  | .begin mode => some (s.begin name mode)
  | .act action => s.update? name action.run
  | .drop => (s.drop? name).map (fun s => (.ok (), s))

/-- End a transaction while a writer queues behind it: the writer begins as soon as the
end has given the lock back. -/
def handOff? (s : Session ε) (name : String) (ending : Action) :
    Option (Except StoreError Unit × Except StoreError Transaction × Session ε) :=
  (s.update? name ending.run).map (fun (ended, s) =>
    let (waiter, s) := s.beginUnnamed .readWrite
    (ended, waiter, s))

/-- Begin a writer while a transaction acts. -/
def race? (s : Session ε) (name : String) (action : Action) :
    Option (Except StoreError Unit × Except StoreError Transaction × Session ε) :=
  let (other, s) := s.beginUnnamed .readWrite
  (s.update? name action.run).map (fun (answer, s) => (answer, other, s))

/-- Close the session and open a new one on the same engine, under the same config.
What was reported stays on record; every count begins anew. -/
def reopen (s : Session ε) : Except StoreError (Session ε) :=
  let closed := s.close.repo
  match Repository.onEngine closed.engine closed.config with
  | .error e => .error e
  | .ok r => .ok { repo := { r with events := r.events ++ closed.events } }

end Session

end TableStore
