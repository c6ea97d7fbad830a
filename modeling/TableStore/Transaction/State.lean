/-!
# The life of a transaction

A transaction begins active, in one of two modes, and ends once: committed or rolled
back.
-/

namespace TableStore

inductive TransactionMode where
  /-- Reads only; it waits for nobody. -/
  | read
  /-- Reads and writes; it is the only one of its mode. -/
  | readWrite
  deriving DecidableEq, Repr

/-- A mode as diagnostics show it. -/
def TransactionMode.describe : TransactionMode → String
  | read => "Read"
  | readWrite => "ReadWrite"

inductive TransactionState where
  | active
  | committed
  | rolledBack
  deriving DecidableEq, Repr

/-- A state in words. -/
def TransactionState.label : TransactionState → String
  | active => "active"
  | committed => "committed"
  | rolledBack => "rolled back"

/-- A state as diagnostics show it. -/
def TransactionState.describe : TransactionState → String
  | active => "Active"
  | committed => "Committed"
  | rolledBack => "RolledBack"

end TableStore
