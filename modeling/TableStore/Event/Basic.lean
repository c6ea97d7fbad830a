import TableStore.Error

/-!
# What a store reports

Everything worth a log line is an event. An event has a level, the part of the program
that it comes from, a message, and fields of its own; all four are functions of the
event, so code that reports one names the occasion and nothing else.
-/

namespace TableStore

/-- How urgent an event is. -/
inductive Level where
  | error
  | warn
  | info
  | debug
  | trace
  deriving DecidableEq, Repr

namespace Level

/-- Larger numbers are more talkative. -/
def rank : Level → Nat
  | error => 1
  | warn => 2
  | info => 3
  | debug => 4
  | trace => 5

def name : Level → String
  | error => "ERROR"
  | warn => "WARN"
  | info => "INFO"
  | debug => "DEBUG"
  | trace => "TRACE"

end Level

inductive LogFormat where
  /-- For readers. -/
  | pretty
  /-- One object a line. -/
  | json
  deriving DecidableEq, Repr

namespace LogFormat

/-- The form of a name of either case; any other name means the one for readers. No
letter outside the first alphabet has a letter of these names as its small form. -/
def ofName (name : String) : LogFormat :=
  if name.map Char.toLower = "json" then .json else .pretty

/-- A form as diagnostics show it. -/
def describe : LogFormat → String
  | pretty => "Pretty"
  | json => "Json"

end LogFormat

/-- An occasion to report. -/
inductive Event where
  | repositoryOpened (backend path : String) (tables : Nat)
  | writeStarted
  | tableCreated (name : String) (slot : UInt8)
  | committed (puts deletes cleared : Nat)
  | commitFailed (cause : StoreError)
  | rolledBack (mode : TransactionMode)
  | droppedDirty (pending : Nat)
  | loggingStarted (format : LogFormat)
  | openingStore (backend path : String)
  | rowWritten (table key : String)
  | rowDeleted (table key : String)
  | tableCleared (table : String) (removed : Nat)
  deriving DecidableEq, Repr

/-- The content of a field. -/
inductive FieldValue where
  | number (n : Nat)
  | text (s : String)
  deriving DecidableEq, Repr

namespace Event

/-- How urgent an event is. -/
def level : Event → Level
  | repositoryOpened .. => .info
  | writeStarted => .debug
  | tableCreated .. => .info
  | committed .. => .debug
  | commitFailed _ => .warn
  | rolledBack _ => .debug
  | droppedDirty _ => .debug
  | loggingStarted _ => .debug
  | openingStore .. => .debug
  | rowWritten .. => .info
  | rowDeleted .. => .info
  | tableCleared .. => .info

/-- The part of the program that an event comes from. -/
def target : Event → String
  | repositoryOpened .. => "nova_store::repository"
  | writeStarted => "nova_store::repository"
  | tableCreated .. => "nova_store::table"
  | committed .. => "nova_store::repository"
  | commitFailed _ => "nova_store::repository"
  | rolledBack _ => "nova_store::repository"
  | droppedDirty _ => "nova_store::transaction"
  | loggingStarted _ => "nova_storectl::logging"
  | openingStore .. => "nova_storectl"
  | rowWritten .. => "nova_storectl::commands"
  | rowDeleted .. => "nova_storectl::commands"
  | tableCleared .. => "nova_storectl::commands"

/-- An event in words. -/
def message : Event → String
  | repositoryOpened .. => "repository opened"
  | writeStarted => "write transaction started"
  | tableCreated .. => "table created"
  | committed .. => "transaction committed"
  | commitFailed _ => "commit failed, transaction left active"
  | rolledBack _ => "transaction rolled back"
  | droppedDirty _ => "dropping uncommitted transaction, rolling back"
  | loggingStarted _ => "logging initialized"
  | openingStore .. => "opening store"
  | rowWritten .. => "row written"
  | rowDeleted .. => "row deleted"
  | tableCleared .. => "table cleared"

def fields : Event → List (String × FieldValue)
  | repositoryOpened backend path tables =>
    [("backend", .text backend), ("path", .text path), ("tables", .number tables)]
  | writeStarted => []
  | tableCreated name slot => [("table", .text name), ("prefix", .number slot.toNat)]
  | committed puts deletes cleared =>
    [("puts", .number puts), ("deletes", .number deletes), ("cleared", .number cleared)]
  | commitFailed cause => [("error", .text cause.message)]
  | rolledBack mode => [("mode", .text mode.describe)]
  | droppedDirty pending => [("pending", .number pending)]
  | loggingStarted format => [("format", .text format.describe)]
  | openingStore backend path => [("backend", .text backend), ("path", .text path)]
  | rowWritten table key => [("table", .text table), ("key", .text key)]
  | rowDeleted table key => [("table", .text table), ("key", .text key)]
  | tableCleared table removed => [("table", .text table), ("removed", .number removed)]

/-- The names of all fields of an event: the message is one, and a commit has its
duration, which is measured and so no function of the event. -/
def fieldNames (e : Event) : List String :=
  "message" :: e.fields.map Prod.fst ++ (match e with
    | committed .. => ["elapsed_us"]
    | _ => [])

end Event

end TableStore
