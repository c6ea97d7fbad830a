import TableStore.Error

/-!
# Why a command fails

A failure has a chain of causes, the nearest to the user first. `CommandError.summary`
puts the chain on one line, and `CommandError.report` writes it as a report.
-/

namespace TableStore

/-- Why a command fails. -/
inductive CommandError where
  /-- The store refused. -/
  | store (cause : StoreError)
  | keyNotFound (table key : String)
  | noSuchTable (table : String)
  | invalidHex (text : String) (cause : Hex.DecodeError)
  /-- Nobody reads the output any more. -/
  | outputClosed
  | unknownBackend (name : String)
  | unreadableConfig (path : String) (cause : StoreError)
  | cannotOpen (backend path : String) (cause : StoreError)
  | cannotFlush (cause : StoreError)
  deriving DecidableEq, Repr

/-- What is wrong with hexadecimal text, in words. A byte is shown as the character of
its number. -/
def Hex.DecodeError.message : Hex.DecodeError → String
  | oddLength => "Odd number of digits"
  | badDigit byte index =>
    "Invalid character " ++ Quoted.char (Char.ofNat byte.toNat) ++ " at position "
      ++ toString index

namespace CommandError

/-- The chain of causes in words, the failure itself first. -/
def chain : CommandError → List String
  | store cause => [cause.message]
  | keyNotFound table key =>
    ["key " ++ Quoted.text key ++ " not found in table " ++ Quoted.text table]
  | noSuchTable table => ["table " ++ Quoted.text table ++ " does not exist"]
  | invalidHex text cause => ["invalid hex: " ++ Quoted.text text, cause.message]
  | outputClosed => ["output closed"]
  | unknownBackend name =>
    ["unknown backend " ++ Quoted.text name ++ " (expected memory, sled or rocksdb)"]
  | unreadableConfig path cause => ["failed to load config from " ++ path, cause.message]
  | cannotOpen backend path cause =>
    ["failed to open " ++ backend ++ " store at " ++ path, cause.message]
  | cannotFlush cause => ["failed to flush store", cause.message]

/-- The chain on one line. -/
def summary (e : CommandError) : String := String.intercalate ": " e.chain

/-- A number in front of a cause, where there are several. -/
def causeNumber (n : Nat) : String :=
  let digits := toString n
  String.ofList (List.replicate (5 - digits.length) ' ') ++ digits ++ ": "

/-- A cause in a report, its further lines set off like the first. -/
def causeLines (number : Option Nat) (cause : String) : String :=
  let (head, indent) := match number with
    | some n => (causeNumber n, "       ")
    | none => ("    ", "    ")
  head ++ String.intercalate ("\n" ++ indent) (cause.splitOn "\n")

/-- The causes behind a failure, each on a line of its own. -/
def causedBy : List String → String
  | [] => ""
  | [cause] => "\n\nCaused by:\n" ++ causeLines none cause
  | causes =>
    "\n\nCaused by:" ++ String.join
      (causes.mapIdx (fun n cause => "\n" ++ causeLines (some n) cause))

/-- The failure as a report. -/
def report (e : CommandError) : String :=
  match e.chain with
  | [] => "Error: \n"
  | failure :: causes => "Error: " ++ failure ++ causedBy causes ++ "\n"

end CommandError

end TableStore
