import TableStore.Command.Arguments
import TableStore.Command.Execution
import TableStore.Command.Folder
import TableStore.Engine
import TableStore.Event.Filter

/-!
# One run of the program

A run reads its command line, finds its config, opens the store, runs the command and
flushes. `Program.run` is the run as a function of what it finds around it; the rows to
keep are part of its result, and keeping them is left to the caller. `Program.runIn` is
a run in a folder, which keeps them there for the runs to come, with every folder that
opening the store made.
-/

namespace TableStore.Program

open Command (UsageError readCommandLine)

/-- What a run finds around it. -/
structure Surroundings where
  /-- The variables of the environment. -/
  env : String → Option String
  /-- The text of the file at a path. -/
  read : String → Except StorageFailure String
  /-- The rows kept in the directory at a path, which is made if it is missing. -/
  found : String → Except StorageFailure Rows

def Surroundings.ofTree (tree : FolderTree) (env : String → Option String) : Surroundings :=
  ⟨env, tree.read, tree.rowsAt⟩

/-- How a run ends. -/
inductive Ending where
  | done
  | misused (why : UsageError)
  | failed (why : CommandError)
  deriving DecidableEq, Repr

structure Run where
  ending : Ending
  /-- What was printed. -/
  out : String := ""
  /-- The form of the log; there is none unless the run got as far as logging. -/
  logFormat : Option LogFormat := none
  /-- What was reported, in order. -/
  events : List Event := []
  /-- The directory that was asked for rows. -/
  directory : Option String := none
  /-- The rows to keep there. -/
  kept : Option Rows := none

/-- Whether a usage error is a question that was answered. -/
def isAnswer : UsageError → Bool
  | .helpAsked => true
  | .versionAsked _ => true
  | _ => false

namespace Ending

/-- The exit code. -/
def code : Ending → Nat
  | done => 0
  | misused why => if isAnswer why then 0 else 2
  | failed _ => 1

def report : Ending → String
  | failed why => why.report
  | _ => ""

end Ending

def Run.shown (r : Run) (filter : EventFilter) : List Event := r.events.filter filter.shows

/-- How the program is called. -/
def usage : String :=
  "Usage: nova-storectl [OPTIONS] <COMMAND>\n\nCommands: "
    ++ String.intercalate ", " (Command.Verb.all.map Command.Verb.word) ++ "\n"

def answerText : UsageError → String
  | .helpAsked => usage
  | .versionAsked none => Command.versionLine
  | .versionAsked (some command) => "nova-storectl-" ++ command ++ " 0.1.0\n"
  | _ => ""

/-- The directory that a config asks for, if its engine has one. -/
def directoryOf (config : StoreConfig) : Option String :=
  match config.backend with
  | .sled => some config.path
  | _ => none

def foundRows (s : Surroundings) (config : StoreConfig) : Except StoreError Rows :=
  match (directoryOf config).map s.found with
  | none => .ok .empty
  | some (.ok rows) => .ok rows
  | some (.error e) => .error (.storage e)

def openEngine (s : Surroundings) (config : StoreConfig) : Except StoreError Engine :=
  (foundRows s config).bind (Engine.ofBackend config.backend)

def openStore (s : Surroundings) (config : StoreConfig) :
    Except StoreError (Repository Engine) :=
  (foundRows s config).bind (Repository.ofConfig config)

/-- The rows of a store that outlive a run. -/
def rowsToKeep (r : Repository Engine) : Option Rows :=
  match r.engine with
  | .disk engine => some engine.rows
  | _ => none

/-- Run a command on an open store, and make what it wrote durable. -/
def serve (i : Invocation) (r : Repository Engine) : Run :=
  let (answer, o, r) := i.command.run (.ofOptions i.options) r {}
  let ending : Ending :=
    match answer with
    | .error e => .failed e
    | .ok () =>
      match r.flush with
      | .error e => .failed (.cannotFlush e)
      | .ok () => .done
  { ending := ending, out := o.text, events := r.journal, kept := rowsToKeep r }

def runOnStore (s : Surroundings) (i : Invocation) : Run :=
  let format := LogFormat.ofName i.options.logFormat
  let started : List Event := [.loggingStarted format]
  match i.options.resolve s.read with
  | .error e => { ending := .failed e, logFormat := some format, events := started }
  | .ok config =>
    let opening := started ++ [.openingStore config.backend.name config.path]
    match openStore s config with
    | .error e =>
      { ending := .failed (.cannotOpen config.backend.name config.path e)
        logFormat := some format
        events := opening
        directory := directoryOf config }
    | .ok r =>
      let served := serve i r
      { served with
        logFormat := some format
        events := opening ++ served.events
        directory := directoryOf config }

/-- Run the program with the words of a command line. The version needs no store. -/
def run (s : Surroundings) (words : List String) : Run :=
  match readCommandLine s.env words with
  | .error e => { ending := .misused e, out := answerText e }
  | .ok ⟨.version, _⟩ => { ending := .done, out := Command.versionLine }
  | .ok i => runOnStore s i

/-- Run the program in a folder. What a run makes there stays, also if it fails. -/
def runIn (tree : FolderTree) (env : String → Option String) (words : List String) :
    Run × FolderTree :=
  let r := run (.ofTree tree env) words
  (r, r.directory.elim tree (fun path => tree.keep path r.kept))

end TableStore.Program
