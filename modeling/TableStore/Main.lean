import TableStore.Command.Program
import TableStore.Engine.RowFile
import TableStore.Event.Line

/-!
# The program

Everything that touches the world: the environment, files, the two outputs and the exit
code. What the program does is `Program.run`.

A store on disk is a directory with one file of rows. The file is written anew beside
the old one and then renamed over it, so a crash leaves one of the two.
-/

namespace TableStore.Program

def optionVariables : List String :=
  ["NOVA_STORE_CONFIG", "NOVA_STORE_BACKEND", "NOVA_STORE_DIR", "NOVA_LOG_FORMAT"]

def filterVariable : String := "RUST_LOG"

/-- What the system says about a file, as a failure. -/
def failureOf (e : IO.Error) : StorageFailure :=
  match e with
  | .noFileOrDirectory .. => .file .noSuchFile
  | .inappropriateType .. => .file .isDirectory
  | other => .other (toString other)

/-- The text of a file. -/
def readText (path : String) : IO (Except StorageFailure String) := do
  try
    return .ok (← IO.FS.readFile path)
  catch e =>
    return .error (failureOf e)

def rowsPath (directory : String) : String :=
  (if directory = "" then "." else directory) ++ "/rows"

/-- The rows of a directory, which is made if it is missing. -/
def loadRows (directory : String) : IO (Except StorageFailure Rows) := do
  try
    if directory ≠ "" then IO.FS.createDirAll directory
    match ← readText (rowsPath directory) with
    | .error (.file .noSuchFile) => return .ok .empty
    | .error e => return .error e
    | .ok text =>
      match RowFile.parse? text with
      | some rows => return .ok rows
      | none => return .error (.other "malformed row file")
  catch e =>
    return .error (failureOf e)

def saveRows (directory : String) (rows : Rows) : IO Unit := do
  let fresh := rowsPath directory ++ ".new"
  IO.FS.writeFile fresh (RowFile.render rows)
  IO.FS.rename fresh (rowsPath directory)

/-- Look at what a run will need, before it runs. -/
def surroundings (words : List String) : IO Surroundings := do
  let values ← optionVariables.mapM (fun name => return (name, ← IO.getEnv name))
  let env := fun name => (values.lookup name).join
  match Command.readCommandLine env words with
  | .error _ => return ⟨env, fun _ => .error (.file .noSuchFile), fun _ => .ok .empty⟩
  | .ok i =>
    let text ← match i.options.config with
      | some path => readText path
      | none => pure (.error (.file .noSuchFile))
    let read := fun _ => text
    match i.options.resolve read with
    | .ok { backend := .sled, path, .. } =>
      let rows ← if i.command = .version then pure (.ok .empty) else loadRows path
      return ⟨env, read, fun _ => rows⟩
    | _ => return ⟨env, read, fun _ => .ok .empty⟩

end TableStore.Program

open TableStore Program in
/-- Run the program with its words. -/
def main (words : List String) : IO UInt32 := do
  let s ← surroundings words
  let r := run s words
  if let (some directory, some rows) := (r.directory, r.kept) then
    saveRows directory rows
  if let some format := r.logFormat then
    let filter := EventFilter.ofText? (← IO.getEnv filterVariable)
    for e in r.shown filter do
      IO.eprint (e.line format)
  IO.print r.out
  match r.ending with
  | .misused why => if !isAnswer why then IO.eprint ("error: " ++ why.name ++ "\n\n" ++ usage)
  | ending => IO.eprint ending.report
  return UInt32.ofNat r.ending.code
