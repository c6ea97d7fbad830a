import TableStore.Command.Basic
import TableStore.Command.Error
import TableStore.Config.Reader
import TableStore.Metrics.Exposition
import TableStore.Transaction

/-!
# Running a command

A command works on an open store inside one transaction, which is let go at the end
whatever happens, and writes lines of text. Keys and values are text on the command
line and bytes in the store: UTF-8, or hexadecimal if one likes (`TextForm`). Bytes that
are no text are printed with replacement characters.
-/

namespace TableStore

/-- How bytes are typed and results are printed. -/
structure TextForm where
  /-- Whether keys and values are hexadecimal. -/
  hex : Bool
  /-- Whether results are printed as JSON. -/
  json : Bool
  deriving DecidableEq, Repr

namespace TextForm

def ofOptions (o : StoreOptions) : TextForm := ⟨o.hex, o.json⟩

def decode (form : TextForm) (text : String) : Except CommandError Bytes :=
  if form.hex then
    match Hex.decode text with
    | .ok bytes => .ok bytes
    | .error e => .error (.invalidHex text e)
  else .ok (Utf8.encode text)

def encode (form : TextForm) (bytes : Bytes) : String :=
  if form.hex then Hex.encode bytes else Utf8.decodeLenient bytes

def tableLine (t : Table) : String :=
  let slot := toString t.slot.toNat
  String.ofList (List.replicate (3 - slot.length) ' ') ++ slot ++ "  " ++ t.name ++ "\n"

/-- What is printed of a list of tables. JSON is one line, otherwise each table has one. -/
def tableLines (form : TextForm) (tables : List Table) : List String :=
  if form.json then
    [(Json.Printed.list (tables.map (fun t =>
      .object [("name", .text t.name), ("prefix", .number t.slot.toNat)]))).render ++ "\n"]
  else tables.map tableLine

/-- What is printed of a value that was asked for. -/
def valueLine (form : TextForm) (key : String) (value : Bytes) : String :=
  if form.json then
    (Json.Printed.object [("key", .text key), ("value", .text (form.encode value))]).render ++ "\n"
  else form.encode value ++ "\n"

/-- What is printed of a row. -/
def rowLine (form : TextForm) (row : Row) : String :=
  let value := row.value.map form.encode
  if form.json then
    (Json.Printed.object
      [("key", .text (form.encode row.key)), ("value", value.elim .null .text)]).render ++ "\n"
  else
    match value with
    | some v => form.encode row.key ++ "\t" ++ v ++ "\n"
    | none => form.encode row.key ++ "\n"

/-- What is printed of a count. -/
def countLine (form : TextForm) (table : String) (rows : Nat) : String :=
  if form.json then
    (Json.Printed.object [("rows", .number rows), ("table", .text table)]).render ++ "\n"
  else toString rows ++ "\n"

end TextForm

structure Output where
  /-- Whether somebody reads it. -/
  isOpen : Bool := true
  /-- What was written. -/
  text : String := ""
  deriving DecidableEq, Repr

namespace Output

def write (o : Output) (text : String) : Except CommandError Unit × Output :=
  if o.isOpen then (.ok (), { o with text := o.text ++ text }) else (.error .outputClosed, o)

/-- Write texts up to the first that cannot be written. -/
def writeAll (o : Output) : (texts : List String) → Except CommandError Unit × Output
  | [] => (.ok (), o)
  | text :: texts =>
    match o.write text with
    | (.error e, o) => (.error e, o)
    | (.ok (), o) => o.writeAll texts

/-- Write rows as they are read, up to the first that fails. -/
def writeRows (o : Output) (form : TextForm) :
    (rows : List (Except StoreError Row)) → Except CommandError Unit × Output
  | [] => (.ok (), o)
  | .error e :: _ => (.error (.store e), o)
  | .ok row :: rows =>
    match o.write (form.rowLine row) with
    | (.error e, o) => (.error e, o)
    | (.ok (), o) => o.writeRows form rows

end Output

namespace Command

/-- The words of the version. -/
def versionLine : String := "nova-storectl 0.1.0\n"

variable {ε : Type} [StorageEngine ε]

/-- Work inside a transaction and let it go, whether the work succeeds or fails. -/
def inTransaction {α : Type} (mode : TransactionMode) (r : Repository ε)
    (work : Transaction → Repository ε → Except CommandError α × Transaction × Repository ε) :
    Except CommandError α × Repository ε :=
  match Transaction.begin mode r with
  | (.error e, r) => (.error (.store e), r)
  | (.ok t, r) =>
    let (answer, t, r) := work t r
    (answer, t.drop r)

/-- Commit what a change left in a transaction, and report it. -/
def commitChange (changed : Except StoreError Unit × Transaction × Repository ε) (done : Event) :
    Except CommandError Unit × Transaction × Repository ε :=
  match changed with
  | (.error e, t, r) => (.error (.store e), t, r)
  | (.ok (), t, r) =>
    match t.commit r with
    | (.error e, t, r) => (.error (.store e), t, r)
    | (.ok (), t, r) => (.ok (), t, r.report done)

/-- Read inside a transaction, and write what was read. -/
def reading {α : Type} (r : Repository ε) (o : Output)
    (read : Transaction → Repository ε → Except StoreError α)
    (print : α → Except CommandError Unit × Output) :
    Except CommandError Unit × Output × Repository ε :=
  let (answer, r) := inTransaction .read r (fun t r =>
    let answer : Except CommandError Unit × Output :=
      match read t r with
      | .error e => (.error (.store e), o)
      | .ok a => print a
    (.ok answer, t, r))
  match answer with
  | .error e => (.error e, o, r)
  | .ok (answer, o) => (answer, o, r)

/-- Print the value of a key. -/
def runGet (form : TextForm) (r : Repository ε) (o : Output) (table key : String) :
    Except CommandError Unit × Output × Repository ε :=
  match form.decode key with
  | .error e => (.error e, o, r)
  | .ok bytes =>
    reading r o (fun t r => t.get r table bytes) (fun
      | some value => o.write (form.valueLine key value)
      | none => (.error (.keyNotFound table key), o))

def runPut (form : TextForm) (r : Repository ε) (table key value : String) :
    Except CommandError Unit × Repository ε :=
  match form.decode key with
  | .error e => (.error e, r)
  | .ok keyBytes =>
    match form.decode value with
    | .error e => (.error e, r)
    | .ok valueBytes =>
      inTransaction .readWrite r (fun t r =>
        commitChange (t.put r table keyBytes valueBytes) (.rowWritten table key))

def runDelete (form : TextForm) (r : Repository ε) (table key : String) :
    Except CommandError Unit × Repository ε :=
  match form.decode key with
  | .error e => (.error e, r)
  | .ok bytes =>
    inTransaction .readWrite r (fun t r =>
      match t.contains r table bytes with
      | .error e => (.error (.store e), t, r)
      | .ok false => (.error (.keyNotFound table key), t, r)
      | .ok true => commitChange (t.remove r table bytes) (.rowDeleted table key))

/-- A side of the range of a scan. -/
def boundOf (form : TextForm) (key : Option String) (without : Bool) :
    Except CommandError Bound :=
  match key with
  | none => .ok .unbounded
  | some text => (form.decode text).map (fun bytes => .of bytes (!without))

def rangeOf (form : TextForm) (q : ScanRequest) : Except CommandError KeyRange :=
  match boundOf form q.first q.withoutFirst with
  | .error e => .error e
  | .ok start => (boundOf form q.last q.withoutLast).map (fun stop => ⟨start, stop⟩)

/-- Print the rows of a range. -/
def runScan (form : TextForm) (r : Repository ε) (o : Output) (q : ScanRequest) :
    Except CommandError Unit × Output × Repository ε :=
  match rangeOf form q with
  | .error e => (.error e, o, r)
  | .ok range =>
    let order := if q.reverse then ScanOrder.descending else .ascending
    reading r o (fun t r => t.scan r q.table range order q.keysOnly) (fun cursor =>
      o.writeRows form (cursor.takeRows (q.limit.getD cursor.stepsLeft)).1)

/-- Delete every row of a table that exists. -/
def runClear (r : Repository ε) (table : String) : Except CommandError Unit × Repository ε :=
  match r.table? table with
  | none => (.error (.noSuchTable table), r)
  | some _ =>
    inTransaction .readWrite r (fun t r =>
      match t.count r table with
      | .error e => (.error (.store e), t, r)
      | .ok removed => commitChange (t.clear r table) (.tableCleared table removed))

def run (c : Command) (form : TextForm) (r : Repository ε) (o : Output) :
    Except CommandError Unit × Output × Repository ε :=
  match c with
  | tables =>
    let (answer, o) := o.writeAll (form.tableLines r.tables)
    (answer, o, r)
  | get table key => runGet form r o table key
  | put table key value =>
    let (answer, r) := runPut form r table key value
    (answer, o, r)
  | delete table key =>
    let (answer, r) := runDelete form r table key
    (answer, o, r)
  | scan request => runScan form r o request
  | count table =>
    reading r o (fun t r => t.count r table) (fun n => o.write (form.countLine table n))
  | clear table =>
    let (answer, r) := runClear r table
    (answer, o, r)
  | metrics =>
    let (answer, o) := o.write r.metrics.exposition
    (answer, o, r)
  | version =>
    let (answer, o) := o.write versionLine
    (answer, o, r)

end Command

/-- The config that options ask for: a file's if one is named, otherwise the default,
with the engine and the directory of the options on top. -/
def StoreOptions.resolve (o : StoreOptions) (read : String → Except StorageFailure String) :
    Except CommandError StoreConfig :=
  let base : Except CommandError StoreConfig :=
    match o.config with
    | none => .ok {}
    | some path =>
      match StoreConfig.ofFile path (read path) with
      | .ok c => .ok c
      | .error e => .error (.unreadableConfig path e)
  match base with
  | .error e => .error e
  | .ok c =>
    let c := { c with path := o.dataDir.getD c.path }
    match o.backend with
    | none => .ok c
    | some name =>
      match Backend.parse? name with
      | some backend => .ok { c with backend := backend }
      | none => .error (.unknownBackend name)

end TableStore
