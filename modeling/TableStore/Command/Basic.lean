import TableStore.Text.Quoted

/-!
# What the program can be asked to do

A command names a table and what to do with it, in the words of the command line: keys
and values are text here, and become bytes when the command runs. Every command comes
with the options of the store that it works on.
-/

namespace TableStore

/-- What a scan is limited to, and how it goes. -/
structure ScanRequest where
  table : String
  /-- The first key. -/
  first : Option String := none
  /-- The last key. -/
  last : Option String := none
  /-- Whether the first key itself is left out. -/
  withoutFirst : Bool := false
  /-- Whether the last key itself is left out. -/
  withoutLast : Bool := false
  /-- Whether the scan goes from the last key to the first. -/
  reverse : Bool := false
  /-- Whether values are left out. -/
  keysOnly : Bool := false
  /-- The largest number of rows. -/
  limit : Option Nat := none
  deriving DecidableEq, Repr

inductive Command where
  /-- List the tables. -/
  | tables
  | get (table key : String)
  | put (table key value : String)
  | delete (table key : String)
  | scan (request : ScanRequest)
  | count (table : String)
  | clear (table : String)
  | metrics
  | version
  deriving DecidableEq, Repr

structure StoreOptions where
  /-- The config file. -/
  config : Option String := none
  /-- The name of the engine. -/
  backend : Option String := none
  /-- The directory of the data. -/
  dataDir : Option String := none
  /-- Whether keys and values are hexadecimal. -/
  hex : Bool := false
  /-- Whether results are printed as JSON. -/
  json : Bool := false
  logFormat : String := "pretty"
  deriving DecidableEq, Repr

/-- A command with its options. -/
structure Invocation where
  command : Command
  options : StoreOptions := {}
  deriving DecidableEq, Repr

/-! ## As diagnostics show them -/

/-- An optional content as diagnostics show it. -/
def describeOptional {α : Type} (describe : α → String) : Option α → String
  | some a => "Some(" ++ describe a ++ ")"
  | none => "None"

/-- Named fields as diagnostics show them. -/
def describeFields (name : String) (fields : List (String × String)) : String :=
  name ++ " \x7b " ++ String.intercalate ", " (fields.map (fun f => f.1 ++ ": " ++ f.2))
    ++ " \x7d"

/-- The limits of a scan as diagnostics show them. -/
def ScanRequest.describe (r : ScanRequest) : String :=
  describeFields "ScanArgs"
    [("table", Quoted.text r.table),
      ("from", describeOptional Quoted.text r.first),
      ("to", describeOptional Quoted.text r.last),
      ("exclusive_from", toString r.withoutFirst),
      ("exclusive_to", toString r.withoutLast),
      ("reverse", toString r.reverse),
      ("keys_only", toString r.keysOnly),
      ("limit", describeOptional toString r.limit)]

/-- A command as diagnostics show it. -/
def Command.describe : Command → String
  | tables => "Tables"
  | get table key => "Get(" ++ ofKey table key ++ ")"
  | put table key value =>
    "Put(" ++ describeFields "PutArgs"
      [("table", Quoted.text table), ("key", Quoted.text key), ("value", Quoted.text value)] ++ ")"
  | delete table key => "Delete(" ++ ofKey table key ++ ")"
  | scan request => "Scan(" ++ request.describe ++ ")"
  | count table => "Count(" ++ ofTable table ++ ")"
  | clear table => "Clear(" ++ ofTable table ++ ")"
  | metrics => "Metrics"
  | version => "Version"
where
  /-- A table as diagnostics show it. -/
  ofTable (table : String) : String :=
    describeFields "TableArgs" [("table", Quoted.text table)]
  /-- A key of a table as diagnostics show it. -/
  ofKey (table key : String) : String :=
    describeFields "KeyArgs" [("table", Quoted.text table), ("key", Quoted.text key)]

/-- The options as diagnostics show them. -/
def StoreOptions.describe (o : StoreOptions) : String :=
  describeFields "StoreArgs"
    [("config", describeOptional Quoted.text o.config),
      ("backend", describeOptional Quoted.text o.backend),
      ("data_dir", describeOptional Quoted.text o.dataDir),
      ("hex", toString o.hex),
      ("json", toString o.json),
      ("log_format", Quoted.text o.logFormat)]

end TableStore
