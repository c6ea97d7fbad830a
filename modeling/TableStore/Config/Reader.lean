import TableStore.Config
import TableStore.Json.Reader

/-!
# Reading a config

A config is an object whose members are fields, each at most once, in any order;
members of other names are passed over, and a field that is left out keeps its
default. A list is taken too, for the fields in their written order from the first on.
-/

namespace TableStore.StoreConfig

open Json (Reader)

/-- The names of the engines, as a config file spells them. -/
def backendNames : List String := ["memory", "sled", "rocksdb"]

/-- The engine that a config file names. -/
def backendOf (name : String) : Except Json.Error Backend :=
  if name = "memory" then .ok .memory
  else if name = "sled" then .ok .sled
  else if name = "rocksdb" then .ok .rocksdb
  else .error (.unknownVariant name backendNames)

/-- An engine: its name, or an object from its name to nothing. -/
def readBackend : Reader Backend :=
  Json.readVariant backendOf
    (fun name => (backendOf name).map
      (fun b input => (Json.readNull input).map (fun (_, rest) => (b, rest))))

def waitNames : List String := ["indefinite", "bounded_ms"]

/-- A way to wait: the name of the endless one, or an object from a name to its value. -/
def readWait : Reader WriterWait :=
  Json.readVariant
    (fun name =>
      if name = "indefinite" then .ok .indefinite
      else if name = "bounded_ms" then .error (.invalidType .bareVariant "newtype variant")
      else .error (.unknownVariant name waitNames))
    (fun name =>
      if name = "indefinite" then
        .ok (fun input => (Json.readNull input).map (fun (_, rest) => (.indefinite, rest)))
      else if name = "bounded_ms" then
        .ok (fun input =>
          (Json.readWord64 input).map (fun (n, rest) => (.boundedMs (UInt64.ofNat n), rest)))
      else .error (.unknownVariant name waitNames))

def readField (c : StoreConfig) (f : Field) : Reader StoreConfig := fun input =>
  match f with
  | .backend => (readBackend input).map (fun (v, rest) => ({ c with backend := v }, rest))
  | .path =>
    (Json.readTextOr "path string" input).map (fun (v, rest) => ({ c with path := v }, rest))
  | .syncOnCommit =>
    (Json.readBool input).map (fun (v, rest) => ({ c with syncOnCommit := v }, rest))
  | .writerWait => (readWait input).map (fun (v, rest) => ({ c with writerWait := v }, rest))
  | .useSnapshots =>
    (Json.readBool input).map (fun (v, rest) => ({ c with useSnapshots := v }, rest))

/-- Read the rest of a member whose name was read. `seen` are the fields read so far. -/
def readMember (c : StoreConfig) (seen : List Field) (name : String) :
    Reader (StoreConfig × List Field) := fun input =>
  match Field.ofName? name with
  | some f =>
    if seen.contains f then .error (.duplicateField name)
    else
      match Json.readColon input with
      | .error e => .error e
      | .ok (_, rest) => (readField c f rest).map (fun (c, rest) => ((c, f :: seen), rest))
  | none =>
    match Json.readColon input with
    | .error e => .error e
    | .ok (_, rest) => (Json.skipValue rest).map (fun (_, rest) => ((c, seen), rest))

/-- Read members up to the end of the object, which is taken. Every member takes a
character, so the length of the text is `fuel` enough. -/
def readMembers : (fuel : Nat) → (first : Bool) → (c : StoreConfig) → (seen : List Field) →
    Reader StoreConfig
  | 0, _, _, _, _ => .error .endInObject
  | fuel + 1, first, c, seen, input =>
    match Json.readName? first input with
    | .error e => .error e
    | .ok (none, rest) => .ok (c, rest)
    | .ok (some name, rest) =>
      match readMember c seen name rest with
      | .error e => .error e
      | .ok ((c, seen), rest) => readMembers fuel false c seen rest

/-- Read the values of fields from a list, up to its end, which is taken. -/
def readItems : (fields : List Field) → (first : Bool) → (c : StoreConfig) → Reader StoreConfig
  | [], _, c, input => (Json.readListEnd input).map (fun (_, rest) => (c, rest))
  | f :: fields, first, c, input =>
    match Json.readMore first input with
    | .error e => .error e
    | .ok (false, rest) => (Json.readListEnd rest).map (fun (_, rest) => (c, rest))
    | .ok (true, rest) =>
      match readField c f rest with
      | .error e => .error e
      | .ok (c, rest) => readItems fields false c rest

/-- Read a config at the front of a text; fields that it leaves out have their defaults. -/
def readConfig : Reader StoreConfig := fun input =>
  match Json.dropBlanks input with
  | [] => .error .endInValue
  | c :: rest =>
    if c = '\x7b' then readMembers (rest.length + 1) true {} [] rest
    else if c = '[' then readItems Field.all true {} rest
    else .error (Json.wrongType (c :: rest) "struct StoreConfig")

/-- The config of a text that holds nothing else. -/
def parse (text : String) : Except Json.Error StoreConfig :=
  match readConfig text.toList with
  | .error e => .error e
  | .ok (c, rest) => if (Json.dropBlanks rest).isEmpty then .ok c else .error .trailingCharacters

/-- The config of a file's contents; the file's path is for the error. -/
def ofFile (path : String) (contents : Except StorageFailure String) :
    Except StoreError StoreConfig :=
  match contents with
  | .error e => .error (.storage e)
  | .ok text =>
    match parse text with
    | .ok c => .ok c
    | .error e => .error (.invalidOperation (.config path e))

end TableStore.StoreConfig
