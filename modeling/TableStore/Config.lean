import TableStore.Error
import TableStore.Json.Text

/-!
# How a store is opened

The layout of the key space, which is part of what is stored and never changes, and the
options that a caller sets. Each option has a default, and a config file may leave any
of them out.
-/

namespace TableStore

/-! ## Layout -/

/-- The byte under which the table registry keeps its own rows. -/
def registrySlot : UInt8 := 0

def firstSlot : UInt8 := 1

/-- The byte of the last table. The largest byte is left free, so that the keys of every
table have a successor to end a walk at. -/
def lastSlot : UInt8 := 254

/-! ## Options -/

/-- The engines to choose from. -/
inductive Backend where
  | memory
  | sled
  | rocksdb
  deriving DecidableEq, Repr

namespace Backend

/-- The name of an engine. -/
def name : Backend → String
  | memory => "memory"
  | sled => "sled"
  | rocksdb => "rocksdb"

/-- The engine of a name of either case, two short names included. -/
def parse? (s : String) : Option Backend :=
  let s := s.map Char.toLower
  if s = "memory" || s = "mem" then some memory
  else if s = "sled" then some sled
  else if s = "rocksdb" || s = "rocks" then some rocksdb
  else none

end Backend

/-- How long a writer queues for its turn. -/
inductive WriterWait where
  /-- Until the turn comes. -/
  | indefinite
  /-- At most so many milliseconds. -/
  | boundedMs (ms : UInt64)
  deriving DecidableEq, Repr

/-- The bound of a wait in milliseconds. -/
def WriterWait.timeoutMs? : WriterWait → Option UInt64
  | indefinite => none
  | boundedMs ms => some ms

/-- The options of a store. -/
structure StoreConfig where
  /-- The engine. -/
  backend : Backend := .sled
  /-- The directory of the data; a store in memory has none. -/
  path : String := "data"
  /-- Whether a commit is durable before it returns. -/
  syncOnCommit : Bool := true
  /-- How long a writer queues. -/
  writerWait : WriterWait := .indefinite
  /-- Whether read transactions see the rows as they were when they began. -/
  useSnapshots : Bool := true
  deriving DecidableEq, Repr

namespace StoreConfig

/-- The options of a store that lives in memory. -/
def inMemory : StoreConfig := { backend := .memory, path := "" }

/-- The options of a store in a directory. -/
def atPath (backend : Backend) (path : String) : StoreConfig :=
  { backend := backend, path := path }

/-- The fields, in the order in which they are written. -/
inductive Field where
  | backend
  | path
  | syncOnCommit
  | writerWait
  | useSnapshots
  deriving DecidableEq, Repr

def Field.all : List Field := [.backend, .path, .syncOnCommit, .writerWait, .useSnapshots]

def Field.name : Field → String
  | backend => "backend"
  | path => "path"
  | syncOnCommit => "sync_on_commit"
  | writerWait => "writer_wait"
  | useSnapshots => "use_snapshots"

def Field.ofName? (name : String) : Option Field := all.find? (fun f => f.name = name)

/-- Take one field from another config. -/
def withField (c : StoreConfig) (f : Field) (from' : StoreConfig) : StoreConfig :=
  match f with
  | .backend => { c with backend := from'.backend }
  | .path => { c with path := from'.path }
  | .syncOnCommit => { c with syncOnCommit := from'.syncOnCommit }
  | .writerWait => { c with writerWait := from'.writerWait }
  | .useSnapshots => { c with useSnapshots := from'.useSnapshots }

def printWait : WriterWait → Json.Printed
  | .indefinite => .text "indefinite"
  | .boundedMs ms => .object [("bounded_ms", .number ms.toNat)]

def printField (c : StoreConfig) : Field → Json.Printed
  | .backend => .text c.backend.name
  | .path => .text c.path
  | .syncOnCommit => .bool c.syncOnCommit
  | .writerWait => printWait c.writerWait
  | .useSnapshots => .bool c.useSnapshots

/-- Some fields of a config as an object, in the order given. -/
def renderFields (c : StoreConfig) (fields : List Field) : String :=
  (Json.Printed.object (fields.map (fun f => (f.name, c.printField f)))).render

/-- A whole config as an object. -/
def render (c : StoreConfig) : String := c.renderFields Field.all

end StoreConfig

end TableStore
