import TableStore.Key.Order
import TableStore.Text.Hex
import TableStore.Text.Utf8
import TableStore.Text.Quoted
import TableStore.Json.Error
import TableStore.Value.Error
import TableStore.Transaction.State

/-!
# What can go wrong

An error has one of seven kinds, which callers tell apart, and inside its kind a
cause. The wording lives in `StoreError.text` alone, so the rest of the library
reasons about causes and never about words.
-/

namespace TableStore

/-- A call that its caller should not have made. -/
inductive Misuse where
  /-- The transaction has ended. -/
  | ended (state : TransactionState)
  /-- A change was asked of a transaction that only reads. -/
  | readOnly
  /-- A table needs a name. -/
  | emptyTableName
  /-- The row was read without its value. -/
  | keysOnly
  /-- The engine is not part of this build. -/
  | missingBackend (name : String)
  /-- The text of a config file is none. -/
  | config (path : String) (cause : Json.Error)
  /-- Any other reason, in words. -/
  | other (text : String)
  deriving DecidableEq, Repr

/-- Stored bytes that do not make sense. -/
inductive Damage where
  /-- A registry row whose key names no table byte. -/
  | registryKey (key : Bytes)
  /-- A registry row whose name is not text. -/
  | registryNameNotText (slot : UInt8)
  /-- A registry row without a name. -/
  | registryNameEmpty (slot : UInt8)
  /-- One name under two table bytes. -/
  | registryNameTwice (name : String) (first second : UInt8)
  /-- A key of the wrong length. -/
  | keyWidth (got expected : Nat)
  /-- A key that should be text. -/
  | keyNotText (cause : Utf8.DecodeError)
  /-- Any other reason, in words. -/
  | other (text : String)
  deriving DecidableEq, Repr

/-- What is wrong with a path. -/
inductive PathFailure where
  /-- Nothing is there. -/
  | noSuchFile
  /-- Something is there already. -/
  | alreadyThere
  /-- A directory of the path is a file. -/
  | notDirectory
  /-- A directory is where a file is wanted. -/
  | isDirectory
  /-- The path or a name in it is too long. -/
  | nameTooLong
  /-- No path holds the zero character. -/
  | zeroByte
  deriving DecidableEq, Repr

/-- A failure of the engine or of the files around it. -/
inductive StorageFailure where
  /-- An armed fault fired at this operation of a batch. -/
  | armedFault (op : Nat)
  /-- A row of a scan cannot be read. -/
  | unreadableRow (index : Nat)
  /-- A file cannot be read. -/
  | file (why : PathFailure)
  /-- An engine cannot have its directory. -/
  | directory (why : PathFailure)
  /-- Any other reason, in words. -/
  | other (text : String)
  deriving DecidableEq, Repr

/-- An expectation that does not hold. -/
inductive Violation where
  /-- The value of a key is not the expected one; `none` stands for no value. -/
  | unexpectedValue (table : String) (key : Bytes) (expected found : Option Bytes)
  /-- A scan of one table returned the key of another. -/
  | foreignKey (slot : UInt8) (key : Bytes)
  /-- Any other reason, in words. -/
  | other (text : String)
  deriving DecidableEq, Repr

/-- A value that cannot be read back. -/
inductive Unreadable where
  /-- The bytes are no value of the shape. -/
  | value (cause : ValueError)
  /-- Any other reason, in words. -/
  | other (text : String)
  deriving DecidableEq, Repr

/-- No byte is left for another table. -/
inductive Exhaustion where
  /-- Every table byte is taken. -/
  | slots (name : String)
  /-- Any other reason, in words. -/
  | other (text : String)
  deriving DecidableEq, Repr

inductive StoreError where
  | invalidOperation (why : Misuse)
  | resourceExhausted (why : Exhaustion)
  | corruption (why : Damage)
  | storage (why : StorageFailure)
  | contractViolation (why : Violation)
  | serialization (why : Unreadable)
  /-- The writer lock did not become free in time. -/
  | lockTimeout (waitedMs : Nat)
  deriving DecidableEq, Repr

/-- Number of tables a store can hold. -/
def tableCapacity : Nat := 254

/-- A misuse in words. -/
def Misuse.text : Misuse → String
  | ended state => "transaction already " ++ state.label
  | readOnly => "write on a read-only transaction"
  | emptyTableName => "table name must not be empty"
  | keysOnly => "row was read keys-only"
  | missingBackend name => "this build does not include the " ++ name ++ " backend"
  | config path cause => "invalid store config " ++ path ++ ": " ++ cause.message
  | other text => text

/-- Damage in words. -/
def Damage.text : Damage → String
  | registryKey key => "malformed registry key " ++ Hex.encode key
  | registryNameNotText slot => "registry entry " ++ toString slot.toNat ++ " is not UTF-8"
  | registryNameEmpty slot => "registry entry " ++ toString slot.toNat ++ " has an empty name"
  | registryNameTwice name first second =>
    "table " ++ Quoted.text name ++ " registered under both " ++ toString first.toNat ++ " and "
      ++ toString second.toNat
  | keyWidth got expected =>
    "key has " ++ toString got ++ " bytes, expected " ++ toString expected
  | keyNotText cause => "key is not UTF-8: " ++ cause.message
  | other text => text

/-- A wrong path in words. -/
def PathFailure.text : PathFailure → String
  | noSuchFile => "No such file or directory (os error 2)"
  | alreadyThere => "File exists (os error 17)"
  | notDirectory => "Not a directory (os error 20)"
  | isDirectory => "Is a directory (os error 21)"
  | nameTooLong => "File name too long (os error 36)"
  | zeroByte => "file name contained an unexpected NUL byte"

/-- An engine failure in words. -/
def StorageFailure.text : StorageFailure → String
  | armedFault op => "injected write failure at op " ++ toString op
  | unreadableRow index => "row " ++ toString index ++ " unreadable"
  | file why => why.text
  | directory why => "IO error: " ++ why.text
  | other text => text

/-- A value, or its absence, in words. -/
def describeValue : Option Bytes → String
  | some bytes => toString bytes.length ++ " bytes (" ++ Hex.encode bytes ++ ")"
  | none => "absent"

def Violation.text : Violation → String
  | unexpectedValue table key expected found =>
    table ++ "/" ++ Hex.encode key ++ ": expected " ++ describeValue expected ++ ", found "
      ++ describeValue found
  | foreignKey slot key =>
    "engine scan for table prefix " ++ toString slot.toNat ++ " returned foreign key "
      ++ Hex.encode key
  | other text => text

def Unreadable.text : Unreadable → String
  | value cause => cause.message
  | other text => text

/-- Exhaustion in words. -/
def Exhaustion.text : Exhaustion → String
  | slots name =>
    "all " ++ toString tableCapacity ++ " table prefixes are in use, cannot create "
      ++ Quoted.text name
  | other text => text

namespace StoreError

/-- The name of the kind. -/
def kind : StoreError → String
  | invalidOperation _ => "InvalidOperation"
  | resourceExhausted _ => "ResourceExhausted"
  | corruption _ => "Corruption"
  | storage _ => "Storage"
  | contractViolation _ => "ContractViolation"
  | serialization _ => "Serialization"
  | lockTimeout _ => "LockTimeout"

/-- The cause in words; a lock that timed out has none beside its kind. -/
def text : StoreError → String
  | invalidOperation why => why.text
  | resourceExhausted why => why.text
  | corruption why => why.text
  | storage why => why.text
  | contractViolation why => why.text
  | serialization why => why.text
  | lockTimeout _ => ""

/-- The error as a user reads it. -/
def message (e : StoreError) : String :=
  match e with
  | invalidOperation _ => "invalid operation: " ++ e.text
  | resourceExhausted _ => "resource exhausted: " ++ e.text
  | corruption _ => "corruption: " ++ e.text
  | storage _ => "storage error: " ++ e.text
  | contractViolation _ => "contract violation: " ++ e.text
  | serialization _ => "serialization error: " ++ e.text
  | lockTimeout ms => "timed out after " ++ toString ms ++ "ms waiting for the writer lock"

/-- The error as diagnostics show it. -/
def describe (e : StoreError) : String :=
  match e with
  | lockTimeout ms => "LockTimeout \x7b waited_ms: " ++ toString ms ++ " \x7d"
  | _ => e.kind ++ "(" ++ Quoted.text e.text ++ ")"

/-- Whether the error says that the writer lock was held for too long. -/
def isLockTimeout : StoreError → Bool
  | lockTimeout _ => true
  | _ => false

end StoreError

/-- An error that a disk engine reports about itself. -/
inductive DiskError where
  /-- Data that was read back differs from what was written. -/
  | corruption
  /-- The engine was asked for something it cannot do. -/
  | unsupported (text : String)
  /-- The engine found a mistake of its own. -/
  | bug (text : String)
  /-- The operating system refused. -/
  | system (text : String)

/-- A disk engine's error in words. -/
def DiskError.text : DiskError → String
  | corruption => "Read corrupted data at file offset None backtrace ()"
  | unsupported text => "Unsupported: " ++ text
  | bug text => "Unexpected bug has happened: " ++ text ++ ". PLEASE REPORT THIS BUG!"
  | system text => "IO error: " ++ text

/-- A disk engine's error as an error of the store: damage stays damage, and the rest
is a failure of storage. -/
def StoreError.ofDisk (e : DiskError) : StoreError :=
  match e with
  | .corruption => .corruption (.other e.text)
  | _ => .storage (.other e.text)

end TableStore
