import TableStore.Command.Basic

/-!
# Reading the command line

A command line has two levels: options that every command has, then the command's name
and, behind it, the command's own arguments, among which the common options may stand
again. Each level is read by itself (`Level`), first from the words given and then, for
what they leave out, from the environment; at the end the levels are put together, and
what was given nearer to the command wins.

An option's value stands behind an equals sign, right behind a short name, or in the
next word. In the last case the option is open until the reader knows what comes next:
its value is checked, and a repetition of it noticed, when the next option or argument
begins or the words end (`Level.settle`).
-/

namespace TableStore.Command

/-- Why a command line is not run as a command. -/
inductive UsageError where
  /-- There is no such option, or an argument too many. -/
  | unknownArgument
  /-- There is no such command. -/
  | invalidSubcommand
  /-- An option lacks its value. -/
  | invalidValue
  /-- The value of an option makes no sense. -/
  | valueValidation
  /-- An option that takes no value was given one. -/
  | tooManyValues
  /-- An option was given twice. -/
  | argumentConflict
  /-- An argument is missing that the command needs. -/
  | missingRequiredArgument
  /-- There are options and no command. -/
  | missingSubcommand
  /-- There is nothing at all, which shows the help. -/
  | nothingGiven
  /-- The help was asked for. -/
  | helpAsked
  /-- The version was asked for, of a command or of the program. -/
  | versionAsked (command : Option String)
  deriving DecidableEq, Repr

def UsageError.name : UsageError → String
  | unknownArgument => "UnknownArgument"
  | invalidSubcommand => "InvalidSubcommand"
  | invalidValue => "InvalidValue"
  | valueValidation => "ValueValidation"
  | tooManyValues => "TooManyValues"
  | argumentConflict => "ArgumentConflict"
  | missingRequiredArgument => "MissingRequiredArgument"
  | missingSubcommand => "MissingSubcommand"
  | nothingGiven => "DisplayHelpOnMissingArgumentOrSubcommand"
  | helpAsked => "DisplayHelp"
  | versionAsked _ => "DisplayVersion"

/-! ## The grammar -/

/-- The names of commands. -/
inductive Verb where
  | tables
  | get
  | put
  | delete
  | scan
  | count
  | clear
  | metrics
  | version
  deriving DecidableEq, Repr

namespace Verb

/-- All names. -/
def all : List Verb := [tables, get, put, delete, scan, count, clear, metrics, version]

/-- The name as it is typed. -/
def word : Verb → String
  | tables => "tables"
  | get => "get"
  | put => "put"
  | delete => "delete"
  | scan => "scan"
  | count => "count"
  | clear => "clear"
  | metrics => "metrics"
  | version => "version"

/-- The name that a word is. -/
def ofWord? (w : String) : Option Verb := all.find? (fun v => v.word = w)

/-- Number of arguments beside options; every one is needed. -/
def arity : Verb → Nat
  | tables => 0
  | get => 2
  | put => 3
  | delete => 2
  | scan => 1
  | count => 1
  | clear => 1
  | metrics => 0
  | version => 0

end Verb

/-- The word that asks for help where a command is expected. -/
def helpWord : String := "help"

/-- The options. -/
inductive Flag where
  | config
  | backend
  | dataDir
  | hex
  | json
  | logFormat
  | first
  | last
  | withoutFirst
  | withoutLast
  | reverse
  | keysOnly
  | limit
  | help
  | version
  deriving DecidableEq, Repr

/-- What an option takes. -/
inductive ValueKind where
  | nothing
  | text
  /-- A file name, which is not empty. -/
  | path
  /-- A number of rows. -/
  | count
  deriving DecidableEq, Repr

namespace Flag

/-- The options of every level. -/
def common : List Flag := [config, backend, dataDir, hex, json, logFormat, help, version]

/-- The options of scans alone. -/
def ofScan : List Flag := [first, last, withoutFirst, withoutLast, reverse, keysOnly, limit]

/-- The options of a level: of a command, or before any command. -/
def ofLevel : Option Verb → List Flag
  | some .scan => common ++ ofScan
  | _ => common

/-- The long name, behind two dashes. -/
def long : Flag → String
  | config => "config"
  | backend => "backend"
  | dataDir => "data-dir"
  | hex => "hex"
  | json => "json"
  | logFormat => "log-format"
  | first => "from"
  | last => "to"
  | withoutFirst => "exclusive-from"
  | withoutLast => "exclusive-to"
  | reverse => "reverse"
  | keysOnly => "keys-only"
  | limit => "limit"
  | help => "help"
  | version => "version"

/-- The short name, behind one dash. -/
def short? : Flag → Option Char
  | config => some 'c'
  | backend => some 'b'
  | dataDir => some 'd'
  | reverse => some 'r'
  | limit => some 'n'
  | help => some 'h'
  | version => some 'V'
  | _ => none

/-- What the option takes. -/
def value : Flag → ValueKind
  | config => .path
  | backend => .text
  | dataDir => .path
  | logFormat => .text
  | first => .text
  | last => .text
  | limit => .count
  | _ => .nothing

/-- The variable of the environment that stands in for the option. -/
def envName? : Flag → Option String
  | config => some "NOVA_STORE_CONFIG"
  | backend => some "NOVA_STORE_BACKEND"
  | dataDir => some "NOVA_STORE_DIR"
  | logFormat => some "NOVA_LOG_FORMAT"
  | _ => none

def ofLong? (level : Option Verb) (name : String) : Option Flag :=
  (ofLevel level).find? (fun f => f.long = name)

def ofShort? (level : Option Verb) (c : Char) : Option Flag :=
  (ofLevel level).find? (fun f => f.short? = some c)

end Flag

/-! ## Values -/

/-- The largest number of rows that can be asked for. -/
def largestLimit : Nat := 18446744073709551615

/-- A number of rows: decimal digits, after a plus sign if one likes. -/
def readLimit? (text : String) : Option Nat :=
  let digits := match text.toList with
    | '+' :: rest => rest
    | all => all
  if digits.isEmpty || !digits.all Char.isDigit then none
  else
    let n := digits.foldl (fun n c => n * 10 + (c.toNat - 48)) 0
    if n ≤ largestLimit then some n else none

/-- Refuse a value that its option does not take. -/
def ValueKind.check (kind : ValueKind) (text : String) : Except UsageError Unit :=
  match kind with
  | .path => if text = "" then .error .invalidValue else .ok ()
  | .count => if (readLimit? text).isNone then .error .valueValidation else .ok ()
  | _ => .ok ()

/-! ## One level -/

/-- Where a value comes from. -/
inductive Origin where
  | environment
  | words
  deriving DecidableEq, Repr

/-- The value of an option. -/
structure Given where
  flag : Flag
  value : String
  origin : Origin
  deriving DecidableEq, Repr

/-- A level as far as it is read. -/
structure Level where
  /-- The command it belongs to. -/
  verb : Option Verb
  /-- Options that are settled, the latest first. -/
  given : List Given := []
  /-- An option that is open, with its value if that was read. -/
  pending : Option (Flag × Option String) := none
  /-- Arguments beside options. -/
  arguments : List String := []

namespace Level

/-- Whether an option is settled. -/
def has (l : Level) (f : Flag) : Bool := l.given.any (fun g => g.flag = f)

/-- The value of an option. -/
def find? (l : Level) (f : Flag) : Option Given := l.given.find? (fun g => g.flag = f)

/-- Whether the next word is an option's value. -/
def awaitsValue (l : Level) : Bool :=
  match l.pending with
  | some (_, none) => true
  | _ => false

/-- Add an option with its value. A repetition is noticed before a wrong value. -/
def add (l : Level) (f : Flag) (value : String) (origin : Origin) : Except UsageError Level :=
  if l.has f then .error .argumentConflict
  else (f.value.check value).map (fun _ => { l with given := ⟨f, value, origin⟩ :: l.given })

/-- Close the open option. -/
def settle (l : Level) : Except UsageError Level :=
  match l.pending with
  | none => .ok l
  | some (_, none) => .error .invalidValue
  | some (f, some value) => { l with pending := none }.add f value .words

/-- Take an option with its value at once. -/
def attach (l : Level) (f : Flag) (value : String) : Except UsageError Level :=
  match l.settle with
  | .error e => .error e
  | .ok l => l.add f value .words

/-- Take an option whose value is to come. -/
def expect (l : Level) (f : Flag) : Except UsageError Level :=
  l.settle.map (fun l => { l with pending := some (f, none) })

/-- Take an option without a value. Asking for help or the version ends the reading. -/
def raise (l : Level) (f : Flag) : Except UsageError Level :=
  match l.settle with
  | .error e => .error e
  | .ok l =>
    match f with
    | .help => .error .helpAsked
    | .version => .error (.versionAsked (l.verb.map Verb.word))
    | f => l.add f "" .words

/-- Take the word that an open option waits for. -/
def supply (l : Level) (value : String) : Level :=
  { l with pending := l.pending.map (fun p => (p.1, some value)) }

/-- Take an argument. -/
def argument (l : Level) (word : String) : Except UsageError Level :=
  l.settle.map (fun l => { l with arguments := l.arguments ++ [word] })

/-- Take a long option, with its value if one is attached. -/
def long (l : Level) (name : String) (attached : Option String) : Except UsageError Level :=
  match Flag.ofLong? l.verb name with
  | none => .error .unknownArgument
  | some f =>
    match f.value, attached with
    | .nothing, none => l.raise f
    | .nothing, some _ => .error .tooManyValues
    | _, none => l.expect f
    | _, some value => l.attach f value

/-- Take short options that stand behind one dash. The first that takes a value takes
the rest, less an equals sign. -/
def cluster (l : Level) : List Char → Except UsageError Level
  | [] => .ok l
  | c :: rest =>
    match Flag.ofShort? l.verb c with
    | none => .error .unknownArgument
    | some f =>
      match f.value with
      | .nothing =>
        match l.raise f with
        | .error e => .error e
        | .ok l => l.cluster rest
      | _ =>
        match rest with
        | [] => l.expect f
        | '=' :: value => l.attach f (String.ofList value)
        | value => l.attach f (String.ofList value)

/-- Take values from the environment for options that were not given. -/
def inherit (l : Level) (environment : String → Option String) :
    (flags : List Flag) → Except UsageError Level
  | [] => .ok l
  | f :: flags =>
    match if l.has f then none else f.envName?.bind environment with
    | none => l.inherit environment flags
    | some value =>
      match l.add f value .environment with
      | .error e => .error e
      | .ok l => l.inherit environment flags

/-- Close a level that has no more words. -/
def finish (l : Level) (environment : String → Option String) : Except UsageError Level :=
  match l.settle with
  | .error e => .error e
  | .ok l => l.inherit environment (Flag.ofLevel l.verb)

/-- Refuse unless everything is there that the command needs. -/
def require (l : Level) (verb : Verb) : Except UsageError Unit :=
  if l.arguments.length < verb.arity
      || (l.has .withoutFirst && !l.has .first)
      || (l.has .withoutLast && !l.has .last) then
    .error .missingRequiredArgument
  else .ok ()

end Level

/-! ## Words -/

/-- What a word looks like. -/
inductive Token where
  /-- Two dashes: no options from here on. -/
  | escape
  | long (name : String) (attached : Option String)
  | cluster (names : List Char)
  | word (text : String)
  deriving DecidableEq, Repr

/-- What a word looks like. A dash alone is a word like any other. -/
def Token.of (text : String) : Token :=
  match text.toList with
  | ['-', '-'] => .escape
  | '-' :: '-' :: rest =>
    let name := String.ofList (rest.takeWhile (· ≠ '='))
    match rest.dropWhile (· ≠ '=') with
    | [] => .long name none
    | _ :: value => .long name (some (String.ofList value))
  | '-' :: c :: rest => .cluster (c :: rest)
  | _ => .word text

/-- Read the words of a command up to the end. Behind the escape every word is an
argument. -/
def readArguments (verb : Verb) (l : Level) (escaped : Bool) :
    (words : List String) → Except UsageError Level
  | [] => .ok l
  | word :: words =>
    let read : Except UsageError (Level × Bool) :=
      match if escaped then .word word else Token.of word with
      | .escape => .ok (l, true)
      | .long name attached => (l.long name attached).map (fun l => (l, escaped))
      | .cluster names => (l.cluster names).map (fun l => (l, escaped))
      | .word w =>
        if !escaped && l.awaitsValue then .ok (l.supply w, escaped)
        else if l.arguments.length < verb.arity then (l.argument w).map (fun l => (l, escaped))
        else .error .unknownArgument
    match read with
    | .error e => .error e
    | .ok (l, escaped) => readArguments verb l escaped words

/-- What a call for help with some words ends in. -/
def helpOn (words : List String) : UsageError :=
  match words with
  | [] => .helpAsked
  | [w] => if w = helpWord || (Verb.ofWord? w).isSome then .helpAsked else .invalidSubcommand
  | _ => .invalidSubcommand

/-- Read words up to the name of a command; the words behind it come with it. -/
def readCommon (l : Level) :
    (words : List String) → Except UsageError (Level × Option (Verb × List String))
  | [] => .ok (l, none)
  | word :: words =>
    match Token.of word with
    | .escape =>
      match words with
      | [] => .ok (l, none)
      | w :: _ =>
        .error (if w = helpWord || (Verb.ofWord? w).isSome then .unknownArgument
          else .invalidSubcommand)
    | .long name attached =>
      match l.long name attached with
      | .error e => .error e
      | .ok l => readCommon l words
    | .cluster names =>
      match l.cluster names with
      | .error e => .error e
      | .ok l => readCommon l words
    | .word w =>
      if l.awaitsValue then readCommon (l.supply w) words
      else if w = helpWord then .error (helpOn words)
      else
        match Verb.ofWord? w with
        | some verb => .ok (l, some (verb, words))
        | none => .error .invalidSubcommand

/-! ## Both levels -/

/-- The value of an option of two levels. The inner level wins, unless its value comes
from the environment and the outer one's from the words. -/
def mergedValue? (outer inner : Level) (f : Flag) : Option String :=
  match outer.find? f, inner.find? f with
  | some ⟨_, a, .words⟩, some ⟨_, _, .environment⟩ => some a
  | _, some ⟨_, b, _⟩ => some b
  | some ⟨_, a, _⟩, none => some a
  | none, none => none

/-- The common options of two levels. -/
def storeOptions (outer inner : Level) : StoreOptions where
  config := mergedValue? outer inner .config
  backend := mergedValue? outer inner .backend
  dataDir := mergedValue? outer inner .dataDir
  hex := outer.has .hex || inner.has .hex
  json := outer.has .json || inner.has .json
  logFormat := (mergedValue? outer inner .logFormat).getD "pretty"

def Level.value? (l : Level) (f : Flag) : Option String := (l.find? f).map Given.value

def Level.command? (l : Level) (verb : Verb) : Option Command :=
  match verb, l.arguments with
  | .tables, _ => some .tables
  | .metrics, _ => some .metrics
  | .version, _ => some .version
  | .get, [table, key] => some (.get table key)
  | .put, [table, key, value] => some (.put table key value)
  | .delete, [table, key] => some (.delete table key)
  | .count, [table] => some (.count table)
  | .clear, [table] => some (.clear table)
  | .scan, [table] =>
    some (.scan
      { table := table
        first := l.value? .first
        last := l.value? .last
        withoutFirst := l.has .withoutFirst
        withoutLast := l.has .withoutLast
        reverse := l.has .reverse
        keysOnly := l.has .keysOnly
        limit := (l.value? .limit).bind readLimit? })
  | _, _ => none

/-- Read the part of a command line behind the command's name. -/
def readCommand (environment : String → Option String) (verb : Verb) (words : List String) :
    Except UsageError (Level × Command) :=
  match readArguments verb { verb := some verb } false words with
  | .error e => .error e
  | .ok l =>
    match l.finish environment with
    | .error e => .error e
    | .ok l =>
      match l.require verb, l.command? verb with
      | .error e, _ => .error e
      | .ok (), none => .error .missingRequiredArgument
      | .ok (), some command => .ok (l, command)

/-- Read a command line, without the program's own name. A mistake behind the command's
name is found before one that the words in front of it leave open. -/
def readCommandLine (environment : String → Option String) (words : List String) :
    Except UsageError Invocation :=
  match readCommon { verb := none } words with
  | .error e => .error e
  | .ok (outer, some (verb, rest)) =>
    match readCommand environment verb rest with
    | .error e => .error e
    | .ok (inner, command) =>
      match outer.finish environment with
      | .error e => .error e
      | .ok outer => .ok ⟨command, storeOptions outer inner⟩
  | .ok (outer, none) =>
    match outer.finish environment with
    | .error e => .error e
    | .ok outer => .error (if outer.given.isEmpty then .nothingGiven else .missingSubcommand)

end TableStore.Command
