import TableStore.Command.Program
import TableStore.Proofs.Commands

/-!
# Commands one after the other

Commands reach a store in two ways. One is given to the process that opened the store last;
another is the command line of a process of its own, which opens the directory and does the
command. What the one leaves for the other are the rows of the directory (`Site`).

In a catalogue there is no such difference. The answers of commands one after the other are
those of the catalogue, each command's catalogue being the one that the last left, whichever
process had the command (`Errand.runAll_eq`). A process that opens the directory reads
back the registry that the last one had in memory, since that is what the rows say
(`ReadyAs.exists_opened`).
-/

namespace TableStore

open Program (Surroundings serve rowsToKeep)

/-! ## Errands -/

/-- A process of its own, on the store in a directory. -/
structure Process (directory : String) where
  words : List String
  around : Surroundings
  /-- What the words ask for. -/
  invocation : Invocation
  understood : Command.readCommandLine around.env words = .ok invocation
  config : StoreConfig
  resolved : invocation.options.resolve around.read = .ok config
  onDisk : config.backend = .sled
  there : config.path = directory

/-- A command for a store that is open with an engine of some kind, kept in a directory if it is
on disk. -/
inductive Errand (backend : Backend) (directory : String) where
  /-- The process that opened the store last gets the command. -/
  | within (invocation : Invocation) (ofTables : invocation.command.OfTables)
  | process (p : Process directory) (ofTables : p.invocation.command.OfTables)
    (kept : backend = .sled)

/-- An open store and the rows that its directory has. -/
structure Site where
  store : Repository Engine
  rows : Rows

/-- What whoever gives a command sees of it. -/
structure Reply where
  ending : Program.Ending
  out : String
  deriving DecidableEq, Repr

def Reply.ofRun (run : Program.Run) : Reply := ⟨run.ending, run.out⟩

def Reply.ofAnswer : Except CommandError String → Reply
  | .ok text => ⟨.done, text⟩
  | .error e => ⟨.failed e, ""⟩

/-- The store after a command. -/
def Invocation.after (i : Invocation) (r : Repository Engine) : Repository Engine :=
  (i.command.run (.ofOptions i.options) r {}).2.2

/-- What a process finds around it when its directory has the rows. -/
def Process.finding {directory : String} (p : Process directory) (rows : Rows) : Surroundings :=
  { p.around with
    found := fun path => if path = directory then .ok rows else p.around.found path }

namespace Errand

variable {backend : Backend} {directory : String}

def invocation : Errand backend directory → Invocation
  | within i _ => i
  | process p _ _ => p.invocation

/-- Do an errand. A process that cannot open the store leaves everything as it was. -/
def run (errand : Errand backend directory) (site : Site) : Reply × Site :=
  match errand with
  | within i _ =>
    let run := serve i site.store
    (.ofRun run, ⟨i.after site.store, run.kept.getD site.rows⟩)
  | process p _ _ =>
    let run := Program.run (p.finding site.rows) p.words
    let store :=
      match Program.openStore (p.finding site.rows) p.config with
      | .ok r => p.invocation.after r
      | .error _ => site.store
    (.ofRun run, ⟨store, run.kept.getD site.rows⟩)

/-- Do errands one after the other. -/
def runAll : List (Errand backend directory) → Site → List Reply × Site
  | [], site => ([], site)
  | errand :: errands, site =>
    let (reply, site) := errand.run site
    let (replies, site) := runAll errands site
    (reply :: replies, site)

end Errand

namespace Catalogue

/-- What an invocation is answered. -/
def serve (c : Catalogue) (i : Invocation) : Except CommandError String × Catalogue :=
  c.answer (.ofOptions i.options) i.command

/-- What invocations are answered one after the other. -/
def serveAll (c : Catalogue) : List Invocation → List (Except CommandError String) × Catalogue
  | [] => ([], c)
  | i :: invocations =>
    let (answer, c) := c.serve i
    let (answers, c) := c.serveAll invocations
    (answer :: answers, c)

end Catalogue

/-! ## Opening -/

variable {backend : Backend} {directory : String} {c : Catalogue} {r r' : Repository Engine}

/-- A store that was opened is ready, if every row in it is somebody's. -/
theorem ready_of_ofConfig {config : StoreConfig} {found : Rows}
    (hopen : Repository.ofConfig config found = .ok r) (hcovered : r.Covered) :
    Ready config.backend r := by
  unfold Repository.ofConfig at hopen
  split at hopen
  · exact absurd hopen (by simp)
  · rename_i engine hengine
    have hsteady := Engine.Steady.of_ofBackend hengine
    obtain ⟨hsame, hload⟩ := Repository.load_of_onEngine hopen
    rw [Registry.load_eq hsteady.healthy.toAnswers, ← hsame] at hload
    refine ⟨hsame ▸ hsteady, ⟨hload, hcovered⟩, ?_⟩
    unfold Repository.onEngine at hopen
    split at hopen
    · exact absurd hopen (by simp)
    · rw [← Except.ok.inj hopen]
      rfl

/-- **What a process leaves on disk the next one opens,** and it finds the same catalogue. -/
theorem ReadyAs.exists_opened (h : ReadyAs .sled c r) {config : StoreConfig}
    (hdisk : config.backend = .sled) :
    ∃ r', Repository.ofConfig config (StorageEngine.rows r.engine) = .ok r'
      ∧ ReadyAs .sled c r' := by
  have hread := h.faithful.readsBack
  have hload : Registry.load (Engine.disk ⟨StorageEngine.rows r.engine⟩) = .ok r.registry :=
    (Registry.load_eq (Engine.Steady.disk _).healthy.toAnswers).trans hread
  obtain ⟨r', hopen⟩ : ∃ r', Repository.ofConfig config (StorageEngine.rows r.engine) = .ok r' := by
    unfold Repository.ofConfig Engine.ofBackend
    rw [hdisk]
    dsimp only
    unfold Repository.onEngine
    rw [hload]
    exact ⟨_, rfl⟩
  have honEngine : Repository.onEngine (Engine.disk ⟨StorageEngine.rows r.engine⟩) config
      = .ok r' := by
    unfold Repository.ofConfig Engine.ofBackend at hopen
    rw [hdisk] at hopen
    exact hopen
  obtain ⟨hengine, hloaded⟩ := Repository.load_of_onEngine honEngine
  -- the registry that is read back is the one that was in memory
  have hregistry : r'.registry = r.registry := Except.ok.inj (hloaded.symm.trans hload)
  have hrows : StorageEngine.rows r'.engine = StorageEngine.rows r.engine := by
    rw [hengine]
    rfl
  have hcovered : r'.Covered := by
    have hcovers := h.faithful.covers
    rw [← hregistry, ← hrows] at hcovers
    exact hcovers
  refine ⟨r', hopen, hdisk ▸ ready_of_ofConfig hopen hcovered, ?_⟩
  rw [← h.catalogue]
  unfold Catalogue.of Repository.tables Repository.committed
  rw [hregistry, hrows]

/-! ## One errand -/

/-- A command that is served on a store is answered from its catalogue. -/
theorem ReadyAs.serve (h : ReadyAs backend c r) {i : Invocation} (hi : i.command.OfTables) :
    Reply.ofRun (Program.serve i r) = Reply.ofAnswer (c.serve i).1
      ∧ ReadyAs backend (c.serve i).2 (i.after r) := by
  obtain ⟨hprinted, hready⟩ := served_run h.toReady (.ofOptions i.options) hi
  rw [h.catalogue] at hprinted hready
  refine ⟨?_, hready⟩
  have hflush : (i.after r).flush = .ok () := hready.steady.flush
  unfold Invocation.after at hflush
  unfold Program.serve Catalogue.serve
  generalize i.command.run (.ofOptions i.options) r {} = done at hprinted hflush
  obtain ⟨answer, o, r'⟩ := done
  dsimp only at hprinted hflush ⊢
  cases hanswer : (c.answer (.ofOptions i.options) i.command).1 with
  | error e =>
      rw [hanswer] at hprinted
      obtain ⟨ha, ho⟩ := Prod.mk.inj hprinted
      subst ha
      subst ho
      rfl
  | ok text =>
      rw [hanswer] at hprinted
      obtain ⟨ha, ho⟩ := Prod.mk.inj hprinted
      subst ha
      subst ho
      dsimp only
      rw [hflush]
      rfl

/-- A site has a catalogue, which can be opened again if it is on disk. -/
structure Site.Shows (site : Site) (backend : Backend) (c : Catalogue) : Prop where
  ready : ReadyAs backend c site.store
  kept : backend = .sled → site.rows = StorageEngine.rows site.store.engine

theorem ReadyAs.rowsToKeep_eq (h : ReadyAs .sled c r) :
    rowsToKeep r = some (StorageEngine.rows r.engine) := by
  have hsteady := h.steady
  unfold rowsToKeep
  cases hengine : r.engine with
  | disk engine => rfl
  | memory engine =>
      rw [hengine] at hsteady
      cases hsteady
  | faulty engine =>
      rw [hengine] at hsteady
      cases hsteady

theorem Program.run_of_read {s : Surroundings} {words : List String} {i : Invocation}
    (h : Command.readCommandLine s.env words = .ok i) (hi : i.command.OfTables) :
    Program.run s words = Program.runOnStore s i := by
  unfold Program.run
  rw [h]
  obtain ⟨command, options⟩ := i
  cases command with
  | version => exact hi.elim
  | _ => rfl

/-- A process opens its directory and serves its command. -/
theorem Process.run_eq (p : Process directory) {rows : Rows}
    (hopen : Repository.ofConfig p.config rows = .ok r) (hp : p.invocation.command.OfTables) :
    Program.openStore (p.finding rows) p.config = .ok r
      ∧ Reply.ofRun (Program.run (p.finding rows) p.words)
        = Reply.ofRun (Program.serve p.invocation r)
      ∧ (Program.run (p.finding rows) p.words).kept = rowsToKeep (p.invocation.after r) := by
  have hdirectory : Program.directoryOf p.config = some directory := by
    unfold Program.directoryOf
    rw [p.onDisk, p.there]
  have hstore : Program.openStore (p.finding rows) p.config = .ok r := by
    have hfound : (p.finding rows).found directory = .ok rows := if_pos rfl
    unfold Program.openStore Program.foundRows
    rw [hdirectory, Option.map_some, hfound]
    exact hopen
  have hresolve : p.invocation.options.resolve (p.finding rows).read = .ok p.config := p.resolved
  have hread : Command.readCommandLine (p.finding rows).env p.words = .ok p.invocation :=
    p.understood
  rw [Program.run_of_read hread hp]
  unfold Program.runOnStore
  rw [hresolve]
  dsimp only
  rw [hstore]
  exact ⟨rfl, rfl, rfl⟩

/-- **An errand is answered from the catalogue,** whichever process does it. -/
theorem Errand.run_eq {site : Site} (h : site.Shows backend c) (errand : Errand backend directory) :
    (errand.run site).1 = Reply.ofAnswer (c.serve errand.invocation).1
      ∧ (errand.run site).2.Shows backend (c.serve errand.invocation).2 := by
  cases errand with
  | within i ofTables =>
      obtain ⟨hreply, hready⟩ := h.ready.serve ofTables
      refine ⟨hreply, hready, fun hdisk => ?_⟩
      subst hdisk
      show (rowsToKeep (i.after site.store)).getD site.rows = _
      rw [hready.rowsToKeep_eq]
      rfl
  | process p ofTables kept =>
      cases kept
      obtain ⟨r, hopen, hopened⟩ := h.ready.exists_opened p.onDisk
      rw [← h.kept rfl] at hopen
      obtain ⟨hstore, hrun, hkept⟩ := p.run_eq hopen ofTables
      obtain ⟨hreply, hready⟩ := hopened.serve ofTables
      unfold Errand.run
      dsimp only
      rw [hstore, hkept, hready.rowsToKeep_eq]
      exact ⟨hrun.trans hreply, hready, fun _ => rfl⟩

/-- **Errands one after the other are answered from the catalogue.** -/
theorem Errand.runAll_eq {site : Site} (h : site.Shows backend c)
    (errands : List (Errand backend directory)) :
    (runAll errands site).1
        = (c.serveAll (errands.map invocation)).1.map Reply.ofAnswer
      ∧ (runAll errands site).2.Shows backend (c.serveAll (errands.map invocation)).2 := by
  induction errands generalizing site c with
  | nil => exact ⟨rfl, h⟩
  | cons errand rest ih =>
      obtain ⟨hreply, hshows⟩ := errand.run_eq h
      obtain ⟨hreplies, hlast⟩ := ih hshows
      refine ⟨?_, hlast⟩
      show (errand.run site).1 :: (runAll rest (errand.run site).2).1 = _
      rw [hreply, hreplies]
      rfl

/-! ## Every sequence of commands -/

theorem Catalogue.of_fresh (hrows : StorageEngine.rows r.engine = .empty)
    (hregistry : r.registry = {}) : Catalogue.of r = ⟨[], fun _ => .empty⟩ := by
  have htables : ({} : Registry).tables = [] := List.mergeSort_nil
  unfold Catalogue.of Repository.tables Repository.committed
  rw [hregistry, hrows, htables]
  rfl

/--
**Commands see a map of tables.** Open a store, in memory or on disk, and give it any commands of
tables one after the other, to the process that has it open or each to a process of its own. Then
every command ends as the catalogue says, with the text that the catalogue says; and at the end
the store has the catalogue's tables and rows. The typed texts that the catalogue knows by their
bytes are read as just these bytes, in whichever form, and others are failures.
-/
theorem commands_refine_catalogue {config : StoreConfig} {found : Rows}
    (hopen : Repository.ofConfig config found = .ok r) (hcovered : r.Covered)
    (errands : List (Errand config.backend config.path)) :
    let done := Errand.runAll errands ⟨r, found⟩
    let said := (Catalogue.of r).serveAll (errands.map Errand.invocation)
    done.1 = said.1.map Reply.ofAnswer
      ∧ Catalogue.of done.2.store = said.2
      ∧ ∀ form : TextForm, CommandText.Codec form := by
  have hready := ready_of_ofConfig hopen hcovered
  have hkept : config.backend = .sled → found = StorageEngine.rows r.engine := by
    intro hdisk
    unfold Repository.ofConfig Engine.ofBackend at hopen
    rw [hdisk] at hopen
    rw [(Repository.load_of_onEngine hopen).1]
    rfl
  have hshows : Site.Shows ⟨r, found⟩ config.backend (Catalogue.of r) :=
    ⟨hready.same rfl rfl hready.free, hkept⟩
  obtain ⟨hreplies, hlast⟩ := Errand.runAll_eq hshows errands
  exact ⟨hreplies, hlast.ready.catalogue, TextForm.codec⟩

/-- Processes between commands for the first one, in text, in hexadecimal and as JSON: the reverse
scan has the row of another process, and what fails leaves no trace. -/
theorem commands_refine_catalogue_two_processes :
    let bare : Surroundings :=
      ⟨fun _ => none, fun _ => .error (.file .noSuchFile), fun _ => .ok .empty⟩
    let config : StoreConfig := { backend := .sled, path := "d" }
    let r : Repository Engine :=
      { engine := .disk ⟨.empty⟩, registry := {}, config := config
        events := [.repositoryOpened "sled" "d" 0] }
    let errands : List (Errand config.backend config.path) := [
      .within ⟨.put "t" "a" "1", {}⟩ trivial,
      .process ⟨["-d", "d", "put", "t", "c", "3"], bare,
        ⟨.put "t" "c" "3", { dataDir := some "d" }⟩,
        by rfl, config, by rfl, rfl, rfl⟩ trivial rfl,
      .within ⟨.put "t" "b" "2", {}⟩ trivial,
      .within ⟨.delete "t" "x", {}⟩ trivial,
      .process ⟨["-d", "d", "scan", "t", "-r", "-n", "2"], bare,
        ⟨.scan { table := "t", reverse := true, limit := some 2 }, { dataDir := some "d" }⟩,
        by rfl, config, by rfl, rfl, rfl⟩ trivial rfl,
      .within ⟨.get "t" "c", {}⟩ trivial,
      .process ⟨["-d", "d", "--hex", "get", "t", "63"], bare,
        ⟨.get "t" "63", { dataDir := some "d", hex := true }⟩,
        by rfl, config, by rfl, rfl, rfl⟩ trivial rfl,
      .within ⟨.put "t" "6" "", { hex := true }⟩ trivial,
      .within ⟨.count "t", {}⟩ trivial,
      .process ⟨["-d", "d", "--json", "count", "t"], bare,
        ⟨.count "t", { dataDir := some "d", json := true }⟩,
        by rfl, config, by rfl, rfl, rfl⟩ trivial rfl,
      .within ⟨.scan { table := "t", limit := some 1 }, { hex := true, json := true }⟩ trivial,
      .within ⟨.clear "t", {}⟩ trivial,
      .within ⟨.get "t" "c", {}⟩ trivial,
      .within ⟨.tables, {}⟩ trivial,
      .within ⟨.tables, { json := true }⟩ trivial]
    (Errand.runAll errands ⟨r, .empty⟩).1 = [
      ⟨.done, ""⟩, ⟨.done, ""⟩, ⟨.done, ""⟩, ⟨.failed (.keyNotFound "t" "x"), ""⟩,
      ⟨.done, "c\t3\nb\t2\n"⟩, ⟨.done, "3\n"⟩, ⟨.done, "33\n"⟩,
      ⟨.failed (.invalidHex "6" .oddLength), ""⟩, ⟨.done, "3\n"⟩,
      ⟨.done, "\x7b\"rows\":3,\"table\":\"t\"\x7d\n"⟩,
      ⟨.done, "\x7b\"key\":\"61\",\"value\":\"31\"\x7d\n"⟩, ⟨.done, ""⟩,
      ⟨.failed (.keyNotFound "t" "c"), ""⟩, ⟨.done, "  1  t\n"⟩,
      ⟨.done, "[\x7b\"name\":\"t\",\"prefix\":1\x7d]\n"⟩] := by
  intro bare config r errands
  have hopened : Repository.ofConfig config .empty = .ok r := rfl
  have hcovered : r.Covered :=
    fun key value hrow => absurd (show none = some value from hrow) (by simp)
  obtain ⟨hreplies, _, _⟩ := commands_refine_catalogue hopened hcovered errands
  rw [hreplies, Catalogue.of_fresh rfl rfl]
  decide +kernel

end TableStore
