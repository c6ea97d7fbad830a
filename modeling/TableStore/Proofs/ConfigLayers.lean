import TableStore.Command.Execution
import TableStore.Proofs.ConfigFile

/-!
# Defaults, a file, and the options on top

The config of a run has three layers. At the bottom are the defaults, on them lies the file that
the options name, if they name one, and on top lie the options themselves: an engine by its name,
and a directory. Each layer says some of the fields, and a field has the value of the highest layer
that says it. So no layer reaches into the fields of another
(`StoreOptions.layers_keep_to_their_fields`).

An engine is named in letters of either case, and by a short name too (`Backend.CalledBy`). A name
that no engine has is a failure, however good or bad the file below it is.
-/

namespace TableStore

/-! ## Names of engines -/

namespace Backend

/-- The names of an engine, a short one included. -/
def names : Backend → List String
  | memory => ["memory", "mem"]
  | sled => ["sled"]
  | rocksdb => ["rocksdb", "rocks"]

/-- A text names an engine, but for the case of its letters. -/
def CalledBy (b : Backend) (s : String) : Prop := ∃ n ∈ b.names, s.toLower = n.toLower

theorem calledBy_iff {b : Backend} {s : String} : b.CalledBy s ↔ s.toLower ∈ b.names := by
  have hlower : ∀ n ∈ b.names, n.toLower = n := by
    cases b <;> decide +kernel
  constructor
  · rintro ⟨n, hn, hs⟩
    rw [hs, hlower n hn]
    exact hn
  · exact fun hs => ⟨s.toLower, hs, (hlower _ hs).symm⟩

/-- **The engine of a text is the one that the text names.** -/
theorem parse?_eq_some_iff {s : String} {b : Backend} : parse? s = some b ↔ b.CalledBy s := by
  rw [calledBy_iff]
  unfold parse? String.toLower
  generalize s.map Char.toLower = t
  cases b <;> grind [names]

theorem parse?_eq_none {s : String} (h : ∀ b : Backend, ¬ b.CalledBy s) : parse? s = none := by
  cases hs : parse? s with
  | none => rfl
  | some b => exact absurd (parse?_eq_some_iff.mp hs) (h b)

end Backend

/-! ## Options on top of a config -/

namespace StoreOptions

variable {o : StoreOptions} {read : String → Except StorageFailure String}
  {base resolved : StoreConfig}

/-- What options start from: the defaults, or the config of the file that they name. -/
def StartsFrom (o : StoreOptions) (read : String → Except StorageFailure String)
    (base : StoreConfig) : Prop :=
  o.config.elim (base = {}) (fun path => StoreConfig.ofFile path (read path) = .ok base)

/-- `resolved` is `base` with what options name, and with nothing else changed. -/
structure Overrides (o : StoreOptions) (base resolved : StoreConfig) : Prop where
  /-- The engine is the one that is named, and stays if none is. -/
  backend : o.backend.elim (resolved.backend = base.backend) resolved.backend.CalledBy
  /-- The directory is the one that is named, and stays if none is. -/
  path : resolved.path = o.dataDir.getD base.path
  /-- Every other field stays. -/
  rest : ∀ f : StoreConfig.Field, f ≠ .backend → f ≠ .path → f.SameIn resolved base

/-- The options put on top of a config, where the engine is known. -/
def onTop (o : StoreOptions) (base : StoreConfig) (backend : Backend) : StoreConfig :=
  { base with path := o.dataDir.getD base.path, backend := backend }

theorem overrides_iff :
    o.Overrides base resolved
      ↔ resolved = o.onTop base resolved.backend
        ∧ o.backend.elim (resolved.backend = base.backend) resolved.backend.CalledBy := by
  constructor
  · refine fun h => ⟨StoreConfig.eq_of_sameIn (fun f => ?_), h.backend⟩
    cases f with
    | backend => rfl
    | path => exact h.path
    | syncOnCommit => exact h.rest .syncOnCommit (by decide) (by decide)
    | writerWait => exact h.rest .writerWait (by decide) (by decide)
    | useSnapshots => exact h.rest .useSnapshots (by decide) (by decide)
  · rintro ⟨htop, hbackend⟩
    refine ⟨hbackend, congrArg StoreConfig.path htop, fun f hf hf' => ?_⟩
    rw [htop]
    cases f with
    | backend => exact absurd rfl hf
    | path => exact absurd rfl hf'
    | syncOnCommit => rfl
    | writerWait => rfl
    | useSnapshots => rfl

/-- On a config to start from, only the name of an engine decides. -/
theorem resolve_of_startsFrom (h : o.StartsFrom read base) :
    o.resolve read = match o.backend with
      | none => .ok (o.onTop base base.backend)
      | some name =>
        match Backend.parse? name with
        | some backend => .ok (o.onTop base backend)
        | none => .error (.unknownBackend name) := by
  unfold StartsFrom at h
  unfold resolve
  cases hconfig : o.config with
  | none =>
      rw [hconfig] at h
      rw [h]
      rfl
  | some path =>
      rw [hconfig] at h
      dsimp only
      rw [h]
      rfl

theorem resolve_ok_iff (h : o.StartsFrom read base) :
    o.resolve read = .ok resolved ↔ o.Overrides base resolved := by
  rw [resolve_of_startsFrom h, overrides_iff]
  cases o.backend with
  | none =>
      constructor
      · intro hok
        obtain rfl := Except.ok.inj hok
        exact ⟨rfl, rfl⟩
      · rintro ⟨htop, hbackend⟩
        rw [htop, hbackend]
  | some name =>
      dsimp only
      constructor
      · intro hok
        cases hname : Backend.parse? name with
        | none =>
            rw [hname] at hok
            exact absurd hok (by simp)
        | some backend =>
            rw [hname] at hok
            obtain rfl := Except.ok.inj hok
            exact ⟨rfl, Backend.parse?_eq_some_iff.mp hname⟩
      · rintro ⟨htop, hbackend⟩
        rw [Backend.parse?_eq_some_iff.mpr hbackend]
        exact congrArg Except.ok htop.symm

theorem exists_resolve (h : o.StartsFrom read base)
    (hknown : ∀ name ∈ o.backend, ∃ b : Backend, b.CalledBy name) :
    ∃ resolved, o.resolve read = .ok resolved := by
  rw [resolve_of_startsFrom h]
  cases hbackend : o.backend with
  | none => exact ⟨_, rfl⟩
  | some name =>
      obtain ⟨b, hb⟩ := hknown name hbackend
      dsimp only
      rw [Backend.parse?_eq_some_iff.mpr hb]
      exact ⟨_, rfl⟩

theorem resolve_unknown (h : o.StartsFrom read base) {name : String} (hname : o.backend = some name)
    (hno : ∀ b : Backend, ¬ b.CalledBy name) :
    o.resolve read = .error (.unknownBackend name) := by
  rw [resolve_of_startsFrom h, hname]
  dsimp only
  rw [Backend.parse?_eq_none hno]

/-- An engine that nobody knows is a failure, whatever the file says or if there is none. -/
theorem exists_error_of_unknown {name : String} (hname : o.backend = some name)
    (hno : ∀ b : Backend, ¬ b.CalledBy name) : ∃ why, o.resolve read = .error why := by
  cases hresolve : o.resolve read with
  | error why => exact ⟨why, rfl⟩
  | ok resolved =>
      unfold resolve at hresolve
      dsimp only at hresolve
      rw [hname] at hresolve
      dsimp only at hresolve
      rw [Backend.parse?_eq_none hno] at hresolve
      split at hresolve <;> exact absurd hresolve (by simp)

/-! ## The three layers -/

/--
**Each layer says its own fields and no others.** Take any config, and a file that holds some of
its fields, each once and in any order, printed or laid out by hand. Loading the file succeeds, and
gives the values of that config in the fields of the file and the defaults in all others; so a
whole config that was printed is loaded as it was. On top of such a file, or of none, options
change the engine and the directory if they name them, and nothing else; and a name that no engine
has fails, whatever the file says.
-/
theorem layers_keep_to_their_fields (c : StoreConfig) {fields : List StoreConfig.Field}
    (honce : fields.Nodup) :
    ∃ loaded : StoreConfig,
      (∀ f, (f ∈ fields → f.SameIn loaded c) ∧ (f ∉ fields → f.SameIn loaded {}))
      ∧ (∀ path, StoreConfig.ofFile path (.ok (c.renderFields fields)) = .ok loaded)
      ∧ (∀ path text, (c.printed fields).LaidOut text →
          StoreConfig.ofFile path (.ok text) = .ok loaded)
      ∧ (∀ path, StoreConfig.ofFile path (.ok c.render) = .ok c)
      ∧ (∀ (o : StoreOptions) (read : String → Except StorageFailure String),
          (∀ path ∈ o.config, ∃ text, read path = .ok text ∧ (c.printed fields).LaidOut text) →
          (∀ resolved, o.resolve read = .ok resolved
            ↔ o.Overrides (o.config.elim {} (fun _ => loaded)) resolved)
          ∧ ((∀ name ∈ o.backend, ∃ b : Backend, b.CalledBy name) →
              ∃ resolved, o.resolve read = .ok resolved)
          ∧ (∀ name, o.backend = some name → (∀ b : Backend, ¬ b.CalledBy name) →
              o.resolve read = .error (.unknownBackend name)))
      ∧ (∀ (o : StoreOptions) (read : String → Except StorageFailure String) (name : String),
          o.backend = some name → (∀ b : Backend, ¬ b.CalledBy name) →
          ∃ why, o.resolve read = .error why) := by
  have hfile : ∀ path text, (c.printed fields).LaidOut text →
      StoreConfig.ofFile path (.ok text) = .ok (({} : StoreConfig).withFields c fields) :=
    fun path _ htext => StoreConfig.ofFile_of_laidOut honce htext path
  have hwhole : ∀ path, StoreConfig.ofFile path (.ok c.render) = .ok c := by
    intro path
    have hread := StoreConfig.ofFile_of_laidOut (by decide) (c.laidOut_renderFields StoreConfig.Field.all) path
    rw [StoreConfig.withFields_all] at hread
    exact hread
  refine ⟨({} : StoreConfig).withFields c fields, fun f => ⟨?_, ?_⟩,
    fun path => hfile path _ (c.laidOut_renderFields fields), hfile, hwhole, ?_, ?_⟩
  · exact fun hf => StoreConfig.sameIn_withFields_of_mem hf c {}
  · exact fun hf => StoreConfig.sameIn_withFields_of_not_mem hf c {}
  · intro o read hread
    have hstart : o.StartsFrom read
        (o.config.elim {} (fun _ => ({} : StoreConfig).withFields c fields)) := by
      unfold StartsFrom
      cases hconfig : o.config with
      | none => rfl
      | some path =>
          obtain ⟨text, htext, hlaid⟩ := hread path hconfig
          show StoreConfig.ofFile path (read path) = _
          rw [htext]
          exact hfile path text hlaid
    exact ⟨fun resolved => resolve_ok_iff hstart, exists_resolve hstart,
      fun name hname hno => resolve_unknown hstart hname hno⟩
  · exact fun o read name hname hno => exists_error_of_unknown hname hno

/-- A file with the longest wait and a path that has to be escaped, in another order than they are
printed in, and an engine named by its short name in capitals. -/
theorem layers_keep_to_their_fields_escaped_path :
    let c : StoreConfig :=
      { path := "C:\\\"β\"\n", writerWait := .boundedMs 18446744073709551615 }
    let fields : List StoreConfig.Field := [.writerWait, .path]
    let read : String → Except StorageFailure String := fun _ => .ok (c.renderFields fields)
    let o : StoreOptions := { config := some "store.json", backend := some "ROCKS" }
    let p : StoreOptions := { config := some "store.json", backend := some "leveldb" }
    o.resolve read = .ok { c with backend := .rocksdb }
      ∧ p.resolve read = .error (.unknownBackend "leveldb") := by
  intro c fields read o p
  obtain ⟨loaded, hfields, _, _, _, hoptions, _⟩ :=
    layers_keep_to_their_fields c (by decide : fields.Nodup)
  have hread : ∀ path ∈ some "store.json",
      ∃ text, read path = .ok text ∧ (c.printed fields).LaidOut text :=
    fun _ _ => ⟨c.renderFields fields, rfl, c.laidOut_renderFields fields⟩
  have hpath : loaded.path = c.path := (hfields .path).1 (by decide)
  have hwait : loaded.writerWait = c.writerWait := (hfields .writerWait).1 (by decide)
  have hsync : loaded.syncOnCommit = true := (hfields .syncOnCommit).2 (by decide)
  have hsnapshots : loaded.useSnapshots = true := (hfields .useSnapshots).2 (by decide)
  have hnobody : ∀ b : Backend, ¬ b.CalledBy "leveldb" := by
    intro b
    rw [Backend.calledBy_iff]
    cases b <;> decide +kernel
  have hrocks : Backend.rocksdb.CalledBy "ROCKS" := Backend.calledBy_iff.mpr (by decide +kernel)
  have hover : o.Overrides loaded { c with backend := .rocksdb } := by
    refine ⟨hrocks, hpath.symm, fun f hf hf' => ?_⟩
    cases f with
    | backend => exact absurd rfl hf
    | path => exact absurd rfl hf'
    | syncOnCommit => exact hsync.symm
    | writerWait => exact hwait.symm
    | useSnapshots => exact hsnapshots.symm
  exact ⟨((hoptions o read hread).1 _).mpr hover, (hoptions p read hread).2.2 "leveldb" rfl hnobody⟩

end StoreOptions

end TableStore
