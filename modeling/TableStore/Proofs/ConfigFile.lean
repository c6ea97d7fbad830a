import TableStore.Config.Reader
import TableStore.Proofs.JsonLayout

/-!
# A config file says the fields that it holds

A config is five fields, and two configs are the same if they are so field by field
(`eq_of_sameIn`). A file holds some of the fields, in any order: it is the object of these fields
alone (`printed`), laid out as its writer liked. Reading it starts from the defaults and takes one
field after the other from the file (`withFields`), so what is read has the file's value in every
field that the file holds, and the default in the others (`parse_of_laidOut`).

No field is held back by another, because each reader stops exactly behind its value, and a field
is refused only if it was read before (`readMembers_spaced`).
-/

namespace TableStore.StoreConfig

/-! ## Field by field -/

namespace Field

variable {c d e : StoreConfig}

theorem ofName?_name (f : Field) : ofName? f.name = some f := by
  cases f <;> decide

theorem mem_all (f : Field) : f ∈ all := by
  cases f <;> decide

/-- Two configs have the same value in a field. -/
def SameIn : (f : Field) → (c d : StoreConfig) → Prop
  | backend, c, d => c.backend = d.backend
  | path, c, d => c.path = d.path
  | syncOnCommit, c, d => c.syncOnCommit = d.syncOnCommit
  | writerWait, c, d => c.writerWait = d.writerWait
  | useSnapshots, c, d => c.useSnapshots = d.useSnapshots

theorem SameIn.refl (f : Field) (c : StoreConfig) : f.SameIn c c := by
  cases f <;> rfl

theorem SameIn.trans {f : Field} (h : f.SameIn c d) (h' : f.SameIn d e) : f.SameIn c e := by
  cases f <;> exact Eq.trans h h'

theorem sameIn_withField_self (f : Field) (c d : StoreConfig) : f.SameIn (d.withField f c) c := by
  cases f <;> rfl

theorem sameIn_withField_of_ne {f g : Field} (h : g ≠ f) (c d : StoreConfig) :
    g.SameIn (d.withField f c) d := by
  cases f <;> cases g <;> first | rfl | exact absurd rfl h

end Field

/-- Configs with the same value in every field are the same. -/
theorem eq_of_sameIn {c d : StoreConfig} (h : ∀ f : Field, f.SameIn c d) : c = d := by
  obtain ⟨backend, path, syncOnCommit, writerWait, useSnapshots⟩ := c
  obtain rfl : backend = _ := h .backend
  obtain rfl : path = _ := h .path
  obtain rfl : syncOnCommit = _ := h .syncOnCommit
  obtain rfl : writerWait = _ := h .writerWait
  obtain rfl : useSnapshots = _ := h .useSnapshots
  rfl

/-- Take some fields from another config, one after the other. -/
def withFields (d c : StoreConfig) (fields : List Field) : StoreConfig :=
  fields.foldl (fun d f => d.withField f c) d

variable {c d : StoreConfig} {fields : List Field}

theorem sameIn_withFields_of_not_mem {g : Field} (h : g ∉ fields) (c d : StoreConfig) :
    g.SameIn (d.withFields c fields) d := by
  induction fields generalizing d with
  | nil => exact .refl g d
  | cons f fields ih =>
      have hne : g ≠ f := List.ne_of_not_mem_cons h
      exact (ih (List.not_mem_of_not_mem_cons h) (d.withField f c)).trans
        (Field.sameIn_withField_of_ne hne c d)

theorem sameIn_withFields_of_mem {g : Field} (h : g ∈ fields) (c d : StoreConfig) :
    g.SameIn (d.withFields c fields) c := by
  induction fields generalizing d with
  | nil => exact absurd h List.not_mem_nil
  | cons f fields ih =>
      by_cases hrest : g ∈ fields
      · exact ih hrest (d.withField f c)
      · -- no later field is this one, so what the first put there stays
        obtain rfl : g = f := (List.mem_cons.mp h).resolve_right hrest
        exact (sameIn_withFields_of_not_mem hrest c (d.withField g c)).trans
          (Field.sameIn_withField_self g c d)

theorem withFields_all (c d : StoreConfig) : d.withFields c Field.all = c :=
  eq_of_sameIn (fun f => sameIn_withFields_of_mem f.mem_all c d)

/-! ## Reading the value of a field -/

open Json

/-- Some fields of a config as an object, in the order given. -/
def printed (c : StoreConfig) (fields : List Field) : Printed :=
  .object (fields.map (fun f => (f.name, c.printField f)))

/-- Fields are printed as a file that holds them. -/
theorem laidOut_renderFields (c : StoreConfig) (fields : List Field) :
    (c.printed fields).LaidOut (c.renderFields fields) := Printed.laidOut_render _

theorem takes_backend (b : Backend) : Takes readBackend (Printed.text b.name).tokens b :=
  takes_bare (by cases b <;> rfl)

theorem takes_wait (w : WriterWait) : Takes readWait (printWait w).tokens w := by
  cases w with
  | indefinite => exact takes_bare rfl
  | boundedMs ms =>
      have hword : ms.toNat ≤ maxWord := Nat.le_of_lt_succ ms.toNat_lt
      have hread := (takes_number hword).map (fun n => WriterWait.boundedMs (UInt64.ofNat n))
      rw [UInt64.ofNat_toNat] at hread
      exact takes_holding rfl hread

/-- **The value of a field is read back,** and takes its place in the config. -/
theorem takes_field (c d : StoreConfig) (f : Field) :
    Takes (readField d f) (c.printField f).tokens (d.withField f c) := by
  cases f with
  | backend => exact (takes_backend c.backend).map (fun v => { d with backend := v })
  | path => exact (takes_text "path string" c.path).map (fun v => { d with path := v })
  | syncOnCommit => exact (takes_bool c.syncOnCommit).map (fun v => { d with syncOnCommit := v })
  | writerWait => exact (takes_wait c.writerWait).map (fun v => { d with writerWait := v })
  | useSnapshots => exact (takes_bool c.useSnapshots).map (fun v => { d with useSnapshots := v })

/-! ## Reading the members of an object -/

theorem readMember_spaced {f : Field} {seen : List Field} (hf : f ∉ seen) {after : List Token}
    (hends : EndsValue after) {input : List Char}
    (h : Spaced ([':'] :: ((c.printField f).tokens ++ after)) input) :
    ∃ rest, readMember d seen f.name input = .ok ((d.withField f c, f :: seen), rest)
      ∧ Spaced after rest := by
  obtain ⟨behindColon, hcolon, hbehindColon⟩ := readColon_spaced h
  obtain ⟨rest, hvalue, hrest⟩ :=
    takes_field c d f after behindColon hends hbehindColon
  refine ⟨rest, ?_, hrest⟩
  unfold readMember
  rw [f.ofName?_name]
  dsimp only
  rw [if_neg (by simpa using hf), hcolon]
  dsimp only
  rw [hvalue]
  rfl

/-- **Members are read to the end of the object,** if no field is there twice. -/
theorem readMembers_spaced (honce : fields.Nodup) {seen : List Field}
    (hseen : ∀ f ∈ fields, f ∉ seen) {fuel : Nat} (hfuel : fields.length < fuel) {first : Bool}
    {after : List Token} {input : List Char}
    (h : Spaced (Printed.tokens.memberTokens first
      (fields.map (fun f => (f.name, c.printField f))) ++ ['\x7d'] :: after) input) :
    ∃ rest, readMembers fuel first d seen input = .ok (d.withFields c fields, rest)
      ∧ Spaced after rest := by
  -- along the fields still to come; those behind are in `d` and in `seen`
  induction fields generalizing fuel first d seen input with
  | nil =>
      obtain ⟨fuel, rfl⟩ := Nat.exists_eq_succ_of_ne_zero (Nat.ne_zero_of_lt hfuel)
      obtain ⟨rest, hend, hrest⟩ := readName?_end first h
      refine ⟨rest, ?_, hrest⟩
      rw [readMembers, hend]
      rfl
  | cons f fields ih =>
      obtain ⟨fuel, rfl⟩ := Nat.exists_eq_succ_of_ne_zero (Nat.ne_zero_of_lt hfuel)
      obtain ⟨hnew, honce⟩ := List.nodup_cons.mp honce
      rw [List.map_cons, Printed.tokens.memberTokens, List.append_assoc, List.cons_append,
        List.cons_append, List.append_assoc] at h
      obtain ⟨behindName, hname, hbehindName⟩ := readName?_spaced first h
      -- the value ends at the comma of the next member or at the end of the object
      have hends : EndsValue (Printed.tokens.memberTokens false
          (fields.map (fun f => (f.name, c.printField f))) ++ ['\x7d'] :: after) := by
        cases fields with
        | nil => exact Or.inr rfl
        | cons g fields => exact Or.inl rfl
      obtain ⟨behindMember, hmember, hbehindMember⟩ :=
        readMember_spaced (d := d) (hseen f List.mem_cons_self) hends hbehindName
      have hseen' : ∀ g ∈ fields, g ∉ f :: seen := by
        intro g hg hmem
        rcases List.mem_cons.mp hmem with heq | hold
        · exact hnew (heq ▸ hg)
        · exact hseen g (List.mem_cons_of_mem f hg) hold
      obtain ⟨rest, hmembers, hrest⟩ :=
        ih honce hseen' (Nat.lt_of_succ_lt_succ hfuel) hbehindMember
      refine ⟨rest, ?_, hrest⟩
      rw [readMembers, hname]
      dsimp only
      rw [hmember]
      exact hmembers

theorem length_le_memberTokens (first : Bool) (members : List (String × Printed)) :
    members.length ≤ (Printed.tokens.memberTokens first members).flatten.length := by
  induction members generalizing first with
  | nil => exact Nat.zero_le _
  | cons m members ih =>
      have hrest := ih false
      rw [Printed.tokens.memberTokens]
      simp only [List.flatten_append, List.flatten_cons, List.length_append, List.length_cons]
      omega

/-- **A file with some fields says these fields:** what is read has the file's values in them and
the defaults in the others. -/
theorem parse_of_laidOut (honce : fields.Nodup) {text : String}
    (h : (c.printed fields).LaidOut text) :
    parse text = .ok (({} : StoreConfig).withFields c fields) := by
  obtain ⟨inside, hopen, hinside⟩ := Spaced.dropBlanks rfl h
  rw [List.nil_append] at hopen
  have hfuel : fields.length < inside.length + 1 := by
    -- every member takes a character at least
    have hmembers := length_le_memberTokens true (fields.map (fun f => (f.name, c.printField f)))
    have hinput := hinside.length_le
    rw [List.flatten_append, List.length_append] at hinput
    rw [List.length_map] at hmembers
    omega
  obtain ⟨rest, hread, hrest⟩ :=
    readMembers_spaced (d := {}) honce (fun _ _ => List.not_mem_nil) hfuel hinside
  unfold parse readConfig
  rw [hopen]
  dsimp only
  rw [if_pos rfl, hread]
  dsimp only
  rw [hrest.dropBlanks_done]
  rfl

/-- Two fields, on lines of their own. -/
example :
    (parse "\x7b\n  \"use_snapshots\" : false,\n  \"path\" : \"a\\tb\"\n\x7d\n").toOption
      = some { path := "a\tb", useSnapshots := false } := by decide +kernel

/-- The same of the file at a path. -/
theorem ofFile_of_laidOut (honce : fields.Nodup) {text : String}
    (h : (c.printed fields).LaidOut text) (path : String) :
    ofFile path (.ok text) = .ok (({} : StoreConfig).withFields c fields) := by
  unfold ofFile
  dsimp only
  rw [parse_of_laidOut honce h]

end TableStore.StoreConfig
