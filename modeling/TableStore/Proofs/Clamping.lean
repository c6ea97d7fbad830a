import TableStore.Engine.Memory
import TableStore.Proofs.Growth

/-!
# The two sides of a physical range

An engine does not ask whether a range contains a key. It seeks to the lower side and walks until
it is past the upper one, so what it shows of a physical range is decided by the two sides, each
looked at alone. `KeyRange.clamping_exact` says that the two sides together let exactly the right
keys through: of a table's range those of the table's own slot that the range contains, and of a
slot all that begin with it. Every key is spoken of, the empty one and those of other slots too.

An open upper side ends at the successor of the slot, and only the largest byte has none. No
store hands that byte out (`Repository.HandsOut`): a slot was checked when it was read back, or
was counted up from a mark below the last.
-/

namespace TableStore

section HandsOut

variable {ε : Type} [StorageEngine ε]

/-- A slot that a repository hands out for some name: it is the slot of a table, it is reserved
for a table that is about to be made, or it is the answer to asking for the table. -/
def Repository.HandsOut (r : Repository ε) (slot : UInt8) : Prop :=
  ∃ name, r.slot? name = some slot ∨ r.registry.reserve name = .ok (.new slot)
    ∨ (r.openTable name).1 = .ok slot

theorem Repository.reserve_of_openTable {r : Repository ε} {name : String} {slot : UInt8}
    (h : (r.openTable name).1 = .ok slot) :
    r.registry.get? name = some slot ∨ r.registry.reserve name = .ok (.new slot) := by
  unfold openTable at h
  cases hres : r.registry.reserve name with
  | error e =>
      rw [hres] at h
      exact absurd h (by simp)
  | ok reservation =>
      rw [hres] at h
      cases reservation with
      | existing s => exact Or.inl (Except.ok.inj h ▸ Registry.get?_of_reserve hres)
      | new s =>
          dsimp only at h
          split at h
          · exact absurd h (by simp)
          · exact Or.inr (Except.ok.inj h ▸ rfl)

/-- A slot that is handed out is a table's. -/
theorem Repository.HandsOut.inRange {r : Repository ε} {slot : UInt8} (h : r.HandsOut slot)
    (hr : r.registry.InRange) : firstSlot ≤ slot ∧ slot ≤ lastSlot := by
  obtain ⟨name, hfound | hreserved | hopened⟩ := h
  · exact hr.slot hfound
  · exact Registry.inRange_of_reserve hreserved
  · rcases reserve_of_openTable hopened with hfound | hreserved
    · exact hr.slot hfound
    · exact Registry.inRange_of_reserve hreserved

end HandsOut

namespace KeyRange

/-- A physical range lets a key through when neither side stops it. -/
theorem sides_iff {r : KeyRange} {x : Bytes} :
    r.aboveStart x = true ∧ r.belowEnd x = true ↔ r.contains x = true := by
  rw [contains, Bool.and_eq_true]

/-- A key that is let through shows that the bounds are not empty. -/
theorem isEmpty_of_contains {r : KeyRange} {x : Bytes} (h : r.contains x = true) :
    r.isEmpty = false := by
  cases he : r.isEmpty with
  | false => rfl
  | true =>
      rw [not_contains_of_isEmpty he x] at h
      exact absurd h (by simp)

theorem contains_toPhysical_iff (r : KeyRange) {slot : UInt8} (hslot : slot ≠ 255) (x : Bytes) :
    (r.toPhysical slot).contains x = true
      ↔ ∃ k, x = physicalKey slot k ∧ r.contains k = true := by
  constructor
  · intro h
    cases x with
    | nil =>
        rw [not_contains_toPhysical_nil] at h
        exact absurd h (by simp)
    | cons b k =>
        rw [contains_toPhysical_cons r hslot, Bool.and_eq_true, beq_iff_eq] at h
        exact ⟨k, by rw [h.1]; rfl, h.2⟩
  · rintro ⟨k, hx, hk⟩
    rw [hx, physicalKey, contains_toPhysical_cons r hslot, hk, beq_self_eq_true, Bool.and_self]

theorem contains_ofSlot_iff (slot : UInt8) (x : Bytes) :
    (ofSlot slot).contains x = true ↔ ∃ k, x = physicalKey slot k := by
  constructor
  · intro h
    cases x with
    | nil =>
        rw [not_contains_ofSlot_nil] at h
        exact absurd h (by simp)
    | cons b k =>
        rw [contains_ofSlot_cons, beq_iff_eq] at h
        exact ⟨k, by rw [h]; rfl⟩
  · rintro ⟨k, hx⟩
    rw [hx, physicalKey, contains_ofSlot_cons, beq_self_eq_true]

/--
**Clamping is exact.** For every slot but the largest byte, the two sides of a physical range let
a key through if and only if it is the slot followed by a key of the range, whatever the range is
and whatever the key. The sides of the range of a slot, the largest included, let exactly the keys
through that begin with it.

At every moment of a store, on any engine, no slot that it hands out is the largest byte, so
nothing wraps around where a successor is taken: neither the slot's, for the upper side of its
ranges, nor the mark's, for the slot itself. And bounds that let a key through are not taken for
empty.
-/
theorem clamping_exact {ε : Type} [StorageEngine ε] {h : History ε} (hr : Reachable h) :
    (∀ (r : KeyRange) (slot : UInt8) (x : Bytes), slot ≠ 255 →
      ((r.toPhysical slot).aboveStart x = true ∧ (r.toPhysical slot).belowEnd x = true
        ↔ ∃ k, x = physicalKey slot k ∧ r.contains k = true))
    ∧ (∀ (slot : UInt8) (x : Bytes),
      (ofSlot slot).aboveStart x = true ∧ (ofSlot slot).belowEnd x = true
        ↔ ∃ k, x = physicalKey slot k)
    ∧ (∀ slot, slot = registrySlot ∨ h.repo.HandsOut slot →
      slot ≠ 255 ∧ (slot + 1).toNat = slot.toNat + 1)
    ∧ (∀ name slot, h.repo.registry.reserve name = .ok (.new slot) →
      slot.toNat = h.repo.registry.lastGiven.toNat + 1)
    ∧ (∀ (r : KeyRange) (slot : UInt8) (x : Bytes),
      (r.toPhysical slot).aboveStart x = true → (r.toPhysical slot).belowEnd x = true →
        (r.toPhysical slot).isEmpty = false)
    ∧ (∀ slot, (ofSlot slot).isEmpty = false) := by
  refine ⟨fun r slot x hslot => sides_iff.trans (contains_toPhysical_iff r hslot x),
    fun slot x => sides_iff.trans (contains_ofSlot_iff slot x), fun slot hslot => ?_,
    fun name slot hslot => Registry.toNat_of_reserve hslot,
    fun r slot x hstart hend => isEmpty_of_contains (sides_iff.mp ⟨hstart, hend⟩),
    fun slot => isEmpty_of_contains ((contains_ofSlot_iff slot _).mpr ⟨[], rfl⟩)⟩
  have hne : slot ≠ 255 := by
    rcases hslot with hslot | hslot
    · rw [hslot]
      decide
    · exact Registry.ne_largest_of_le (hslot.inRange hr.inRange).2
  exact ⟨hne, toNat_succ hne⟩

/-- The last slot of all, handed out to a table that is made, and a range that is open above. -/
theorem clamping_exact_last_slot :
    let engine : MemoryEngine := { rows := .ofList [([0, 253], Utf8.encode "old")] }
    let r : Repository MemoryEngine :=
      { engine, registry := ⟨.ofList [("old", 253)], 253⟩, config := {}
        metrics := { tables := 1 }
        events := [.repositoryOpened "memory" "data" 1] }
    let h := (History.start r).run [
      .step "a" (.begin .readWrite), .step "a" (.act (.put "new" [] [7])),
      .step "a" (.act .commit)]
    let range := (KeyRange.startingAt [255] false).toPhysical 254
    h.repo.HandsOut 254 ∧ ((254 : UInt8) + 1).toNat = 255
    ∧ (range.aboveStart [254, 255, 0] = true ∧ range.belowEnd [254, 255, 0] = true)
    ∧ ¬ (range.aboveStart [255] = true ∧ range.belowEnd [255] = true)
    ∧ range.isEmpty = false := by
  intro engine r h range
  have hopened : Repository.onEngine engine {} = .ok r := by rfl
  have hreach : Reachable h := (Reachable.opened hopened).run _
  have hslot : h.repo.slot? "new" = some 254 := by decide +kernel
  have hout : h.repo.HandsOut 254 := ⟨"new", Or.inl hslot⟩
  obtain ⟨hphysical, _, hsucc, _, hempty, _⟩ := clamping_exact hreach
  have hin := (hphysical (.startingAt [255] false) 254 [254, 255, 0] (by decide)).mpr
    ⟨[255, 0], rfl, by decide⟩
  refine ⟨hout, (hsucc 254 (Or.inr hout)).2, hin, fun hnext => ?_, hempty _ _ _ hin.1 hin.2⟩
  obtain ⟨k, hk, _⟩ := (hphysical _ 254 [255] (by decide)).mp hnext
  exact absurd (List.cons.inj hk).1 (by decide)

end KeyRange

end TableStore
