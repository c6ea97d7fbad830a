import TableStore.SortedMap

/-!
# Reading a sorted map

A map is read with `SortedMap.get?`. This file says what each operation does to every
look-up, and how it changes the number of bindings. Behind all of it stands one fact:
a look-up finds exactly the bindings of the list (`get?_eq_some_iff`), because a key
has one binding.

Equal contents are equal lists, so a map is no more than its look-ups: two maps that
answer every key alike are the same map (`ext_get?`). That is how the rest of the
development proves that two ways of computing a table arrive at one result.
-/

namespace TableStore

/-- Two lists that are strictly ordered the same way and have the same members are equal. -/
theorem eq_of_pairwise_of_mem_iff {α : Type} {before : α → α → Prop}
    (asymm : ∀ a b, before a b → ¬ before b a) {l l' : List α}
    (hl : l.Pairwise before) (hl' : l'.Pairwise before) (h : ∀ x, x ∈ l ↔ x ∈ l') : l = l' := by
  have nodup : ∀ {k : List α}, k.Pairwise before → k.Nodup := by
    intro k hk
    refine hk.imp (fun {a b} hab he => ?_)
    rw [he] at hab
    exact asymm b b hab hab
  exact List.Perm.eq_of_pairwise (fun a b _ _ hab hba => absurd hba (asymm a b hab)) hl hl'
    ((List.perm_ext_iff_of_nodup (nodup hl) (nodup hl')).mpr h)

section Lawful

variable {κ : Type} [Ord κ] [Std.LawfulEqOrd κ] {α : Type}

theorem compare_ne_eq {a b : κ} (h : a ≠ b) : compare a b ≠ .eq :=
  fun he => h (Std.LawfulEqOrd.eq_of_compare he)

/-! ## Bindings of an ascending list -/

/-- The later keys of an ascending list are not the first. -/
theorem Ascending.ne_head {b : κ × α} {rest : List (κ × α)} (h : Ascending (b :: rest))
    {x : κ × α} (hx : x ∈ rest) : x.1 ≠ b.1 := by
  intro he
  have hlt := (List.pairwise_cons.mp h).1 x hx
  rw [he, Std.ReflOrd.compare_self] at hlt
  exact Ordering.noConfusion hlt

/-- A key has one binding. -/
theorem Ascending.unique {l : List (κ × α)} (h : Ascending l) {k : κ} {v w : α}
    (hv : (k, v) ∈ l) (hw : (k, w) ∈ l) : v = w := by
  induction l with
  | nil => exact absurd hv (by simp)
  | cons b rest ih =>
      have hrest := (List.pairwise_cons.mp h).2
      have hne : ∀ x : α, (k, x) ∈ rest → b.1 ≠ k := fun x hx he => h.ne_head hx he.symm
      rcases List.mem_cons.mp hv with hv | hv
      · rcases List.mem_cons.mp hw with hw | hw
        · rw [← hw] at hv; exact congrArg Prod.snd hv
        · exact absurd (congrArg Prod.fst hv).symm (hne w hw)
      · rcases List.mem_cons.mp hw with hw | hw
        · exact absurd (congrArg Prod.fst hw).symm (hne v hv)
        · exact ih hrest hv hw

variable [Std.TransOrd κ]

/-- An insertion binds the new key and leaves the others as they were. -/
theorem mem_insertBinding_iff {l : List (κ × α)} (h : Ascending l) {k : κ} {v : α} {b : κ × α} :
    b ∈ insertBinding k v l ↔ b = (k, v) ∨ (b.1 ≠ k ∧ b ∈ l) := by
  induction l with
  | nil => simp [insertBinding]
  | cons c rest ih =>
      obtain ⟨hc, hrest⟩ := List.pairwise_cons.mp h
      -- a key that is not past the head is none of those behind it
      have later : ∀ x ∈ rest, compare k c.1 ≠ .gt → x.1 ≠ k := by
        intro x hx hk he
        have hlt := hc x hx
        rw [he] at hlt
        exact hk (Std.OrientedCmp.gt_of_lt hlt)
      unfold insertBinding
      split
      · -- before the head: every old binding has a larger key
        rename_i hlt
        have hck : c.1 ≠ k := by
          intro he; rw [he, Std.ReflOrd.compare_self] at hlt; exact Ordering.noConfusion hlt
        constructor
        · intro hb
          rcases List.mem_cons.mp hb with hb | hb
          · exact Or.inl hb
          · refine Or.inr ⟨?_, hb⟩
            rcases List.mem_cons.mp hb with hb | hb
            · exact hb ▸ hck
            · exact later b hb (by rw [hlt]; simp)
        · rintro (hb | ⟨_, hb⟩)
          · exact hb ▸ List.mem_cons_self
          · exact List.mem_cons_of_mem _ hb
      · -- over the head
        rename_i heq
        have hck : k = c.1 := Std.LawfulEqOrd.eq_of_compare heq
        constructor
        · intro hb
          rcases List.mem_cons.mp hb with hb | hb
          · exact Or.inl hb
          · exact Or.inr ⟨later b hb (by rw [heq]; simp), List.mem_cons_of_mem _ hb⟩
        · rintro (hb | ⟨hk, hb⟩)
          · exact hb ▸ List.mem_cons_self
          · rcases List.mem_cons.mp hb with hb | hb
            · exact absurd (hb ▸ hck.symm) hk
            · exact List.mem_cons_of_mem _ hb
      · -- past the head
        rename_i hgt
        have hck : c.1 ≠ k := by
          intro he; rw [he, Std.ReflOrd.compare_self] at hgt; exact Ordering.noConfusion hgt
        rw [List.mem_cons, ih hrest, List.mem_cons]
        constructor
        · rintro (hb | hb | ⟨hk, hb⟩)
          · exact Or.inr ⟨hb ▸ hck, Or.inl hb⟩
          · exact Or.inl hb
          · exact Or.inr ⟨hk, Or.inr hb⟩
        · rintro (hb | ⟨hk, hb | hb⟩)
          · exact Or.inr (Or.inl hb)
          · exact Or.inl hb
          · exact Or.inr (Or.inr ⟨hk, hb⟩)

omit [Std.LawfulEqOrd κ] in
/-- A binding behind all others goes to the end. -/
theorem insertBinding_of_last {l : List (κ × α)} {k : κ} (h : ∀ b ∈ l, compare b.1 k = .lt)
    (v : α) : insertBinding k v l = l ++ [(k, v)] := by
  induction l with
  | nil => rfl
  | cons c rest ih =>
      have hgt : compare k c.1 = .gt := Std.OrientedCmp.gt_of_lt (h c List.mem_cons_self)
      rw [insertBinding, hgt]
      dsimp only
      rw [ih (fun b hb => h b (List.mem_cons_of_mem _ hb)), List.cons_append]

omit [Std.TransOrd κ] in
/-- A removal leaves the bindings of the other keys. -/
theorem mem_eraseBinding_iff {l : List (κ × α)} {k : κ} {b : κ × α} :
    b ∈ eraseBinding k l ↔ b.1 ≠ k ∧ b ∈ l := by
  unfold eraseBinding
  rw [List.mem_filter]
  constructor
  · rintro ⟨hb, hk⟩
    refine ⟨fun he => ?_, hb⟩
    rw [he, Std.ReflOrd.compare_self] at hk
    exact absurd hk (by decide)
  · rintro ⟨hk, hb⟩
    exact ⟨hb, bne_iff_ne.mpr (compare_ne_eq (Ne.symm hk))⟩

end Lawful

namespace SortedMap

variable {κ : Type} [Ord κ] {α : Type}

/-! ## Look-ups -/

@[simp] theorem get?_empty (k : κ) : (empty : SortedMap κ α).get? k = none := rfl

theorem contains_eq_isSome (m : SortedMap κ α) (k : κ) : m.contains k = (m.get? k).isSome := rfl

variable [Std.LawfulEqOrd κ]

/-- **A look-up finds exactly the bindings of the list.** -/
theorem get?_eq_some_iff {m : SortedMap κ α} {k : κ} {v : α} :
    m.get? k = some v ↔ (k, v) ∈ m.toList := by
  have found : ∀ {b : κ × α}, m.toList.find? (fun b => compare k b.1 == .eq) = some b →
      b ∈ m.toList ∧ b.1 = k := by
    intro b hb
    have heq := List.find?_some hb
    exact ⟨List.mem_of_find?_eq_some hb,
      (Std.LawfulEqOrd.eq_of_compare (beq_iff_eq.mp heq)).symm⟩
  unfold get?
  constructor
  · intro h
    obtain ⟨b, hb, hv⟩ := Option.map_eq_some_iff.mp h
    obtain ⟨hmem, hk⟩ := found hb
    rw [← hk, ← hv]
    exact hmem
  · intro h
    cases hf : m.toList.find? (fun b => compare k b.1 == .eq) with
    | none =>
        have := List.find?_eq_none.mp hf (k, v) h
        simp [Std.ReflOrd.compare_self] at this
    | some b =>
        obtain ⟨hmem, hk⟩ := found hf
        have hb : (k, b.2) ∈ m.toList := by rw [← hk]; exact hmem
        rw [Option.map_some, m.ascending.unique hb h]

theorem get?_eq_none_iff {m : SortedMap κ α} {k : κ} :
    m.get? k = none ↔ ∀ v, (k, v) ∉ m.toList := by
  constructor
  · intro h v hv
    rw [get?_eq_some_iff.mpr hv] at h
    exact absurd h (by simp)
  · intro h
    cases hg : m.get? k with
    | none => rfl
    | some v => exact absurd (get?_eq_some_iff.mp hg) (h v)

/-- Two look-ups agree when the same bindings of the key are there. -/
theorem get?_congr {m n : SortedMap κ α} {k : κ}
    (h : ∀ v, (k, v) ∈ m.toList ↔ (k, v) ∈ n.toList) : m.get? k = n.get? k := by
  cases hn : n.get? k with
  | none => exact get?_eq_none_iff.mpr (fun v hv => get?_eq_none_iff.mp hn v ((h v).mp hv))
  | some v => exact get?_eq_some_iff.mpr ((h v).mpr (get?_eq_some_iff.mp hn))

theorem contains_iff {m : SortedMap κ α} {k : κ} :
    m.contains k = true ↔ ∃ v, (k, v) ∈ m.toList := by
  unfold contains
  rw [Option.isSome_iff_exists]
  exact exists_congr (fun v => get?_eq_some_iff)

@[simp] theorem get?_erase_self (m : SortedMap κ α) (k : κ) : (m.erase k).get? k = none :=
  get?_eq_none_iff.mpr (fun _ hv => (mem_eraseBinding_iff.mp hv).1 rfl)

theorem get?_erase_of_ne (m : SortedMap κ α) {k k' : κ} (h : k' ≠ k) :
    (m.erase k).get? k' = m.get? k' := by
  refine get?_congr (fun w => ?_)
  rw [toList_erase, mem_eraseBinding_iff]
  exact ⟨fun hw => hw.2, fun hw => ⟨h, hw⟩⟩

/-- Removing and looking up, in one line. -/
theorem get?_erase [DecidableEq κ] (m : SortedMap κ α) (k k' : κ) :
    (m.erase k).get? k' = if k' = k then none else m.get? k' := by
  by_cases h : k' = k
  · rw [h, get?_erase_self, if_pos rfl]
  · rw [get?_erase_of_ne m h, if_neg h]

theorem nodup (m : SortedMap κ α) : m.toList.Nodup := by
  refine m.ascending.imp (fun {a b} hab he => ?_)
  rw [he, Std.ReflOrd.compare_self] at hab
  exact Ordering.noConfusion hab

variable [Std.TransOrd κ]

/-- **Maps that answer every key alike are equal.** -/
theorem ext_get? {m n : SortedMap κ α} (h : ∀ k, m.get? k = n.get? k) : m = n := by
  refine SortedMap.ext (eq_of_pairwise_of_mem_iff (fun a b hab hba => ?_) m.ascending n.ascending
    (fun b => ?_))
  · rw [Std.OrientedCmp.gt_of_lt hab] at hba
    exact Ordering.noConfusion hba
  · obtain ⟨k, v⟩ := b
    rw [← get?_eq_some_iff, ← get?_eq_some_iff, h k]

@[simp] theorem get?_insert_self (m : SortedMap κ α) (k : κ) (v : α) :
    (m.insert k v).get? k = some v :=
  get?_eq_some_iff.mpr ((mem_insertBinding_iff m.ascending).mpr (Or.inl rfl))

theorem get?_insert_of_ne (m : SortedMap κ α) {k k' : κ} (v : α) (h : k' ≠ k) :
    (m.insert k v).get? k' = m.get? k' := by
  refine get?_congr (fun w => ?_)
  rw [toList_insert, mem_insertBinding_iff m.ascending]
  constructor
  · rintro (he | ⟨_, hw⟩)
    · exact absurd (congrArg Prod.fst he) h
    · exact hw
  · exact fun hw => Or.inr ⟨h, hw⟩

/-- Inserting and looking up, in one line. -/
theorem get?_insert [DecidableEq κ] (m : SortedMap κ α) (k k' : κ) (v : α) :
    (m.insert k v).get? k' = if k' = k then some v else m.get? k' := by
  by_cases h : k' = k
  · rw [h, get?_insert_self, if_pos rfl]
  · rw [get?_insert_of_ne m v h, if_neg h]

/-! ## Number of bindings -/

/-- An insertion is a removal and a new binding, up to the place of the binding. -/
theorem perm_insert (m : SortedMap κ α) (k : κ) (v : α) :
    (m.insert k v).toList.Perm ((k, v) :: (m.erase k).toList) := by
  have hnew : (k, v) ∉ (m.erase k).toList := get?_eq_none_iff.mp (get?_erase_self m k) v
  refine (List.perm_ext_iff_of_nodup (m.insert k v).nodup
    (List.nodup_cons.mpr ⟨hnew, (m.erase k).nodup⟩)).mpr (fun b => ?_)
  rw [toList_insert, mem_insertBinding_iff m.ascending, List.mem_cons, toList_erase,
    mem_eraseBinding_iff]

theorem size_insert (m : SortedMap κ α) (k : κ) (v : α) :
    (m.insert k v).size = (m.erase k).size + 1 :=
  (perm_insert m k v).length_eq

theorem erase_of_not_contains {m : SortedMap κ α} {k : κ} (h : m.contains k = false) :
    m.erase k = m := by
  refine ext_get? (fun k' => ?_)
  by_cases hk : k' = k
  · rw [hk, get?_erase_self]
    unfold contains at h
    exact (Option.isSome_eq_false_iff.mp h |> Option.isNone_iff_eq_none.mp).symm
  · exact get?_erase_of_ne m hk

theorem size_erase_of_contains {m : SortedMap κ α} {k : κ} (h : m.contains k = true) :
    (m.erase k).size + 1 = m.size := by
  obtain ⟨v, hv⟩ := Option.isSome_iff_exists.mp h
  have hm : m.insert k v = m := by
    refine ext_get? (fun k' => ?_)
    by_cases hk : k' = k
    · rw [hk, get?_insert_self, hv]
    · exact get?_insert_of_ne m v hk
  rw [← size_insert m k v, hm]

omit [Std.LawfulEqOrd κ] in
/-- Bindings in key order are bound one behind the other. -/
theorem toList_foldl_insert {m : SortedMap κ α} {pairs : List (κ × α)}
    (h : Ascending (m.toList ++ pairs)) :
    (pairs.foldl (fun m p => m.insert p.1 p.2) m).toList = m.toList ++ pairs := by
  induction pairs generalizing m with
  | nil => exact (List.append_nil _).symm
  | cons p rest ih =>
      have hlast : ∀ b ∈ m.toList, compare b.1 p.1 = .lt :=
        fun b hb => (List.pairwise_append.mp h).2.2 b hb p List.mem_cons_self
      have hinsert : (m.insert p.1 p.2).toList = m.toList ++ [p] := insertBinding_of_last hlast p.2
      rw [List.foldl_cons, ih (by rw [hinsert, List.append_assoc]; exact h), hinsert,
        List.append_assoc]
      rfl

omit [Std.LawfulEqOrd κ] in
theorem ofList_toList (m : SortedMap κ α) : ofList m.toList = m :=
  ext (toList_foldl_insert (m := empty) m.ascending)

end SortedMap

end TableStore
