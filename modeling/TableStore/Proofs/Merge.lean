import TableStore.Proofs.Overlay
import TableStore.Proofs.TableRows

/-!
# What a merged read returns

A range read steps through two ordered sources at once. `mergeRows` is the list that it
steps through: the same comparison of heads, over rows of the table and without a cursor.
The theory has two halves.

The first is about lists. A merge of two ordered sources is ordered, and its rows are the
new values among the changes and the rows whose key no change is about
(`mem_mergeRows_iff`). Both together leave one list only, so merging what a range leaves
of a table and of its changes is what the range leaves of the changed table
(`mergeRows_within`). An order that the merge does not share with its sources would break
it: with a row passed over too late, a removed row would come back.

The second is about the cursor. On a walk without errors over one table each step takes
the head of the merge and leaves a cursor for the rest (`advance_eq`), so the first `n`
steps return the first `n` rows of the merge, for every `n` (`takeRows_eq`).
-/

namespace TableStore

/-! ## The direction of a walk -/

/-- How a walk compares keys: what it visits first is the lesser. -/
def ScanOrder.compare (order : ScanOrder) (a b : Bytes) : Ordering :=
  match order with
  | .ascending => compareKeys a b
  | .descending => compareKeys b a

/-- Keys in the order in which a walk visits them. -/
def ScanOrder.Sorted {α : Type} (order : ScanOrder) (l : List (Bytes × α)) : Prop :=
  l.Pairwise (fun a b => order.compare a.1 b.1 = .lt)

namespace ScanOrder

variable {order : ScanOrder} {a b c : Bytes}

theorem eq_of_compare (h : order.compare a b = .eq) : a = b := by
  cases order with
  | ascending => exact eq_of_compareKeys h
  | descending => exact (eq_of_compareKeys h).symm

theorem compare_self (order : ScanOrder) (a : Bytes) : order.compare a a = .eq := by
  cases order with
  | ascending => exact compareKeys_self a
  | descending => exact compareKeys_self a

theorem compare_gt_iff : order.compare a b = .gt ↔ order.compare b a = .lt := by
  cases order with
  | ascending => exact compareKeys_gt_iff
  | descending => exact compareKeys_gt_iff

theorem compare_lt_trans (hab : order.compare a b = .lt) (hbc : order.compare b c = .lt) :
    order.compare a c = .lt := by
  cases order with
  | ascending => exact compareKeys_lt_trans hab hbc
  | descending => exact compareKeys_lt_trans hbc hab

theorem ne_of_compare_lt (h : order.compare a b = .lt) : a ≠ b := by
  intro he
  rw [he, compare_self] at h
  exact Ordering.noConfusion h

theorem compare_lt_asymm (h : order.compare a b = .lt) : ¬ order.compare b a = .lt := by
  intro h'
  exact ne_of_compare_lt (compare_lt_trans h h') rfl

/-- What a walk leaves of a map is in its order. -/
theorem sorted_arrange_filter {α : Type} (order : ScanOrder) (m : SortedMap Bytes α)
    (p : Bytes × α → Bool) : order.Sorted (order.arrange (m.toList.filter p)) := by
  have hf : Ascending (m.toList.filter p) := m.ascending.filter p
  unfold Sorted ScanOrder.compare
  cases order with
  | ascending =>
      refine hf.imp (fun {x y} hxy => ?_)
      show compareKeys x.1 y.1 = .lt
      rw [compareKeys_eq_compare]
      exact hxy
  | descending =>
      refine List.pairwise_reverse.mpr (hf.imp (fun {x y} hxy => ?_))
      show compareKeys x.1 y.1 = .lt
      rw [compareKeys_eq_compare]
      exact hxy

theorem mem_arrange {α : Type} {x : α} {l : List α} : x ∈ order.arrange l ↔ x ∈ l := by
  cases order with
  | ascending => exact Iff.rfl
  | descending => exact List.mem_reverse

end ScanOrder

theorem Rows.mem_within_iff {rows : Rows} {range : KeyRange} {order : ScanOrder} {e : Entry} :
    e ∈ rows.within range order ↔ e ∈ rows.toList ∧ range.contains e.1 = true := by
  unfold Rows.within
  rw [ScanOrder.mem_arrange, List.mem_filter]

/-! ## The merge as a list -/

/-- The row of a change in front of others; a removal has none. -/
def Change.followedBy (c : Change) (rest : List Entry) : List Entry :=
  match c.2 with
  | some value => (c.1, value) :: rest
  | none => rest

/-- The rows of two sources in the order of a walk: on equal keys the change decides. -/
def mergeRows (order : ScanOrder) : List Entry → List Change → List Entry
  | [], [] => []
  | [], c :: changes => c.followedBy (mergeRows order [] changes)
  | e :: rows, [] => e :: mergeRows order rows []
  | e :: rows, c :: changes =>
    match order.compare e.1 c.1 with
    | .lt => e :: mergeRows order rows (c :: changes)
    | .gt => c.followedBy (mergeRows order (e :: rows) changes)
    | .eq => c.followedBy (mergeRows order rows changes)
  termination_by rows changes => rows.length + changes.length

theorem Change.mem_followedBy_iff {c : Change} {rest : List Entry} {x : Entry} :
    x ∈ c.followedBy rest ↔ (x.1, some x.2) = c ∨ x ∈ rest := by
  obtain ⟨k, entry⟩ := c
  cases entry with
  | none => simp [followedBy]
  | some v => simp [followedBy, Prod.ext_iff]

theorem Change.sorted_followedBy {order : ScanOrder} {c : Change} {rest : List Entry}
    (hc : ∀ x ∈ rest, order.compare c.1 x.1 = .lt) (h : order.Sorted rest) :
    order.Sorted (c.followedBy rest) := by
  obtain ⟨k, entry⟩ := c
  cases entry with
  | none => exact h
  | some v => exact List.pairwise_cons.mpr ⟨hc, h⟩

variable {order : ScanOrder} {rows : List Entry} {changes : List Change}

/-- Every row of a merge comes from one of its sources. -/
theorem of_mem_mergeRows {x : Entry} (h : x ∈ mergeRows order rows changes) :
    x ∈ rows ∨ (x.1, some x.2) ∈ changes := by
  fun_induction mergeRows order rows changes <;> grind [Change.mem_followedBy_iff]

/-- What is before both sources is before their merge. -/
theorem before_mergeRows {k : Bytes} (hr : ∀ e ∈ rows, order.compare k e.1 = .lt)
    (hc : ∀ c ∈ changes, order.compare k c.1 = .lt) :
    ∀ x ∈ mergeRows order rows changes, order.compare k x.1 = .lt := by
  intro x hx
  rcases of_mem_mergeRows hx with hx | hx
  · exact hr x hx
  · exact hc (x.1, some x.2) hx

/-- A key before the head of an ordered list is before all of it. -/
theorem ScanOrder.Sorted.before_of_head {α : Type} {k : Bytes} {x : Bytes × α}
    {l : List (Bytes × α)} (h : order.Sorted (x :: l)) (hk : order.compare k x.1 = .lt) :
    ∀ y ∈ x :: l, order.compare k y.1 = .lt := by
  intro y hy
  rcases List.mem_cons.mp hy with he | hy
  · exact he ▸ hk
  · exact ScanOrder.compare_lt_trans hk ((List.pairwise_cons.mp h).1 y hy)

/-- **A merge of two ordered sources is ordered.** -/
theorem mergeRows_sorted (hr : order.Sorted rows) (hc : order.Sorted changes) :
    order.Sorted (mergeRows order rows changes) := by
  fun_induction mergeRows order rows changes with
  | case1 => exact List.Pairwise.nil
  | case2 c changes ih =>
      obtain ⟨hhead, htail⟩ := List.pairwise_cons.mp hc
      exact Change.sorted_followedBy (before_mergeRows (by simp) hhead) (ih hr htail)
  | case3 e rows ih =>
      obtain ⟨hhead, htail⟩ := List.pairwise_cons.mp hr
      exact List.pairwise_cons.mpr ⟨before_mergeRows hhead (by simp), ih htail hc⟩
  | case4 e rows c changes hlt ih =>
      obtain ⟨hhead, htail⟩ := List.pairwise_cons.mp hr
      exact List.pairwise_cons.mpr
        ⟨before_mergeRows hhead (hc.before_of_head hlt), ih htail hc⟩
  | case5 e rows c changes hgt ih =>
      obtain ⟨hhead, htail⟩ := List.pairwise_cons.mp hc
      have hce := hr.before_of_head (ScanOrder.compare_gt_iff.mp hgt)
      exact Change.sorted_followedBy (before_mergeRows hce hhead) (ih hr htail)
  | case6 e rows c changes heq ih =>
      obtain ⟨hehead, hetail⟩ := List.pairwise_cons.mp hr
      obtain ⟨hhead, htail⟩ := List.pairwise_cons.mp hc
      rw [ScanOrder.eq_of_compare heq] at hehead
      exact Change.sorted_followedBy (before_mergeRows hehead hhead) (ih hetail htail)

/-- A key that is before every key of a list is none of them. -/
theorem not_mem_of_before {α : Type} {k : Bytes} {l : List (Bytes × α)}
    (h : ∀ y ∈ l, order.compare k y.1 = .lt) (x : α) : (k, x) ∉ l := by
  intro hmem
  exact ScanOrder.ne_of_compare_lt (h _ hmem) rfl

/-- A change that is about none of the rows takes none of them out. -/
theorem mem_behind_change_iff {c : Change} (hno : ∀ v, (c.1, v) ∉ rows) {x : Entry} :
    ((x.1, some x.2) = c ∨ (x.1, some x.2) ∈ changes ∨ (x ∈ rows ∧ ∀ entry, (x.1, entry) ∉ changes))
      ↔ (x.1, some x.2) ∈ c :: changes ∨ (x ∈ rows ∧ ∀ entry, (x.1, entry) ∉ c :: changes) := by
  constructor
  · rintro (he | hx | ⟨hx, hn⟩)
    · exact Or.inl (he ▸ List.mem_cons_self)
    · exact Or.inl (List.mem_cons_of_mem _ hx)
    · refine Or.inr ⟨hx, fun entry hm => ?_⟩
      rcases List.mem_cons.mp hm with he | hm
      · exact hno x.2 (he ▸ hx)
      · exact hn entry hm
  · rintro (hx | ⟨hx, hn⟩)
    · rcases List.mem_cons.mp hx with he | hx
      · exact Or.inl he
      · exact Or.inr (Or.inl hx)
    · exact Or.inr (Or.inr ⟨hx, fun entry hm => hn entry (List.mem_cons_of_mem _ hm)⟩)

/-- **Which rows a merge has:** the new values, and the rows that no change is about. -/
theorem mem_mergeRows_iff (hr : order.Sorted rows) (hc : order.Sorted changes) {x : Entry} :
    x ∈ mergeRows order rows changes
      ↔ (x.1, some x.2) ∈ changes ∨ (x ∈ rows ∧ ∀ entry, (x.1, entry) ∉ changes) := by
  fun_induction mergeRows order rows changes with
  | case1 => simp
  | case2 c changes ih =>
      rw [Change.mem_followedBy_iff, ih hr (List.pairwise_cons.mp hc).2]
      exact mem_behind_change_iff (by simp)
  | case3 e rows ih =>
      rw [List.mem_cons, ih (List.pairwise_cons.mp hr).2 hc]
      simp
  | case4 e rows c changes hlt ih =>
      -- the head of the rows is before every change, so none is about it
      have hno : ∀ entry, (e.1, entry) ∉ c :: changes := not_mem_of_before (hc.before_of_head hlt)
      rw [List.mem_cons, ih (List.pairwise_cons.mp hr).2 hc, List.mem_cons (b := e)]
      constructor
      · rintro (he | hx | ⟨hx, hn⟩)
        · exact Or.inr ⟨Or.inl he, he ▸ hno⟩
        · exact Or.inl hx
        · exact Or.inr ⟨Or.inr hx, hn⟩
      · rintro (hx | ⟨he | hx, hn⟩)
        · exact Or.inr (Or.inl hx)
        · exact Or.inl he
        · exact Or.inr (Or.inr ⟨hx, hn⟩)
  | case5 e rows c changes hgt ih =>
      -- the head of the changes is before every row, so it is about none
      have hce := hr.before_of_head (ScanOrder.compare_gt_iff.mp hgt)
      rw [Change.mem_followedBy_iff, ih hr (List.pairwise_cons.mp hc).2]
      exact mem_behind_change_iff (not_mem_of_before hce)
  | case6 e rows c changes heq ih =>
      -- the change is about the head of the rows, and about no other row
      have hec : e.1 = c.1 := ScanOrder.eq_of_compare heq
      have hafter : ∀ y ∈ rows, order.compare c.1 y.1 = .lt := hec ▸ (List.pairwise_cons.mp hr).1
      have hgone : x = e → ¬ ∀ entry, (x.1, entry) ∉ c :: changes := by
        intro he hn
        have hc2 := hn c.2
        rw [he, hec] at hc2
        exact hc2 List.mem_cons_self
      rw [Change.mem_followedBy_iff, ih (List.pairwise_cons.mp hr).2 (List.pairwise_cons.mp hc).2,
        mem_behind_change_iff (not_mem_of_before hafter), List.mem_cons (b := e)]
      constructor
      · rintro (hx | ⟨hx, hn⟩)
        · exact Or.inl hx
        · exact Or.inr ⟨Or.inr hx, hn⟩
      · rintro (hx | ⟨he | hx, hn⟩)
        · exact Or.inl hx
        · exact absurd hn (hgone he)
        · exact Or.inr ⟨hx, hn⟩

/-- **Merging what a range leaves of a table and of its changes** is what the range leaves
of the changed table. -/
theorem mergeRows_within (table : Rows) (pending : TableChanges) (range : KeyRange)
    (order : ScanOrder) :
    mergeRows order (table.within range order)
        (order.arrange (pending.toList.filter (fun c => range.contains c.1)))
      = (applyChanges pending.toList table).within range order := by
  have hr : order.Sorted (table.within range order) := order.sorted_arrange_filter _ _
  have hc := order.sorted_arrange_filter pending (fun c => range.contains c.1)
  -- both sides are ordered, so it is enough that they have the same rows
  refine eq_of_pairwise_of_mem_iff (fun a b => ScanOrder.compare_lt_asymm)
    (mergeRows_sorted hr hc) (order.sorted_arrange_filter _ _) (fun x => ?_)
  rw [mem_mergeRows_iff hr hc]
  show _ ↔ x ∈ (applyChanges pending.toList table).within range order
  rw [Rows.mem_within_iff, Rows.mem_within_iff,
    ← SortedMap.get?_eq_some_iff (m := applyChanges _ _), get?_applyChanges,
    ← SortedMap.get?_eq_some_iff (m := table)]
  simp only [ScanOrder.mem_arrange, List.mem_filter]
  cases hg : pending.get? x.1 with
  | some entry =>
      -- a change is about the key, and it alone decides
      have hmem := SortedMap.get?_eq_some_iff.mp hg
      constructor
      · rintro (⟨hx, hin⟩ | ⟨⟨_, hin⟩, hn⟩)
        · exact ⟨pending.ascending.unique hmem hx, hin⟩
        · exact absurd ⟨hmem, hin⟩ (hn entry)
      · rintro ⟨he, hin⟩
        exact Or.inl ⟨he ▸ hmem, hin⟩
  | none =>
      have hno := SortedMap.get?_eq_none_iff.mp hg
      constructor
      · rintro (⟨hx, _⟩ | ⟨hx, _⟩)
        · exact absurd hx (hno _)
        · exact hx
      · exact fun hx => Or.inr ⟨hx, fun entry hm => hno entry hm.1⟩

/-! ## The cursor steps through the merge -/

/-- A walk without errors over rows of one table. -/
def Walk.ofTable (slot : UInt8) (rows : List Entry) : Walk :=
  rows.map (fun e => .ok (physicalEntry slot e))

namespace MergeCursor

theorem choose_eq (c : MergeCursor) (a b : Bytes) :
    c.choose a b
      = match c.order.compare a b with
        | .lt => .engine
        | .gt => .change
        | .eq => .both := by
  unfold choose ScanOrder.compare
  cases c.order <;> rfl

/-- The step on a row of the table, whatever the walk has behind its rows. -/
theorem advance_row_append (c : MergeCursor) (e : Entry) (rows : List Entry) (tail : Walk)
    (changes : List Change) :
    c.advance (Walk.ofTable c.slot (e :: rows) ++ tail) changes
      = match changes with
        | [] => (some (.ok (c.row e.1 e.2)), Walk.ofTable c.slot rows ++ tail, [])
        | d :: rest =>
          match c.order.compare e.1 d.1 with
          | .lt => (some (.ok (c.row e.1 e.2)), Walk.ofTable c.slot rows ++ tail, d :: rest)
          | .gt =>
            match d.2 with
            | some w =>
              (some (.ok (c.row d.1 w)), Walk.ofTable c.slot (e :: rows) ++ tail, rest)
            | none => c.advance (Walk.ofTable c.slot (e :: rows) ++ tail) rest
          | .eq =>
            match d.2 with
            | some w => (some (.ok (c.row d.1 w)), Walk.ofTable c.slot rows ++ tail, rest)
            | none => c.advance (Walk.ofTable c.slot rows ++ tail) rest := by
  show c.advance (.ok (c.slot :: e.1, e.2) :: (Walk.ofTable c.slot rows ++ tail)) changes = _
  rw [advance.eq_def]
  simp only [ne_eq, not_true_eq_false, if_false, choose_eq]
  cases changes with
  | nil => rfl
  | cons d rest =>
      obtain ⟨k, entry⟩ := d
      dsimp only
      cases c.order.compare e.1 k <;> cases entry <;> rfl

theorem advance_row (c : MergeCursor) (e : Entry) (rows : List Entry) (changes : List Change) :
    c.advance (Walk.ofTable c.slot (e :: rows)) changes
      = match changes with
        | [] => (some (.ok (c.row e.1 e.2)), Walk.ofTable c.slot rows, [])
        | d :: rest =>
          match c.order.compare e.1 d.1 with
          | .lt => (some (.ok (c.row e.1 e.2)), Walk.ofTable c.slot rows, d :: rest)
          | .gt =>
            match d.2 with
            | some w => (some (.ok (c.row d.1 w)), Walk.ofTable c.slot (e :: rows), rest)
            | none => c.advance (Walk.ofTable c.slot (e :: rows)) rest
          | .eq =>
            match d.2 with
            | some w => (some (.ok (c.row d.1 w)), Walk.ofTable c.slot rows, rest)
            | none => c.advance (Walk.ofTable c.slot rows) rest := by
  have h := c.advance_row_append e rows [] changes
  simp only [List.append_nil] at h
  exact h

/-- **A step takes the head of the merge** and leaves sources for the rest of it. -/
theorem advance_eq (c : MergeCursor) (rows : List Entry) (changes : List Change) :
    ∃ rows' changes',
      c.advance (Walk.ofTable c.slot rows) changes
          = ((mergeRows c.order rows changes).head?.map (fun x => .ok (c.row x.1 x.2)),
            Walk.ofTable c.slot rows', changes')
        ∧ mergeRows c.order rows' changes' = (mergeRows c.order rows changes).tail := by
  fun_induction mergeRows c.order rows changes with
  | case1 => exact ⟨[], [], by simp [advance, Walk.ofTable], by simp [mergeRows]⟩
  | case2 d changes ih =>
      obtain ⟨k, entry⟩ := d
      cases entry with
      | some v => exact ⟨[], changes, by simp [advance, Walk.ofTable, Change.followedBy], rfl⟩
      | none =>
          -- a removal shows no row: the same step goes on behind it
          obtain ⟨rows', changes', ha, hm⟩ := ih
          refine ⟨rows', changes', ?_, hm⟩
          show c.advance [] ((k, none) :: changes) = _
          rw [advance]
          exact ha
  | case3 e rows ih => exact ⟨rows, [], advance_row c e rows [], rfl⟩
  | case4 e rows d changes hlt ih =>
      refine ⟨rows, d :: changes, ?_, rfl⟩
      rw [advance_row]
      simp [hlt]
  | case5 e rows d changes hgt ih =>
      obtain ⟨k, entry⟩ := d
      cases entry with
      | some v =>
          refine ⟨e :: rows, changes, ?_, rfl⟩
          rw [advance_row]
          simp [hgt, Change.followedBy]
      | none =>
          obtain ⟨rows', changes', ha, hm⟩ := ih
          refine ⟨rows', changes', ?_, hm⟩
          rw [advance_row]
          simp only [hgt]
          exact ha
  | case6 e rows d changes heq ih =>
      -- the change takes the place of the row, which is passed with it
      obtain ⟨k, entry⟩ := d
      cases entry with
      | some v =>
          refine ⟨rows, changes, ?_, rfl⟩
          rw [advance_row]
          simp [heq, Change.followedBy]
      | none =>
          obtain ⟨rows', changes', ha, hm⟩ := ih
          refine ⟨rows', changes', ?_, hm⟩
          rw [advance_row]
          simp only [heq]
          exact ha

/-- **What a cursor returns,** for any number of steps: the first rows of the merge. -/
theorem takeRows_eq (c : MergeCursor) (hdone : c.done = false) {rows : List Entry}
    (hrows : c.engine = Walk.ofTable c.slot rows) (n : Nat) :
    (c.takeRows n).1
      = ((mergeRows c.order rows c.changes).map (fun x => .ok (c.row x.1 x.2))).take n := by
  induction n generalizing c rows with
  | zero => simp [takeRows]
  | succ n ih =>
      obtain ⟨rows', changes', ha, hm⟩ := advance_eq c rows c.changes
      rw [takeRows, next, if_neg (by simp [hdone]), hrows, ha]
      cases hl : mergeRows c.order rows c.changes with
      | nil => simp
      | cons x rest =>
          have hrest := ih { c with
            engine := Walk.ofTable c.slot rows', changes := changes', following := none } hdone rfl
          rw [hl, List.tail_cons] at hm
          simp only [hm] at hrest
          simp only [List.head?_cons, Option.map_some, List.map_cons, List.take_succ_cons]
          exact congrArg (Except.ok (c.row x.1 x.2) :: ·) hrest

/-! ## The steps that a cursor has left -/

/-- A cursor that has ended shows nothing and stays as it is. -/
theorem next_of_done {c : MergeCursor} (h : c.done = true) : c.next = (none, c) := if_pos h

/-- A row that is shown is taken off one of the sources. -/
theorem length_advance_lt (c : MergeCursor) {walk walk' : Walk} {changes changes' : List Change}
    {row : Row} (h : c.advance walk changes = (some (.ok row), walk', changes')) :
    walk'.length + changes'.length < walk.length + changes.length := by
  fun_induction c.advance walk changes <;> grind

/-- However many steps are asked for, no more are taken than are left. -/
theorem length_takeRows_le (c : MergeCursor) (n : Nat) :
    (c.takeRows n).1.length ≤ c.stepsLeft := by
  induction n generalizing c with
  | zero => exact Nat.zero_le _
  | succ n ih =>
      rw [takeRows]
      cases hdone : c.done with
      | true =>
          rw [next_of_done hdone]
          exact Nat.zero_le _
      | false =>
          rw [next, if_neg (by simp [hdone])]
          cases hadvance : c.advance c.engine c.changes with
          | mk shown sources =>
              cases shown with
              | none => exact Nat.zero_le _
              | some shown =>
                  cases shown with
                  | error e =>
                      -- nothing comes after an error
                      cases n with
                      | zero => exact Nat.succ_le_succ (Nat.zero_le _)
                      | succ n =>
                        dsimp only
                        rw [takeRows, next_of_done rfl]
                        exact Nat.succ_le_succ (Nat.zero_le _)
                  | ok row =>
                      have hlt := c.length_advance_lt hadvance
                      have hrest := ih { c with
                        engine := sources.1, changes := sources.2, following := none }
                      unfold stepsLeft at hrest ⊢
                      dsimp only at hrest ⊢
                      rw [List.length_cons]
                      omega

/-- **What is left of a cursor** is all that it ever returns. -/
theorem rest_eq {c : MergeCursor} {rows : List (Except StoreError Row)}
    (h : ∀ n, (c.takeRows n).1 = rows.take n) : c.rest = rows := by
  have hlength := c.length_takeRows_le rows.length
  rw [h, List.take_length] at hlength
  unfold rest
  rw [h, List.take_of_length_le hlength]

end MergeCursor

end TableStore
