import TableStore.Proofs.Merge

/-!
# A cursor on a walk that may break off

An engine's walk can fail behind its first rows, with an error of its own or with a key
of another table. The changes are then no longer merged to their end: behind the last
row that the walk still gave, the cursor cannot know what the walk would have put before
the next change, and it shows the failure instead.

So the changes are in two parts. Those at or before some row of the walk are merged with
the rows as if the walk had ended there; the others, which all lie behind its last row,
are never looked at. On a walk that ends without a failure the second part is empty.
`Parts` is this split. It is kept by each step (`advance_parts`), and by induction on the
steps the cursor shows the merge of the first part, then the failure, then nothing
(`next_merge`).
-/

namespace TableStore

/-- How a walk goes on behind its rows: the failure that the cursor meets there, if any,
and what it leaves unread. -/
inductive Walk.Stops (slot : UInt8) : Walk → Option StoreError → Walk → Prop where
  | ended : Stops slot [] none []
  | error (e : StoreError) (walk : Walk) : Stops slot (.error e :: walk) (some e) walk
  | foreign (key value : Bytes) (walk : Walk) (h : key.head? ≠ some slot) :
      Stops slot (.ok (key, value) :: walk) (some (.contractViolation (.foreignKey slot key)))
        (.ok (key, value) :: walk)

/-- The changes of a walk in two parts: those that a row of it reaches, and those behind
all its rows. -/
structure Parts (order : ScanOrder) (rows : List Entry) (failure : Option StoreError)
    (near far : List Change) : Prop where
  sorted : order.Sorted near
  reached : failure ≠ none → ∀ d ∈ near, ∃ e ∈ rows, order.compare d.1 e.1 ≠ .gt
  behind : ∀ d ∈ far, ∀ e ∈ rows, order.compare e.1 d.1 = .lt
  ended : failure = none → far = []

namespace Parts

variable {order : ScanOrder} {e : Entry} {rows : List Entry} {failure : Option StoreError}
  {d : Change} {near far : List Change}

/-- A row that is passed has reached none of the changes behind it. -/
theorem tail_row (h : Parts order (e :: rows) failure near far)
    (he : ∀ d ∈ near, order.compare e.1 d.1 = .lt) : Parts order rows failure near far where
  sorted := h.sorted
  reached hf d hd := by
    obtain ⟨x, hx, hle⟩ := h.reached hf d hd
    rcases List.mem_cons.mp hx with rfl | hx
    · exact absurd (ScanOrder.compare_gt_iff.mpr (he d hd)) hle
    · exact ⟨x, hx, hle⟩
  behind d hd x hx := h.behind d hd x (List.mem_cons_of_mem _ hx)
  ended := h.ended

theorem tail_change (h : Parts order rows failure (d :: near) far) :
    Parts order rows failure near far where
  sorted := (List.pairwise_cons.mp h.sorted).2
  reached hf x hx := h.reached hf x (List.mem_cons_of_mem _ hx)
  behind := h.behind
  ended := h.ended

/-- Changes are left over when the rows are only on a walk that has not failed. -/
theorem failure_of_rows_nil (h : Parts order [] failure (d :: near) far) : failure = none := by
  cases failure with
  | none => rfl
  | some e =>
      obtain ⟨x, hx, _⟩ := h.reached (by simp) d List.mem_cons_self
      exact absurd hx (by simp)

/-- Every ordered list of changes has such parts. -/
theorem exists_of_sorted (rows : List Entry) (failure : Option StoreError)
    {changes : List Change} (hc : order.Sorted changes) :
    ∃ near far, changes = near ++ far ∧ Parts order rows failure near far := by
  by_cases hf : failure = none
  · exact ⟨changes, [], by simp, hc, fun h => absurd hf h, by simp, fun _ => rfl⟩
  induction changes with
  | nil => exact ⟨[], [], rfl, hc, by simp, by simp, fun _ => rfl⟩
  | cons d rest ih =>
      obtain ⟨hhead, htail⟩ := List.pairwise_cons.mp hc
      by_cases hd : ∃ e ∈ rows, order.compare d.1 e.1 ≠ .gt
      · obtain ⟨near, far, rfl, hp⟩ := ih htail
        have hsorted : order.Sorted (d :: near) :=
          List.pairwise_cons.mpr ⟨fun x hx => hhead x (List.mem_append_left _ hx), hp.sorted⟩
        have hreached : ∀ x ∈ d :: near, ∃ e ∈ rows, order.compare x.1 e.1 ≠ .gt := by
          intro x hx
          rcases List.mem_cons.mp hx with rfl | hx
          · exact hd
          · exact hp.reached hf x hx
        exact ⟨d :: near, far, rfl, hsorted, fun _ => hreached, hp.behind, hp.ended⟩
      · -- the first change behind all rows, and so are those behind it
        have hlt : ∀ e ∈ rows, order.compare e.1 d.1 = .lt := by
          intro e he
          refine ScanOrder.compare_gt_iff.mp (Decidable.byContradiction fun hne => ?_)
          exact hd ⟨e, he, hne⟩
        refine ⟨[], d :: rest, rfl, List.Pairwise.nil, by simp, ?_, fun h => absurd h hf⟩
        intro x hx e he
        rcases List.mem_cons.mp hx with rfl | hx
        · exact hlt e he
        · exact ScanOrder.compare_lt_trans (hlt e he) (hhead x hx)

/-- The first part are the changes that the walk reaches before it fails. -/
theorem mem_near_iff (h : Parts order rows failure near far) {x : Change} :
    x ∈ near ↔ x ∈ near ++ far
      ∧ (failure = none ∨ ∃ e ∈ rows, order.compare x.1 e.1 ≠ .gt) := by
  constructor
  · intro hx
    refine ⟨List.mem_append_left _ hx, ?_⟩
    by_cases hf : failure = none
    · exact Or.inl hf
    · exact Or.inr (h.reached hf x hx)
  · rintro ⟨hx, hcase⟩
    rcases List.mem_append.mp hx with hx | hx
    · exact hx
    · rcases hcase with hf | ⟨e, he, hle⟩
      · rw [h.ended hf] at hx
        exact absurd hx (by simp)
      · exact absurd (ScanOrder.compare_gt_iff.mpr (h.behind x hx e he)) hle

/-- A row of an ordered list reaches a key when the last one does. -/
theorem reaches_iff_last (hrows : order.Sorted rows) {key : Bytes} :
    (∃ e ∈ rows, order.compare key e.1 ≠ .gt)
      ↔ ∃ last, rows.getLast? = some last ∧ order.compare key last.1 ≠ .gt := by
  constructor
  · rintro ⟨e, he, hle⟩
    cases hlast : rows.getLast? with
    | none => rw [List.getLast?_eq_none_iff.mp hlast] at he; exact absurd he (by simp)
    | some last =>
        refine ⟨last, rfl, fun hgt => hle ?_⟩
        obtain ⟨front, rfl⟩ := List.getLast?_eq_some_iff.mp hlast
        have hbefore := (List.pairwise_append.mp hrows).2.2
        rcases List.mem_append.mp he with he | he
        · have hlt := hbefore e he last List.mem_cons_self
          have hkey := ScanOrder.compare_gt_iff.mp hgt
          exact ScanOrder.compare_gt_iff.mpr (ScanOrder.compare_lt_trans hlt hkey)
        · rw [List.mem_singleton.mp he]
          exact hgt
  · rintro ⟨last, hlast, hle⟩
    exact ⟨last, List.mem_of_getLast? hlast, hle⟩

/-- **Which rows the merge of the first part has:** of the rows of both sources together,
those that the walk reaches before it fails. -/
theorem mem_mergeRows_iff (hrows : order.Sorted rows) (h : Parts order rows failure near far)
    {x : Entry} :
    x ∈ mergeRows order rows near
      ↔ ((x.1, some x.2) ∈ near ++ far ∨ (x ∈ rows ∧ ∀ entry, (x.1, entry) ∉ near ++ far))
        ∧ (failure = none ∨ ∃ last, rows.getLast? = some last
            ∧ order.compare x.1 last.1 ≠ .gt) := by
  rw [TableStore.mem_mergeRows_iff hrows h.sorted, h.mem_near_iff, ← reaches_iff_last hrows]
  constructor
  · rintro (hchange | ⟨hx, hn⟩)
    · exact ⟨Or.inl hchange.1, hchange.2⟩
    · have hreached : ∃ e ∈ rows, order.compare x.1 e.1 ≠ .gt :=
        ⟨x, hx, by rw [ScanOrder.compare_self]; simp⟩
      refine ⟨Or.inr ⟨hx, fun entry hmem => ?_⟩, Or.inr hreached⟩
      exact hn entry (h.mem_near_iff.mpr ⟨hmem, Or.inr hreached⟩)
  · rintro ⟨hchange | ⟨hx, hn⟩, hreach⟩
    · exact Or.inl ⟨hchange, hreach⟩
    · exact Or.inr ⟨hx, fun entry hmem => hn entry (List.mem_append_left _ hmem)⟩

end Parts

namespace MergeCursor

/-- Behind the rows of a walk comes the failure, whatever changes are left. -/
theorem advance_stops (c : MergeCursor) {tail left : Walk} {failure : Option StoreError}
    (hstop : Walk.Stops c.slot tail failure left) {far : List Change}
    (hfar : failure = none → far = []) :
    c.advance tail far = (failure.map .error, left, far) := by
  cases hstop with
  | ended =>
      rw [hfar rfl]
      exact advance.eq_def ..
  | error e => exact advance.eq_def ..
  | foreign key value walk hkey =>
      cases key with
      | nil => exact advance.eq_def ..
      | cons b key =>
          have hb : b ≠ c.slot := fun hb => hkey (congrArg some hb)
          exact (advance.eq_def ..).trans (if_pos hb)

/-- What a step shows of a merge, and the sources that it leaves. -/
inductive Shown (c : MergeCursor) (tail left : Walk) (failure : Option StoreError)
    (far : List Change) :
    List Entry → Option (Except StoreError Row) × Walk × List Change → Prop where
  | row (x : Entry) (rows : List Entry) (near : List Change)
      (parts : Parts c.order rows failure near far) :
      Shown c tail left failure far (x :: mergeRows c.order rows near)
        (some (.ok (c.row x.1 x.2)), Walk.ofTable c.slot rows ++ tail, near ++ far)
  | stop : Shown c tail left failure far [] (failure.map .error, left, far)

/-- **A step shows the head of the merge of the first part** and keeps the split; where that
merge has no more rows, it shows the failure. -/
theorem advance_parts (c : MergeCursor) {tail left : Walk} {failure : Option StoreError}
    (hstop : Walk.Stops c.slot tail failure left) {rows : List Entry} {near far : List Change}
    (hparts : Parts c.order rows failure near far) :
    c.Shown tail left failure far (mergeRows c.order rows near)
      (c.advance (Walk.ofTable c.slot rows ++ tail) (near ++ far)) := by
  fun_induction mergeRows c.order rows near with
  | case1 =>
      have hstep : c.advance tail far = _ := c.advance_stops hstop hparts.ended
      exact hstep ▸ .stop
  | case2 d near ih =>
      -- only a walk that has ended leaves changes of the first part
      have hfailure := hparts.failure_of_rows_nil
      subst hfailure
      cases hstop
      have hstep : c.advance [] (d :: (near ++ far)) = _ := advance.eq_def ..
      show Shown _ _ _ _ _ _ (c.advance [] (d :: (near ++ far)))
      rw [hstep]
      obtain ⟨k, entry⟩ := d
      cases entry with
      | some v => exact .row (k, v) [] near hparts.tail_change
      | none => exact ih hparts.tail_change
  | case3 e rows ih =>
      have hrow := hparts.tail_row (by simp)
      rw [List.nil_append, advance_row_append]
      cases far with
      | nil => exact .row e rows [] hrow
      | cons d rest =>
          simp only [hparts.behind d List.mem_cons_self e List.mem_cons_self]
          exact .row e rows [] hrow
  | case4 e rows d near hlt ih =>
      have hrow := hparts.tail_row (hparts.sorted.before_of_head hlt)
      rw [List.cons_append, advance_row_append]
      simp only [hlt]
      exact .row e rows (d :: near) hrow
  | case5 e rows d near hgt ih =>
      rw [List.cons_append, advance_row_append]
      simp only [hgt]
      obtain ⟨k, entry⟩ := d
      cases entry with
      | some v => exact .row (k, v) (e :: rows) near hparts.tail_change
      | none => exact ih hparts.tail_change
  | case6 e rows d near heq ih =>
      -- the change takes the place of the row, which is passed with it
      have hafter : ∀ x ∈ near, c.order.compare e.1 x.1 = .lt := by
        rw [ScanOrder.eq_of_compare heq]
        exact (List.pairwise_cons.mp hparts.sorted).1
      have hboth := hparts.tail_change.tail_row hafter
      rw [List.cons_append, advance_row_append]
      simp only [heq]
      obtain ⟨k, entry⟩ := d
      cases entry with
      | some v => exact .row (k, v) rows near hboth
      | none => exact ih hboth

/-- A cursor shows what its step shows, and ends with the failure. -/
theorem next_parts (c : MergeCursor) (hdone : c.done = false) {tail left : Walk}
    {failure : Option StoreError} (hstop : Walk.Stops c.slot tail failure left)
    {rows : List Entry} {near far : List Change}
    (hwalk : c.engine = Walk.ofTable c.slot rows ++ tail)
    (hchanges : c.changes = near ++ far) (hparts : Parts c.order rows failure near far) :
    (mergeRows c.order rows near = []
      ∧ c.next = (failure.map .error,
          { c with engine := left, changes := far, done := true, following := none }))
    ∨ ∃ x rows' near', mergeRows c.order rows near = x :: mergeRows c.order rows' near'
      ∧ Parts c.order rows' failure near' far
      ∧ c.next = (some (.ok (c.row x.1 x.2)),
          { c with engine := Walk.ofTable c.slot rows' ++ tail, changes := near' ++ far,
                   following := none }) := by
  have hshown := c.advance_parts hstop hparts
  rw [← hwalk, ← hchanges] at hshown
  unfold next
  rw [if_neg (by simp [hdone])]
  generalize mergeRows c.order rows near = merged at hshown
  generalize c.advance c.engine c.changes = out at hshown
  cases hshown with
  | row x rows' near' hparts' => exact Or.inr ⟨x, rows', near', rfl, hparts', rfl⟩
  | stop => cases failure <;> exact Or.inl ⟨rfl, rfl⟩

/-- The cursor after some steps. -/
def after (c : MergeCursor) : Nat → MergeCursor
  | 0 => c
  | n + 1 => c.next.2.after n

theorem after_of_done {c : MergeCursor} (h : c.done = true) (n : Nat) : c.after n = c := by
  induction n with
  | zero => rfl
  | succ n ih =>
      rw [after, next_of_done h]
      exact ih

/-- **The steps of a cursor** show the merge of the first part, then the failure, then nothing;
behind the failure it reads no further. The induction is on the number of steps, over every
split of what the cursor has left. -/
theorem next_after (c : MergeCursor) (hdone : c.done = false) {tail left : Walk}
    {failure : Option StoreError} (hstop : Walk.Stops c.slot tail failure left)
    {rows : List Entry} {near far : List Change}
    (hwalk : c.engine = Walk.ofTable c.slot rows ++ tail)
    (hchanges : c.changes = near ++ far) (hparts : Parts c.order rows failure near far) (n : Nat) :
    (c.after n).next.1
        = ((mergeRows c.order rows near).map (fun x => .ok (c.row x.1 x.2))
            ++ failure.toList.map .error)[n]?
      ∧ ((mergeRows c.order rows near).length < n →
          (c.after n).done = true ∧ (c.after n).engine = left) := by
  induction n generalizing c rows near with
  | zero =>
      refine ⟨?_, fun h => absurd h (Nat.not_lt_zero _)⟩
      rcases c.next_parts hdone hstop hwalk hchanges hparts with
        ⟨hmerge, hnext⟩ | ⟨x, rows', near', hmerge, _, hnext⟩
      · rw [after, hnext, hmerge]
        cases failure <;> rfl
      · rw [after, hnext, hmerge]
        rfl
  | succ n ih =>
      rcases c.next_parts hdone hstop hwalk hchanges hparts with
        ⟨hmerge, hnext⟩ | ⟨x, rows', near', hmerge, hparts', hnext⟩
      · -- the failure was the last thing shown
        have hrest := after_of_done (c := c.next.2) (by rw [hnext]) n
        have hout : c.next.2.next.1 = none := by
          rw [next_of_done (by rw [hnext])]
        refine ⟨?_, fun _ => ?_⟩
        · rw [after, hrest, hout, hmerge]
          cases failure <;> simp
        · rw [after, hrest, hnext]
          exact ⟨rfl, rfl⟩
      · have hrest := ih c.next.2 (by rw [hnext]; exact hdone) (by rw [hnext]; exact hstop)
          (by rw [hnext]) (by rw [hnext]) (by rw [hnext]; exact hparts')
        rw [hnext] at hrest
        rw [after, hnext, hmerge]
        refine ⟨hrest.1, fun hn => hrest.2 ?_⟩
        exact Nat.lt_of_succ_lt_succ hn

/-- **A cursor on any walk of a table.** The walk gives `rows` and then stops, with or without a
failure. In the order of the walk the cursor shows one row for each key of either source: the
new value of a change, and a row whose key no change is about. When the walk fails, it shows
the rows at or before the walk's last one, then the failure once. Then it has ended, and
whatever lay behind the failure is unread. -/
theorem next_start {rows : List Entry} {changes : List Change} {order : ScanOrder} {slot : UInt8}
    {tail left : Walk} {failure : Option StoreError} (hrows : order.Sorted rows)
    (hchanges : order.Sorted changes) (hstop : Walk.Stops slot tail failure left)
    (keysOnly : Bool) :
    ∃ shown : List Entry, order.Sorted shown
      ∧ (∀ x, x ∈ shown ↔
          ((x.1, some x.2) ∈ changes ∨ (x ∈ rows ∧ ∀ entry, (x.1, entry) ∉ changes))
          ∧ (failure = none ∨ ∃ last, rows.getLast? = some last ∧ order.compare x.1 last.1 ≠ .gt))
      ∧ (∀ n, ((start (Walk.ofTable slot rows ++ tail) changes slot order keysOnly).after n).next.1
          = (shown.map (fun x => .ok ⟨x.1, if keysOnly then none else some x.2⟩)
              ++ failure.toList.map .error)[n]?)
      ∧ ∀ n, shown.length < n →
          let c := (start (Walk.ofTable slot rows ++ tail) changes slot order keysOnly).after n
          c.next = (none, c) ∧ c.engine = left := by
  obtain ⟨near, far, rfl, hparts⟩ := Parts.exists_of_sorted rows failure hchanges
  have hsteps := fun n => next_after
    (start (Walk.ofTable slot rows ++ tail) (near ++ far) slot order keysOnly) rfl hstop rfl rfl
    hparts n
  refine ⟨mergeRows order rows near, mergeRows_sorted hrows hparts.sorted, fun x => ?_,
    fun n => (hsteps n).1, fun n hn => ?_⟩
  · exact hparts.mem_mergeRows_iff hrows
  · obtain ⟨hdone, hleft⟩ := (hsteps n).2 hn
    exact ⟨next_of_done hdone, hleft⟩

/-- A walk backwards that gives the rows `4` and `2` and then a key of the table `9`: the change
at `3` is shown, the one at `1` is not, and the foreign key is the last thing shown. -/
theorem next_start_foreign :
    let c := start (Walk.ofTable 7 [([4], [40]), ([2], [20])] ++ [.ok ([9, 0], [])])
      [([3], some [30]), ([1], some [10])] 7 .descending false
    ∃ shown : List Entry, ([3], [30]) ∈ shown ∧ ([1], [10]) ∉ shown
      ∧ (c.after shown.length).next.1
          = some (.error (.contractViolation (.foreignKey 7 [9, 0]))) := by
  intro c
  have hrows : ScanOrder.descending.Sorted [([4], [40]), (([2], [20]) : Entry)] := by
    unfold ScanOrder.Sorted
    decide
  have hchanges : ScanOrder.descending.Sorted [([3], some [30]), (([1], some [10]) : Change)] := by
    unfold ScanOrder.Sorted
    decide
  have hstop : Walk.Stops 7 [.ok ([9, 0], [])] _ _ := .foreign [9, 0] [] [] (by decide)
  obtain ⟨shown, _, hmem, hsteps, _⟩ := next_start hrows hchanges hstop false
  refine ⟨shown, ?_, ?_, ?_⟩
  · exact (hmem _).mpr ⟨Or.inl (by simp), Or.inr ⟨_, rfl, by decide⟩⟩
  · intro hshown
    rcases ((hmem _).mp hshown).2 with hnone | ⟨last, hlast, hle⟩
    · exact absurd hnone (by simp)
    · simp only [List.getLast?_cons_cons, List.getLast?_singleton, Option.some.injEq] at hlast
      subst hlast
      exact hle (by decide)
  · rw [hsteps]
    simp

end MergeCursor

end TableStore
