import TableStore.Proofs.Engine

/-!
# A walk that seeks anew at each step

A walk of the memory engine keeps no place in the map. It has two bounds, asks the map for the
row that is nearest inside them, and moves one bound past that row. `Seek.Shows` is what such a
walk is worth: the rows inside its bounds are the rows still to be shown. A step shows the first
of them and is left with the others (`Shows.next`), so after any number of steps the walk is as
far as a list of the rows would be (`Shows.after`), and past the last row it shows nothing, for
good.

The bounds close in on each other, and an ordered map refuses bounds that have passed each other
or that leave out one key from both sides. A walk that was begun on such bounds, or has arrived
at them, has ended, and asks the map no more.
-/

namespace TableStore

namespace Seek

/-- The walk after some steps. -/
def after (s : Seek) : (steps : Nat) → Seek
  | 0 => s
  | n + 1 => s.next.2.after n

theorem after_succ (s : Seek) (n : Nat) : s.after (n + 1) = (s.after n).next.2 := by
  induction n generalizing s with
  | zero => rfl
  | succ n ih => exact ih s.next.2

/-- A walk with these rows still to show. -/
structure Shows (s : Seek) (left : List Entry) : Prop where
  inside : s.rows.within s.ahead s.order = left
  ended : s.done = true → left = []
  /-- While it goes on its bounds are not called empty. -/
  goesOn : s.done = false → s.ahead.isEmpty = false

theorem shows_start (rows : Rows) (range : KeyRange) (order : ScanOrder) :
    (start rows range order).Shows (rows.within range order) where
  inside := rfl
  ended h := Rows.within_of_isEmpty rows h order
  goesOn h := h

namespace Shows

variable {s : Seek} {left : List Entry}

/-- **A step shows the first of the rows and leaves the others.** -/
theorem next (h : s.Shows left) : s.next.1 = left.head? ∧ s.next.2.Shows left.tail := by
  have hnear := s.nearest?_eq
  rw [h.inside] at hnear
  unfold Seek.next
  by_cases hdone : s.done = true
  · cases h.ended hdone
    rw [if_pos hdone]
    exact ⟨rfl, h⟩
  · rw [if_neg hdone]
    cases left with
    | nil =>
        -- the bounds stay where they are, with nothing between them
        rw [hnear]
        exact ⟨rfl, h.inside, fun _ => rfl, fun hgoes => absurd hgoes (by simp)⟩
    | cons e rest =>
        have hrest := within_narrowed h.inside
        rw [hnear]
        refine ⟨rfl, hrest, fun hended => ?_, fun hgoes => hgoes⟩
        rw [← hrest]
        exact Rows.within_of_isEmpty s.rows hended s.order

/-- After any number of steps so many rows have been shown. -/
theorem after (h : s.Shows left) (n : Nat) : (s.after n).Shows (left.drop n) := by
  induction n with
  | zero => exact h
  | succ n ih =>
      rw [after_succ, ← List.tail_drop]
      exact ih.next.2

/-- What the walk shows next is the row at this place of the list. -/
theorem next_after (h : s.Shows left) (n : Nat) : (s.after n).next.1 = left[n]? := by
  rw [(h.after n).next.1, List.head?_drop]

/-- Once the walk has been asked for a row that was not there, it has ended. -/
theorem done_after (h : s.Shows left) {n : Nat} (hn : left.length < n) :
    (s.after n).done = true := by
  obtain ⟨m, rfl⟩ : ∃ m, n = m + 1 := ⟨n - 1, by omega⟩
  have hnone : left.drop m = [] := List.drop_eq_nil_iff.mpr (by omega)
  have hbefore := h.after m
  have hnear := (s.after m).nearest?_eq
  rw [hbefore.inside, hnone] at hnear
  rw [after_succ]
  unfold Seek.next
  by_cases hdone : (s.after m).done = true
  · rw [if_pos hdone]
    exact hdone
  · rw [if_neg hdone, hnear]
    rfl

end Shows

/--
**Seeking anew at each step is going through a list.** Take the rows of a map that lie at or past
the lower bound and at or before the upper one; in key order they increase strictly, so each is
there once. Whatever the bounds are, the steps of a walk show these rows one after the other, in
this order or exactly the other way round. Behind the last row a step shows nothing, that step has
ended the walk, and every later one shows nothing too. A walk that has not ended, and only such a
one asks the map, has bounds that an ordered map admits.

So a walk of the memory engine gives the rows of its range, and the count of a range is their
number, whether a fault is armed or not.
-/
theorem seeking_is_filtering (rows : Rows) (range : KeyRange) (order : ScanOrder) :
    let begun := start rows range order
    let inside := rows.toList.filter (fun e => range.aboveStart e.1 && range.belowEnd e.1)
    let shown := match order with
      | .ascending => inside
      | .descending => inside.reverse
    inside.Pairwise (fun a b => compareKeys a.1 b.1 = .lt)
    ∧ (∀ n, (begun.after n).next.1 = shown[n]?)
    ∧ begun.drain = shown
    ∧ (∀ n, shown.length < n → (begun.after n).done = true)
    ∧ (∀ n, (begun.after n).done = false → (begun.after n).ahead.Walkable)
    ∧ ∀ failAfter, let engine : MemoryEngine := ⟨rows, failAfter⟩
        StorageEngine.scan engine range order = .ok (shown.map .ok)
        ∧ StorageEngine.count engine range = .ok shown.length := by
  intro begun inside shown
  have hshown : rows.within range order = shown := by
    show order.arrange inside = shown
    cases order <;> rfl
  have hshows : begun.Shows shown := hshown ▸ shows_start rows range order
  refine ⟨?_, hshows.next_after, ?_, fun n => hshows.done_after, fun n hgoes => ?_,
    fun failAfter => ⟨?_, ?_⟩⟩
  · refine List.Pairwise.filter _ (rows.ascending.imp fun {a b} h => ?_)
    rw [compareKeys_eq_compare]
    exact h
  · exact (drain_start rows range order).trans hshown
  · exact KeyRange.walkable_of_not_isEmpty ((hshows.after n).goesOn hgoes)
  · rw [MemoryEngine.scan_eq]
    exact congrArg (fun l : List Entry => (Except.ok (l.map .ok) : Except StoreError Walk)) hshown
  · rw [(MemoryEngine.answers _).count_eq]
    have hlength : (rows.within range .ascending).length = shown.length := by
      rw [← hshown]
      unfold Rows.within
      cases order <;> simp [ScanOrder.arrange]
    exact congrArg Except.ok hlength

/-- A walk backwards down to a bound that is a key of the map: the lower bound stays, the upper
one comes down to it, and the walk ends instead of asking between a key and itself. -/
theorem seeking_is_filtering_down_to_the_bound :
    let rows : Rows := SortedMap.ofList [([1], [10]), ([2], [20]), ([3], [30])]
    let begun := start rows ⟨.included [2], .unbounded⟩ .descending
    (begun.after 0).next.1 = some ([3], [30])
    ∧ (begun.after 1).next.1 = some ([2], [20])
    ∧ (begun.after 1).ahead = ⟨.included [2], .excluded [3]⟩
    ∧ (begun.after 1).ahead.Walkable
    ∧ (begun.after 2).ahead = ⟨.included [2], .excluded [2]⟩
    ∧ (begun.after 2).next.1 = none
    ∧ (begun.after 7).done = true := by
  intro rows begun
  obtain ⟨_, hsteps, _, hended, hwalkable, _⟩ :=
    seeking_is_filtering rows ⟨.included [2], .unbounded⟩ .descending
  refine ⟨(hsteps 0).trans rfl, (hsteps 1).trans rfl, rfl, hwalkable 1 rfl, rfl,
    (hsteps 2).trans rfl, hended 7 (by decide)⟩

end Seek

end TableStore
