import TableStore.Proofs.Clamping
import TableStore.Proofs.Reads

/-!
# Ranges without keys

Bounds are called empty when they are out of order, and no key is looked at. That is right as far
as it goes, but keys lie next to each other in one direction: no key is before the empty one, and
behind every key there is a next one, the same with a zero byte at its end. Nothing lies before the
first of all keys, nor between a key and the next, and yet such bounds are in order. These are the
two cases of `KeyRange.Gap`, and there is no third (`KeyRange.no_key_iff`): if a range has a key it
has a least one, which can be told from the lower bound (`Bound.least`), so the upper bound has only
that key to be asked about.

A range that is empty without being called so goes on to the engine and to the buffer, and neither
finds anything in it. The buffer is made of ordered maps, which refuse some bounds and would not
answer at all. `Transaction.scan?` is a scan that says so, and it is never refused (`scan?_eq`).
-/

namespace TableStore

/-! ## Keys next to each other -/

theorem compareKeys_nil_ne_gt (k : Bytes) : compareKeys [] k ≠ .gt := by
  cases k <;> simp [compareKeys]

/-- The next key behind `s` is `s` with a zero byte at its end. -/
theorem compareKeys_snoc_zero_ne_gt_iff (s k : Bytes) :
    compareKeys (s ++ [0]) k ≠ .gt ↔ compareKeys s k = .lt := by
  induction s generalizing k with
  | nil =>
      cases k with
      | nil => simp [compareKeys]
      | cons b k =>
          have hzero : compare 0 b ≠ .gt := by
            rw [ne_eq, Std.compare_eq_gt, UInt8.not_lt]
            exact UInt8.zero_le
          show (compare 0 b).then (compareKeys [] k) ≠ .gt ↔ Ordering.lt = .lt
          cases hb : compare 0 b with
          | lt => simp
          | eq => simp [compareKeys_nil_ne_gt]
          | gt => exact absurd hb hzero
  | cons a s ih =>
      cases k with
      | nil => simp [compareKeys]
      | cons b k =>
          show (compare a b).then (compareKeys (s ++ [0]) k) ≠ .gt
            ↔ (compare a b).then (compareKeys s k) = .lt
          cases compare a b with
          | lt => simp
          | eq => simpa using ih k
          | gt => simp

/-- The least key on the right side of a lower bound. -/
def Bound.least : Bound → Bytes
  | unbounded => []
  | included s => s
  | excluded s => s ++ [0]

theorem Bound.below_iff (b : Bound) (k : Bytes) :
    b.below k = true ↔ compareKeys b.least k ≠ .gt := by
  cases b with
  | unbounded => simp [below, least, compareKeys_nil_ne_gt]
  | included s =>
      rw [below, bne_iff_ne, least, ne_eq, ne_eq, compareKeys_gt_iff]
  | excluded s =>
      rw [below, beq_iff_eq, least, compareKeys_snoc_zero_ne_gt_iff, compareKeys_gt_iff]

namespace KeyRange

/-! ## Which ranges have no key -/

/-- A range has a key just when its least candidate is not past the upper bound. -/
theorem exists_contains_iff (r : KeyRange) :
    (∃ k, r.contains k = true) ↔ r.stop.above r.start.least = true := by
  constructor
  · rintro ⟨k, hk⟩
    obtain ⟨hstart, hstop⟩ := contains_iff.mp hk
    have hle := (r.start.below_iff k).mp hstart
    cases hc : compareKeys r.start.least k with
    | lt => exact Bound.above_of_lt hstop hc
    | eq => rw [eq_of_compareKeys hc]; exact hstop
    | gt => exact absurd hc hle
  · intro h
    refine ⟨r.start.least, contains_iff.mpr ⟨(r.start.below_iff _).mpr ?_, h⟩⟩
    rw [compareKeys_self]
    simp

/-- Bounds in order with no key between them: nothing is before the first key of all, and nothing
is between a key and the next. -/
def Gap (r : KeyRange) : Prop :=
  r = ⟨.unbounded, .excluded []⟩ ∨ ∃ s, r = ⟨.excluded s, .excluded (s ++ [0])⟩

theorem above_least_iff (r : KeyRange) :
    r.stop.above r.start.least = true ↔ r.isEmpty = false ∧ ¬ r.Gap := by
  obtain ⟨start, stop⟩ := r
  cases start with
  | unbounded =>
      cases stop with
      | unbounded => simp [Bound.above, isEmpty, Gap]
      | included e => simp [Bound.above, Bound.least, isEmpty, Gap, compareKeys_nil_ne_gt]
      | excluded e => cases e <;> simp [Bound.above, Bound.least, isEmpty, Gap, compareKeys]
  | included s =>
      cases stop with
      | unbounded => simp [Bound.above, isEmpty, Gap]
      | included e => simp [Bound.above, Bound.least, isEmpty, Gap]
      | excluded e => simp [Bound.above, Bound.least, isEmpty, Gap]
  | excluded s =>
      have hnext := compareKeys_snoc_zero_ne_gt_iff s
      cases stop with
      | unbounded => simp [Bound.above, isEmpty, Gap]
      | included e =>
          simp only [Bound.above, Bound.least, isEmpty, Gap, bne_iff_ne, bne_eq_false_iff_eq]
          rw [hnext]
          simp
      | excluded e =>
          -- the next key is before the end, unless it is the end
          have hgap : Gap ⟨.excluded s, .excluded e⟩ ↔ e = s ++ [0] := by simp [Gap, eq_comm]
          rw [hgap]
          simp only [Bound.above, Bound.least, isEmpty, beq_iff_eq, bne_eq_false_iff_eq, ← hnext e]
          constructor
          · intro hlt
            refine ⟨by rw [hlt]; simp, fun he => ?_⟩
            rw [he, compareKeys_self] at hlt
            exact absurd hlt (by simp)
          · rintro ⟨hle, hne⟩
            cases hc : compareKeys (s ++ [0]) e with
            | lt => rfl
            | eq => exact absurd (eq_of_compareKeys hc).symm hne
            | gt => exact absurd hc hle

/-- **A range has no key just when it is called empty or is a gap.** -/
theorem no_key_iff (r : KeyRange) :
    (∀ k, r.contains k = false) ↔ r.isEmpty = true ∨ r.Gap := by
  have hex := r.exists_contains_iff.trans r.above_least_iff
  have hno : (∀ k, r.contains k = false) ↔ ¬ ∃ k, r.contains k = true := by simp
  rw [hno, hex, Classical.not_and_iff_not_or_not, Classical.not_not, Bool.not_eq_false]

theorem Gap.isEmpty {r : KeyRange} (h : r.Gap) : r.isEmpty = false := by
  rcases h with rfl | ⟨s, rfl⟩
  · rfl
  · have hnext : compareKeys s (s ++ [0]) = .lt :=
      (compareKeys_snoc_zero_ne_gt_iff s _).mp (by rw [compareKeys_self]; simp)
    simp [KeyRange.isEmpty, hnext]

/-! ## Which bounds an ordered map takes -/

/-- Whether two bounds can be walked between. -/
def isWalkable (r : KeyRange) : Bool :=
  match r.start, r.stop with
  | .unbounded, _ => true
  | _, .unbounded => true
  | .included s, .included e => compareKeys s e != .gt
  | .included s, .excluded e => compareKeys s e != .gt
  | .excluded s, .included e => compareKeys s e != .gt
  | .excluded s, .excluded e => compareKeys s e == .lt

theorem isWalkable_iff (r : KeyRange) : r.isWalkable = true ↔ r.Walkable := by
  obtain ⟨start, stop⟩ := r
  constructor
  · intro h
    constructor
    · intro s e hs he hgt
      cases start <;> cases stop <;>
        simp only [Bound.key?, Option.some.injEq, reduceCtorEq] at hs he
      all_goals
        subst hs he
        simp [isWalkable, hgt] at h
    · rintro k ⟨rfl, rfl⟩
      simp [isWalkable, compareKeys_self] at h
  · rintro ⟨hinOrder, hapart⟩
    cases start <;> cases stop <;> try rfl
    case included.included s e => exact bne_iff_ne.mpr (hinOrder rfl rfl)
    case included.excluded s e => exact bne_iff_ne.mpr (hinOrder rfl rfl)
    case excluded.included s e => exact bne_iff_ne.mpr (hinOrder rfl rfl)
    case excluded.excluded s e =>
      cases hc : compareKeys s e with
      | lt => simp [isWalkable, hc]
      | eq => exact absurd ⟨rfl, by rw [eq_of_compareKeys hc]⟩ (hapart s)
      | gt => exact absurd hc (hinOrder rfl rfl)

instance (r : KeyRange) : Decidable r.Walkable := decidable_of_iff _ r.isWalkable_iff

end KeyRange

/-! ## Scans that find nothing -/

/-- An engine whose walks may break off, but show no row from outside their range. -/
def StorageEngine.KeepsToRange {ε : Type} [StorageEngine ε] (engine : ε) : Prop :=
  ∀ range order walk, StorageEngine.scan engine range order = .ok walk →
    ∀ e, .ok e ∈ walk → range.contains e.1 = true

section Scans

variable {ε : Type} [StorageEngine ε]

theorem StorageEngine.Answers.keepsToRange {engine : ε} (h : StorageEngine.Answers engine) :
    StorageEngine.KeepsToRange engine := by
  intro range order walk hwalk e he
  rw [h.scan_eq] at hwalk
  rw [← Except.ok.inj hwalk] at he
  obtain ⟨e', he', hsame⟩ := List.mem_map.mp he
  cases hsame
  exact (Rows.mem_within_iff.mp he').2

namespace MergeCursor

/-- A cursor that has no row to show, at most errors. -/
structure Barren (c : MergeCursor) : Prop where
  engine (e : Entry) : .ok e ∉ c.engine
  changes : c.changes = []

theorem Barren.next {c : MergeCursor} (h : c.Barren) :
    (∀ row, c.next.1 ≠ some (.ok row)) ∧ c.next.2.Barren := by
  obtain ⟨engine, changes, slot, order, keysOnly, done, following⟩ := c
  obtain ⟨hengine, hchanges⟩ := h
  cases hchanges
  unfold MergeCursor.next
  by_cases hdone : done = true
  · rw [if_pos hdone]
    exact ⟨by simp, hengine, rfl⟩
  · rw [if_neg hdone]
    dsimp only at hengine ⊢
    cases engine with
    | nil =>
        rw [advance]
        exact ⟨by simp, hengine, rfl⟩
    | cons entry walk =>
        cases entry with
        | ok e => exact absurd List.mem_cons_self (hengine e)
        | error e =>
            rw [advance]
            exact ⟨by simp, fun e he => hengine e (List.mem_cons_of_mem _ he), rfl⟩

/-- However often it is asked, it shows no row. -/
theorem Barren.takeRows {c : MergeCursor} (h : c.Barren) (n : Nat) (row : Row) :
    .ok row ∉ (c.takeRows n).1 := by
  induction n generalizing c with
  | zero => simp [MergeCursor.takeRows]
  | succ n ih =>
      obtain ⟨hrow, hnext⟩ := h.next
      rw [MergeCursor.takeRows]
      cases hc : c.next with
      | mk shown c' =>
          rw [hc] at hrow hnext
          cases shown with
          | none => simp
          | some answer =>
              intro hmem
              rcases List.mem_cons.mp hmem with he | hmem
              · exact hrow row (by rw [he])
              · exact ih hnext hmem

/-- One that meets no error either shows nothing at all. -/
theorem takeRows_of_nil {c : MergeCursor} (hengine : c.engine = []) (hchanges : c.changes = [])
    (n : Nat) : (c.takeRows n).1 = [] := by
  cases n with
  | zero => rfl
  | succ n =>
      have hnone : c.advance [] [] = (none, [], []) := by rw [advance]
      unfold MergeCursor.takeRows MergeCursor.next
      rw [hengine, hchanges, hnone]
      by_cases hdone : c.done = true
      · rw [if_pos hdone]
      · rw [if_neg hdone]

/-- A cursor that catches up with its engine still has no row to show. -/
theorem Barren.catchUp {c : MergeCursor} (h : c.Barren)
    (hfollowing : ∀ range, c.following = some range → ∀ k, range.contains k = false) {engine : ε}
    (hkeeps : StorageEngine.KeepsToRange engine) : (c.catchUp engine).Barren := by
  unfold MergeCursor.catchUp
  cases hf : c.following with
  | none => exact h
  | some range =>
      have hno := hfollowing range hf
      dsimp only
      cases hscan : StorageEngine.scan engine range c.order with
      | error e => exact ⟨by simp, h.changes⟩
      | ok walk =>
          refine ⟨fun e he => ?_, h.changes⟩
          have hin := hkeeps range c.order walk hscan e he
          rw [hno] at hin
          exact absurd hin (by simp)

end MergeCursor

namespace KeyRange

/-- The physical range of a range without keys has none either. -/
theorem not_contains_toPhysical {range : KeyRange} (hno : ∀ k, range.contains k = false)
    {slot : UInt8} (hslot : slot ≠ 255) (x : Bytes) :
    (range.toPhysical slot).contains x = false := by
  refine Bool.eq_false_iff.mpr (fun hx => ?_)
  obtain ⟨k, _, hk⟩ := (range.contains_toPhysical_iff hslot x).mp hx
  rw [hno] at hk
  exact absurd hk (by simp)

end KeyRange

namespace Transaction

variable {t : Transaction} {r : Repository ε} {table : String} {range : KeyRange}
  {order : ScanOrder} {keysOnly : Bool}

theorem within_of_no_key (hno : ∀ k, range.contains k = false) (b : WriteBuffer) (slot : UInt8)
    (order : ScanOrder) : b.within slot range order = [] := by
  have hnil : (b.ofTable slot).toList.filter (fun c => range.contains c.1) = [] :=
    List.filter_eq_nil_iff.mpr (fun c _ => by rw [hno]; exact Bool.false_ne_true)
  unfold WriteBuffer.within
  rw [hnil]
  cases order <;> rfl

/-- What a scan finds below the buffer, when it asks for a range without keys. -/
theorem not_mem_stored (hno : ∀ k, range.contains k = false) {slot : UInt8} (hslot : slot ≠ 255)
    (hkeeps : StorageEngine.KeepsToRange r.engine) {walk : Walk}
    (hwalk : (if t.buffer.isCleared slot then .ok []
      else t.source.scan r.engine (range.toPhysical slot) order) = .ok walk) (e : Entry) :
    .ok e ∉ walk := by
  intro he
  have hphysical := KeyRange.not_contains_toPhysical hno hslot e.1
  split at hwalk
  · rw [← Except.ok.inj hwalk] at he
    exact absurd he (by simp)
  · cases hsource : t.source with
    | live =>
        rw [hsource] at hwalk
        rw [hkeeps _ _ _ hwalk e he] at hphysical
        exact absurd hphysical (by simp)
    | snapshot rows =>
        rw [hsource] at hwalk
        rw [← Except.ok.inj hwalk] at he
        obtain ⟨e', he', hsame⟩ := List.mem_map.mp he
        cases hsame
        rw [(Rows.mem_within_iff.mp he').2] at hphysical
        exact absurd hphysical (by simp)

/-- **A scan of a range without keys** has no row to show, also when it follows its engine. -/
theorem barren_of_scan (hslots : r.registry.InRange)
    (hkeeps : StorageEngine.KeepsToRange r.engine) (hno : ∀ k, range.contains k = false)
    {c : MergeCursor} (hscan : t.scan r table range order keysOnly = .ok c) :
    c.Barren ∧ ∀ followed, c.following = some followed → ∀ k, followed.contains k = false := by
  have hempty : MergeCursor.empty.Barren
      ∧ ∀ followed, MergeCursor.empty.following = some followed →
        ∀ k, followed.contains k = false :=
    ⟨⟨fun e => by simp [MergeCursor.empty, MergeCursor.start], rfl⟩, fun _ h => nomatch h⟩
  unfold scan readTable at hscan
  split at hscan
  · exact absurd hscan (by simp)
  · split at hscan
    · exact Except.ok.inj hscan ▸ hempty
    · rename_i slot hs
      have hslot : slot ≠ 255 := Registry.ne_largest_of_le (hslots.slot hs).2
      dsimp only at hscan
      split at hscan
      · exact Except.ok.inj hscan ▸ hempty
      · split at hscan
        · exact absurd hscan (by simp)
        · rename_i walk hwalk
          rw [← Except.ok.inj hscan]
          refine ⟨⟨not_mem_stored hno hslot hkeeps hwalk, within_of_no_key hno _ _ _⟩, ?_⟩
          intro followed hfollowed k
          unfold Transaction.followed at hfollowed
          dsimp only at hfollowed
          split at hfollowed
          · exact absurd hfollowed (by simp)
          · split at hfollowed
            · rw [← Option.some.inj hfollowed]
              exact KeyRange.not_contains_toPhysical hno hslot k
            · exact absurd hfollowed (by simp)

/-- Where reads work, such a scan succeeds and ends at once. -/
theorem exists_scan_of_no_key (hslots : r.registry.InRange) (hactive : t.state = .active)
    (hanswers : StorageEngine.Answers r.engine) (hno : ∀ k, range.contains k = false) :
    ∃ c, t.scan r table range order keysOnly = .ok c ∧ ∀ n, (c.takeRows n).1 = [] := by
  unfold scan
  rw [readTable_of_active hactive]
  cases hs : r.slot? table with
  | none => exact ⟨.empty, rfl, MergeCursor.takeRows_of_nil rfl rfl⟩
  | some slot =>
      have hslot : slot ≠ 255 := Registry.ne_largest_of_le (hslots.slot hs).2
      dsimp only
      by_cases hempty : range.isEmpty = true
      · rw [if_pos hempty]
        exact ⟨.empty, rfl, MergeCursor.takeRows_of_nil rfl rfl⟩
      · rw [if_neg hempty, stored_scan_eq hanswers hslot]
        have hrows : (t.buffer.base slot ((t.source.rows r.engine).ofSlot slot)).within range order
            = [] := by
          refine List.eq_nil_iff_forall_not_mem.mpr (fun e he => ?_)
          have hin := (Rows.mem_within_iff.mp he).2
          rw [hno] at hin
          exact absurd hin (by simp)
        rw [hrows]
        exact ⟨_, rfl, MergeCursor.takeRows_of_nil rfl (within_of_no_key hno _ _ _)⟩

end Transaction

/-! ## Scans that are not refused -/

/-- The pending changes of a table between two bounds. A table with changes has an ordered map of
them, which refuses (`none`) bounds that it cannot walk between. -/
def WriteBuffer.between? (b : WriteBuffer) (slot : UInt8) (range : KeyRange) (order : ScanOrder) :
    Option (List Change) :=
  match b.changes.get? slot with
  | none => some []
  | some changes =>
    if range.Walkable then
      some (order.arrange (changes.toList.filter (fun c => range.contains c.1)))
    else none

/-- A scan, or `none` where the map of the pending changes refuses to be asked. -/
def Transaction.scan? (t : Transaction) (r : Repository ε) (table : String) (range : KeyRange)
    (order : ScanOrder) (keysOnly : Bool) : Option (Except StoreError MergeCursor) :=
  match t.requireActive, r.slot? table with
  | .error e, _ => some (.error e)
  | .ok (), none => some (.ok .empty)
  | .ok (), some slot =>
    if range.isEmpty then some (.ok .empty)
    else
      let stored : Except StoreError Walk :=
        if t.buffer.isCleared slot then .ok []
        else t.source.scan r.engine (range.toPhysical slot) order
      match stored with
      | .error e => some (.error e)
      | .ok walk =>
        (t.buffer.between? slot range order).map (fun changes =>
          .ok { MergeCursor.start walk changes slot order keysOnly with
            following := t.followed r slot range })

theorem WriteBuffer.between?_eq {range : KeyRange} (h : range.isEmpty = false) (b : WriteBuffer)
    (slot : UInt8) (order : ScanOrder) :
    b.between? slot range order = some (b.within slot range order) := by
  unfold between? within ofTable
  cases b.changes.get? slot with
  | none => cases order <;> rfl
  | some changes => exact if_pos (KeyRange.walkable_of_not_isEmpty h)

/-- **No scan is refused,** whatever its range is. -/
theorem Transaction.scan?_eq (t : Transaction) (r : Repository ε) (table : String)
    (range : KeyRange) (order : ScanOrder) (keysOnly : Bool) :
    t.scan? r table range order keysOnly = some (t.scan r table range order keysOnly) := by
  unfold scan? scan readTable
  cases t.requireActive with
  | error e => rfl
  | ok _ =>
      cases r.slot? table with
      | none => rfl
      | some slot =>
          dsimp only
          by_cases hempty : range.isEmpty = true
          · rw [if_pos hempty, if_pos hempty]
          · rw [if_neg hempty, if_neg hempty,
              WriteBuffer.between?_eq (Bool.eq_false_iff.mpr hempty)]
            generalize (if t.buffer.isCleared slot then (.ok [] : Except StoreError Walk)
              else t.source.scan r.engine (range.toPhysical slot) order) = stored
            cases stored with
            | error e => rfl
            | ok walk => rfl

end Scans

/-! ## What is called empty -/

namespace KeyRange

/--
**A range is empty when it is called empty, or in two cases more.** A range that is called empty
has no key. A range without keys is called empty, unless it ends before the first key of all or
goes from a key to the next, both left out; these are not called empty and have no key all the
same.

Nothing is lost by that. At every moment of a store a scan of a range without keys shows no row,
in either direction and in any state of its transaction, as long as the engine shows none from
outside the range it was asked for: not if walks break off, and not if the scan follows its engine
until a row is asked for. Where reads work, a scan of an active transaction succeeds and ends at
once.

Bounds that are not called empty can be walked between. So no ordered map refuses a scan, whatever
range it is asked for.
-/
theorem emptiness_exact {ε : Type} [StorageEngine ε] (range : KeyRange) :
    (range.isEmpty = true → ∀ k, range.contains k = false)
    ∧ ((∀ k, range.contains k = false) → range.isEmpty = true
      ∨ range = ⟨.unbounded, .excluded []⟩ ∨ ∃ s, range = ⟨.excluded s, .excluded (s ++ [0])⟩)
    ∧ (range = ⟨.unbounded, .excluded []⟩ ∨ (∃ s, range = ⟨.excluded s, .excluded (s ++ [0])⟩) →
      range.isEmpty = false ∧ ∀ k, range.contains k = false)
    ∧ (∀ h : History ε, Reachable h → (∀ k, range.contains k = false) →
      StorageEngine.KeepsToRange h.repo.engine → ∀ (t : Transaction) table order keysOnly,
        (∀ c, t.scan h.repo table range order keysOnly = .ok c → ∀ n row,
          .ok row ∉ (c.takeRows n).1
          ∧ ∀ engine : ε, StorageEngine.KeepsToRange engine →
            .ok row ∉ ((c.catchUp engine).takeRows n).1)
        ∧ (t.state = .active → StorageEngine.Answers h.repo.engine →
          ∃ c, t.scan h.repo table range order keysOnly = .ok c ∧ ∀ n, (c.takeRows n).1 = []))
    ∧ (range.isEmpty = false → range.Walkable)
    ∧ ∀ (t : Transaction) (r : Repository ε) table order keysOnly,
      t.scan? r table range order keysOnly = some (t.scan r table range order keysOnly) := by
  refine ⟨not_contains_of_isEmpty, range.no_key_iff.mp, fun hgap => ?_,
    fun h hr hno hkeeps t table order keysOnly => ⟨fun c hscan n row => ?_,
      fun hactive hanswers => ?_⟩,
    walkable_of_not_isEmpty,
    fun t r table order keysOnly => t.scan?_eq r table range order keysOnly⟩
  · exact ⟨Gap.isEmpty hgap, range.no_key_iff.mpr (Or.inr hgap)⟩
  · obtain ⟨hbarren, hfollowing⟩ := Transaction.barren_of_scan hr.inRange hkeeps hno hscan
    refine ⟨hbarren.takeRows n row, fun engine hengine => ?_⟩
    exact (hbarren.catchUp hfollowing hengine).takeRows n row
  · exact Transaction.exists_scan_of_no_key hr.inRange hactive hanswers hno

/-- Between a key and the next, over rows on either side and pending changes of both keys. -/
theorem emptiness_exact_next_key :
    let r : Repository MemoryEngine :=
      { engine := {}, registry := {}, config := {}
        events := [.repositoryOpened "memory" "data" 0] }
    let h := (History.start r).run [
      .step "a" (.begin .readWrite), .step "a" (.act (.put "t" [7] [1])),
      .step "a" (.act (.put "t" [7, 0] [2])), .step "a" (.act .commit),
      .step "a" (.begin .readWrite), .step "a" (.act (.put "t" [7] [3])),
      .step "a" (.act (.remove "t" [7, 0]))]
    let range : KeyRange := ⟨.excluded [7], .excluded [7, 0]⟩
    range.isEmpty = false ∧ (∀ k, range.contains k = false) ∧ range.Walkable
    ∧ ∃ t, h.session.transaction? "a" = some t ∧ t.pending = 2
      ∧ ∃ c, t.scan h.repo "t" range .descending false = .ok c ∧ ∀ n, (c.takeRows n).1 = [] := by
  intro r h range
  have hopened : Repository.onEngine ({} : MemoryEngine) {} = .ok r := rfl
  have hreach : Reachable h := (Reachable.opened hopened).run _
  have hstate : (h.session.transaction? "a").map (fun t => (t.state, t.pending))
      = some (.active, 2) := by decide +kernel
  obtain ⟨t, ht, hsame⟩ := Option.map_eq_some_iff.mp hstate
  have hanswers := h.repo.engine.answers
  obtain ⟨_, _, hgap, hscans, hwalk, _⟩ := emptiness_exact (ε := MemoryEngine) range
  obtain ⟨hempty, hno⟩ := hgap (Or.inr ⟨[7], rfl⟩)
  obtain ⟨_, hscan⟩ := hscans h hreach hno hanswers.keepsToRange t "t" .descending false
  exact ⟨hempty, hno, hwalk hempty, t, ht, congrArg Prod.snd hsame,
    hscan (congrArg Prod.fst hsame) hanswers⟩

end KeyRange

end TableStore
