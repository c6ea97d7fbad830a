import TableStore.Engine
import TableStore.Proofs.KeyRange
import TableStore.Proofs.SortedMap

/-!
# The engines keep the laws

The memory engine walks by seeking anew at each step and narrowing one of its bounds.
The invariant that makes this the plain walk is that the rows inside the bounds are the
rows not yet visited: taking the nearest row inside and moving the bound past it takes
exactly that row out (`filter_past_head`, `filter_before_last`). So a walk that is
drained is `Rows.within` (`Seek.drain_start`), and the memory engine answers every read
from its rows.

The disk engine answers likewise. Every engine is atomic, the faulty one included; what
its faults break are the reads.
-/

namespace TableStore

/-! ## Walking by seeking -/

section Seek

variable {l : List Entry} {r : KeyRange}

/-- Moving the lower bound past the first row inside leaves the other rows inside. -/
theorem filter_past_head (hl : Ascending l) {e : Entry} {rest : List Entry}
    (h : l.filter (fun x => r.contains x.1) = e :: rest) :
    l.filter (fun x => (KeyRange.mk (.excluded e.1) r.stop).contains x.1) = rest := by
  have he : r.contains e.1 = true := by
    have hmem : e ∈ l.filter (fun x => r.contains x.1) := h ▸ List.mem_cons_self
    exact (List.mem_filter.mp hmem).2
  have hsplit : l.filter (fun x => (KeyRange.mk (.excluded e.1) r.stop).contains x.1)
      = (l.filter (fun x => r.contains x.1)).filter (fun x => compareKeys x.1 e.1 == .gt) := by
    rw [List.filter_filter]
    refine List.filter_congr (fun x _ => ?_)
    show ((compareKeys x.1 e.1 == .gt) && r.stop.above x.1)
      = ((compareKeys x.1 e.1 == .gt) && (r.start.below x.1 && r.stop.above x.1))
    cases hx : compareKeys x.1 e.1 == .gt with
    | false => rfl
    | true =>
        have hlt := compareKeys_gt_iff.mp (beq_iff_eq.mp hx)
        rw [Bound.below_of_lt (KeyRange.contains_iff.mp he).1 hlt, Bool.true_and, Bool.true_and]
  have hsorted : Ascending (e :: rest) := h ▸ hl.filter _
  have hrest : rest.filter (fun x => compareKeys x.1 e.1 == .gt) = rest := by
    refine List.filter_eq_self.mpr (fun x hx => beq_iff_eq.mpr (compareKeys_gt_iff.mpr ?_))
    rw [compareKeys_eq_compare]
    exact (List.pairwise_cons.mp hsorted).1 x hx
  rw [hsplit, h, List.filter_cons, compareKeys_self, hrest]
  rfl

/-- Moving the upper bound before the last row inside leaves the other rows inside. -/
theorem filter_before_last (hl : Ascending l) {e : Entry} {init : List Entry}
    (h : l.filter (fun x => r.contains x.1) = init ++ [e]) :
    l.filter (fun x => (KeyRange.mk r.start (.excluded e.1)).contains x.1) = init := by
  have he : r.contains e.1 = true := by
    have hmem : e ∈ l.filter (fun x => r.contains x.1) :=
      h ▸ List.mem_append_right _ List.mem_cons_self
    exact (List.mem_filter.mp hmem).2
  have hsplit : l.filter (fun x => (KeyRange.mk r.start (.excluded e.1)).contains x.1)
      = (l.filter (fun x => r.contains x.1)).filter (fun x => compareKeys x.1 e.1 == .lt) := by
    rw [List.filter_filter]
    refine List.filter_congr (fun x _ => ?_)
    show (r.start.below x.1 && (compareKeys x.1 e.1 == .lt))
      = ((compareKeys x.1 e.1 == .lt) && (r.start.below x.1 && r.stop.above x.1))
    cases hx : compareKeys x.1 e.1 == .lt with
    | false => rw [Bool.and_false, Bool.false_and]
    | true =>
        rw [Bound.above_of_lt (KeyRange.contains_iff.mp he).2 (beq_iff_eq.mp hx), Bool.and_true,
          Bool.true_and]
  have hsorted : Ascending (init ++ [e]) := h ▸ hl.filter _
  have hinit : init.filter (fun x => compareKeys x.1 e.1 == .lt) = init := by
    refine List.filter_eq_self.mpr (fun x hx => beq_iff_eq.mpr ?_)
    rw [compareKeys_eq_compare]
    exact (List.pairwise_append.mp hsorted).2.2 x hx e List.mem_cons_self
  rw [hsplit, h, List.filter_append, hinit, List.filter_cons, compareKeys_self]
  exact List.append_nil init

/-- Bounds that are called empty have no rows between them. -/
theorem Rows.within_of_isEmpty (rows : Rows) {range : KeyRange} (h : range.isEmpty = true)
    (order : ScanOrder) : rows.within range order = [] := by
  have hnil : rows.toList.filter (fun e => range.contains e.1) = [] :=
    List.filter_eq_nil_iff.mpr (fun e _ => by
      rw [KeyRange.not_contains_of_isEmpty h]; exact Bool.false_ne_true)
  unfold Rows.within
  rw [hnil]
  cases order <;> rfl

namespace Seek

/-- The nearest row is the first of the rows inside, in the direction of the walk. -/
theorem nearest?_eq (s : Seek) : s.nearest? = (s.rows.within s.ahead s.order).head? := by
  unfold nearest? Rows.within
  cases s.order with
  | ascending => rfl
  | descending => exact List.head?_reverse.symm

/-- Moving a bound past the nearest row takes that row out, and no other. -/
theorem within_narrowed {s : Seek} {e : Entry} {rest : List Entry}
    (h : s.rows.within s.ahead s.order = e :: rest) :
    s.rows.within (s.narrowed e.1) s.order = rest := by
  unfold Rows.within at h ⊢
  unfold narrowed
  cases ho : s.order with
  | ascending =>
      rw [ho] at h
      exact filter_past_head s.rows.ascending h
  | descending =>
      rw [ho] at h
      have hlast := List.reverse_eq_iff.mp h
      rw [List.reverse_cons] at hlast
      show (List.filter _ _).reverse = rest
      rw [filter_before_last s.rows.ascending hlast, List.reverse_reverse]

end Seek

/-- **What a walk visits are the rows inside its bounds, in its direction.** The induction is
on the number of steps; an ended walk has nothing inside its bounds. -/
theorem Seek.take_eq (s : Seek) (hdone : s.done = true → s.ahead.isEmpty = true) (fuel : Nat) :
    s.take fuel = (s.rows.within s.ahead s.order).take fuel := by
  induction fuel generalizing s with
  | zero => simp [Seek.take]
  | succ fuel ih =>
      have hnear := s.nearest?_eq
      rw [Seek.take, Seek.next]
      by_cases hd : s.done = true
      · rw [if_pos hd, Rows.within_of_isEmpty _ (hdone hd)]
        rfl
      · rw [if_neg hd]
        cases hw : s.rows.within s.ahead s.order with
        | nil =>
            rw [hw] at hnear
            rw [hnear]
            rfl
        | cons e rest =>
            rw [hw] at hnear
            rw [hnear]
            show e :: Seek.take _ fuel = (e :: rest).take (fuel + 1)
            rw [ih _ (fun h => h), List.take_succ_cons]
            exact congrArg (fun rows => e :: rows.take fuel) (within_narrowed hw)

/-- **Re-seeking is the plain walk.** -/
theorem Seek.drain_start (rows : Rows) (range : KeyRange) (order : ScanOrder) :
    (Seek.start rows range order).drain = rows.within range order := by
  unfold Seek.drain
  rw [Seek.take_eq _ (fun h => h)]
  refine List.take_of_length_le ?_
  have hle : (rows.within range order).length ≤ rows.toList.length := by
    unfold Rows.within
    cases order <;> simp [ScanOrder.arrange, List.length_filter_le]
  exact Nat.le_succ_of_le hle

end Seek

/-! ## What each engine owes -/

/-- Reading every row of a walk without errors counts them. -/
theorem Walk.count_map_ok (entries : List Entry) :
    Walk.count (entries.map .ok) = .ok entries.length := by
  induction entries with
  | nil => rfl
  | cons e rest ih =>
      rw [List.map_cons, Walk.count, ih]
      rfl

theorem MemoryEngine.scan_eq (engine : MemoryEngine) (range : KeyRange) (order : ScanOrder) :
    StorageEngine.scan engine range order
      = .ok (((StorageEngine.rows engine).within range order).map .ok) := by
  show Except.ok ((Seek.start engine.rows range order).drain.map _) = _
  rw [Seek.drain_start]
  rfl

/-- **The memory engine answers from its rows,** whether its fault is armed or not. -/
theorem MemoryEngine.answers (engine : MemoryEngine) : StorageEngine.Answers engine where
  get_eq _ := rfl
  contains_eq _ := rfl
  scan_eq := engine.scan_eq
  count_eq range := by
    show (StorageEngine.scan engine range .ascending).bind Walk.count = _
    rw [engine.scan_eq]
    exact Walk.count_map_ok _
  snapshot_eq := Or.inr rfl

/-- Without an armed fault the memory engine fails at nothing. -/
theorem MemoryEngine.healthy {engine : MemoryEngine} (h : engine.failAfter = none) :
    StorageEngine.Healthy engine where
  toAnswers := engine.answers
  write_ok batch _ := by
    show (engine.write batch).1 = .ok ()
    unfold MemoryEngine.write
    rw [h]

/-- A batch on the memory engine is refused as a whole or applied as a whole. -/
theorem MemoryEngine.write_cases (engine : MemoryEngine) (batch : WriteBatch) :
    (∃ n, engine.failAfter = some n ∧ n < batch.length
      ∧ engine.write batch
        = (.error (.storage (.armedFault n)), { engine with failAfter := none }))
    ∨ ((∀ n, engine.failAfter = some n → batch.length ≤ n)
      ∧ engine.write batch = (.ok (), { engine with rows := batch.applyTo engine.rows })) := by
  unfold MemoryEngine.write
  cases hf : engine.failAfter with
  | none => exact Or.inr ⟨fun n hn => by simp at hn, rfl⟩
  | some n =>
      by_cases hn : n < batch.length
      · exact Or.inl ⟨n, rfl, hn, by simp [hn]⟩
      · refine Or.inr ⟨fun m hm => ?_, by simp [hn]⟩
        rw [← Option.some.inj hm]
        exact Nat.le_of_not_lt hn

/-- A memory engine refuses a batch for an armed fault, and for nothing else. -/
theorem MemoryEngine.write_error {engine : MemoryEngine} {batch : WriteBatch} {e : StoreError}
    (h : (engine.write batch).1 = .error e) : ∃ n, e = .storage (.armedFault n) := by
  rcases engine.write_cases batch with ⟨n, _, _, hw⟩ | ⟨_, hw⟩
  · rw [hw] at h
    exact ⟨n, (Except.error.inj h).symm⟩
  · rw [hw] at h
    exact absurd h (by simp)

instance : AtomicEngine MemoryEngine where
  rows_write_ok engine batch _ h := by
    rcases engine.write_cases batch with ⟨n, _, _, hw⟩ | ⟨_, hw⟩
    · exact absurd (congrArg Prod.fst hw ▸ h : Except.error _ = _) (by simp)
    · exact congrArg (fun w : _ × MemoryEngine => w.2.rows) hw
  rows_write_error engine batch _ e h := by
    rcases engine.write_cases batch with ⟨n, _, _, hw⟩ | ⟨_, hw⟩
    · exact congrArg (fun w : _ × MemoryEngine => w.2.rows) hw
    · exact absurd (congrArg Prod.fst hw ▸ h : Except.ok _ = _) (by simp)

theorem DiskEngine.scan_eq (engine : DiskEngine) (range : KeyRange) (order : ScanOrder) :
    StorageEngine.scan engine range order
      = .ok (((StorageEngine.rows engine).within range order).map .ok) := by
  show Except.ok (if range.isEmpty then [] else _) = _
  by_cases h : range.isEmpty = true
  · rw [if_pos h, Rows.within_of_isEmpty _ h]
    rfl
  · rw [if_neg h]
    rfl

/-- **The disk engine fails at nothing.** -/
theorem DiskEngine.healthy (engine : DiskEngine) : StorageEngine.Healthy engine where
  get_eq _ := rfl
  contains_eq _ := rfl
  scan_eq := engine.scan_eq
  count_eq range := by
    show (StorageEngine.scan engine range .ascending).bind Walk.count = _
    rw [engine.scan_eq]
    exact Walk.count_map_ok _
  snapshot_eq := Or.inl rfl
  write_ok _ _ := rfl

instance : AtomicEngine DiskEngine where
  rows_write_ok _ _ _ _ := rfl
  rows_write_error _ _ _ _ h := absurd h (by simp [StorageEngine.write])

/-- A write of the faulty engine is refused by a fault or goes to the engine inside. -/
theorem FaultyEngine.write_cases (engine : FaultyEngine) (batch : WriteBatch) (sync : Bool) :
    (∃ e, engine.write batch sync = (.error e, engine))
    ∨ engine.write batch sync
      = ((engine.inner.write batch).1, { engine with inner := (engine.inner.write batch).2 }) := by
  unfold FaultyEngine.write
  dsimp only
  split
  · exact Or.inl ⟨_, rfl⟩
  · exact Or.inr rfl

/-- What the faults break are the reads: a batch is still made as a whole or not at all. -/
instance : AtomicEngine FaultyEngine where
  rows_write_ok engine batch sync h := by
    show (engine.write batch sync).2.inner.rows = _
    change (engine.write batch sync).1 = .ok () at h
    rcases engine.write_cases batch sync with ⟨e, hw⟩ | hw
    · rw [hw] at h; exact absurd h (by simp)
    · rw [hw] at h ⊢
      exact AtomicEngine.rows_write_ok engine.inner batch sync h
  rows_write_error engine batch sync e h := by
    show (engine.write batch sync).2.inner.rows = _
    change (engine.write batch sync).1 = .error e at h
    rcases engine.write_cases batch sync with ⟨e', hw⟩ | hw
    · rw [hw]; rfl
    · rw [hw] at h ⊢
      exact AtomicEngine.rows_write_error engine.inner batch sync e h

/-- **Without faults the faulty engine is a memory engine,** and fails at nothing. -/
theorem FaultyEngine.healthy {inner : MemoryEngine} (h : inner.failAfter = none) :
    StorageEngine.Healthy (FaultyEngine.mk inner {}) := by
  have hscan : ∀ range order, StorageEngine.scan (FaultyEngine.mk inner {}) range order
      = .ok ((inner.rows.within range order).map .ok) := by
    intro range order
    show guard none ((StorageEngine.scan inner range order).map
      (fun walk => walk.mapIdx (spoil {}))) = _
    rw [inner.scan_eq]
    have hspoil : ∀ walk : Walk, walk.mapIdx (spoil {}) = walk := fun walk => by
      refine List.ext_getElem? (fun i => ?_)
      rw [List.getElem?_mapIdx]
      cases walk[i]? <;> rfl
    exact congrArg Except.ok (hspoil _)
  exact {
    get_eq := fun _ => rfl
    contains_eq := fun _ => rfl
    scan_eq := hscan
    count_eq := fun range => by
      show guard none ((StorageEngine.scan (FaultyEngine.mk inner {}) range .ascending).bind
        Walk.count) = _
      rw [hscan]
      exact Walk.count_map_ok _
    snapshot_eq := Or.inr rfl
    write_ok := fun batch sync => by
      have hclean : (FaultyEngine.mk inner {}).write batch sync
          = ((inner.write batch).1, ⟨(inner.write batch).2, {}⟩) := by
        unfold FaultyEngine.write
        cases sync <;> rfl
      show ((FaultyEngine.mk inner {}).write batch sync).1 = .ok ()
      rw [hclean]
      exact (MemoryEngine.healthy h).write_ok batch sync }

/-- The entries of a walk without errors are known from the walk. -/
theorem map_ok_inj {a b : List Entry}
    (h : a.map (.ok : Entry → Except StoreError Entry) = b.map .ok) : a = b :=
  List.map_inj_right (fun _ _ he => Except.ok.inj he) |>.mp h

/-- An atomic engine whose every value answers is honest. -/
theorem HonestEngine.of_answers {ε : Type} [StorageEngine ε] [AtomicEngine ε]
    (h : ∀ engine : ε, StorageEngine.Answers engine) : HonestEngine ε where
  scan_honest engine range order entries hs := by
    rw [(h engine).scan_eq] at hs
    exact (map_ok_inj (Except.ok.inj hs)).symm

instance : HonestEngine MemoryEngine := .of_answers MemoryEngine.answers

instance : HonestEngine DiskEngine := .of_answers (fun engine => engine.healthy.toAnswers)

/-! ## The engine of a program -/

instance : AtomicEngine Engine where
  rows_write_ok engine batch sync h := by
    cases engine with
    | memory e => exact AtomicEngine.rows_write_ok e batch sync h
    | disk e => exact AtomicEngine.rows_write_ok e batch sync h
    | faulty e => exact AtomicEngine.rows_write_ok e batch sync h
  rows_write_error engine batch sync e h := by
    cases engine with
    | memory inner => exact AtomicEngine.rows_write_error inner batch sync e h
    | disk inner => exact AtomicEngine.rows_write_error inner batch sync e h
    | faulty inner => exact AtomicEngine.rows_write_error inner batch sync e h

/-- An engine that a program opens for its config, while nobody arms a fault of it. -/
inductive Engine.Steady : Backend → Engine → Prop where
  | memory {engine : MemoryEngine} (unarmed : engine.failAfter = none) :
      Steady .memory (.memory engine)
  | disk (engine : DiskEngine) : Steady .sled (.disk engine)

namespace Engine.Steady

variable {backend : Backend} {engine : Engine}

/-- A steady engine fails at nothing. -/
theorem healthy (h : engine.Steady backend) : StorageEngine.Healthy engine := by
  cases h with
  | @memory inner unarmed =>
      have hinner := MemoryEngine.healthy unarmed
      exact ⟨⟨hinner.get_eq, hinner.contains_eq, hinner.scan_eq, hinner.count_eq,
        hinner.snapshot_eq⟩, hinner.write_ok⟩
  | disk inner =>
      have hinner := inner.healthy
      exact ⟨⟨hinner.get_eq, hinner.contains_eq, hinner.scan_eq, hinner.count_eq,
        hinner.snapshot_eq⟩, hinner.write_ok⟩

/-- It stays steady, whatever is written to it. -/
theorem write (h : engine.Steady backend) (batch : WriteBatch) (sync : Bool) :
    (StorageEngine.write engine batch sync).2.Steady backend := by
  cases h with
  | @memory inner unarmed =>
      refine .memory ?_
      show (inner.write batch).2.failAfter = none
      unfold MemoryEngine.write
      rw [unarmed]
  | disk inner => exact .disk _

theorem flush (h : engine.Steady backend) : StorageEngine.flush engine = .ok () := by
  cases h <;> rfl

theorem of_ofBackend {found : Rows} (h : Engine.ofBackend backend found = .ok engine) :
    engine.Steady backend := by
  cases backend with
  | memory => exact Except.ok.inj h ▸ .memory rfl
  | sled => exact Except.ok.inj h ▸ .disk _
  | rocksdb => exact absurd h (by simp [Engine.ofBackend])

end Engine.Steady

end TableStore
