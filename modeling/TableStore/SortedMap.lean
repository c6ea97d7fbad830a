/-!
# Finite maps in key order

A map is the list of its bindings in strictly increasing order of keys. The order is
part of the type, so equal contents are equal lists, a walk over the list is a walk
in key order, and a map can be read off by looking at it.

The operations are insertion, removal and look-up; `insertBinding` and
`eraseBinding` are what they do to the list.
-/

namespace TableStore

/-- Strictly increasing in key. -/
def Ascending {κ : Type} [Ord κ] {α : Type} (bindings : List (κ × α)) : Prop :=
  bindings.Pairwise (fun a b => compare a.1 b.1 = .lt)

/-- A finite map, written as its bindings in key order. -/
structure SortedMap (κ : Type) [Ord κ] (α : Type) where
  /-- The bindings, each key once. -/
  toList : List (κ × α)
  /-- The keys increase. -/
  ascending : Ascending toList

/-- Put a binding in its place, over an older one of the same key. -/
def insertBinding {κ : Type} [Ord κ] {α : Type} (k : κ) (v : α) : List (κ × α) → List (κ × α)
  | [] => [(k, v)]
  | b :: rest =>
    match compare k b.1 with
    | .lt => (k, v) :: b :: rest
    | .eq => (k, v) :: rest
    | .gt => b :: insertBinding k v rest

/-- Take the binding of a key out. -/
def eraseBinding {κ : Type} [Ord κ] {α : Type} (k : κ) (bindings : List (κ × α)) : List (κ × α) :=
  bindings.filter (fun b => compare k b.1 != .eq)

section Order

variable {κ : Type} [Ord κ] {α : Type}

/-- An inserted list binds the new key and keys that were there. -/
theorem mem_insertBinding {k : κ} {v : α} {bindings : List (κ × α)} {b : κ × α}
    (h : b ∈ insertBinding k v bindings) : b = (k, v) ∨ b ∈ bindings := by
  induction bindings with
  | nil => simpa [insertBinding] using h
  | cons c rest ih =>
    unfold insertBinding at h
    split at h
    · simp only [List.mem_cons] at h ⊢
      exact h
    · simp only [List.mem_cons] at h ⊢
      rcases h with h | h
      · exact .inl h
      · exact .inr (.inr h)
    · simp only [List.mem_cons] at h ⊢
      rcases h with h | h
      · exact .inr (.inl h)
      · rcases ih h with h | h
        · exact .inl h
        · exact .inr (.inr h)

/-- Insertion keeps the order. -/
theorem Ascending.insertBinding [Std.TransOrd κ] {bindings : List (κ × α)}
    (h : Ascending bindings) (k : κ) (v : α) : Ascending (insertBinding k v bindings) := by
  induction bindings with
  | nil => simp [TableStore.insertBinding, Ascending]
  | cons c rest ih =>
    obtain ⟨hc, hrest⟩ := List.pairwise_cons.1 h
    unfold TableStore.insertBinding
    split
    · rename_i hlt
      refine List.pairwise_cons.2 ⟨fun b hb => ?_, h⟩
      rcases List.mem_cons.1 hb with rfl | hb
      · exact hlt
      · exact Std.TransCmp.lt_trans hlt (hc b hb)
    · rename_i heq
      refine List.pairwise_cons.2 ⟨fun b hb => ?_, hrest⟩
      exact Std.TransCmp.lt_of_eq_of_lt heq (hc b hb)
    · rename_i hgt
      refine List.pairwise_cons.2 ⟨fun b hb => ?_, ih hrest⟩
      rcases mem_insertBinding hb with rfl | hb
      · exact Std.OrientedCmp.lt_of_gt hgt
      · exact hc b hb

/-- Removal keeps the order. -/
theorem Ascending.eraseBinding {bindings : List (κ × α)} (h : Ascending bindings) (k : κ) :
    Ascending (eraseBinding k bindings) :=
  h.filter _

end Order

namespace SortedMap

variable {κ : Type} [Ord κ] {α β : Type}

/-- The map without bindings. -/
def empty : SortedMap κ α := ⟨[], List.Pairwise.nil⟩

instance : EmptyCollection (SortedMap κ α) := ⟨empty⟩

instance : Inhabited (SortedMap κ α) := ⟨empty⟩

/-- Two maps with the same bindings are the same. -/
@[ext] theorem ext {m n : SortedMap κ α} (h : m.toList = n.toList) : m = n := by
  cases m; cases n; cases h; rfl

/-- Number of bindings. -/
def size (m : SortedMap κ α) : Nat := m.toList.length

/-- Whether nothing is bound. -/
def isEmpty (m : SortedMap κ α) : Bool := m.toList.isEmpty

/-- The bound keys, in order. -/
def keys (m : SortedMap κ α) : List κ := m.toList.map Prod.fst

/-- The value of a key. -/
def get? (m : SortedMap κ α) (k : κ) : Option α :=
  (m.toList.find? (fun b => compare k b.1 == .eq)).map Prod.snd

/-- Whether a key is bound. -/
def contains (m : SortedMap κ α) (k : κ) : Bool := (m.get? k).isSome

/-- Bind a key, over an older binding of it. -/
def insert [Std.TransOrd κ] (m : SortedMap κ α) (k : κ) (v : α) : SortedMap κ α :=
  ⟨insertBinding k v m.toList, m.ascending.insertBinding k v⟩

/-- Unbind a key. -/
def erase (m : SortedMap κ α) (k : κ) : SortedMap κ α :=
  ⟨eraseBinding k m.toList, m.ascending.eraseBinding k⟩

/-- Bind the pairs of a list one after the other; of two for one key the later one stays. -/
def ofList [Std.TransOrd κ] (pairs : List (κ × α)) : SortedMap κ α :=
  pairs.foldl (fun m p => m.insert p.1 p.2) empty

@[simp] theorem toList_empty : (empty : SortedMap κ α).toList = [] := rfl

@[simp] theorem toList_insert [Std.TransOrd κ] (m : SortedMap κ α) (k : κ) (v : α) :
    (m.insert k v).toList = insertBinding k v m.toList := rfl

@[simp] theorem toList_erase (m : SortedMap κ α) (k : κ) :
    (m.erase k).toList = eraseBinding k m.toList := rfl

end SortedMap

end TableStore
