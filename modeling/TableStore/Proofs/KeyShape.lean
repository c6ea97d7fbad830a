import Mathlib.Algebra.Group.Nat.Defs
import Mathlib.Data.List.Induction
import TableStore.Key.Shape
import TableStore.Proofs.Utf8

/-!
# Keys are read back exactly

A key type is a family, and the family is inductive: components of one width, text, bytes, and
pairs of a component with any other type. For each of them reading accepts the bytes that writing
produces, with the key that was written, and no others (`decode_iff_encode`).

Numbers to the base 256 carry the components. With as many digits as the width, writing and
reading are inverse on both sides: a number that fits is read back (`ofBigEndian_toBigEndian`),
and bytes of the right number are the digits of what they stand for (`toBigEndian_ofBigEndian`).
A signed number is shifted into that range, and the shift is a bijection onto it.

A pair is split where its head ends. That this is where the head's encoding ended is
`length_encode`: the width is the length of every encoding.
-/

namespace TableStore

/-! ## Numbers to the base 256 -/

@[simp] theorem length_toBigEndian (n width : Nat) : (toBigEndian n width).length = width := by
  induction width generalizing n with
  | zero => rfl
  | succ width ih => rw [toBigEndian, List.length_append, ih, List.length_singleton]

theorem ofBigEndian_snoc (bytes : Bytes) (b : UInt8) :
    ofBigEndian (bytes ++ [b]) = ofBigEndian bytes * 256 + b.toNat := by
  unfold ofBigEndian
  rw [List.foldl_append]
  rfl

/-- A number that fits into its digits is read back. -/
theorem ofBigEndian_toBigEndian {n width : Nat} (h : n < 256 ^ width) :
    ofBigEndian (toBigEndian n width) = n := by
  induction width generalizing n with
  | zero =>
      have hn : n = 0 := by simpa using h
      rw [hn]
      rfl
  | succ width ih =>
      have hdigits : n / 256 < 256 ^ width := by
        rw [Nat.pow_succ] at h
        exact Nat.div_lt_of_lt_mul (by omega)
      have hlast : (UInt8.ofNat (n % 256)).toNat = n % 256 :=
        Utf8.toNat_ofNat_of_lt (Nat.mod_lt _ (by decide))
      rw [toBigEndian, ofBigEndian_snoc, ih hdigits, hlast]
      omega

theorem ofBigEndian_lt (bytes : Bytes) : ofBigEndian bytes < 256 ^ bytes.length := by
  induction bytes using List.reverseRecOn with
  | nil => decide
  | append_singleton bytes b ih =>
      have hb := b.toNat_lt
      rw [ofBigEndian_snoc, List.length_append, List.length_singleton, Nat.pow_succ]
      omega

/-- Bytes are the digits of the number that they stand for. -/
theorem toBigEndian_ofBigEndian (bytes : Bytes) :
    toBigEndian (ofBigEndian bytes) bytes.length = bytes := by
  induction bytes using List.reverseRecOn with
  | nil => rfl
  | append_singleton bytes b ih =>
      have hb := b.toNat_lt
      have hrest : (ofBigEndian bytes * 256 + b.toNat) / 256 = ofBigEndian bytes := by omega
      have hlast : (ofBigEndian bytes * 256 + b.toNat) % 256 = b.toNat := by omega
      rw [ofBigEndian_snoc, List.length_append, List.length_singleton, toBigEndian, hrest, hlast,
        ih, UInt8.ofNat_toNat]

namespace FixedKey

/-! ## Components -/

theorem length_encode (k : FixedKey) (v : k.Value) : (k.encode v).length = k.width := by
  cases k with
  | array n => exact v.2
  | u8 => exact length_toBigEndian _ _
  | u16 => exact length_toBigEndian _ _
  | u32 => exact length_toBigEndian _ _
  | u64 => exact length_toBigEndian _ _
  | i64 => exact length_toBigEndian _ _

/-- A signed number, once shifted, is one of sixty-four bits. -/
theorem shift_range (v : Int64) :
    0 ≤ v.toInt + signShift ∧ v.toInt + signShift < 18446744073709551616 := by
  have hlow := v.le_toInt
  have hhigh := v.toInt_lt
  unfold signShift
  omega

/-- What was written is read back. -/
theorem ofBytes_encode (k : FixedKey) (v : k.Value) :
    k.ofBytes (k.encode v) (k.length_encode v) = v := by
  cases k with
  | u8 =>
      show UInt8.ofNat (ofBigEndian (toBigEndian v.toNat 1)) = v
      rw [ofBigEndian_toBigEndian v.toNat_lt, UInt8.ofNat_toNat]
  | u16 =>
      show UInt16.ofNat (ofBigEndian (toBigEndian v.toNat 2)) = v
      rw [ofBigEndian_toBigEndian v.toNat_lt, UInt16.ofNat_toNat]
  | u32 =>
      show UInt32.ofNat (ofBigEndian (toBigEndian v.toNat 4)) = v
      rw [ofBigEndian_toBigEndian v.toNat_lt, UInt32.ofNat_toNat]
  | u64 =>
      show UInt64.ofNat (ofBigEndian (toBigEndian v.toNat 8)) = v
      rw [ofBigEndian_toBigEndian v.toNat_lt, UInt64.ofNat_toNat]
  | i64 =>
      obtain ⟨hlow, hhigh⟩ := shift_range v
      have hfits : (v.toInt + signShift).toNat < 256 ^ 8 := by omega
      show Int64.ofInt ((ofBigEndian (toBigEndian (v.toInt + signShift).toNat 8) : Int)
        - signShift) = v
      rw [ofBigEndian_toBigEndian hfits, Int.toNat_of_nonneg hlow, Int.add_sub_cancel,
        Int64.ofInt_toInt]
  | array n => rfl

/-- Bytes of the right number are what the key that is read from them is written as. -/
theorem encode_ofBytes (k : FixedKey) {bytes : Bytes} (h : bytes.length = k.width) :
    k.encode (k.ofBytes bytes h) = bytes := by
  have hlt := ofBigEndian_lt bytes
  have hdigits := toBigEndian_ofBigEndian bytes
  rw [h] at hlt hdigits
  cases k with
  | u8 =>
      show toBigEndian (UInt8.ofNat (ofBigEndian bytes)).toNat 1 = bytes
      rw [UInt8.toNat_ofNat_of_lt' hlt]
      exact hdigits
  | u16 =>
      show toBigEndian (UInt16.ofNat (ofBigEndian bytes)).toNat 2 = bytes
      rw [UInt16.toNat_ofNat_of_lt' hlt]
      exact hdigits
  | u32 =>
      show toBigEndian (UInt32.ofNat (ofBigEndian bytes)).toNat 4 = bytes
      rw [UInt32.toNat_ofNat_of_lt' hlt]
      exact hdigits
  | u64 =>
      show toBigEndian (UInt64.ofNat (ofBigEndian bytes)).toNat 8 = bytes
      rw [UInt64.toNat_ofNat_of_lt' hlt]
      exact hdigits
  | i64 =>
      change ofBigEndian bytes < 18446744073709551616 at hlt
      have hback : (Int64.ofInt ((ofBigEndian bytes : Int) - signShift)).toInt
          = (ofBigEndian bytes : Int) - signShift := by
        unfold signShift
        exact Int64.toInt_ofInt_of_le (by omega) (by omega)
      show toBigEndian ((Int64.ofInt ((ofBigEndian bytes : Int) - signShift)).toInt
        + signShift).toNat 8 = bytes
      rw [hback, Int.sub_add_cancel, Int.toNat_natCast]
      exact hdigits
  | array n => rfl

theorem decode_eq_ok_iff (k : FixedKey) (bytes : Bytes) (v : k.Value) :
    k.decode bytes = .ok v ↔ k.encode v = bytes := by
  unfold decode
  constructor
  · intro h
    split at h
    · rename_i hlen
      rw [← Except.ok.inj h]
      exact k.encode_ofBytes hlen
    · exact absurd h (by simp)
  · rintro rfl
    rw [dif_pos (k.length_encode v)]
    exact congrArg Except.ok (k.ofBytes_encode v)

theorem decode_corruption (k : FixedKey) (bytes : Bytes) :
    (∃ v, k.encode v = bytes) ∨ ∃ damage, k.decode bytes = .error (.corruption damage) := by
  by_cases hlen : bytes.length = k.width
  · exact Or.inl ⟨k.ofBytes bytes hlen, k.encode_ofBytes hlen⟩
  · refine Or.inr ⟨.keyWidth bytes.length k.width, ?_⟩
    unfold decode
    rw [dif_neg hlen]

end FixedKey

namespace KeyShape

/-! ## The family -/

/-- A pair is written as its head in as many bytes as the head is wide, and its tail behind. -/
theorem encode_pair_iff {head : FixedKey} {tail : KeyShape} {a : head.Value} {b : tail.Value}
    {bytes : Bytes} : (pair head tail).encode (a, b) = bytes
      ↔ head.encode a = bytes.take head.width ∧ tail.encode b = bytes.drop head.width := by
  have hlen := head.length_encode a
  show head.encode a ++ tail.encode b = bytes ↔ _
  constructor
  · rintro rfl
    rw [List.take_left' hlen, List.drop_left' hlen]
    exact ⟨rfl, rfl⟩
  · rintro ⟨hhead, htail⟩
    rw [hhead, htail, List.take_append_drop]

theorem decode_pair (head : FixedKey) (tail : KeyShape) (bytes : Bytes) :
    (pair head tail).decode bytes
      = if bytes.length < head.width then .error (.corruption (.keyWidth bytes.length head.width))
        else
          match head.decode (bytes.take head.width), tail.decode (bytes.drop head.width) with
          | .error e, _ => .error e
          | .ok _, .error e => .error e
          | .ok a, .ok b => .ok (a, b) := by
  rw [decode]
  split
  · rfl
  · cases head.decode (bytes.take head.width) with
    | error e => rfl
    | ok a => cases tail.decode (bytes.drop head.width) <;> rfl

/-- Reading finds the key that was written. -/
theorem decode_encode (k : KeyShape) (v : k.Value) : k.decode (k.encode v) = .ok v := by
  induction k with
  | fixed k => exact (k.decode_eq_ok_iff _ v).mpr rfl
  | text =>
      have hread : Utf8.decode (text.encode v) = .ok v := Utf8.decode_encode v
      rw [decode, hread]
  | bytes => rfl
  | pair head tail ih =>
      obtain ⟨a, b⟩ := v
      obtain ⟨hhead, htail⟩ := encode_pair_iff.mp (rfl : (pair head tail).encode (a, b) = _)
      have hlen : ¬ ((pair head tail).encode (a, b)).length < head.width := by
        show ¬ (head.encode a ++ tail.encode b).length < head.width
        rw [List.length_append, head.length_encode]
        omega
      rw [decode_pair, if_neg hlen, ← hhead, ← htail, (head.decode_eq_ok_iff _ a).mpr rfl, ih b]

/-- What is read was written, or is damaged. -/
theorem decode_cases (k : KeyShape) (bytes : Bytes) :
    (∃ v, k.decode bytes = .ok v ∧ k.encode v = bytes)
    ∨ ∃ damage, k.decode bytes = .error (.corruption damage) := by
  induction k generalizing bytes with
  | fixed k =>
      refine (k.decode_corruption bytes).imp_left (fun ⟨v, hv⟩ => ?_)
      exact ⟨v, (k.decode_eq_ok_iff bytes v).mpr hv, hv⟩
  | text =>
      rw [decode]
      cases hd : Utf8.decode bytes with
      | ok s => exact Or.inl ⟨s, rfl, Utf8.decode_eq_ok_iff.mp hd⟩
      | error e => exact Or.inr ⟨.keyNotText e, rfl⟩
  | bytes => exact Or.inl ⟨bytes, rfl, rfl⟩
  | pair head tail ih =>
      rw [decode_pair]
      split
      · exact Or.inr ⟨_, rfl⟩
      · rcases head.decode_corruption (bytes.take head.width) with ⟨a, ha⟩ | ⟨damage, hd⟩
        · rcases ih (bytes.drop head.width) with ⟨b, hdb, hb⟩ | ⟨damage, hd⟩
          · have hda := (head.decode_eq_ok_iff _ a).mpr ha
            rw [hda, hdb]
            exact Or.inl ⟨(a, b), rfl, encode_pair_iff.mpr ⟨ha, hb⟩⟩
          · rw [(head.decode_eq_ok_iff _ a).mpr ha, hd]
            exact Or.inr ⟨damage, rfl⟩
        · rw [hd]
          exact Or.inr ⟨damage, rfl⟩

theorem encode_injective (k : KeyShape) {v w : k.Value} (h : k.encode v = k.encode w) : v = w :=
  Except.ok.inj ((k.decode_encode v).symm.trans (h ▸ k.decode_encode w))

/--
**Reading accepts exactly what writing produces.** For every type of keys, bytes are read as a key
just when they are what the key is written as. Bytes that no key is written as are damaged, and
that is the only error.
-/
theorem decode_iff_encode (k : KeyShape) (bytes : Bytes) :
    (∀ v, k.decode bytes = .ok v ↔ k.encode v = bytes)
    ∧ ((∃ v, k.encode v = bytes) ∨ ∃ damage, k.decode bytes = .error (.corruption damage)) := by
  refine ⟨fun v => ⟨fun h => ?_, fun h => h ▸ k.decode_encode v⟩, ?_⟩
  · rcases k.decode_cases bytes with ⟨w, hw, he⟩ | ⟨damage, hd⟩
    · rw [hw] at h
      rw [← Except.ok.inj h]
      exact he
    · rw [hd] at h
      exact absurd h (by simp)
  · exact (k.decode_cases bytes).imp_left (fun ⟨v, _, hv⟩ => ⟨v, hv⟩)

end KeyShape

end TableStore
