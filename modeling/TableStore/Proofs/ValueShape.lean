import Mathlib.Algebra.Group.Nat.Defs
import TableStore.Proofs.SortedMap
import TableStore.Proofs.Utf8
import TableStore.Value.Shape

/-!
# Reading back what was written

Every reader takes its own value off the front of any bytes that begin with it, and leaves what
follows (`read_append`). The readers are put together from a few, and so is the proof: bytes of a
known number, a number of a known width, a text behind its length, items one after the other. Of
a value of its own each reader sees all there is and never looks past it, so a pair needs nothing
between its parts and a list nothing between its items.

A length is written in eight bytes and the number of a variant in four. `ValueShape.Fits` says of
a value that its lengths and numbers have this room. No value in a memory of 64 bits is without it.
-/

namespace TableStore

theorem length_toLittleEndian (n width : Nat) : (toLittleEndian n width).length = width := by
  induction width generalizing n with
  | zero => rfl
  | succ width ih => rw [toLittleEndian, List.length_cons, ih]

theorem ofLittleEndian_toLittleEndian {n width : Nat} (h : n < 256 ^ width) :
    ofLittleEndian (toLittleEndian n width) = n := by
  induction width generalizing n with
  | zero =>
      have hn : n = 0 := by simpa using h
      rw [hn]
      rfl
  | succ width ih =>
      rw [Nat.pow_succ] at h
      have hrest := ih (Nat.div_lt_of_lt_mul (by omega) : n / 256 < 256 ^ width)
      have hfirst : (UInt8.ofNat (n % 256)).toNat = n % 256 :=
        Utf8.toNat_ofNat_of_lt (Nat.mod_lt n (by decide))
      rw [toLittleEndian, ofLittleEndian, hfirst, hrest]
      omega

namespace ValueShape

/-! ## Values that fit -/

/-- Whether the length of a text has room in eight bytes. -/
def FitsText (s : String) : Prop := (Utf8.encode s).length < 256 ^ 8

/-- Whether the lengths in a value and the numbers of its variants have room. -/
def Fits : (s : ValueShape) → s.Value → Prop
  | text, s => FitsText s
  | option _, none => True
  | option s, some v => s.Fits v
  | list s, vs => vs.length < 256 ^ 8 ∧ ∀ v ∈ vs, s.Fits v
  | pair a b, v => a.Fits v.1 ∧ b.Fits v.2
  | map, m => m.size < 256 ^ 8 ∧ ∀ e ∈ m.toList, FitsText e.1
  | choice _ variant, v => v.1.val < 256 ^ 4 ∧ (variant v.1).Fits v.2
  | u8, _ | u16, _ | u32, _ | u64, _ | i8, _ | i32, _ | i64, _ | bool, _ | char, _ | unit, _
  | array _, _ => True

/-! ## The parts of readers -/

theorem readBytes_append (bytes rest : Bytes) (onEnd : ValueError) :
    readBytes bytes.length onEnd (bytes ++ rest) = .ok (bytes, rest) := by
  unfold readBytes
  have hlen : ¬ (bytes ++ rest).length < bytes.length := by simp
  rw [if_neg hlen, List.take_left, List.drop_left]

theorem readNat_append {n width : Nat} (h : n < 256 ^ width) (rest : Bytes) :
    readNat width (toLittleEndian n width ++ rest) = .ok (n, rest) := by
  have hbytes := readBytes_append (toLittleEndian n width) rest .endOfInput
  rw [length_toLittleEndian] at hbytes
  unfold readNat
  rw [hbytes]
  dsimp only
  rw [ofLittleEndian_toLittleEndian h]

/-- A number that is read as a value of some other kind. -/
theorem map_readNat_append {α : Type} (f : Nat → α) {n width : Nat} (h : n < 256 ^ width)
    (rest : Bytes) :
    (readNat width (toLittleEndian n width ++ rest)).map (fun p => (f p.1, p.2))
      = .ok (f n, rest) := by
  rw [readNat_append h]
  rfl

theorem readText_append {s : String} (h : FitsText s) (rest : Bytes) :
    readText (encodeText s ++ rest) = .ok (s, rest) := by
  unfold readText encodeText
  rw [List.append_assoc, readNat_append h]
  dsimp only
  rw [readBytes_append]
  dsimp only
  rw [Utf8.decode_encode]

theorem readChar_append (c : Char) (rest : Bytes) :
    readChar (Utf8.encodeChar c ++ rest) = .ok (c, rest) := by
  obtain ⟨first, tail, hc, hhead⟩ := Utf8.headChar_encodeChar c rest
  rw [hc]
  show readChar (first :: (tail ++ rest)) = _
  unfold readChar
  dsimp only
  rw [hhead]
  dsimp only
  rw [List.drop_left]

/-- Items that can each be read off the front can be read one after the other. -/
theorem readList_append {α : Type} {item : Reader α} {write : α → Bytes} {vs : List α}
    (h : ∀ v ∈ vs, ∀ rest, item (write v ++ rest) = .ok (v, rest)) (rest : Bytes) :
    readList item vs.length (vs.flatMap write ++ rest) = .ok (vs, rest) := by
  induction vs with
  | nil => rfl
  | cons v vs ih =>
      have hrest := ih (fun w hw => h w (List.mem_cons_of_mem _ hw))
      rw [List.flatMap_cons, List.append_assoc, List.length_cons, readList,
        h v List.mem_cons_self]
      dsimp only
      rw [hrest]

theorem readBinding_append {e : String × UInt64} (h : FitsText e.1) (rest : Bytes) :
    readBinding (encodeText e.1 ++ toLittleEndian e.2.toNat 8 ++ rest) = .ok (e, rest) := by
  unfold readBinding
  rw [List.append_assoc, readText_append h]
  dsimp only
  rw [readNat_append e.2.toNat_lt]
  dsimp only
  rw [UInt64.ofNat_toNat]

/-! ## Reading back -/

/-- **A value is read off the front of what begins with it,** and what follows is left. -/
theorem read_append (s : ValueShape) {v : s.Value} (h : s.Fits v) (rest : Bytes) :
    s.read (s.encode v ++ rest) = .ok (v, rest) := by
  induction s generalizing rest with
  | u8 =>
      refine (map_readNat_append UInt8.ofNat ?_ rest).trans ?_
      · exact v.toNat_lt
      · rw [UInt8.ofNat_toNat]
  | u16 =>
      refine (map_readNat_append UInt16.ofNat ?_ rest).trans ?_
      · exact v.toNat_lt
      · rw [UInt16.ofNat_toNat]
  | u32 =>
      refine (map_readNat_append UInt32.ofNat ?_ rest).trans ?_
      · exact v.toNat_lt
      · rw [UInt32.ofNat_toNat]
  | u64 =>
      refine (map_readNat_append UInt64.ofNat ?_ rest).trans ?_
      · exact v.toNat_lt
      · rw [UInt64.ofNat_toNat]
  | i8 =>
      refine (map_readNat_append (fun n => (UInt8.ofNat n).toInt8) ?_ rest).trans ?_
      · exact v.toUInt8.toNat_lt
      · rw [UInt8.ofNat_toNat, Int8.toInt8_toUInt8]
  | i32 =>
      refine (map_readNat_append (fun n => (UInt32.ofNat n).toInt32) ?_ rest).trans ?_
      · exact v.toUInt32.toNat_lt
      · rw [UInt32.ofNat_toNat, Int32.toInt32_toUInt32]
  | i64 =>
      refine (map_readNat_append (fun n => (UInt64.ofNat n).toInt64) ?_ rest).trans ?_
      · exact v.toUInt64.toNat_lt
      · rw [UInt64.ofNat_toNat, Int64.toInt64_toUInt64]
  | bool => cases v <;> rfl
  | char => exact readChar_append v rest
  | unit => rfl
  | text => exact readText_append h rest
  | array n =>
      obtain ⟨bytes, hlen⟩ := v
      subst hlen
      have hle : bytes.length ≤ (bytes ++ rest).length := by simp
      show (if h : bytes.length ≤ (bytes ++ rest).length then _ else _) = _
      rw [dif_pos hle]
      exact congrArg Except.ok (Prod.ext (Subtype.ext List.take_left) List.drop_left)
  | option s ih =>
      cases v with
      | none => rfl
      | some v =>
          show (s.read (s.encode v ++ rest)).map _ = _
          rw [ih h]
          rfl
  | list s ih =>
      obtain ⟨hlen, hitems⟩ := h
      have hread := readList_append (fun v hv rest => ih (hitems v hv) rest) rest
      unfold read encode
      rw [List.append_assoc, readNat_append hlen]
      exact hread
  | pair a b iha ihb =>
      obtain ⟨ha, hb⟩ := h
      unfold read encode
      dsimp only
      rw [List.append_assoc, iha ha]
      dsimp only
      rw [ihb hb]
      rfl
  | map =>
      obtain ⟨hlen, hkeys⟩ := h
      have hread : readList readBinding v.toList.length
          (v.toList.flatMap (fun e => encodeText e.1 ++ toLittleEndian e.2.toNat 8) ++ rest)
          = .ok (v.toList, rest) :=
        readList_append (fun e he rest => readBinding_append (hkeys e he) rest) rest
      unfold read encode
      dsimp only
      rw [List.append_assoc, readNat_append hlen]
      dsimp only
      rw [SortedMap.size, hread]
      exact congrArg (fun m => Except.ok (m, rest)) v.ofList_toList
  | choice n variant ih =>
      obtain ⟨i, v⟩ := v
      obtain ⟨hi, hv⟩ := h
      show read (choice n variant) (toLittleEndian i.val 4 ++ (variant i).encode v ++ rest) = _
      rw [read, List.append_assoc, readNat_append hi]
      dsimp only
      rw [dif_pos i.isLt, ih i hv]
      rfl

/-- **Reading gives back what was written.** -/
theorem decode_encode (s : ValueShape) {v : s.Value} (h : s.Fits v) :
    s.decode (s.encode v) = .ok v := by
  have hread := s.read_append h []
  rw [List.append_nil] at hread
  unfold decode
  rw [hread]
  rfl

end ValueShape

end TableStore
