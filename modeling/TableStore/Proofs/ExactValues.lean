import TableStore.Proofs.ValueShape
import TableStore.Transaction

/-!
# Nothing is read but what is written

`TableStore.Proofs.ValueShape` has one half of reading: a value that was written is read off the
front. The other half is here. A reader that succeeds has taken the encoding of its value off the
front and nothing else (`OnlyReads`), so there is one way to write a value and every other is
refused: a truth value of two, a character in a long form, a length that the bytes do not keep.

The readers were put together from a few, and `OnlyReads` goes along with each step: a number of a
known width under a change of type, a text behind its length, items one after the other, one value
behind another. Maps are the exception. Their bindings are read as they come, in any order and with
keys twice; of two bindings of a key the later one stays (`SortedMap.get?_ofList`).

With both halves a prefix is all there is to reading (`decode_exact`). It follows that no encoding
begins another one of its shape, and that an encoding which is cut short is not read at all.
-/

namespace TableStore

theorem ofLittleEndian_lt (bytes : Bytes) : ofLittleEndian bytes < 256 ^ bytes.length := by
  induction bytes with
  | nil => decide
  | cons b rest ih =>
      have hb := b.toNat_lt
      rw [ofLittleEndian, List.length_cons, Nat.pow_succ]
      omega

/-- Bytes are the digits of the number that they stand for. -/
theorem toLittleEndian_ofLittleEndian (bytes : Bytes) :
    toLittleEndian (ofLittleEndian bytes) bytes.length = bytes := by
  induction bytes with
  | nil => rfl
  | cons b rest ih =>
      have hb := b.toNat_lt
      have hfirst : (b.toNat + 256 * ofLittleEndian rest) % 256 = b.toNat := by omega
      have hrest : (b.toNat + 256 * ofLittleEndian rest) / 256 = ofLittleEndian rest := by omega
      rw [ofLittleEndian, List.length_cons, toLittleEndian, hfirst, hrest, ih, UInt8.ofNat_toNat]

/-- Of the bindings of a key in a list the last one counts. -/
theorem SortedMap.get?_ofList {κ α : Type} [Ord κ] [Std.TransOrd κ] [Std.LawfulEqOrd κ]
    [DecidableEq κ] (pairs : List (κ × α)) (k : κ) :
    (ofList pairs).get? k = pairs.reverse.lookup k := by
  have hlater : ∀ m : SortedMap κ α,
      (pairs.foldl (fun m p => m.insert p.1 p.2) m).get? k
        = (pairs.reverse.lookup k).or (m.get? k) := by
    induction pairs with
    | nil => exact fun m => rfl
    | cons p rest ih =>
        intro m
        rw [List.foldl_cons, ih, List.reverse_cons, List.lookup_append, Option.or_assoc,
          get?_insert, List.lookup_cons, List.lookup_nil]
        by_cases hk : k = p.1
        · rw [if_pos hk, beq_iff_eq.mpr hk]
          rfl
        · rw [if_neg hk, beq_eq_false_iff_ne.mpr hk]
          rfl
  have hempty := hlater empty
  rw [get?_empty, Option.or_none] at hempty
  exact hempty

theorem exists_of_map_ok {ε α β : Type} {x : Except ε α} {f : α → β} {y : β}
    (h : x.map f = .ok y) : ∃ a, x = .ok a ∧ f a = y := by
  cases x with
  | error e => exact absurd h (by simp [Except.map])
  | ok a => exact ⟨a, rfl, Except.ok.inj h⟩

namespace ValueShape

/-- A reader that succeeds on what is written, and on nothing else. -/
def OnlyReads {α : Type} (item : Reader α) (fits : α → Prop) (write : α → Bytes) : Prop :=
  ∀ input v rest, item input = .ok (v, rest) → fits v ∧ input = write v ++ rest

/-! ## The parts of readers -/

theorem readBytes_ok {n : Nat} {onEnd : ValueError} {input bytes rest : Bytes}
    (h : readBytes n onEnd input = .ok (bytes, rest)) :
    bytes.length = n ∧ input = bytes ++ rest := by
  unfold readBytes at h
  split at h
  · exact absurd h (by simp)
  · rename_i hlen
    obtain ⟨hbytes, hrest⟩ := Prod.mk.inj (Except.ok.inj h)
    rw [← hbytes, ← hrest, List.length_take, List.take_append_drop]
    exact ⟨by omega, rfl⟩

theorem readNat_ok {width n : Nat} {input rest : Bytes} (h : readNat width input = .ok (n, rest)) :
    n < 256 ^ width ∧ input = toLittleEndian n width ++ rest := by
  unfold readNat at h
  split at h
  · rename_i bytes rest' hbytes
    obtain ⟨hlen, hinput⟩ := readBytes_ok hbytes
    obtain ⟨hn, hrest⟩ := Prod.mk.inj (Except.ok.inj h)
    have hlt := ofLittleEndian_lt bytes
    have hdigits := toLittleEndian_ofLittleEndian bytes
    rw [hlen, hn] at hlt hdigits
    rw [hdigits, ← hrest]
    exact ⟨hlt, hinput⟩
  · exact absurd h (by simp)

/-- A number that is read as a value of some other kind, and is the number of that value. -/
theorem onlyReads_number {α : Type} {width : Nat} (f : Nat → α) (g : α → Nat)
    (hback : ∀ n, n < 256 ^ width → g (f n) = n) :
    OnlyReads (fun input => (readNat width input).map (fun p => (f p.1, p.2))) (fun _ => True)
      (fun v => toLittleEndian (g v) width) := by
  intro input v rest h
  obtain ⟨⟨n, rest'⟩, hread, hv⟩ := exists_of_map_ok h
  obtain ⟨hlt, hinput⟩ := readNat_ok hread
  have hvalue : f n = v := (Prod.mk.inj hv).1
  have hrest : rest' = rest := (Prod.mk.inj hv).2
  refine ⟨trivial, ?_⟩
  show input = toLittleEndian (g v) width ++ rest
  rw [← hvalue, ← hrest, hback n hlt]
  exact hinput

theorem onlyReads_text : OnlyReads readText FitsText encodeText := by
  intro input s rest h
  unfold readText at h
  split at h
  · exact absurd h (by simp)
  · rename_i length rest₁ hlength
    split at h
    · exact absurd h (by simp)
    · rename_i bytes rest₂ hbytes
      split at h
      · rename_i s' hs
        obtain ⟨rfl, rfl⟩ := Prod.mk.inj (Except.ok.inj h)
        obtain ⟨hlt, hinput⟩ := readNat_ok hlength
        obtain ⟨hlen, hrest⟩ := readBytes_ok hbytes
        have hencode := Utf8.decode_eq_ok_iff.mp hs
        have hlong : (Utf8.encode s').length = length := by rw [hencode, hlen]
        refine ⟨Nat.lt_of_le_of_lt (Nat.le_of_eq hlong) hlt, ?_⟩
        show input = toLittleEndian (Utf8.encode s').length 8 ++ Utf8.encode s' ++ rest₂
        rw [hlong, hencode, hinput, hrest, List.append_assoc]
      · exact absurd h (by simp)

theorem onlyReads_char : OnlyReads readChar (fun _ => True) Utf8.encodeChar := by
  intro input c rest h
  unfold readChar at h
  split at h
  · exact absurd h (by simp)
  · rename_i first after
    split at h
    · rename_i c' more hhead
      obtain ⟨rfl, rfl⟩ := Prod.mk.inj (Except.ok.inj h)
      obtain ⟨tail, rest', hafter, hmore, hc⟩ := Utf8.encodeChar_of_headChar hhead
      refine ⟨trivial, ?_⟩
      rw [hc, hafter, ← hmore, List.drop_left]
      rfl
    · exact absurd h (by simp)

/-- Items of which each is only read as written are so one after the other. -/
theorem onlyReads_list {α : Type} {item : Reader α} {fits : α → Prop} {write : α → Bytes}
    (hitem : OnlyReads item fits write) (count : Nat) :
    OnlyReads (readList item count) (fun vs => vs.length = count ∧ ∀ v ∈ vs, fits v)
      (List.flatMap write) := by
  induction count with
  | zero =>
      intro input vs rest h
      obtain ⟨rfl, rfl⟩ := Prod.mk.inj (Except.ok.inj h)
      exact ⟨⟨rfl, by simp⟩, rfl⟩
  | succ count ih =>
      intro input vs rest h
      rw [readList] at h
      split at h
      · exact absurd h (by simp)
      · rename_i v rest₁ hv
        split at h
        · exact absurd h (by simp)
        · rename_i vs' rest₂ hvs
          obtain ⟨rfl, rfl⟩ := Prod.mk.inj (Except.ok.inj h)
          obtain ⟨hfits, hinput⟩ := hitem _ _ _ hv
          obtain ⟨⟨hlen, hall⟩, hrest⟩ := ih _ _ _ hvs
          refine ⟨⟨by rw [List.length_cons, hlen], ?_⟩, ?_⟩
          · exact List.forall_mem_cons.mpr ⟨hfits, hall⟩
          · rw [hinput, hrest, List.flatMap_cons, List.append_assoc]

/-- A binding of a map as it is written. -/
def encodeBinding (e : String × UInt64) : Bytes := encodeText e.1 ++ toLittleEndian e.2.toNat 8

theorem onlyReads_binding : OnlyReads readBinding (fun e => FitsText e.1) encodeBinding := by
  intro input e rest h
  unfold readBinding at h
  split at h
  · exact absurd h (by simp)
  · rename_i key rest₁ hkey
    split at h
    · exact absurd h (by simp)
    · rename_i n rest₂ hn
      obtain ⟨rfl, rfl⟩ := Prod.mk.inj (Except.ok.inj h)
      obtain ⟨hfits, hinput⟩ := onlyReads_text _ _ _ hkey
      obtain ⟨hlt, hrest⟩ := readNat_ok hn
      refine ⟨hfits, ?_⟩
      unfold encodeBinding
      rw [UInt64.toNat_ofNat_of_lt' hlt, hinput, hrest, List.append_assoc]

/-! ## Shapes without maps -/

/-- Whether there is no map in a shape. -/
def MapFree : ValueShape → Prop
  | map => False
  | option s => s.MapFree
  | list s => s.MapFree
  | pair a b => a.MapFree ∧ b.MapFree
  | choice _ variant => ∀ i, (variant i).MapFree
  | u8 | u16 | u32 | u64 | i8 | i32 | i64 | bool | char | unit | text | array _ => True

theorem onlyReads_read (s : ValueShape) (h : s.MapFree) : OnlyReads s.read s.Fits s.encode := by
  induction s with
  | u8 => exact onlyReads_number UInt8.ofNat UInt8.toNat (fun n hn => UInt8.toNat_ofNat_of_lt' hn)
  | u16 =>
      exact onlyReads_number UInt16.ofNat UInt16.toNat (fun n hn => UInt16.toNat_ofNat_of_lt' hn)
  | u32 =>
      exact onlyReads_number UInt32.ofNat UInt32.toNat (fun n hn => UInt32.toNat_ofNat_of_lt' hn)
  | u64 =>
      exact onlyReads_number UInt64.ofNat UInt64.toNat (fun n hn => UInt64.toNat_ofNat_of_lt' hn)
  | i8 =>
      refine onlyReads_number (fun n => (UInt8.ofNat n).toInt8) (fun v => v.toUInt8.toNat) ?_
      exact fun n hn => by rw [UInt8.toUInt8_toInt8, UInt8.toNat_ofNat_of_lt' hn]
  | i32 =>
      refine onlyReads_number (fun n => (UInt32.ofNat n).toInt32) (fun v => v.toUInt32.toNat) ?_
      exact fun n hn => by rw [UInt32.toUInt32_toInt32, UInt32.toNat_ofNat_of_lt' hn]
  | i64 =>
      refine onlyReads_number (fun n => (UInt64.ofNat n).toInt64) (fun v => v.toUInt64.toNat) ?_
      exact fun n hn => by rw [UInt64.toUInt64_toInt64, UInt64.toNat_ofNat_of_lt' hn]
  | bool =>
      intro input v rest hread
      unfold read at hread
      split at hread
      · exact absurd hread (by simp)
      · rename_i b after
        split at hread
        · rename_i hb
          obtain ⟨rfl, rfl⟩ := Prod.mk.inj (Except.ok.inj hread)
          exact ⟨trivial, by rw [hb]; rfl⟩
        · split at hread
          · rename_i hb
            obtain ⟨rfl, rfl⟩ := Prod.mk.inj (Except.ok.inj hread)
            exact ⟨trivial, by rw [hb]; rfl⟩
          · exact absurd hread (by simp)
  | char => exact onlyReads_char
  | unit =>
      intro input v rest hread
      exact ⟨trivial, (Prod.mk.inj (Except.ok.inj hread)).2⟩
  | text => exact onlyReads_text
  | array n =>
      intro input v rest hread
      unfold read at hread
      split at hread
      · obtain ⟨rfl, rfl⟩ := Prod.mk.inj (Except.ok.inj hread)
        exact ⟨trivial, (List.take_append_drop n input).symm⟩
      · exact absurd hread (by simp)
  | option s ih =>
      intro input v rest hread
      unfold read at hread
      split at hread
      · exact absurd hread (by simp)
      · rename_i b after
        split at hread
        · rename_i hb
          obtain ⟨rfl, rfl⟩ := Prod.mk.inj (Except.ok.inj hread)
          exact ⟨trivial, by rw [hb]; rfl⟩
        · split at hread
          · rename_i hb
            obtain ⟨⟨w, rest'⟩, hw, he⟩ := exists_of_map_ok hread
            obtain ⟨rfl, rfl⟩ := Prod.mk.inj he
            obtain ⟨hfits, hafter⟩ := ih h _ _ _ hw
            exact ⟨hfits, by rw [hb, hafter]; rfl⟩
          · exact absurd hread (by simp)
  | list s ih =>
      intro input vs rest hread
      unfold read at hread
      split at hread
      · exact absurd hread (by simp)
      · rename_i count after hcount
        obtain ⟨hlt, hinput⟩ := readNat_ok hcount
        obtain ⟨⟨hlen, hall⟩, hafter⟩ := onlyReads_list (ih h) count _ _ _ hread
        refine ⟨⟨hlen ▸ hlt, hall⟩, ?_⟩
        show input = toLittleEndian vs.length 8 ++ vs.flatMap s.encode ++ rest
        rw [hinput, hafter, hlen, List.append_assoc]
  | pair a b iha ihb =>
      intro input v rest hread
      unfold read at hread
      split at hread
      · exact absurd hread (by simp)
      · rename_i x after hx
        obtain ⟨⟨y, rest'⟩, hy, he⟩ := exists_of_map_ok hread
        obtain ⟨rfl, rfl⟩ := Prod.mk.inj he
        obtain ⟨hfitsx, hinput⟩ := iha h.1 _ _ _ hx
        obtain ⟨hfitsy, hafter⟩ := ihb h.2 _ _ _ hy
        refine ⟨⟨hfitsx, hfitsy⟩, ?_⟩
        show input = a.encode x ++ b.encode y ++ rest'
        rw [hinput, hafter, List.append_assoc]
  | map => exact absurd h id
  | choice n variant ih =>
      intro input v rest hread
      unfold read at hread
      split at hread
      · exact absurd hread (by simp)
      · rename_i i after hi
        split at hread
        · rename_i hlt
          obtain ⟨⟨w, rest'⟩, hw, he⟩ := exists_of_map_ok hread
          obtain ⟨rfl, rfl⟩ := Prod.mk.inj he
          obtain ⟨hnumber, hinput⟩ := readNat_ok hi
          obtain ⟨hfits, hafter⟩ := ih ⟨i, hlt⟩ (h ⟨i, hlt⟩) _ _ _ hw
          refine ⟨⟨hnumber, hfits⟩, ?_⟩
          show input = toLittleEndian i 4 ++ (variant ⟨i, hlt⟩).encode w ++ rest'
          rw [hinput, hafter, List.append_assoc]
        · exact absurd hread (by simp)

/-! ## Reading is a matter of prefixes -/

theorem decode_eq_ok_iff {s : ValueShape} {input : Bytes} {v : s.Value} :
    s.decode input = .ok v ↔ ∃ rest, s.read input = .ok (v, rest) := by
  unfold decode
  constructor
  · intro h
    obtain ⟨⟨w, rest⟩, hread, rfl⟩ := exists_of_map_ok h
    exact ⟨rest, hread⟩
  · rintro ⟨rest, hread⟩
    rw [hread]
    rfl

/-- A value is read from what its encoding begins, and from nothing else. -/
theorem decode_iff_isPrefix {s : ValueShape} (h : s.MapFree) (v : s.Value) (input : Bytes) :
    s.decode input = .ok v ↔ s.Fits v ∧ s.encode v <+: input := by
  rw [decode_eq_ok_iff]
  constructor
  · rintro ⟨rest, hread⟩
    obtain ⟨hfits, hinput⟩ := onlyReads_read s h _ _ _ hread
    exact ⟨hfits, rest, hinput.symm⟩
  · rintro ⟨hfits, rest, rfl⟩
    exact ⟨rest, s.read_append hfits rest⟩

/-- A map is read from what bindings begin that make the map, each in its turn. -/
theorem decode_map_iff (m : SortedMap String UInt64) (input : Bytes) :
    map.decode input = .ok m
      ↔ ∃ entries : List (String × UInt64), entries.length < 256 ^ 8
        ∧ (∀ e ∈ entries, FitsText e.1) ∧ SortedMap.ofList entries = m
        ∧ toLittleEndian entries.length 8 ++ entries.flatMap encodeBinding <+: input := by
  rw [decode_eq_ok_iff]
  constructor
  · rintro ⟨rest, hread⟩
    unfold read at hread
    split at hread
    · exact absurd hread (by simp)
    · rename_i count after hcount
      obtain ⟨⟨entries, rest'⟩, hentries, he⟩ := exists_of_map_ok hread
      obtain ⟨rfl, rfl⟩ := Prod.mk.inj he
      obtain ⟨hlt, hinput⟩ := readNat_ok hcount
      obtain ⟨⟨hlen, hall⟩, hafter⟩ := onlyReads_list onlyReads_binding count _ _ _ hentries
      refine ⟨entries, hlen ▸ hlt, hall, rfl, rest', ?_⟩
      rw [hlen, hinput, hafter, List.append_assoc]
  · rintro ⟨entries, hlt, hall, rfl, rest, rfl⟩
    have hentries : readList readBinding entries.length
        (entries.flatMap encodeBinding ++ rest) = .ok (entries, rest) :=
      readList_append (fun e he rest => readBinding_append (hall e he) rest) rest
    refine ⟨rest, ?_⟩
    unfold read
    rw [List.append_assoc, readNat_append hlt]
    dsimp only
    rw [hentries]
    rfl

/-- An encoding that begins another one of its shape is that one. -/
theorem eq_of_isPrefix {s : ValueShape} (h : s.MapFree) {v w : s.Value} (hv : s.Fits v)
    (hw : s.Fits w) (hp : s.encode v <+: s.encode w) : v = w := by
  have hread := (decode_iff_isPrefix h v (s.encode w)).mpr ⟨hv, hp⟩
  rw [s.decode_encode hw] at hread
  exact (Except.ok.inj hread).symm

/-- What is cut short is not read. -/
theorem decode_of_cut {s : ValueShape} (h : s.MapFree) {v : s.Value} (hv : s.Fits v)
    {input : Bytes} (hp : input <+: s.encode v) (hcut : input ≠ s.encode v) :
    ∃ e, s.decode input = .error e := by
  cases hd : s.decode input with
  | error e => exact ⟨e, rfl⟩
  | ok w =>
      -- the value that was read would begin the one that was cut, so it would be that one
      obtain ⟨hw, hbegins⟩ := (decode_iff_isPrefix h w input).mp hd
      have hsame := eq_of_isPrefix h hw hv (hbegins.trans hp)
      rw [hsame] at hbegins
      exact absurd (hp.eq_of_length_le hbegins.length_le) hcut

/--
**Reading accepts what begins with an encoding, and nothing else.** For a shape without maps, bytes
are read as a value just when the value has room where it is written and its encoding begins the
bytes. So what is written is read back whatever follows it, no encoding begins that of another
value, and bytes that an encoding is cut short to are a serialization error wherever values are
read. A map is read back too, whatever follows it. Bytes are read as a map just when bindings begin
them, as many as the number in front says, and of the bindings of a key the last one is in the map.
-/
theorem decode_exact :
    (∀ s : ValueShape, s.MapFree →
      (∀ v input, s.decode input = .ok v ↔ s.Fits v ∧ s.encode v <+: input)
      ∧ (∀ v, s.Fits v → ∀ rest, s.decode (s.encode v ++ rest) = .ok v)
      ∧ (∀ v w, s.Fits v → s.Fits w → s.encode v <+: s.encode w → v = w)
      ∧ ∀ v input, s.Fits v → input <+: s.encode v → input ≠ s.encode v →
        ∃ e, s.decode input = .error e
          ∧ Transaction.decodeOptional s (some input) = .error (.serialization (.value e))
          ∧ ∀ key, Row.valueAs ⟨key, some input⟩ s = .error (.serialization (.value e)))
    ∧ (∀ m : SortedMap String UInt64, map.Fits m → ∀ rest,
      map.decode (map.encode m ++ rest) = .ok m)
    ∧ ∀ (m : SortedMap String UInt64) (input : Bytes), map.decode input = .ok m
      ↔ ∃ entries : List (String × UInt64), entries.length < 256 ^ 8
        ∧ (∀ e ∈ entries, FitsText e.1)
        ∧ (∀ key, m.get? key = entries.reverse.lookup key)
        ∧ toLittleEndian entries.length 8 ++ entries.flatMap encodeBinding <+: input := by
  refine ⟨fun s h => ⟨decode_iff_isPrefix h, fun v hv rest => ?_, fun v w hv hw hp => ?_,
    fun v input hv hp hcut => ?_⟩, fun m hm rest => ?_, fun m input => ?_⟩
  · exact decode_eq_ok_iff.mpr ⟨rest, s.read_append hv rest⟩
  · exact eq_of_isPrefix h hv hw hp
  · obtain ⟨e, he⟩ := decode_of_cut h hv hp hcut
    refine ⟨e, he, ?_, fun key => ?_⟩
    · unfold Transaction.decodeOptional
      dsimp only
      rw [he]
    · unfold Row.valueAs
      dsimp only
      rw [he]
  · exact decode_eq_ok_iff.mpr ⟨rest, map.read_append hm rest⟩
  · rw [decode_map_iff]
    refine exists_congr (fun entries => and_congr_right' (and_congr_right' (and_congr_left' ?_)))
    constructor
    · rintro rfl key
      exact SortedMap.get?_ofList entries key
    · exact fun hlast => SortedMap.ext_get?
        (fun key => (SortedMap.get?_ofList entries key).trans (hlast key).symm)

/-- A choice with a text and an optional number in it, with a byte behind it and with its last byte
gone, and a map that is written with one key twice. -/
theorem decode_exact_choice_and_map :
    let s : ValueShape := .choice 2 (fun | 0 => .unit | 1 => .pair .text (.option .i64))
    let v : s.Value := ⟨1, ("né", some (-5))⟩
    let entries : List (String × UInt64) := [("b", 1), ("a", 2), ("b", 3)]
    s.MapFree ∧ s.Fits v
      ∧ s.decode (s.encode v ++ [7]) = .ok v
      ∧ (∃ e, s.decode (s.encode v).dropLast = .error e)
      ∧ ∃ m, map.decode (toLittleEndian 3 8 ++ entries.flatMap encodeBinding ++ [7]) = .ok m
        ∧ m.get? "b" = some 3 := by
  intro s v entries
  have hs : s.MapFree
    | 0 => trivial
    | 1 => ⟨trivial, trivial⟩
  have hv : s.Fits v :=
    ⟨show 1 < 256 ^ 4 by decide, show (Utf8.encode "né").length < 256 ^ 8 by decide, trivial⟩
  obtain ⟨hshapes, _, hmaps⟩ := decode_exact
  obtain ⟨_, hread, _, hcut⟩ := hshapes s hs
  refine ⟨hs, hv, hread v hv [7], ?_, SortedMap.ofList entries, ?_, ?_⟩
  · obtain ⟨e, he, _⟩ := hcut v (s.encode v).dropLast hv (List.dropLast_prefix _) (by decide)
    exact ⟨e, he⟩
  · refine (hmaps _ _).mpr ⟨entries, by decide, ?_, SortedMap.get?_ofList entries, [7], rfl⟩
    have hroom : ∀ e ∈ entries, (Utf8.encode e.1).length < 256 ^ 8 := by decide
    exact hroom
  · exact SortedMap.get?_ofList entries "b"

end ValueShape

end TableStore
