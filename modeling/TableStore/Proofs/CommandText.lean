import TableStore.Command.Execution
import TableStore.Proofs.HexText
import TableStore.Proofs.Reads
import TableStore.Proofs.Utf8

/-!
# What commands read and print

A value, a row, a count and a list of tables are printed as text or as JSON, and bytes as text or in
hexadecimal. Here it is written down to the letter what stands on the lines, and which bytes a typed
text stands for. None of it calls what the program prints and reads with: digits and UTF-8 are those
of the standard library, and objects are spelled out. Only the quotes and escapes of a JSON text are
those that the library prints anywhere (`Json.quote`), and so is the replacement of bytes that are
no text.

The program prints just this (`valueLine_eq`, `rowLine_eq`, `countLine_eq`, `join_tableLines`). It
reads a text as the bytes that the text stands for, and fails if there are none (`TextForm.codec`).
-/

namespace TableStore

namespace CommandText

/-! ## Texts and bytes -/

/-- Two digits for each byte, the sixteens first. -/
def hexadecimal (bytes : Bytes) : String :=
  String.ofList (bytes.flatMap (fun b =>
    [Nat.digitChar (b.toNat / 16), Nat.digitChar (b.toNat % 16)]))

/-- Bytes as they are printed. -/
def ofBytes (form : TextForm) (bytes : Bytes) : String :=
  if form.hex then hexadecimal bytes else Utf8.decodeLenient bytes

/-- Whether a typed text stands for bytes: in hexadecimal, where either case will do, or as its
characters in UTF-8. -/
def StandsFor (form : TextForm) (text : String) (bytes : Bytes) : Prop :=
  if form.hex then text.toLower = hexadecimal bytes
  else bytes = text.toList.flatMap String.utf8EncodeChar

/-- What comes of reading a text: the bytes that it stands for, or, if it stands for none, a failure
that repeats the text. -/
def Reads (form : TextForm) (text : String) : Except CommandError Bytes → Prop
  | .ok bytes => StandsFor form text bytes
  | .error e => (∀ bytes, ¬ StandsFor form text bytes) ∧ ∃ why, e = .invalidHex text why

/-- How a form reads texts, and prints again what it read. -/
structure Codec (form : TextForm) : Prop where
  reads (text : String) : Reads form text (form.decode text)
  prints {text : String} {bytes : Bytes} : StandsFor form text bytes →
    ofBytes form bytes = if form.hex then text.toLower else text

/-! ## Lines -/

/-- A value, with the key as it was typed. -/
def value (form : TextForm) (key : String) (bytes : Bytes) : String :=
  if form.json then
    "\x7b\"key\":" ++ Json.quote key ++ ",\"value\":" ++ Json.quote (ofBytes form bytes) ++ "\x7d\n"
  else ofBytes form bytes ++ "\n"

/-- A row, or its key alone. -/
def row (form : TextForm) (keysOnly : Bool) (e : Entry) : String :=
  let key := ofBytes form e.1
  let value := ofBytes form e.2
  if form.json then
    "\x7b\"key\":" ++ Json.quote key ++ ",\"value\":"
      ++ (if keysOnly then "null" else Json.quote value) ++ "\x7d\n"
  else if keysOnly then key ++ "\n"
  else key ++ "\t" ++ value ++ "\n"

/-- The number of rows of a table. -/
def count (form : TextForm) (table : String) (rows : Nat) : String :=
  if form.json then
    "\x7b\"rows\":" ++ toString rows ++ ",\"table\":" ++ Json.quote table ++ "\x7d\n"
  else toString rows ++ "\n"

/-- All tables, each with its slot: a list of objects on one line, or lines on which the slots end
under one another. -/
def tables (form : TextForm) (ts : List Table) : String :=
  if form.json then
    "[" ++ String.intercalate "," (ts.map (fun t =>
      "\x7b\"name\":" ++ Json.quote t.name ++ ",\"prefix\":" ++ toString t.slot.toNat ++ "\x7d"))
      ++ "]\n"
  else
    String.join (ts.map (fun t =>
      String.leftpad 3 ' ' (toString t.slot.toNat) ++ "  " ++ t.name ++ "\n"))

/-! ## Objects as they are printed -/

/-- An object of two members, by what is printed in front of each. -/
theorem render_object {first second before between : String} (a b : Json.Printed)
    (hfirst : "\x7b" ++ (Json.quote first ++ ":") = before)
    (hsecond : "," ++ (Json.quote second ++ ":") = between) :
    (Json.Printed.object [(first, a), (second, b)]).render
      = before ++ a.render ++ between ++ b.render ++ "\x7d" := by
  rw [← hfirst, ← hsecond]
  simp only [Json.Printed.render, Json.Printed.render.renderMembers, String.append_assoc,
    String.intercalate_cons_cons, String.intercalate_singleton]

theorem render_object_line {first second before between : String} (a b : Json.Printed)
    (hfirst : "\x7b" ++ (Json.quote first ++ ":") = before)
    (hsecond : "," ++ (Json.quote second ++ ":") = between) :
    (Json.Printed.object [(first, a), (second, b)]).render ++ "\n"
      = before ++ a.render ++ between ++ b.render ++ "\x7d\n" := by
  rw [render_object a b hfirst hsecond, String.append_assoc]
  rfl

theorem renderItems_map {α : Type} (f : α → Json.Printed) (items : List α) :
    Json.Printed.render.renderItems (items.map f) = items.map (fun item => (f item).render) := by
  induction items with
  | nil => rfl
  | cons item rest ih => rw [List.map_cons, Json.Printed.render.renderItems, ih, List.map_cons]

end CommandText

/-! ## The program's own texts -/

/-- A half of a byte is written as the digit of its number. -/
theorem Hex.digit_eq {n : UInt8} (h : n < 16) : digit n = Nat.digitChar n.toNat :=
  forall_byte_lt 16 (P := fun n => digit n = Nat.digitChar n.toNat) (by decide)
    (UInt8.lt_iff_toNat_lt.mp h)

theorem Hex.encode_eq (bytes : Bytes) : encode bytes = CommandText.hexadecimal bytes := by
  unfold encode encodeChars CommandText.hexadecimal
  refine congrArg String.ofList (congrArg (fun f => bytes.flatMap f) (funext (fun b => ?_)))
  unfold byteDigits
  rw [digit_eq (high_lt b), digit_eq (low_lt b), UInt8.toNat_div, UInt8.toNat_mod]
  rfl

namespace TextForm

variable (form : TextForm)

theorem encode_eq (bytes : Bytes) : form.encode bytes = CommandText.ofBytes form bytes := by
  unfold encode CommandText.ofBytes
  rw [Hex.encode_eq]

theorem valueLine_eq (key : String) (value : Bytes) :
    form.valueLine key value = CommandText.value form key value := by
  unfold valueLine CommandText.value
  rw [encode_eq, CommandText.render_object_line _ _ rfl rfl]
  rfl

theorem rowLine_eq (keysOnly : Bool) (e : Entry) :
    form.rowLine (Row.of keysOnly e) = CommandText.row form keysOnly e := by
  unfold rowLine CommandText.row Row.of
  cases keysOnly with
  | false =>
      dsimp only
      rw [if_neg Bool.false_ne_true, Option.map_some, encode_eq, encode_eq,
        CommandText.render_object_line _ _ rfl rfl]
      rfl
  | true =>
      dsimp only
      rw [if_pos rfl, Option.map_none, encode_eq, CommandText.render_object_line _ _ rfl rfl]
      rfl

theorem countLine_eq (table : String) (rows : Nat) :
    form.countLine table rows = CommandText.count form table rows := by
  unfold countLine CommandText.count
  rw [CommandText.render_object_line _ _ rfl rfl]
  rfl

theorem join_tableLines (ts : List Table) :
    String.join (form.tableLines ts) = CommandText.tables form ts := by
  unfold tableLines CommandText.tables
  cases form.json with
  | true =>
      rw [if_pos rfl, if_pos rfl, String.join_cons, String.join_nil, String.append_empty]
      unfold Json.Printed.render
      rw [CommandText.renderItems_map, String.append_assoc]
      refine congrArg (fun items => "[" ++ String.intercalate "," items ++ "]\n") ?_
      exact List.map_congr_left (fun t _ => CommandText.render_object _ _ rfl rfl)
  | false =>
      rw [if_neg (by decide), if_neg (by decide)]
      refine congrArg String.join (List.map_congr_left (fun t _ => ?_))
      unfold tableLine String.leftpad List.leftpad
      dsimp only
      rw [String.ofList_append, String.ofList_toList, String.length_toList]

variable {form} {text : String}

/-- **What is read of a text** are the bytes that it stands for. -/
theorem decode_eq_ok_iff {bytes : Bytes} :
    form.decode text = .ok bytes ↔ CommandText.StandsFor form text bytes := by
  unfold CommandText.StandsFor
  cases hhex : form.hex with
  | true =>
      rw [decode_of_hex hhex, if_pos rfl, ← Hex.encode_eq, eq_comm (a := text.toLower),
        ← Hex.decode_eq_ok_iff_encode]
      cases Hex.decode text <;> simp [Except.mapError]
  | false =>
      unfold decode
      rw [hhex, if_neg Bool.false_ne_true, if_neg Bool.false_ne_true, ← Utf8.encode_eq_flatMap]
      exact ⟨fun h => (Except.ok.inj h).symm, fun h => congrArg Except.ok h.symm⟩

theorem error_of_decode {e : CommandError} (h : form.decode text = .error e) :
    ∃ why, e = .invalidHex text why := by
  unfold decode at h
  split at h
  · split at h
    · exact absurd h (by simp)
    · exact ⟨_, (Except.error.inj h).symm⟩
  · exact absurd h (by simp)

/-- **Every form reads the bytes that a text stands for,** and prints the text for them again. -/
theorem codec (form : TextForm) : CommandText.Codec form where
  reads text := by
    cases hd : form.decode text with
    | ok bytes => exact decode_eq_ok_iff.mp hd
    | error e =>
        refine ⟨fun bytes hs => ?_, error_of_decode hd⟩
        rw [decode_eq_ok_iff.mpr hs] at hd
        exact absurd hd (by simp)
  prints h := by
    unfold CommandText.StandsFor at h
    unfold CommandText.ofBytes
    cases hhex : form.hex with
    | true =>
        rw [hhex] at h
        exact h.symm
    | false =>
        rw [hhex] at h
        have hbytes := h.trans (Utf8.encode_eq_flatMap _).symm
        rw [hbytes]
        exact Utf8.decodeLenient_encode _

end TextForm

end TableStore
