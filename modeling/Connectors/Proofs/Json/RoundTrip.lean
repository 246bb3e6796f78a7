import Connectors.Json.Data
import Mathlib.Data.List.Basic

/-!
# Reading back what was written as JSON

Data without numbers (`Datum.Numberless`), such as documents are made of, are written as a text that
is read back as the tree they stand for (`Json.parse?_json`).

A text between quotes is read character by character: what `Datum.jsonChar` makes of a character is
read as that character, whatever comes after it (`Json.readString_jsonChar`). No value begins with
white space or with a closing bracket (`Datum.exists_head_json`), so the reader that looks for the
end of an array finds the item there instead. Each step of the reader takes a character, so a bound
that is at least the length of the text is never reached (`Json.readValue_json`).
-/

set_option autoImplicit false
set_option relaxedAutoImplicit false

namespace Connectors

namespace Datum

/-! ### The tree that data stand for -/

mutual

/-- Data in which no number occurs. -/
def Numberless : Datum → Prop
  | int _ => False
  | float _ => False
  | list items => NumberlessItems items
  | table fields => NumberlessFields fields
  | _ => True

/-- Items in which no number occurs. -/
def NumberlessItems : List Datum → Prop
  | [] => True
  | item :: rest => Numberless item ∧ NumberlessItems rest

/-- Fields in which no number occurs. -/
def NumberlessFields : List (String × Datum) → Prop
  | [] => True
  | (_, value) :: rest => Numberless value ∧ NumberlessFields rest

end

mutual

/-- The JSON value that data are written as. Numbers are left out of account. -/
def written : Datum → Json
  | bool value => .bool value
  | text value => .string (some value)
  | list items => .array (writtenItems items)
  | table fields => .object (writtenFields fields)
  | _ => .null

/-- The JSON values that items are written as. -/
def writtenItems : List Datum → List Json
  | [] => []
  | item :: rest => written item :: writtenItems rest

/-- The members that fields are written as. -/
def writtenFields : List (String × Datum) → List (Option String × Json)
  | [] => []
  | (name, value) :: rest => (some name, written value) :: writtenFields rest

end

theorem numberlessItems_iff {items : List Datum} :
    NumberlessItems items ↔ ∀ item ∈ items, Numberless item := by
  induction items with
  | nil => simp [NumberlessItems]
  | cons item rest ih => rw [NumberlessItems, ih, List.forall_mem_cons]

theorem numberlessFields_iff {fields : List (String × Datum)} :
    NumberlessFields fields ↔ ∀ field ∈ fields, Numberless field.2 := by
  induction fields with
  | nil => simp [NumberlessFields]
  | cons field rest ih => rw [NumberlessFields, ih, List.forall_mem_cons]

theorem toList_jsonText (text : String) :
    (jsonText text).toList = '"' :: (text.toList.flatMap jsonChar ++ ['"']) := by
  simp [jsonText]

/-- No value begins with white space or with a closing bracket. -/
theorem exists_head_json {value : Datum} (hvalue : value.Numberless) :
    ∃ first rest, value.json.toList = first :: rest ∧ first ∉ [' ', '\t', '\n', '\r', ']'] := by
  match value with
  | null => exact ⟨'n', _, rfl, by decide⟩
  | bool true => exact ⟨'t', _, rfl, by decide⟩
  | bool false => exact ⟨'f', _, rfl, by decide⟩
  | int _ | float _ => exact absurd hvalue (by simp [Numberless])
  | text value => exact ⟨'"', _, by rw [json, toList_jsonText], by decide⟩
  | list [] => exact ⟨'[', _, rfl, by decide⟩
  | list (item :: rest) =>
    exact ⟨'[', (json item ++ jsonItems rest ++ "]").toList, by simp [json], by decide⟩
  | table [] => exact ⟨'\x7b', _, rfl, by decide⟩
  | table ((name, value) :: rest) =>
    exact ⟨'\x7b', (jsonText name ++ ":" ++ json value ++ jsonFields rest ++ "\x7d").toList,
      by simp [json], by decide⟩

theorem length_json_list (item : Datum) (rest : List Datum) :
    (list (item :: rest)).json.length = 1 + item.json.length + (jsonItems rest).length + 1 := by
  simp only [json, String.length_append]
  rfl

theorem length_json_table (name : String) (value : Datum) (rest : List (String × Datum)) :
    (table ((name, value) :: rest)).json.length =
      1 + (jsonText name).length + 1 + value.json.length + (jsonFields rest).length + 1 := by
  simp only [json, String.length_append]
  rfl

theorem length_jsonItems_cons (item : Datum) (rest : List Datum) :
    (jsonItems (item :: rest)).length = 1 + item.json.length + (jsonItems rest).length := by
  simp only [jsonItems, String.length_append]
  rfl

theorem length_jsonFields_cons (name : String) (value : Datum) (rest : List (String × Datum)) :
    (jsonFields ((name, value) :: rest)).length =
      1 + (jsonText name).length + 1 + value.json.length + (jsonFields rest).length := by
  simp only [jsonFields, String.length_append]
  rfl

end Datum

namespace Json

open Datum (jsonChar jsonText jsonItems jsonFields Numberless)

/-! ### Texts -/

theorem hexDigit?_digitChar : ∀ digit < 16, hexDigit? (Nat.digitChar digit) = some digit := by
  decide

/-- A control character is read back from the code it is written with. -/
theorem escapeAt_control {c : Char} (hc : c.toNat < 0x20) (rest : List Char) :
    escapeAt ('u' :: '0' :: '0' :: (if c.toNat < 0x10 then '0' else '1') ::
      Nat.digitChar (c.toNat % 16) :: rest) = some (some c, 5) := by
  have hhigh : hexDigit? (if c.toNat < 0x10 then '0' else '1') = some (c.toNat / 16) := by
    split_ifs with hlow
    · rw [Nat.div_eq_of_lt hlow]
      rfl
    · have hone : c.toNat / 16 = 1 := by omega
      rw [hone]
      rfl
  have hlow := hexDigit?_digitChar (c.toNat % 16) (Nat.mod_lt _ (by decide))
  have hzero : hexDigit? '0' = some 0 := rfl
  have hunit : c.toNat / 16 * 16 + c.toNat % 16 = c.toNat := by omega
  have hhalves : isLowHalf c.toNat = false ∧ isHighHalf c.toNat = false := by
    constructor <;> simp [isLowHalf, isHighHalf] <;> omega
  simp [escapeAt, hexUnit?, hhigh, hlow, hzero, hunit, hhalves, Char.ofNat_toNat]

theorem readString_skip (skipped : List Char) (read : List Char) (named : Bool) (rest : List Char) :
    readString skipped.length read named (skipped ++ rest) = readString 0 read named rest := by
  induction skipped with
  | nil => rfl
  | cons c skipped ih => rw [List.length_cons, List.cons_append, readString, ih]

/-- An escape that names a character is read as that character. -/
theorem readString_escape (escape : List Char) {c : Char} {rest : List Char}
    (hescape : escapeAt (escape ++ rest) = some (some c, escape.length)) (read : List Char)
    (named : Bool) : readString 0 read named ('\\' :: (escape ++ rest)) =
      readString 0 (c :: read) named rest := by
  rw [readString, if_neg (by decide), if_pos rfl, hescape]
  exact readString_skip escape (c :: read) named rest

/-- What is written for a character is read as that character. -/
theorem readString_jsonChar (c : Char) (read : List Char) (named : Bool) (rest : List Char) :
    readString 0 read named (jsonChar c ++ rest) = readString 0 (c :: read) named rest := by
  unfold jsonChar
  split
  · exact readString_escape ['"'] rfl read named
  · exact readString_escape ['\\'] rfl read named
  · exact readString_escape ['b'] rfl read named
  · exact readString_escape ['f'] rfl read named
  · exact readString_escape ['n'] rfl read named
  · exact readString_escape ['r'] rfl read named
  · exact readString_escape ['t'] rfl read named
  · rename_i hquote hslash _ _ _ _ _
    by_cases hcontrol : c.toNat < 0x20
    · rw [if_pos hcontrol]
      exact readString_escape ['u', '0', '0', _, _] (escapeAt_control hcontrol rest)
        read named
    · rw [if_neg hcontrol, List.singleton_append, readString, if_neg hquote, if_neg hslash,
        if_neg hcontrol]

theorem readString_flatMap (cs read rest : List Char) :
    readString 0 read true (cs.flatMap jsonChar ++ '"' :: rest) =
      some (some (String.ofList (read.reverse ++ cs)), rest) := by
  induction cs generalizing read with
  | nil => simp [readString]
  | cons c cs ih =>
    rw [List.flatMap_cons, List.append_assoc, readString_jsonChar, ih]
    simp

/-- A text is read back from between its quotes. -/
theorem readString_jsonText (text : String) (rest : List Char) :
    ∃ inner, (jsonText text).toList ++ rest = '"' :: inner ∧
      readString 0 [] true inner = some (some text, rest) := by
  refine ⟨text.toList.flatMap jsonChar ++ '"' :: rest, by simp [Datum.toList_jsonText], ?_⟩
  rw [readString_flatMap, List.reverse_nil, List.nil_append, String.ofList_toList]

/-! ### Values -/

theorem skipSpace_cons (first : Char) (hfirst : first ∉ [' ', '\t', '\n', '\r', ']'])
    (rest : List Char) : skipSpace (first :: rest) = first :: rest := by
  simp only [List.mem_cons, List.not_mem_nil, not_or] at hfirst
  simp [skipSpace, hfirst]

variable {bound : Nat}

theorem readValue_text (text : String) (rest : List Char) :
    readValue (bound + 1) ((jsonText text).toList ++ rest) = some (.string (some text), rest) := by
  obtain ⟨inner, hinner, hread⟩ := readString_jsonText text rest
  rw [hinner, readValue, skipSpace_cons _ (by decide)]
  simp only [hread, Option.map_some]

/-- The items of an array are read after its bracket. -/
theorem readValue_bracket {first : Char} (hfirst : first ∉ [' ', '\t', '\n', '\r', ']'])
    (more : List Char) :
    readValue (bound + 1) ('[' :: first :: more) = readItems bound [] (first :: more) := by
  have hclose : first ≠ ']' := fun heq ↦ hfirst (by simp [heq])
  rw [readValue, skipSpace_cons _ (by decide)]
  simp only [skipSpace_cons _ hfirst]
  split
  · rename_i heq
    exact absurd (List.cons.inj heq).1 hclose
  · rfl

/-- The members of an object are read after its brace. -/
theorem readValue_brace (more : List Char) :
    readValue (bound + 1) ('\x7b' :: '"' :: more) = readMembers bound [] ('"' :: more) := by
  rw [readValue, skipSpace_cons _ (by decide)]
  simp only [skipSpace_cons '"' (by decide)]
  rfl

/-- What a reader with a bound does on texts that are no longer than the bound: it reads a value,
the items of an array and the members of an object back, and leaves what comes after them. -/
structure Reads (bound : Nat) : Prop where
  /-- A value is read back. -/
  value : ∀ (value : Datum) (rest : List Char), value.Numberless → value.json.length ≤ bound →
    readValue bound (value.json.toList ++ rest) = some (value.written, rest)
  /-- Items are read back after those read before. -/
  items : ∀ (item : Datum) (others : List Datum) (read : List Json) (rest : List Char),
    item.Numberless → Datum.NumberlessItems others →
    item.json.length + (jsonItems others).length < bound →
    readItems bound read (item.json.toList ++ ((jsonItems others).toList ++ ']' :: rest)) =
      some (.array (read.reverse ++ item.written :: Datum.writtenItems others), rest)
  /-- Members are read back after those read before. -/
  members : ∀ (name : String) (value : Datum) (others : List (String × Datum))
    (read : List (Option String × Json)) (rest : List Char),
    value.Numberless → Datum.NumberlessFields others →
    value.json.length + (jsonFields others).length < bound →
    readMembers bound read ((jsonText name).toList ++ (':' :: (value.json.toList ++
      ((jsonFields others).toList ++ '\x7d' :: rest)))) =
        some (.object (read.reverse ++ (some name, value.written) :: Datum.writtenFields others),
          rest)

theorem Reads.list_succ (hreads : Reads bound) {item : Datum} {others : List Datum}
    (hitem : item.Numberless) (hothers : Datum.NumberlessItems others) (rest : List Char)
    (hbound : (Datum.list (item :: others)).json.length ≤ bound + 1) :
    readValue (bound + 1) ((Datum.list (item :: others)).json.toList ++ rest) =
      some ((Datum.list (item :: others)).written, rest) := by
  have htext : (Datum.list (item :: others)).json.toList ++ rest =
      '[' :: (item.json.toList ++ ((jsonItems others).toList ++ ']' :: rest)) := by
    simp [Datum.json]
  have hlength : item.json.length + (jsonItems others).length < bound := by
    rw [Datum.length_json_list] at hbound
    omega
  have hitems := hreads.items item others [] rest hitem hothers hlength
  obtain ⟨first, more, hfirst, hspace⟩ := Datum.exists_head_json hitem
  rw [hfirst, List.cons_append] at hitems
  rw [htext, hfirst, List.cons_append, readValue_bracket hspace, hitems, Datum.written,
    Datum.writtenItems, List.reverse_nil, List.nil_append]

theorem Reads.table_succ (hreads : Reads bound) {name : String} {value : Datum}
    {others : List (String × Datum)} (hvalue : value.Numberless)
    (hothers : Datum.NumberlessFields others) (rest : List Char)
    (hbound : (Datum.table ((name, value) :: others)).json.length ≤ bound + 1) :
    readValue (bound + 1) ((Datum.table ((name, value) :: others)).json.toList ++ rest) =
      some ((Datum.table ((name, value) :: others)).written, rest) := by
  have htext : (Datum.table ((name, value) :: others)).json.toList ++ rest =
      '\x7b' :: ((jsonText name).toList ++ (':' :: (value.json.toList ++
        ((jsonFields others).toList ++ '\x7d' :: rest)))) := by
    simp [Datum.json]
  have hlength : value.json.length + (jsonFields others).length < bound := by
    rw [Datum.length_json_table] at hbound
    omega
  have hmembers := hreads.members name value others [] rest hvalue hothers hlength
  rw [Datum.toList_jsonText, List.cons_append] at hmembers
  rw [htext, Datum.toList_jsonText, List.cons_append, readValue_brace, hmembers, Datum.written,
    Datum.writtenFields, List.reverse_nil, List.nil_append]

theorem Reads.value_succ (hreads : Reads bound) (value : Datum) (rest : List Char)
    (hvalue : value.Numberless) (hbound : value.json.length ≤ bound + 1) :
    readValue (bound + 1) (value.json.toList ++ rest) = some (value.written, rest) := by
  cases value with
  | null => simp [Datum.json, readValue, skipSpace, readWord, Datum.written]
  | bool value =>
    cases value <;> simp [Datum.json, readValue, skipSpace, readWord, Datum.written]
  | int _ | float _ => exact absurd hvalue (by simp [Numberless])
  | text text => rw [Datum.json, readValue_text, Datum.written]
  | list items =>
    cases items with
    | nil => simp [Datum.json, readValue, skipSpace, Datum.written, Datum.writtenItems]
    | cons item others =>
      rw [Numberless, Datum.NumberlessItems] at hvalue
      exact hreads.list_succ hvalue.1 hvalue.2 rest hbound
  | table fields =>
    rcases fields with _ | ⟨⟨name, value⟩, others⟩
    · simp [Datum.json, readValue, skipSpace, Datum.written, Datum.writtenFields]
    · rw [Numberless, Datum.NumberlessFields] at hvalue
      exact hreads.table_succ hvalue.1 hvalue.2 rest hbound

theorem Reads.items_succ (hreads : Reads bound) (item : Datum) (others : List Datum)
    (read : List Json) (rest : List Char) (hitem : item.Numberless)
    (hothers : Datum.NumberlessItems others)
    (hbound : item.json.length + (jsonItems others).length < bound + 1) :
    readItems (bound + 1) read (item.json.toList ++ ((jsonItems others).toList ++ ']' :: rest)) =
      some (.array (read.reverse ++ item.written :: Datum.writtenItems others), rest) := by
  rw [readItems, hreads.value item _ hitem (by omega)]
  cases others with
  | nil => simp [jsonItems, skipSpace, Datum.writtenItems]
  | cons next others =>
    rw [Datum.NumberlessItems] at hothers
    have htext : (jsonItems (next :: others)).toList ++ ']' :: rest =
        ',' :: (next.json.toList ++ ((jsonItems others).toList ++ ']' :: rest)) := by
      simp [jsonItems]
    have hlength : next.json.length + (jsonItems others).length < bound := by
      rw [Datum.length_jsonItems_cons] at hbound
      omega
    have hnext := hreads.items next others (item.written :: read) rest hothers.1 hothers.2 hlength
    simp only [htext, skipSpace_cons ',' (by decide), hnext, Datum.writtenItems,
      List.reverse_cons, List.append_assoc, List.singleton_append]

theorem Reads.members_succ (hreads : Reads bound) (name : String) (value : Datum)
    (others : List (String × Datum)) (read : List (Option String × Json)) (rest : List Char)
    (hvalue : value.Numberless) (hothers : Datum.NumberlessFields others)
    (hbound : value.json.length + (jsonFields others).length < bound + 1) :
    readMembers (bound + 1) read ((jsonText name).toList ++ (':' :: (value.json.toList ++
      ((jsonFields others).toList ++ '\x7d' :: rest)))) =
        some (.object (read.reverse ++ (some name, value.written) :: Datum.writtenFields others),
          rest) := by
  obtain ⟨inner, hinner, hname⟩ := readString_jsonText name
    (':' :: (value.json.toList ++ ((jsonFields others).toList ++ '\x7d' :: rest)))
  rw [hinner, readMembers, skipSpace_cons _ (by decide)]
  simp only [hname, skipSpace_cons ':' (by decide)]
  rw [hreads.value value _ hvalue (by omega)]
  rcases others with _ | ⟨⟨nextName, next⟩, others⟩
  · simp [jsonFields, skipSpace, Datum.writtenFields]
  · rw [Datum.NumberlessFields] at hothers
    have htext : (jsonFields ((nextName, next) :: others)).toList ++ '\x7d' :: rest =
        ',' :: ((jsonText nextName).toList ++ (':' :: (next.json.toList ++
          ((jsonFields others).toList ++ '\x7d' :: rest)))) := by
      simp [jsonFields]
    have hlength : next.json.length + (jsonFields others).length < bound := by
      rw [Datum.length_jsonFields_cons] at hbound
      omega
    have hnext := hreads.members nextName next others ((some name, value.written) :: read) rest
      hothers.1 hothers.2 hlength
    simp only [htext, skipSpace_cons ',' (by decide), hnext, Datum.writtenFields,
      List.reverse_cons, List.append_assoc, List.singleton_append]

/-- Nothing is written as the empty text, so a reader that may take no step is asked for nothing. -/
theorem reads_zero : Reads 0 where
  value value rest hvalue hbound := by
    obtain ⟨first, more, hfirst, -⟩ := Datum.exists_head_json hvalue
    have hlength := congrArg List.length hfirst
    rw [String.length_toList, List.length_cons] at hlength
    omega
  items := fun _ _ _ _ _ _ hbound ↦ absurd hbound (Nat.not_lt_zero _)
  members := fun _ _ _ _ _ _ _ hbound ↦ absurd hbound (Nat.not_lt_zero _)

theorem reads (bound : Nat) : Reads bound := by
  induction bound with
  | zero => exact reads_zero
  | succ bound ih => exact ⟨ih.value_succ, ih.items_succ, ih.members_succ⟩

/-- Data without numbers are read back from the text they are written as. -/
theorem parse?_json {value : Datum} (hvalue : value.Numberless) :
    parse? value.json = some value.written := by
  have hread := (reads (2 * value.json.toList.length + 2)).value value [] hvalue
    (by rw [String.length_toList]; omega)
  rw [List.append_nil] at hread
  simp [parse?, hread, skipSpace]

end Json

end Connectors
