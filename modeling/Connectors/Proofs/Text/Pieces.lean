import Connectors.Options.Kind
import Mathlib.Data.List.DropRight

/-!
# Pieces of texts

Cutting a text on both sides of a separator is cutting each side (`splitChars_append_cons`), and
trimming a trimmed text changes nothing (`trimChars_trimChars`). Together they say what the items of
a list are: texts that are not empty, hold no comma and have no white space at their ends
(`isItem_of_mem_listItems`). The items of joined texts are those of each text in turn
(`listItems_join_eq_flatMap`), so texts come out of what joins them as they are exactly if they have
that form (`flatMap_listItems_eq_self_iff`).
-/

set_option autoImplicit false
set_option relaxedAutoImplicit false

namespace Connectors.Text

/-! ### Cutting -/

variable {separator : Char}

theorem splitChars_ne_nil (cs : List Char) : splitChars separator cs ≠ [] := by
  cases cs with
  | nil => simp [splitChars]
  | cons c rest =>
    by_cases hc : c = separator
    · simp [splitChars, hc]
    · simp only [splitChars, hc, if_false]
      split <;> simp

/-- Cutting what stands on both sides of a separator is cutting each side. -/
theorem splitChars_append_cons (separator : Char) (cs rest : List Char) :
    splitChars separator (cs ++ separator :: rest) =
      splitChars separator cs ++ splitChars separator rest := by
  induction cs with
  | nil => simp [splitChars]
  | cons c cs ih =>
    by_cases hc : c = separator
    · simp [splitChars, hc, ih]
    · simp only [List.cons_append, splitChars, hc, if_false, ih]
      cases hcs : splitChars separator cs with
      | nil => exact absurd hcs (splitChars_ne_nil cs)
      | cons piece pieces => rfl

theorem splitChars_eq_singleton {cs : List Char} (hcs : separator ∉ cs) :
    splitChars separator cs = [cs] := by
  induction cs with
  | nil => rfl
  | cons c cs ih =>
    obtain ⟨hc, hrest⟩ := not_or.mp (mt List.mem_cons.mpr hcs)
    simp [splitChars, Ne.symm hc, ih hrest]

/-- The first piece is the whole text, or the first separator follows it. -/
theorem eq_or_exists_of_splitChars {cs first : List Char} {others : List (List Char)}
    (hsplit : splitChars separator cs = first :: others) :
    cs = first ∨ ∃ rest, cs = first ++ separator :: rest := by
  induction cs generalizing first others with
  | nil => exact .inl (List.cons.inj hsplit).1
  | cons c cs ih =>
    by_cases hc : c = separator
    · simp only [splitChars, hc, if_true] at hsplit
      obtain rfl := (List.cons.inj hsplit).1
      exact .inr ⟨cs, by rw [hc, List.nil_append]⟩
    · simp only [splitChars, hc, if_false] at hsplit
      cases hcs : splitChars separator cs with
      | nil => exact absurd hcs (splitChars_ne_nil cs)
      | cons piece pieces =>
        rw [hcs] at hsplit
        obtain rfl := (List.cons.inj hsplit).1
        rcases ih hcs with rfl | ⟨rest, rfl⟩
        · exact .inl rfl
        · exact .inr ⟨rest, rfl⟩

/-- No piece holds the separator. -/
theorem not_mem_of_mem_splitChars {cs piece : List Char}
    (hpiece : piece ∈ splitChars separator cs) : separator ∉ piece := by
  induction cs generalizing piece with
  | nil => simp_all [splitChars]
  | cons c cs ih =>
    by_cases hc : c = separator
    · simp only [splitChars, hc, if_true, List.mem_cons] at hpiece
      rcases hpiece with rfl | hpiece
      · exact List.not_mem_nil
      · exact ih hpiece
    · simp only [splitChars, hc, if_false] at hpiece
      cases hcs : splitChars separator cs with
      | nil => exact absurd hcs (splitChars_ne_nil cs)
      | cons first pieces =>
        simp only [hcs, List.mem_cons] at hpiece
        rcases hpiece with rfl | hpiece
        · have hfirst : separator ∉ first := ih (by simp [hcs])
          exact fun h ↦ (List.mem_cons.mp h).elim (Ne.symm hc) hfirst
        · exact ih (by simp [hcs, hpiece])

/-! ### Trimming -/

/-- What begins a text without white space at its start has none there either. -/
theorem dropWhile_eq_self_of_prefix {cs start : List Char} {p : Char → Bool}
    (hstart : start <+: cs.dropWhile p) : start.dropWhile p = start := by
  cases start with
  | nil => rfl
  | cons c rest =>
    obtain ⟨after, hafter⟩ := hstart
    have hhead := List.head?_dropWhile_not p cs
    rw [← hafter] at hhead
    exact List.dropWhile_cons_of_neg (by simpa using hhead)

/-- A trimmed text has no white space at its ends, so trimming it again changes nothing. -/
theorem trimChars_trimChars (cs : List Char) : trimChars (trimChars cs) = trimChars cs := by
  have hstart : (trimChars cs).dropWhile isBlank = trimChars cs :=
    dropWhile_eq_self_of_prefix (List.rdropWhile_prefix isBlank (cs.dropWhile isBlank))
  rw [trimChars, hstart]
  exact List.rdropWhile_idempotent isBlank (cs.dropWhile isBlank)

theorem mem_of_mem_trimChars {c : Char} {cs : List Char} (hc : c ∈ trimChars cs) : c ∈ cs :=
  (List.dropWhile_sublist isBlank).mem
    ((List.rdropWhile_prefix isBlank (cs.dropWhile isBlank)).mem hc)

end Connectors.Text

/-! ### The items of a list -/

namespace Connectors.OptionKind

/-- A text that an item of a list can be: it is not empty, holds no comma, and has no white space at
its ends. -/
def IsItem (text : String) : Prop :=
  text ≠ "" ∧ ',' ∉ text.toList ∧ Text.trim text = text

/-- Whatever is read as a list, its items have the form of items. -/
theorem isItem_of_mem_listItems {text item : String} (hitem : item ∈ listItems text) :
    IsItem item := by
  simp only [listItems, List.mem_map, List.mem_filter] at hitem
  obtain ⟨cs, ⟨⟨piece, hpiece, rfl⟩, hne⟩, rfl⟩ := hitem
  refine ⟨?_, ?_, ?_⟩
  · intro hempty
    simp [← String.toList_inj] at hempty
    simp [hempty] at hne
  · rw [String.toList_ofList]
    exact fun hcomma ↦ Text.not_mem_of_mem_splitChars hpiece (Text.mem_of_mem_trimChars hcomma)
  · rw [Text.trim, String.toList_ofList, Text.trimChars_trimChars]

/-- The items of two texts with a comma between them are those of the one and those of the other. -/
theorem listItems_append (a b : String) :
    listItems (a ++ "," ++ b) = listItems a ++ listItems b := by
  have hcomma : (a ++ "," ++ b).toList = a.toList ++ ',' :: b.toList := by simp
  simp only [listItems, hcomma, Text.splitChars_append_cons, List.map_append, List.filter_append]

/-- The items of joined texts are the items of the texts, in order. -/
theorem listItems_join_eq_flatMap (texts : List String) :
    listItems (Text.join "," texts) = texts.flatMap listItems := by
  induction texts with
  | nil => rfl
  | cons text rest ih =>
    cases rest with
    | nil => simp [Text.join]
    | cons next others => rw [Text.join, listItems_append, ih, ← List.flatMap_cons]; simp

/-- A text of the form of an item is the only item of itself. -/
theorem listItems_of_isItem {text : String} (htext : IsItem text) : listItems text = [text] := by
  obtain ⟨hne, hcomma, htrim⟩ := htext
  have htrimmed : Text.trimChars text.toList = text.toList := by
    simpa [Text.trim] using congrArg String.toList htrim
  simp [listItems, Text.splitChars_eq_singleton hcomma, htrimmed, hne]

/-- Texts are the items of themselves exactly if all of them have the form of items. -/
theorem flatMap_listItems_eq_self_iff {texts : List String} :
    texts.flatMap listItems = texts ↔ ∀ text ∈ texts, IsItem text := by
  constructor
  · intro hself text htext
    rw [← hself] at htext
    obtain ⟨_, -, hitem⟩ := List.mem_flatMap.mp htext
    exact isItem_of_mem_listItems hitem
  · intro hitems
    induction texts with
    | nil => rfl
    | cons text rest ih =>
      obtain ⟨htext, hrest⟩ := List.forall_mem_cons.mp hitems
      rw [List.flatMap_cons, listItems_of_isItem htext, ih hrest, List.singleton_append]

/-- Texts of the form of items are the items of the text that joins them with commas. -/
theorem listItems_join {items : List String} (hitems : ∀ item ∈ items, IsItem item) :
    listItems (Text.join "," items) = items := by
  rw [listItems_join_eq_flatMap, flatMap_listItems_eq_self_iff.mpr hitems]

end Connectors.OptionKind
