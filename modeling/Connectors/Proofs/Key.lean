import Connectors.Key
import Connectors.Proofs.Text.Lowercase
import Mathlib.Logic.Relation

/-!
# Laws of normal forms

What is said of names anywhere rests on a few laws of their normal forms (`Key.laws_of_normal`). The
normal form of a concatenation is the concatenation of the normal forms. A normal form holds no
separator and is its own normal form, whatever characters the name has: a separator is no lower case
of another character, and lower case is settled.

A name is written in another way by inserting and deleting separators and changing the case of ASCII
letters (`Key.Edit`). That keeps the normal form of every name. Two names in ASCII have one normal
form only if one is the other in another way (`Key.Respells`), since there each leads to the other
through the normal form itself. Outside ASCII names can agree that are not related in this way, such
as `Ü` and `ü`.
-/

set_option autoImplicit false
set_option relaxedAutoImplicit false

namespace Connectors.Key

open Text (IsAscii lowerChar)

/-! ### Separators -/

theorem isSeparator_toLower (c : Char) : isSeparator c.toLower = isSeparator c :=
  toLower_congr (by decide) c

theorem toNat_lt_of_isSeparator {c : Char} (hc : isSeparator c = true) : c.toNat < 0x61 := by
  simp only [isSeparator, Bool.or_eq_true, decide_eq_true_eq] at hc
  rcases hc with (rfl | rfl) | rfl <;> decide

/-- A separator is the lower case of separators only. -/
theorem isSeparator_of_mem_lowerChar {c d : Char} (hd : d ∈ lowerChar c)
    (hc : isSeparator c = false) : isSeparator d = false := by
  rcases Text.lowerChar_cases c with hlower | hlower | ⟨run, hrun, place, hplace, hlower⟩
  · rw [hlower, List.mem_singleton] at hd
    rw [hd, isSeparator_toLower, hc]
  · rw [hlower, List.mem_cons, List.mem_singleton] at hd
    rcases hd with rfl | rfl <;> decide
  · rw [hlower, List.mem_singleton] at hd
    have hproper := Text.proper_of_mem_caseRuns run hrun
    have hcode : d.toNat = run.target + place * run.stride := hd ▸ hproper.toNat_ofNat hplace
    refine Bool.eq_false_iff.mpr fun hseparator ↦ ?_
    have hsmall := toNat_lt_of_isSeparator hseparator
    have hlarge := hproper.1
    omega

/-! ### Normal forms -/

theorem normalChars_cons (c : Char) (cs : List Char) :
    normalChars (c :: cs) = (if isSeparator c then [] else lowerChar c) ++ normalChars cs := by
  by_cases hc : isSeparator c = true <;> simp [normalChars, hc]

/-- The normal form of a name does not depend on the case of ASCII letters. -/
theorem normalChars_lower (cs : List Char) :
    normalChars (cs.map Char.toLower) = normalChars cs := by
  induction cs with
  | nil => rfl
  | cons c cs ih =>
    rw [List.map_cons, normalChars_cons, normalChars_cons, isSeparator_toLower,
      Text.lowerChar_toLower, ih]

theorem normal_append (first second : String) :
    normal (first ++ second) = normal first ++ normal second := by
  simp only [normal, String.toList_append, normalChars_append, String.ofList_append]

theorem normal_append_point (name : String) : normal (name ++ ".") = normal name := by
  have hpoint : normal "." = "" := rfl
  rw [normal_append, hpoint, String.append_empty]

/-- The characters of a normal form are in lower case and separate nothing. -/
theorem of_mem_normalChars {d : Char} {cs : List Char} (hd : d ∈ normalChars cs) :
    isSeparator d = false ∧ lowerChar d = [d] := by
  obtain ⟨c, hc, hlower⟩ := List.mem_flatMap.mp hd
  have hkept : isSeparator c = false := by simpa using (List.mem_filter.mp hc).2
  exact ⟨isSeparator_of_mem_lowerChar hlower hkept, Text.lowerChar_of_mem_lowerChar hlower⟩

/-- Characters in lower case that separate nothing are a normal form. -/
theorem normalChars_eq_self {cs : List Char}
    (hcs : ∀ c ∈ cs, isSeparator c = false ∧ lowerChar c = [c]) : normalChars cs = cs := by
  induction cs with
  | nil => rfl
  | cons c cs ih =>
    obtain ⟨⟨hkept, hlower⟩, hrest⟩ := List.forall_mem_cons.mp hcs
    rw [normalChars_cons, ih hrest, hkept, hlower]
    rfl

theorem normal_normal (name : String) : normal (normal name) = normal name := by
  unfold normal
  rw [String.toList_ofList, normalChars_eq_self fun _ ↦ of_mem_normalChars]

/-! ### Other ways to write a name -/

/-- One change in the way a name is written. -/
inductive Edit : List Char → List Char → Prop
  | insert {c : Char} (hc : isSeparator c = true) (before after : List Char) :
      Edit (before ++ after) (before ++ c :: after)
  | delete {c : Char} (hc : isSeparator c = true) (before after : List Char) :
      Edit (before ++ c :: after) (before ++ after)
  | recase {c d : Char} (hcase : c.toLower = d.toLower) (before after : List Char) :
      Edit (before ++ c :: after) (before ++ d :: after)

instance : Std.Symm Edit where
  symm _ _
    | .insert hc before after => .delete hc before after
    | .delete hc before after => .insert hc before after
    | .recase hcase before after => .recase hcase.symm before after

/-- A change further on in a name. -/
theorem Edit.cons {first second : List Char} (hedit : Edit first second) (c : Char) :
    Edit (c :: first) (c :: second) := by
  cases hedit with
  | insert hc before after => exact .insert hc (c :: before) after
  | delete hc before after => exact .delete hc (c :: before) after
  | recase hcase before after => exact .recase hcase (c :: before) after

/-- A name in another way has the same normal form. -/
theorem Edit.normalChars_eq {first second : List Char} (hedit : Edit first second) :
    normalChars first = normalChars second := by
  cases hedit with
  | insert hc before after => simp [normalChars_append, normalChars_cons, hc]
  | delete hc before after => simp [normalChars_append, normalChars_cons, hc]
  | @recase c d hcase before after =>
    have hseparator : isSeparator c = isSeparator d := by
      rw [← isSeparator_toLower, hcase, isSeparator_toLower]
    have hlower : lowerChar c = lowerChar d := by
      rw [← Text.lowerChar_toLower, hcase, Text.lowerChar_toLower]
    simp only [normalChars_append, normalChars_cons, hseparator, hlower]

/-- Two ways to write one name: each comes from the other by inserting and deleting separators and
changing the case of ASCII letters, anywhere and any number of times. -/
def Respells (first second : String) : Prop :=
  Relation.ReflTransGen Edit first.toList second.toList

theorem Respells.symm {first second : String} (hspelled : Respells first second) :
    Respells second first :=
  Std.Symm.symm (r := Relation.ReflTransGen Edit) _ _ hspelled

theorem Respells.normal_eq {first second : String} (hspelled : Respells first second) :
    normal first = normal second := by
  unfold Respells at hspelled
  unfold normal
  generalize first.toList = cs at hspelled
  generalize second.toList = ds at hspelled
  induction hspelled with
  | refl => rfl
  | tail _ hedit ih => rw [ih, hedit.normalChars_eq]

/-! ### Names in ASCII -/

/-- A name without its separators. -/
def bare (name : String) : String :=
  String.ofList (name.toList.filter fun c ↦ !isSeparator c)

/-- In ASCII the normal form is the name without its separators, in lower case. -/
theorem normal_of_ascii {name : String} (hname : IsAscii name) :
    normal name = Text.lowerAscii (bare name) := by
  have hbare : ∀ c ∈ name.toList.filter fun c ↦ !isSeparator c, c.toNat < 0x80 :=
    fun c hc ↦ hname c (List.mem_filter.mp hc).1
  rw [normal, normalChars, Text.flatMap_lowerChar_of_ascii hbare, Text.lowerAscii, bare,
    String.toList_ofList]

/-- Every name is written in another way without its separators and without ASCII capitals. -/
theorem respells_lowerAscii_bare (name : String) : Respells name (Text.lowerAscii (bare name)) := by
  unfold Respells Text.lowerAscii bare
  rw [String.toList_ofList, String.toList_ofList]
  induction name.toList with
  | nil => exact .refl
  | cons c cs ih =>
    by_cases hc : isSeparator c = true
    · rw [List.filter_cons_of_neg (by simp [hc])]
      exact .head (.delete hc [] cs) ih
    · rw [List.filter_cons_of_pos (by simpa using hc), List.map_cons]
      have hcase : c.toLower = c.toLower.toLower := (toLower_congr (by decide) c).symm
      exact .head (.recase hcase [] cs) (ih.lift _ fun _ _ hedit ↦ hedit.cons c.toLower)

/-- The laws of normal forms. The normal form of a concatenation is that of its parts in turn, is
its own normal form, and holds no separator. It stays the same when separators are inserted or
deleted and ASCII letters change their case. Names in ASCII agree exactly if they are equal without
their separators up to the case of letters, so no two of them agree that are not two ways to write
one name. -/
theorem laws_of_normal :
    (∀ first second, normal (first ++ second) = normal first ++ normal second) ∧
      (∀ name, normal (normal name) = normal name) ∧
      (∀ name, ∀ c ∈ (normal name).toList, isSeparator c = false) ∧
      (∀ first second, Respells first second → normal first = normal second) ∧
      ∀ first second, IsAscii first → IsAscii second →
        (agree first second = true ↔ Text.sameAscii (bare first) (bare second) = true) ∧
          (agree first second = true ↔ Respells first second) := by
  refine ⟨normal_append, normal_normal, fun name c hc ↦ ?_, fun _ _ ↦ Respells.normal_eq,
    fun first second hfirst hsecond ↦ ?_⟩
  · rw [normal, String.toList_ofList] at hc
    exact (of_mem_normalChars hc).1
  · have hagree : agree first second = true ↔
        Text.lowerAscii (bare first) = Text.lowerAscii (bare second) := by
      rw [agree_iff, normal_of_ascii hfirst, normal_of_ascii hsecond]
    refine ⟨hagree.trans Text.sameAscii_iff.symm, fun hsame ↦ ?_, fun hspelled ↦ ?_⟩
    · have hback : Respells (Text.lowerAscii (bare first)) second := by
        rw [hagree.mp hsame]
        exact (respells_lowerAscii_bare second).symm
      exact (respells_lowerAscii_bare first).trans hback
    · exact agree_iff.mpr hspelled.normal_eq

/-- One name in two ways and two names that differ, and a name outside ASCII in normal form, where
one character has become two. -/
theorem laws_of_normal_shardId :
    let camel := "shardId"
    let upper := "SHARD_.ID"
    let other := "shardClosed"
    IsAscii camel ∧ IsAscii upper ∧ IsAscii other ∧ agree camel upper = true ∧
      Respells camel upper ∧ normal camel = normal upper ∧ ¬ Respells camel other ∧
      normal "İD-Ω" = "i\u0307dω" ∧ normal "i\u0307dω" = "i\u0307dω" := by
  intro camel upper other
  have hcamel : IsAscii camel := by decide
  have hupper : IsAscii upper := by decide
  have hother : IsAscii other := by decide
  obtain ⟨-, hnormal, -, hrespells, hascii⟩ := laws_of_normal
  have hagree : agree camel upper = true := (hascii _ _ hcamel hupper).1.mpr (by decide +kernel)
  have hspelled : Respells camel upper := (hascii _ _ hcamel hupper).2.mp hagree
  have hdiffer : ¬ Respells camel other := by
    rw [← (hascii _ _ hcamel hother).2, (hascii _ _ hcamel hother).1]
    decide +kernel
  have hform : normal "İD-Ω" = "i\u0307dω" := by decide +kernel
  exact ⟨hcamel, hupper, hother, hagree, hspelled, hrespells _ _ hspelled, hdiffer, hform,
    hform ▸ hnormal "İD-Ω"⟩

end Connectors.Key
