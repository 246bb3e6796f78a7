import Connectors.Schema.Basic
import Connectors.Proofs.Fields
import Mathlib.Data.List.Induction
import Mathlib.Data.List.Nodup

/-!
# What a schema guarantees

A `Schema` carries its index of names, and the fact that its options were entered in it without a
fault (`Schema.indexed`). This module says what that means. Entering one more option keeps the index
exact (`NameIndex.Indexes.put`), so the index has every option under the normal form of its name,
with its position, and nothing else (`Schema.indexes`). Options are entered without a fault exactly
if they are `Consistent` (`NameIndex.exists_enter_iff`).

For the options themselves: no two declared names have one normal form (`Schema.nodup_forms`), so
that an option is known by the form of its name (`Schema.eq_of_normal_eq`), and every default is a
value of its option (`Schema.parse_fallback`), so that an option which holds an object has none
(`Schema.fallback_eq_none`).
-/

set_option autoImplicit false
set_option relaxedAutoImplicit false

namespace Connectors

namespace OptionKind

variable {kind : OptionKind} {text : String}

/-- An option whose values are read from text does not hold an object. -/
theorem ne_object_of_parse {value : OptionValue} (hparse : kind.parse text = .ok value)
    (typeName : String) : kind ≠ .object typeName := by
  rintro rfl
  simp [parse] at hparse

/-- A text is found to be none of the constants exactly where there are constants without it. -/
theorem parse_eq_notInEnum_iff :
    kind.parse text = .error .notInEnum ↔ ∃ allowed, kind = .enum allowed ∧ text ∉ allowed := by
  cases kind with
  | enum allowed => simp [parse]
  | bool => cases hread : parseBool? text <;> simp [parse, hread]
  | int => cases hread : Integer.readWithin? Integer.word32 text <;> simp [parse, hread]
  | long => cases hread : Integer.readWithin? Integer.word64 text <;> simp [parse, hread]
  | _ => simp [parse]

/-- A kind without constants finds a text malformed exactly if the text is no value of it. -/
theorem parse_eq_malformed_iff : kind.parse text = .error .malformed ↔
    (∀ allowed, kind ≠ .enum allowed) ∧ ∀ value, kind.parse text ≠ .ok value := by
  constructor
  · intro hparse
    refine ⟨fun allowed hkind ↦ ?_, by simp [hparse]⟩
    by_cases hmem : text ∈ allowed <;> simp [hkind, parse, hmem] at hparse
  · rintro ⟨henum, hvalue⟩
    cases hparse : kind.parse text with
    | ok value => exact absurd hparse (hvalue value)
    | error failure =>
      cases failure with
      | malformed => rfl
      | notInEnum =>
        obtain ⟨allowed, hkind, -⟩ := parse_eq_notInEnum_iff.mp hparse
        exact absurd hkind (henum allowed)

end OptionKind

/-- A default is without fault exactly when it reads as a value of the option's kind. An object has
no text, so for an option that holds one no default will do. -/
theorem OptionSpec.defaultFault?_eq_none_iff (spec : OptionSpec) :
    spec.defaultFault? = none ↔
      ∀ text, spec.fallback = some text → ∃ value, spec.kind.parse text = .ok value := by
  unfold defaultFault?
  cases hfallback : spec.fallback with
  | none => simp
  | some text =>
    cases hparse : spec.kind.parse text with
    | ok value =>
      cases hkind : spec.kind with
      | object typeName => exact absurd hkind (OptionKind.ne_object_of_parse hparse typeName)
      | _ => simp_all
    | error failure =>
      cases hkind : spec.kind <;> cases failure <;> simp_all

/-- An option that holds an object and whose default is a value has no default. -/
theorem OptionSpec.fallback_eq_none_of_object {spec : OptionSpec}
    (hdefault : ∀ text, spec.fallback = some text → ∃ value, spec.kind.parse text = .ok value)
    {typeName : String} (hkind : spec.kind = .object typeName) : spec.fallback = none := by
  cases hfallback : spec.fallback with
  | none => rfl
  | some text =>
    obtain ⟨value, hparse⟩ := hdefault text hfallback
    exact absurd hkind (OptionKind.ne_object_of_parse hparse typeName)

/-! ### Lists of options -/

/-- Options that can be told apart in every spelling and whose defaults are values. -/
structure Consistent (options : List OptionSpec) : Prop where
  /-- No two names have one normal form. -/
  distinct : options.Pairwise fun earlier later ↦
    Key.normal earlier.name ≠ Key.normal later.name
  /-- Each default reads as a value of its option's kind. -/
  defaults : ∀ spec ∈ options, ∀ text, spec.fallback = some text →
    ∃ value, spec.kind.parse text = .ok value
  /-- An option that holds an object has no default. -/
  objects : ∀ spec ∈ options, ∀ typeName, spec.kind = .object typeName → spec.fallback = none

/-- An option has the name of one before it, in some spelling. -/
def OptionSpec.Repeats (spec : OptionSpec) (before : List OptionSpec) : Prop :=
  ∃ earlier ∈ before, Key.normal earlier.name = Key.normal spec.name

theorem consistent_nil : Consistent [] :=
  ⟨.nil, by simp, by simp⟩

/-- One more option is consistent with others if its name is new and its default is without
fault. -/
theorem consistent_concat_iff {options : List OptionSpec} {spec : OptionSpec} :
    Consistent (options ++ [spec]) ↔
      Consistent options ∧ ¬ spec.Repeats options ∧ spec.defaultFault? = none := by
  have hrepeats : ¬ spec.Repeats options ↔
      ∀ earlier ∈ options, Key.normal earlier.name ≠ Key.normal spec.name := by
    simp [OptionSpec.Repeats]
  rw [hrepeats, spec.defaultFault?_eq_none_iff]
  constructor
  · rintro ⟨hdistinct, hdefaults, hobjects⟩
    obtain ⟨hbefore, -, hnew⟩ := List.pairwise_append.mp hdistinct
    have hmem : ∀ {other}, other ∈ options → other ∈ options ++ [spec] := List.mem_append_left _
    exact ⟨⟨hbefore, fun other hother ↦ hdefaults other (hmem hother),
        fun other hother ↦ hobjects other (hmem hother)⟩,
      fun earlier hearlier ↦ hnew earlier hearlier spec (List.mem_singleton_self spec),
      hdefaults spec (by simp)⟩
  · rintro ⟨⟨hdistinct, hdefaults, hobjects⟩, hnew, hdefault⟩
    refine ⟨List.pairwise_append.mpr ⟨hdistinct, List.pairwise_singleton _ _, by simpa using hnew⟩,
      fun other hother ↦ ?_, fun other hother typeName hkind ↦ ?_⟩
    · rcases List.mem_append.mp hother with hother | hother
      · exact hdefaults other hother
      · exact List.mem_singleton.mp hother ▸ hdefault
    · rcases List.mem_append.mp hother with hother | hother
      · exact hobjects other hother typeName hkind
      · obtain rfl := List.mem_singleton.mp hother
        exact other.fallback_eq_none_of_object hdefault hkind

/-! ### The index of names -/

namespace NameIndex

variable {index grown : NameIndex} {options : List OptionSpec} {spec : OptionSpec}

/-- An index is that of some options: it has each of them under the normal form of its name, with
its position, and nothing else. -/
structure Indexes (index : NameIndex) (options : List OptionSpec) : Prop where
  /-- Every option is entered, at its position. -/
  total : ∀ position spec, options[position]? = some spec →
    Fields.get? (Key.normal spec.name) index = some position
  /-- What is entered is the position of an option, under the form of its name. -/
  placed : ∀ form position, Fields.get? form index = some position →
    ∃ spec, options[position]? = some spec ∧ Key.normal spec.name = form

/-- No position is entered under two forms. -/
theorem Indexes.injective (hindexes : index.Indexes options) {form other : String} {position : Nat}
    (hform : Fields.get? form index = some position)
    (hother : Fields.get? other index = some position) : form = other := by
  obtain ⟨spec, hspec, rfl⟩ := hindexes.placed form position hform
  obtain ⟨spec', hspec', rfl⟩ := hindexes.placed other position hother
  obtain rfl := Option.some.inj (hspec.symm.trans hspec')
  rfl

/-- A name is entered exactly if it is that of an option, in some spelling. -/
theorem Indexes.has_iff (hindexes : index.Indexes options) :
    Fields.has (Key.normal spec.name) index = true ↔ spec.Repeats options := by
  rw [Fields.has, Option.isSome_iff_exists]
  constructor
  · rintro ⟨position, hposition⟩
    obtain ⟨earlier, hearlier, hname⟩ := hindexes.placed _ position hposition
    exact ⟨earlier, List.mem_of_getElem? hearlier, hname⟩
  · rintro ⟨earlier, hearlier, hname⟩
    obtain ⟨position, hposition⟩ := List.mem_iff_getElem?.mp hearlier
    exact ⟨position, hname ▸ hindexes.total position earlier hposition⟩

/-- An index stays exact when a new name is entered with the position that comes next. -/
theorem Indexes.put (hindexes : index.Indexes options) (hnew : ¬ spec.Repeats options) :
    NameIndex.Indexes (Fields.put (Key.normal spec.name) options.length index)
      (options ++ [spec]) := by
  constructor
  · intro position other hother
    rcases Nat.lt_or_ge position options.length with hposition | hposition
    · rw [List.getElem?_append_left hposition] at hother
      have hname : Key.normal other.name ≠ Key.normal spec.name :=
        fun hsame ↦ hnew ⟨other, List.mem_of_getElem? hother, hsame⟩
      rw [Fields.get?_put_of_ne _ _ hname]
      exact hindexes.total position other hother
    · rw [List.getElem?_append_right hposition, List.getElem?_singleton] at hother
      split_ifs at hother with hlast
      obtain rfl := Option.some.inj hother
      rw [Fields.get?_put_self, Nat.le_antisymm (Nat.sub_eq_zero_iff_le.mp hlast) hposition]
  · intro form position hposition
    by_cases hform : form = Key.normal spec.name
    · subst hform
      rw [Fields.get?_put_self] at hposition
      obtain rfl := Option.some.inj hposition
      exact ⟨spec, by simp, rfl⟩
    · rw [Fields.get?_put_of_ne _ _ hform] at hposition
      obtain ⟨other, hother, hname⟩ := hindexes.placed form position hposition
      have hlength : position < options.length := (List.getElem?_eq_some_iff.mp hother).1
      exact ⟨other, by rw [List.getElem?_append_left hlength, hother], hname⟩

/-! ### Entering options -/

theorem enter_append (index : NameIndex) (position : Nat) (before rest : List OptionSpec) :
    index.enter position (before ++ rest) = (index.enter position before).bind fun grown ↦
      grown.enter (position + before.length) rest := by
  induction before generalizing index position with
  | nil => rfl
  | cons spec before ih =>
    rw [List.cons_append, enter, enter]
    split_ifs
    · rfl
    · cases spec.defaultFault? with
      | some fault => rfl
      | none => simp only [ih, List.length_cons, Nat.add_assoc, Nat.add_comm 1]

/-- Options are entered one after another, each under the position that comes next. -/
theorem enter_concat (options : List OptionSpec) (spec : OptionSpec) :
    enter [] 0 (options ++ [spec]) = (enter [] 0 options).bind fun index ↦
      index.enter options.length [spec] := by
  rw [enter_append, Nat.zero_add]

/-- One more option is entered in an exact index if its name is new and its default is without
fault. -/
theorem enter_singleton_eq_ok_iff (hindexes : index.Indexes options) :
    index.enter options.length [spec] = .ok grown ↔
      (¬ spec.Repeats options ∧ spec.defaultFault? = none) ∧
        Fields.put (Key.normal spec.name) options.length index = grown := by
  rw [← hindexes.has_iff, enter]
  split_ifs with hhas
  · simp [hhas]
  · cases hfault : spec.defaultFault? <;> simp [hhas, enter]

theorem indexes_of_enter (hentered : enter [] 0 options = .ok index) : index.Indexes options := by
  induction options using List.reverseRecOn generalizing index with
  | nil =>
    obtain rfl : [] = index := Except.ok.inj hentered
    exact ⟨by simp, by simp [Fields.get?]⟩
  | append_singleton options spec ih =>
    rw [enter_concat] at hentered
    cases hbefore : enter [] 0 options with
    | error fault => simp [hbefore, Except.bind] at hentered
    | ok before =>
      rw [hbefore] at hentered
      obtain ⟨⟨hnew, -⟩, rfl⟩ := (enter_singleton_eq_ok_iff (ih hbefore)).mp hentered
      exact (ih hbefore).put hnew

theorem exists_enter_iff : (∃ index, enter [] 0 options = .ok index) ↔ Consistent options := by
  induction options using List.reverseRecOn with
  | nil => exact iff_of_true ⟨[], rfl⟩ consistent_nil
  | append_singleton options spec ih =>
    rw [enter_concat, consistent_concat_iff, ← ih]
    cases hbefore : enter [] 0 options with
    | error fault => simp [Except.bind]
    | ok before =>
      simp [Except.bind, enter_singleton_eq_ok_iff (indexes_of_enter hbefore)]

end NameIndex

namespace Schema

variable (schema : Schema)

/-- The index of a schema is that of its options. -/
theorem indexes : schema.index.Indexes schema.options :=
  NameIndex.indexes_of_enter schema.indexed

theorem consistent : Consistent schema.options :=
  NameIndex.exists_enter_iff.mp ⟨_, schema.indexed⟩

/-- No two options of a schema have names of one normal form. -/
theorem nodup_forms : (schema.options.map fun spec ↦ Key.normal spec.name).Nodup := by
  rw [List.nodup_iff_pairwise_ne, List.pairwise_map]
  exact schema.consistent.distinct

/-- The default of an option of a schema reads as a value of the option's kind. -/
theorem parse_fallback {spec : OptionSpec} (hspec : spec ∈ schema.options) {text : String}
    (hfallback : spec.fallback = some text) : ∃ value, spec.kind.parse text = .ok value :=
  schema.consistent.defaults spec hspec text hfallback

/-- An option of a schema that holds an object has no default. -/
theorem fallback_eq_none {spec : OptionSpec} (hspec : spec ∈ schema.options) {typeName : String}
    (hkind : spec.kind = .object typeName) : spec.fallback = none :=
  schema.consistent.objects spec hspec typeName hkind

/-- A name leads to one option of a schema only. -/
theorem eq_of_normal_eq {spec other : OptionSpec} (hspec : spec ∈ schema.options)
    (hother : other ∈ schema.options) (hforms : Key.normal spec.name = Key.normal other.name) :
    spec = other :=
  List.inj_on_of_nodup_map schema.nodup_forms hspec hother hforms

end Schema

end Connectors
