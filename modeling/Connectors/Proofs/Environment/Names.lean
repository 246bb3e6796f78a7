import Connectors.Environment.Layers
import Connectors.Proofs.Key
import Connectors.Proofs.Text.Pieces
import Mathlib.Data.List.Infix

/-!
# Names of variables

The variable for an option of a component is named by the id and the option, with two underscores
before each (`Environment.variableName`). Its settings stand at a dotted path, which is found by
turning each two underscores into a point, from the left (`dotted`), and small letters into
capitals' places.

Neither step changes a normal form (`normalChars_dotted`, `normalChars_lower`). Where the id holds
no point and no two underscores in a row, the first point after it ends it, even if an underscore of
the id meets those that follow (`dotted_append`). So the path of the variable has a name for the id
and a rest for the option, each in the spelling of the environment (`path?_variable`). The path is
missing only if a part of the name is empty.
-/

set_option autoImplicit false
set_option relaxedAutoImplicit false

namespace Connectors

namespace Text

/-- A character that no capital letter has as its lower case comes from itself only. -/
theorem toLower_eq_iff_eq {other : Char}
    (hcapitals : capitals.all (fun c ↦ (c.toLower == other) = (c == other)) = true) (c : Char) :
    c.toLower = other ↔ c = other := by
  have hsame : (c.toLower == other) = (c == other) :=
    toLower_congr (f := fun c ↦ c == other) hcapitals c
  rw [← beq_iff_eq, hsame, beq_iff_eq]

theorem toLower_eq_point_iff (c : Char) : c.toLower = '.' ↔ c = '.' :=
  toLower_eq_iff_eq (by decide) c

theorem toLower_eq_underscore_iff (c : Char) : c.toLower = '_' ↔ c = '_' :=
  toLower_eq_iff_eq (by decide) c

/-- Cutting at points does not depend on the case of ASCII letters. -/
theorem splitChars_lower (cs : List Char) :
    splitChars '.' (cs.map Char.toLower) = (splitChars '.' cs).map (List.map Char.toLower) := by
  induction cs with
  | nil => rfl
  | cons c cs ih =>
    rw [List.map_cons, splitChars, splitChars]
    by_cases hc : c = '.'
    · rw [if_pos hc, if_pos ((toLower_eq_point_iff c).mpr hc), ih]
      rfl
    · rw [if_neg hc, if_neg (mt (toLower_eq_point_iff c).mp hc), ih]
      cases splitChars '.' cs <;> rfl

theorem point_notMem_lower {cs : List Char} (hcs : '.' ∉ cs) : '.' ∉ cs.map Char.toLower := by
  intro hmem
  obtain ⟨c, hc, hpoint⟩ := List.mem_map.mp hmem
  rw [(toLower_eq_point_iff c).mp hpoint] at hc
  exact hcs hc

/-! ### White space -/

theorem isBlank_toLower (c : Char) : isBlank c.toLower = isBlank c :=
  toLower_congr (by decide) c

/-- A text without white space at its ends is trimmed. -/
theorem trimChars_eq_self_of_ends {cs : List Char} (hfirst : ∀ c ∈ cs.head?, isBlank c = false)
    (hlast : ∀ c ∈ cs.getLast?, isBlank c = false) : trimChars cs = cs := by
  have hdrop :
      ∀ cs : List Char, (∀ c ∈ cs.head?, isBlank c = false) → cs.dropWhile isBlank = cs := by
    intro cs hcs
    cases cs with
    | nil => rfl
    | cons c cs => exact List.dropWhile_cons_of_neg (by simp [hcs c rfl])
  rw [trimChars, hdrop cs hfirst, trimEndChars, hdrop _ (by simpa using hlast),
    List.reverse_reverse]

/-- A text without white space is trimmed. -/
theorem trimChars_eq_self {cs : List Char} (hcs : ∀ c ∈ cs, isBlank c = false) :
    trimChars cs = cs :=
  trimChars_eq_self_of_ends (fun c hc ↦ hcs c (List.mem_of_head? hc))
    fun c hc ↦ hcs c (List.mem_of_getLast? hc)

/-- A trimmed text does not end with white space. -/
theorem isBlank_of_mem_getLast?_trimChars {c : Char} {cs : List Char}
    (hc : c ∈ (trimChars cs).getLast?) : isBlank c = false := by
  obtain ⟨hne, rfl⟩ := List.mem_getLast?_eq_getLast hc
  exact Bool.eq_false_iff.mpr (List.rdropWhile_last_not isBlank (cs.dropWhile isBlank) hne)

/-- A name without white space is not empty in lower case, even trimmed. -/
theorem isEmpty_trim_lower {cs : List Char} (hcs : cs ≠ []) (hblank : ∀ c ∈ cs, isBlank c = false) :
    (trim (String.ofList (cs.map Char.toLower))).isEmpty = false := by
  have hlower : ∀ c ∈ cs.map Char.toLower, isBlank c = false := by
    intro c hc
    obtain ⟨given, hgiven, rfl⟩ := List.mem_map.mp hc
    rw [isBlank_toLower, hblank given hgiven]
  rw [trim, String.toList_ofList, trimChars_eq_self hlower, Bool.eq_false_iff, ne_eq,
    String.isEmpty_iff, ← String.toList_inj, String.toList_ofList]
  simpa using hcs

/-! ### Points for underscores -/

/-- A name with a point for each two underscores, from the left. -/
def dotted (cs : List Char) : List Char :=
  replaceChars ['_', '_'] ['.'] 0 cs

theorem dotted_cons {c : Char} (hc : c ≠ '_') (cs : List Char) :
    dotted (c :: cs) = c :: dotted cs := by
  simp [dotted, replaceChars, stripStart?, Ne.symm hc]

theorem dotted_two (cs : List Char) : dotted ('_' :: '_' :: cs) = '.' :: dotted cs := by
  simp [dotted, replaceChars, stripStart?]

theorem dotted_one {c : Char} (hc : c ≠ '_') (cs : List Char) :
    dotted ('_' :: c :: cs) = '_' :: dotted (c :: cs) := by
  rw [dotted, replaceChars]
  simp [stripStart?, Ne.symm hc, dotted]

/-- A name is gone through from the left, two underscores in a row at once. -/
theorem underscores_induction {motive : List Char → Prop} (nil : motive []) (last : motive ['_'])
    (other : ∀ c cs, c ≠ '_' → motive cs → motive (c :: cs))
    (two : ∀ cs, motive cs → motive ('_' :: '_' :: cs))
    (one : ∀ c cs, c ≠ '_' → motive (c :: cs) → motive ('_' :: c :: cs)) (cs : List Char) :
    motive cs := by
  match cs with
  | [] => exact nil
  | [c] =>
    by_cases hc : c = '_'
    · exact hc ▸ last
    · exact other c [] hc nil
  | c :: d :: rest =>
    by_cases hc : c = '_'
    · subst hc
      by_cases hd : d = '_'
      · exact hd ▸ two rest (underscores_induction nil last other two one rest)
      · exact one d rest hd (underscores_induction nil last other two one (d :: rest))
    · exact other c _ hc (underscores_induction nil last other two one (d :: rest))

/-- Points stand for underscores, so the name keeps its normal form. -/
theorem normalChars_dotted (cs : List Char) :
    Key.normalChars (dotted cs) = Key.normalChars cs := by
  induction cs using underscores_induction with
  | nil => rfl
  | last => rfl
  | other c cs hc ih => rw [dotted_cons hc, Key.normalChars_cons, ih, Key.normalChars_cons c]
  | two cs ih =>
    rw [dotted_two, Key.normalChars_cons, ih]
    simp [Key.normalChars_cons, Key.isSeparator]
  | one c cs hc ih => rw [dotted_one hc, Key.normalChars_cons, ih, Key.normalChars_cons '_']

theorem mem_of_mem_dotted {c : Char} {cs : List Char} (hmem : c ∈ dotted cs) :
    c ∈ cs ∨ c = '.' := by
  induction cs using underscores_induction with
  | nil => exact .inl hmem
  | last => exact .inl hmem
  | other d cs hd ih =>
    rw [dotted_cons hd] at hmem
    rcases List.mem_cons.mp hmem with rfl | hmem
    · exact .inl List.mem_cons_self
    · exact (ih hmem).imp_left (List.mem_cons_of_mem d)
  | two cs ih =>
    rw [dotted_two] at hmem
    rcases List.mem_cons.mp hmem with rfl | hmem
    · exact .inr rfl
    · exact (ih hmem).imp_left fun h ↦ by simp [h]
  | one d cs hd ih =>
    rw [dotted_one hd] at hmem
    rcases List.mem_cons.mp hmem with rfl | hmem
    · exact .inl List.mem_cons_self
    · exact (ih hmem).imp_left (List.mem_cons_of_mem '_')

/-- Points stand in the same places whatever the case of ASCII letters. -/
theorem dotted_lower (cs : List Char) :
    dotted (cs.map Char.toLower) = (dotted cs).map Char.toLower := by
  induction cs using underscores_induction with
  | nil => rfl
  | last => rfl
  | other c cs hc ih =>
    rw [List.map_cons, dotted_cons (mt (toLower_eq_underscore_iff c).mp hc), ih, dotted_cons hc,
      List.map_cons]
  | two cs ih =>
    have hunderscore : '_'.toLower = '_' := rfl
    rw [List.map_cons, List.map_cons, hunderscore, dotted_two, ih, dotted_two, List.map_cons]
    rfl
  | one c cs hc ih =>
    have hunderscore : '_'.toLower = '_' := rfl
    rw [List.map_cons, List.map_cons, hunderscore,
      dotted_one (mt (toLower_eq_underscore_iff c).mp hc), ← List.map_cons, ih, dotted_one hc,
      List.map_cons, hunderscore]

/-- With its points a name begins as before or with a point. -/
theorem mem_head?_of_dotted {c : Char} {cs : List Char} (hc : c ∈ (dotted cs).head?) :
    c ∈ cs.head? ∨ c = '.' := by
  cases cs using underscores_induction with
  | nil => exact .inl hc
  | last => exact .inl hc
  | other d cs hd =>
    rw [dotted_cons hd] at hc
    exact .inl hc
  | two cs =>
    rw [dotted_two] at hc
    exact .inr (Option.some.inj hc).symm
  | one d cs hd =>
    rw [dotted_one hd] at hc
    exact .inl hc

theorem dotted_eq_nil_iff {cs : List Char} : dotted cs = [] ↔ cs = [] := by
  cases cs using underscores_induction with
  | nil => exact Iff.rfl
  | last => exact Iff.rfl
  | other c cs hc => simp [dotted_cons hc]
  | two cs => simp [dotted_two]
  | one c cs hc => simp [dotted_one hc]

/-- With its points a name ends as before or with a point. -/
theorem mem_getLast?_of_dotted {c : Char} {cs : List Char} (hc : c ∈ (dotted cs).getLast?) :
    c ∈ cs.getLast? ∨ c = '.' := by
  -- Before a rest that is not empty the first character is not the last one.
  have hlater : ∀ (first : Char) {rest : List Char}, rest ≠ [] →
      (c ∈ rest.getLast? ↔ c ∈ (first :: rest).getLast?) :=
    fun _ _ hrest ↦ by rw [List.getLast?_cons_of_ne_nil hrest]
  induction cs using underscores_induction with
  | nil => exact .inl hc
  | last => exact .inl hc
  | other d cs hd ih =>
    rw [dotted_cons hd] at hc
    by_cases hcs : cs = []
    · subst hcs
      exact .inl hc
    · rw [← hlater d (mt dotted_eq_nil_iff.mp hcs)] at hc
      exact (ih hc).imp_left (hlater d hcs).mp
  | two cs ih =>
    rw [dotted_two] at hc
    by_cases hcs : cs = []
    · subst hcs
      exact .inr (Option.some.inj hc).symm
    · rw [← hlater '.' (mt dotted_eq_nil_iff.mp hcs)] at hc
      refine (ih hc).imp_left fun h ↦ ?_
      rwa [← hlater '_' (List.cons_ne_nil _ _), ← hlater '_' hcs]
  | one d cs hd ih =>
    rw [dotted_one hd, ← hlater '_' (mt dotted_eq_nil_iff.mp (List.cons_ne_nil d cs))] at hc
    exact (ih hc).imp_left (hlater '_' (List.cons_ne_nil d cs)).mp

/-- A name whose first character is no point when it has its points has this character first. -/
theorem exists_of_dotted_eq_cons {c : Char} {cs after : List Char} (hunderscore : c ≠ '_')
    (hpoint : c ≠ '.') (hcs : dotted cs = c :: after) :
    ∃ rest, cs = c :: rest ∧ dotted rest = after := by
  cases cs using underscores_induction with
  | nil => exact absurd hcs (List.cons_ne_nil _ _).symm
  | last => exact absurd (List.cons.inj hcs).1 (Ne.symm hunderscore)
  | other d cs hd =>
    rw [dotted_cons hd] at hcs
    obtain ⟨rfl, hafter⟩ := List.cons.inj hcs
    exact ⟨cs, rfl, hafter⟩
  | two cs =>
    rw [dotted_two] at hcs
    exact absurd (List.cons.inj hcs).1 (Ne.symm hpoint)
  | one d cs hd =>
    rw [dotted_one hd] at hcs
    exact absurd (List.cons.inj hcs).1 (Ne.symm hunderscore)

/-- A name that has a point first when it has its points begins with a point or with two
underscores. -/
theorem exists_of_dotted_eq_point {cs after : List Char} (hcs : dotted cs = '.' :: after) :
    ∃ rest, cs = '.' :: rest ∨ cs = '_' :: '_' :: rest := by
  cases cs using underscores_induction with
  | nil => exact absurd hcs (List.cons_ne_nil _ _).symm
  | last => exact absurd (List.cons.inj hcs).1 (by decide)
  | other d cs hd =>
    rw [dotted_cons hd] at hcs
    exact ⟨cs, .inl (by rw [(List.cons.inj hcs).1])⟩
  | two cs => exact ⟨cs, .inr rfl⟩
  | one d cs hd =>
    rw [dotted_one hd] at hcs
    exact absurd (List.cons.inj hcs).1 (by decide)

/-- What a name begins with when it has its points, up to the first one, it begins with before. -/
theorem exists_of_dotted_eq_append {cs first after : List Char} (hunderscore : '_' ∉ first)
    (hpoint : '.' ∉ first) (hcs : dotted cs = first ++ after) :
    ∃ rest, cs = first ++ rest ∧ dotted rest = after := by
  induction first generalizing cs with
  | nil => exact ⟨cs, rfl, hcs⟩
  | cons c first ih =>
    obtain ⟨hc, hothers⟩ := not_or.mp (mt List.mem_cons.mpr hunderscore)
    obtain ⟨hc', hothers'⟩ := not_or.mp (mt List.mem_cons.mpr hpoint)
    obtain ⟨later, rfl, hlater⟩ := exists_of_dotted_eq_cons (Ne.symm hc) (Ne.symm hc') hcs
    obtain ⟨rest, rfl, hrest⟩ := ih hothers hothers' hlater
    exact ⟨rest, rfl, hrest⟩

/-- The word before the first point of a name with its points stands there alone, or before a point
or two underscores. -/
theorem eq_or_prefix_of_splitChars_dotted {cs first : List Char} {others : List (List Char)}
    (hunderscore : '_' ∉ first) (hsplit : splitChars '.' (dotted cs) = first :: others) :
    cs = first ∨ first ++ ['.'] <+: cs ∨ first ++ ['_', '_'] <+: cs := by
  have hpoint : '.' ∉ first := not_mem_of_mem_splitChars (hsplit ▸ List.mem_cons_self)
  rcases eq_or_exists_of_splitChars hsplit with hdotted | ⟨after, hdotted⟩
  · rw [← List.append_nil first] at hdotted
    obtain ⟨rest, rfl, hrest⟩ := exists_of_dotted_eq_append hunderscore hpoint hdotted
    rw [dotted_eq_nil_iff.mp hrest, List.append_nil]
    exact .inl rfl
  · obtain ⟨later, rfl, hlater⟩ := exists_of_dotted_eq_append hunderscore hpoint hdotted
    obtain ⟨rest, rfl | rfl⟩ := exists_of_dotted_eq_point hlater
    · exact .inr (.inl ⟨rest, by simp⟩)
    · exact .inr (.inr ⟨rest, by simp⟩)

/-- The two underscores after an id become the first point, unless the id ends with an underscore:
then that one and the first of the two do, and the second is left to what follows. -/
theorem dotted_append {id : List Char} (hpoint : '.' ∉ id) (honce : ¬ ['_', '_'] <:+: id)
    (rest : List Char) : ∃ first after, dotted (id ++ '_' :: '_' :: rest) = first ++ '.' :: after ∧
      '.' ∉ first ∧ Key.normalChars first = Key.normalChars id ∧
        Key.normalChars after = Key.normalChars rest := by
  match id with
  | [] => exact ⟨[], dotted rest, dotted_two rest, List.not_mem_nil, rfl, normalChars_dotted rest⟩
  | [c] =>
    by_cases hc : c = '_'
    · subst hc
      refine ⟨[], dotted ('_' :: rest), dotted_two _, List.not_mem_nil, rfl, ?_⟩
      rw [normalChars_dotted]
      rfl
    · refine ⟨[c], dotted rest, ?_, hpoint, rfl, normalChars_dotted rest⟩
      rw [List.singleton_append, dotted_cons hc, dotted_two]
      rfl
  | c :: d :: others =>
    obtain ⟨hfirst, hlater⟩ := not_or.mp (mt List.mem_cons.mpr hpoint)
    have honce' : ¬ ['_', '_'] <:+: d :: others := fun hinner ↦
      honce (hinner.trans (List.suffix_cons c _).isInfix)
    obtain ⟨first, after, hdotted, hnone, hname, hafter⟩ := dotted_append hlater honce' rest
    refine ⟨c :: first, after, ?_, ?_, ?_, hafter⟩
    · change dotted (c :: (d :: others ++ '_' :: '_' :: rest)) = c :: (first ++ '.' :: after)
      rw [← hdotted]
      by_cases hc : c = '_'
      · have hd : d ≠ '_' := by
          rintro rfl
          exact honce ⟨[], others, by rw [hc]; rfl⟩
        rw [hc]
        exact dotted_one hd _
      · exact dotted_cons hc _
    · rw [List.mem_cons, not_or]
      exact ⟨hfirst, hnone⟩
    · rw [Key.normalChars_cons, hname, ← Key.normalChars_cons]

end Text

/-! ### The path of a variable -/

namespace Environment

/-- The name of the variable for an option of a component. -/
def variableName (id option : String) : String :=
  nameStart ++ "COMPONENTS__" ++ id ++ "__" ++ option

/-- The parts of the rest of a name, cut at each two underscores from the left. -/
def parts (rest : String) : List String :=
  Text.split '.' (Text.replaceAll "__" "." rest)

/-- The path of the settings that a variable stands for. -/
def pathOf? (name : String) : Option String :=
  (rest? name).bind path?

theorem toList_variableName (id option : String) : (variableName id option).toList =
    "CONFLUX_".toList ++ ("COMPONENTS__" ++ id ++ "__" ++ option).toList := by
  simp [variableName, nameStart, String.toList_append]

theorem rest?_variableName {id option : String}
    (hblank : ∀ c ∈ (variableName id option).toList, Text.isBlank c = false) :
    rest? (variableName id option) = some ("COMPONENTS__" ++ id ++ "__" ++ option) := by
  have htrim : (Text.trim (variableName id option)).toList = (variableName id option).toList := by
    rw [Text.trim, String.toList_ofList, Text.trimChars_eq_self hblank]
  have hlength : nameStart.length = "CONFLUX_".toList.length := rfl
  have hsame : Text.sameAscii "CONFLUX_" nameStart = true := by decide
  rw [rest?, htrim, toList_variableName, hlength]
  simp only [List.take_left', List.drop_left', String.ofList_toList]
  rw [if_pos hsame]

/-- A variable of components is none of the others. -/
theorem isComponentName_variable (id option : String) :
    isComponentName ("COMPONENTS__" ++ id ++ "__" ++ option) = true := by
  have hstart : (componentsKey ++ "__").toList.isPrefixOf
      (Text.lowerAscii ("COMPONENTS__" ++ id ++ "__" ++ option)).toList = true := by
    rw [List.isPrefixOf_iff_prefix, Text.lowerAscii, String.toList_ofList]
    simp only [String.toList_append, List.map_append, List.append_assoc]
    exact List.prefix_append _ _
  rw [isComponentName, hstart, Bool.or_true]

theorem toList_replaceAll (rest : String) :
    (Text.replaceAll "__" "." rest).toList = Text.dotted rest.toList := by
  rw [Text.replaceAll, String.toList_ofList]
  rfl

/-- Points for underscores leave no white space at the ends. -/
theorem trim_replaceAll {rest : String} (hfirst : ∀ c ∈ rest.toList.head?, Text.isBlank c = false)
    (hlast : ∀ c ∈ rest.toList.getLast?, Text.isBlank c = false) :
    Text.trim (Text.replaceAll "__" "." rest) = Text.replaceAll "__" "." rest := by
  have hpoint : Text.isBlank '.' = false := by decide
  rw [Text.trim, Text.trimChars_eq_self_of_ends, String.ofList_toList]
  · intro c hc
    rw [toList_replaceAll] at hc
    rcases Text.mem_head?_of_dotted hc with hc | rfl
    · exact hfirst c hc
    · exact hpoint
  · intro c hc
    rw [toList_replaceAll] at hc
    rcases Text.mem_getLast?_of_dotted hc with hc | rfl
    · exact hlast c hc
    · exact hpoint

/-- The rest of a name has a path when none of its parts is empty. -/
theorem path?_eq {rest : String} (hblank : ∀ c ∈ rest.toList, Text.isBlank c = false)
    (hparts : ∀ part ∈ parts rest, part ≠ "") :
    path? rest = some (String.ofList ((Text.dotted rest.toList).map Char.toLower)) := by
  have htrim := trim_replaceAll (fun c hc ↦ hblank c (List.mem_of_head? hc))
    fun c hc ↦ hblank c (List.mem_of_getLast? hc)
  have hnone : (Text.split '.' (Text.replaceAll "__" "." rest)).any (·.isEmpty) = false := by
    rw [List.any_eq_false]
    intro part hpart hempty
    exact hparts part hpart (String.isEmpty_iff.mp hempty)
  simp only [path?, htrim, hnone, Bool.false_eq_true, if_false, Text.lowerAscii, toList_replaceAll]

/-- Two points in a row would leave an empty part between them. -/
theorem ne_nil_of_parts {rest : String} {before first after : List Char}
    (hdotted : Text.dotted rest.toList = before ++ '.' :: (first ++ '.' :: after))
    (hparts : ∀ part ∈ parts rest, part ≠ "") : first ≠ [] := by
  rintro rfl
  have hall : parts rest = (Text.splitChars '.' (Text.dotted rest.toList)).map String.ofList := by
    rw [parts, Text.split, toList_replaceAll]
  refine hparts "" ?_ rfl
  rw [hall, hdotted, Text.splitChars_append_cons]
  exact List.mem_map.mpr ⟨[], List.mem_append_right _ (by simp [Text.splitChars]), rfl⟩

/-- With its points, the name of a variable is the word for components, a name for the id and a rest
for the option. -/
theorem dotted_variable {id : String} (hpoint : '.' ∉ id.toList)
    (honce : ¬ ['_', '_'] <:+: id.toList) (option : String) :
    ∃ first after, Text.dotted ("COMPONENTS__" ++ id ++ "__" ++ option).toList =
        "COMPONENTS".toList ++ '.' :: (first ++ '.' :: after) ∧
      '.' ∉ first ∧ Key.normalChars first = Key.normalChars id.toList ∧
        Key.normalChars after = Key.normalChars option.toList := by
  obtain ⟨first, after, hdotted, hnone, hfirst, hafter⟩ :=
    Text.dotted_append hpoint honce option.toList
  refine ⟨first, after, ?_, hnone, hfirst, hafter⟩
  rw [← hdotted]
  simp only [String.toList_append, List.append_assoc]
  rfl

/-- The path of a variable leads to its id and then to its option, in the spellings of the name. -/
theorem path?_variable {id option : String}
    (hblank : ∀ c ∈ (variableName id option).toList, Text.isBlank c = false)
    (hpoint : '.' ∉ id.toList) (honce : ¬ ['_', '_'] <:+: id.toList)
    (hparts : ∀ part ∈ parts ("COMPONENTS__" ++ id ++ "__" ++ option), part ≠ "") :
    ∃ sid key, path? ("COMPONENTS__" ++ id ++ "__" ++ option) =
        some (componentsKey ++ "." ++ sid ++ "." ++ key) ∧
      '.' ∉ sid.toList ∧ (Text.trim sid).isEmpty = false ∧
      Key.normal sid = Key.normal id ∧ Key.normal key = Key.normal option := by
  obtain ⟨first, after, hdotted, hnone, hfirst, hafter⟩ := dotted_variable hpoint honce option
  have hblank' : ∀ c ∈ ("COMPONENTS__" ++ id ++ "__" ++ option).toList, Text.isBlank c = false := by
    intro c hc
    refine hblank c ?_
    rw [toList_variableName]
    exact List.mem_append_right _ hc
  have hpath : path? ("COMPONENTS__" ++ id ++ "__" ++ option) = some (componentsKey ++ "." ++
      String.ofList (first.map Char.toLower) ++ "." ++ String.ofList (after.map Char.toLower)) := by
    rw [path?_eq hblank' hparts, hdotted]
    congr 1
    rw [← String.toList_inj]
    simp only [String.toList_append, String.toList_ofList, List.map_append, List.map_cons,
      List.append_assoc]
    rfl
  have hfirstBlank : ∀ c ∈ first, Text.isBlank c = false := by
    intro c hc
    have hmem : c ∈ Text.dotted ("COMPONENTS__" ++ id ++ "__" ++ option).toList := by
      rw [hdotted]
      simp [hc]
    rcases Text.mem_of_mem_dotted hmem with hmem | rfl
    · exact hblank' c hmem
    · exact absurd hc hnone
  refine ⟨_, _, hpath, ?_, ?_, ?_, ?_⟩
  · rw [String.toList_ofList]
    exact Text.point_notMem_lower hnone
  · exact Text.isEmpty_trim_lower (ne_nil_of_parts hdotted hparts) hfirstBlank
  · rw [Key.normal, String.toList_ofList, Key.normalChars_lower, hfirst, Key.normal]
  · rw [Key.normal, String.toList_ofList, Key.normalChars_lower, hafter, Key.normal]

end Environment

end Connectors
