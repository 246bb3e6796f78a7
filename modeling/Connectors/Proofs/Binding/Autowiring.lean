import Connectors.Proofs.Binding.Defaults
import Connectors.Proofs.Binding.Reading
import Connectors.Proofs.Binding.Respelling
import Mathlib.Data.List.Induction

/-!
# Filling options by type, whatever happened to the beans

A registry of beans has a history of changes: objects are put under names, in place of those that
were there, an object may stand under several names, and names are removed. What is found afterwards
is said here of the history alone. A name holds the object that the last change under it put there
(`BeanRegistry.Holds`, `lookup_after`), and a search by type finds what those names hold that have
an object of the type, once for each name (`BeanRegistry.ListsOnce`, `listsOnce_findByType`). Both
are proved change by change: no name ever stands twice (`distinct_after`), and a change is seen
under its own name only (`lookup_apply`).

An option that waits for an object of a type (`Binder.Awaits`) is then filled exactly if one single
name holds such an object, and by this object (`Binder.filled_over_time`). Two names of one object
are two names.
-/

set_option autoImplicit false
set_option relaxedAutoImplicit false

namespace Connectors

namespace BeanRegistry

/-! ### Histories -/

/-- A change of a registry. -/
inductive Change
  /-- A new object is put under a name, and offered under the short name of its type. -/
  | insert (name : String) (identity : Nat) (concreteType : String)
  /-- An object that there is already is put under a name. -/
  | insertRef (name : String) (object : ObjectRef)
  /-- The object of a name is removed. -/
  | remove (name : String)
deriving DecidableEq, Repr

namespace Change

/-- The name under which something changes. -/
def name : Change → String
  | insert name _ _ => name
  | insertRef name _ => name
  | remove name => name

/-- The object that stands under the name afterwards. -/
def object? : Change → Option ObjectRef
  | insert _ identity concreteType => some (.ofType identity concreteType)
  | insertRef _ object => some object
  | remove _ => none

/-- The registry after a change. -/
def apply (registry : BeanRegistry) : Change → BeanRegistry
  | insert name identity concreteType => registry.insert name (.ofType identity concreteType)
  | insertRef name object => registry.insert name object
  | remove name => registry.remove name

end Change

/-- The registry after some changes, the earliest first. -/
def after (history : List Change) : BeanRegistry :=
  history.foldl Change.apply empty

/-- The last change under a name has put an object there. -/
def Holds (history : List Change) (name : String) (object : ObjectRef) : Prop :=
  ∃ before change later, history = before ++ change :: later ∧ change.name = name ∧
    change.object? = some object ∧ ∀ other ∈ later, other.name ≠ name

/-- Some objects are those of a type that names hold, one for each name that holds one. -/
def ListsOnce (history : List Change) (typeName : String) (objects : List ObjectRef) : Prop :=
  ∃ names : List String, names.Nodup ∧
    (∀ name, name ∈ names ↔ ∃ object, Holds history name object ∧ object.typeName = typeName) ∧
    List.Forall₂ (Holds history) names objects

/-- A single name holds an object of a type, and this is the object. -/
def Sole (history : List Change) (typeName : String) (object : ObjectRef) : Prop :=
  ∃ name, Holds history name object ∧ object.typeName = typeName ∧
    ∀ other reference, Holds history other reference → reference.typeName = typeName → other = name

variable {registry : BeanRegistry} {name other typeName : String} {object : ObjectRef}
  {change : Change} {history : List Change}

/-! ### One change -/

theorem distinct_remove (hdistinct : registry.Distinct) (name : String) :
    (registry.remove name).Distinct :=
  List.Nodup.sublist (List.filter_sublist.map _) hdistinct

theorem distinct_insert (hdistinct : registry.Distinct) (name : String) (object : ObjectRef) :
    (registry.insert name object).Distinct := by
  refine List.nodup_cons.mpr ⟨fun hmem ↦ ?_, distinct_remove hdistinct name⟩
  obtain ⟨bean, hbean, hname⟩ := List.mem_map.mp hmem
  exact of_decide_eq_true (List.mem_filter.mp hbean).2 hname

/-- No change makes a name stand twice. -/
theorem Change.distinct_apply (hdistinct : registry.Distinct) (change : Change) :
    (change.apply registry).Distinct := by
  cases change with
  | insert name identity concreteType => exact distinct_insert hdistinct name _
  | insertRef name object => exact distinct_insert hdistinct name object
  | remove name => exact distinct_remove hdistinct name

theorem lookup_remove (registry : BeanRegistry) (name other : String) :
    (registry.remove name).lookup other = if name = other then none else registry.lookup other := by
  obtain ⟨beans⟩ := registry
  simp only [lookup, remove]
  induction beans with
  | nil => simp
  | cons bean rest ih =>
    obtain ⟨first, held⟩ := bean
    by_cases hremoved : first = name
    · subst hremoved
      rw [List.filter_cons_of_neg (by simp), ih, List.lookup_cons]
      by_cases hother : first = other
      · simp [hother]
      · simp [hother, beq_false_of_ne (Ne.symm hother)]
    · rw [List.filter_cons_of_pos (by simpa using hremoved), List.lookup_cons, List.lookup_cons, ih]
      by_cases hother : other = first
      · simp [hother, Ne.symm hremoved]
      · simp [beq_false_of_ne hother]

theorem lookup_insert (registry : BeanRegistry) (name other : String) (object : ObjectRef) :
    (registry.insert name object).lookup other =
      if name = other then some object else registry.lookup other := by
  have hremove : (registry.remove name).beans.lookup other =
      if name = other then none else registry.lookup other := lookup_remove registry name other
  by_cases hother : other = name
  · simp [lookup, insert, hother]
  · rw [lookup, insert, List.lookup_cons, beq_false_of_ne hother, hremove]
    simp [Ne.symm hother]

/-- A change is seen under its name and under no other. -/
theorem Change.lookup_apply (registry : BeanRegistry) (change : Change) (name : String) :
    (change.apply registry).lookup name =
      if change.name = name then change.object? else registry.lookup name := by
  cases change with
  | insert held identity concreteType => exact lookup_insert registry held name _
  | insertRef held object => exact lookup_insert registry held name object
  | remove held => exact lookup_remove registry held name

theorem holds_concat : Holds (history ++ [change]) name object ↔
    if change.name = name then change.object? = some object else Holds history name object := by
  constructor
  · rintro ⟨before, last, later, hhistory, hname, hobject, hlater⟩
    -- The change that counts is the new one if nothing follows it, and was there before otherwise.
    rcases List.eq_nil_or_concat later with rfl | ⟨later, final, rfl⟩
    · obtain ⟨-, rfl⟩ := List.append_singleton_inj.mp hhistory
      rw [if_pos hname]
      exact hobject
    · rw [List.concat_eq_append] at hhistory hlater
      rw [← List.cons_append, ← List.append_assoc] at hhistory
      obtain ⟨rfl, rfl⟩ := List.append_singleton_inj.mp hhistory
      obtain ⟨hothers, hfinal⟩ := List.forall_mem_append.mp hlater
      rw [if_neg (hfinal change List.mem_cons_self)]
      exact ⟨before, last, later, rfl, hname, hobject, hothers⟩
  · split_ifs with hname
    · exact fun hobject ↦ ⟨history, change, [], rfl, hname, hobject, by simp⟩
    · rintro ⟨before, last, later, rfl, hlast, hobject, hlater⟩
      refine ⟨before, last, later ++ [change], by simp, hlast, hobject, ?_⟩
      exact List.forall_mem_append.mpr ⟨hlater, List.forall_mem_singleton.mpr hname⟩

/-! ### All changes -/

theorem after_concat (history : List Change) (change : Change) :
    after (history ++ [change]) = change.apply (after history) :=
  List.foldl_concat ..

/-- No name stands twice in a registry, whatever happened to it. -/
theorem distinct_after (history : List Change) : (after history).Distinct := by
  induction history using List.reverseRecOn with
  | nil => exact List.nodup_nil
  | append_singleton history change ih =>
    exact after_concat history change ▸ change.distinct_apply ih

/-- What is found under a name is what the last change under it put there. -/
theorem lookup_after : (after history).lookup name = some object ↔ Holds history name object := by
  induction history using List.reverseRecOn with
  | nil => simp [after, empty, lookup, Holds]
  | append_singleton history change ih =>
    rw [after_concat, Change.lookup_apply, holds_concat]
    split_ifs
    · rfl
    · exact ih

theorem Holds.unique {reference : ObjectRef} (hobject : Holds history name object)
    (hreference : Holds history name reference) : object = reference :=
  Option.some.inj ((lookup_after.mpr hobject).symm.trans (lookup_after.mpr hreference))

theorem mem_beans_after {bean : String × ObjectRef} :
    bean ∈ (after history).beans ↔ Holds history bean.1 bean.2 :=
  (lookup_eq_some_iff_mem (distinct_after history)).symm.trans lookup_after

/-- A search by type finds the objects of the type that names hold, one for each name. -/
theorem listsOnce_findByType (history : List Change) (typeName : String) :
    ListsOnce history typeName ((after history).findByType typeName) := by
  set beans := (after history).beans.filter fun bean ↦ bean.2.isType typeName with hbeans
  have hmem : ∀ bean, bean ∈ beans ↔ Holds history bean.1 bean.2 ∧ bean.2.typeName = typeName := by
    intro bean
    rw [hbeans, List.mem_filter, mem_beans_after, ObjectRef.isType, beq_iff_eq]
  refine ⟨beans.map (·.1), ?_, fun name ↦ ?_, ?_⟩
  · exact List.Nodup.sublist (List.filter_sublist.map _) (distinct_after history)
  · simp [hmem]
  · rw [findByType, List.filter_map, List.forall₂_map_left_iff, List.forall₂_map_right_iff]
    exact List.forall₂_same.mpr fun bean hbean ↦ ((hmem bean).mp hbean).1

/-- Where objects are listed once for each name, the list has a single member exactly if a single
name holds an object of the type. -/
theorem ListsOnce.eq_singleton_iff {objects : List ObjectRef}
    (hlists : ListsOnce history typeName objects) :
    objects = [object] ↔ Sole history typeName object := by
  obtain ⟨names, hnodup, hnames, hholds⟩ := hlists
  constructor
  · rintro rfl
    obtain ⟨name, rest, hname, hrest, rfl⟩ := List.forall₂_cons_right_iff.mp hholds
    obtain rfl := List.forall₂_nil_right_iff.mp hrest
    obtain ⟨held, hheld, htype⟩ := (hnames name).mp List.mem_cons_self
    refine ⟨name, hname, hname.unique hheld ▸ htype, fun other reference hother htype ↦ ?_⟩
    exact List.mem_singleton.mp ((hnames other).mpr ⟨reference, hother, htype⟩)
  · rintro ⟨name, hname, htype, honly⟩
    have hperm : names.Perm [name] := by
      refine (List.perm_ext_iff_of_nodup hnodup (List.nodup_singleton name)).mpr fun other ↦ ?_
      rw [hnames, List.mem_singleton]
      constructor
      · rintro ⟨reference, hother, hreference⟩
        exact honly other reference hother hreference
      · rintro rfl
        exact ⟨object, hname, htype⟩
    obtain rfl := List.perm_singleton.mp hperm
    obtain ⟨held, rest, hheld, hrest, rfl⟩ := List.forall₂_cons_left_iff.mp hholds
    obtain rfl := List.forall₂_nil_left_iff.mp hrest
    rw [hheld.unique hname]

theorem Sole.unique {reference : ObjectRef} (hobject : Sole history typeName object)
    (hreference : Sole history typeName reference) : object = reference := by
  obtain ⟨name, hname, htype, -⟩ := hobject
  obtain ⟨other, hother, -, honly⟩ := hreference
  obtain rfl : name = other := honly name object hname htype
  exact hname.unique hother

theorem exists_sole_iff : (∃ object, Sole history typeName object) ↔
    ∃! name, ∃ object, Holds history name object ∧ object.typeName = typeName := by
  constructor
  · rintro ⟨object, name, hname, htype, honly⟩
    exact ⟨name, ⟨object, hname, htype⟩, fun other ⟨reference, hother, hreference⟩ ↦
      honly other reference hother hreference⟩
  · rintro ⟨name, ⟨object, hname, htype⟩, honly⟩
    exact ⟨object, name, hname, htype, fun other reference hother hreference ↦
      honly other ⟨reference, hother, hreference⟩⟩

end BeanRegistry

namespace Binder

open BeanRegistry

variable {binder : Binder} {schema : Schema} {component typeName : String} {raw : RawValues}
  {spec : OptionSpec} {history : List Change}

/-- An option of a schema is to be filled with an object of a type, and nothing is given for it. -/
structure Awaits (binder : Binder) (schema : Schema) (raw : RawValues) (spec : OptionSpec)
    (typeName : String) : Prop where
  /-- The binder fills options by type. -/
  autowire : binder.autowire = true
  /-- The option is declared. -/
  declared : spec ∈ schema.options
  /-- It is to be filled by type. -/
  autowired : spec.autowired = true
  /-- It holds an object of the type. -/
  kind : spec.kind = .object typeName
  /-- No key leads to it. -/
  absent : ∀ entry ∈ raw, Key.normal entry.1 ≠ Key.normal spec.name

/-- What becomes of an option that waits for an object of a type. -/
inductive Wires (history : List Change) (component : String) (spec : OptionSpec)
    (typeName : String) : Except BindError (Option OptionValue) → Prop
  | sole {object : ObjectRef} (hsole : Sole history typeName object) :
      Wires history component spec typeName (.ok (some (.object object)))
  | missing (hnone : ∀ object, ¬ Sole history typeName object) (hrequired : spec.required = true) :
      Wires history component spec typeName (.error (.missingRequired component spec.name))
  | unset (hnone : ∀ object, ¬ Sole history typeName object) (hrequired : spec.required = false) :
      Wires history component spec typeName (.ok none)

/-- Where the option is not refused, it has exactly the object that a single name holds. -/
theorem Wires.eq_some_iff {held : Option OptionValue}
    (hwires : Wires history component spec typeName (.ok held)) {value : OptionValue} :
    held = some value ↔ ∃ object, value = .object object ∧ Sole history typeName object := by
  cases hwires with
  | @sole object hsole =>
    constructor
    · rintro ⟨⟩
      exact ⟨object, rfl, hsole⟩
    · rintro ⟨reference, rfl, hreference⟩
      rw [hsole.unique hreference]
  | unset hnone =>
    refine iff_of_false (by simp) ?_
    rintro ⟨object, -, hsole⟩
    exact hnone object hsole

theorem Awaits.entriesOf_eq_nil (hawaits : binder.Awaits schema raw spec typeName) :
    entriesOf raw spec = [] :=
  List.filter_eq_nil_iff.mpr fun entry hentry hagree ↦
    hawaits.absent entry hentry (Key.agree_iff.mp hagree)

/-- The only candidate for an option is the object that a single name holds. -/
theorem Awaits.autowires_iff (hawaits : binder.Awaits schema raw spec typeName)
    {object : ObjectRef} :
    binder.Autowires (after history).resolver spec object ↔ Sole history typeName object := by
  rw [← (listsOnce_findByType history typeName).eq_singleton_iff]
  constructor
  · rintro ⟨-, -, held, hkind, hfind⟩
    obtain rfl : typeName = held := OptionKind.object.inj (hawaits.kind.symm.trans hkind)
    exact hfind
  · exact fun hfind ↦ ⟨hawaits.autowire, hawaits.autowired, typeName, hawaits.kind, hfind⟩

/-- What becomes of the option. It has no default, since it holds an object. -/
theorem Awaits.resolves_iff (hawaits : binder.Awaits schema raw spec typeName)
    {outcome : Except BindError (Option OptionValue)} :
    binder.Resolves component (after history).resolver spec (entriesOf raw spec) outcome ↔
      Wires history component spec typeName outcome := by
  have hnothing : spec.fallback = none := schema.fallback_eq_none hawaits.declared hawaits.kind
  have hentries : entriesOf raw spec = [] := hawaits.entriesOf_eq_nil
  have hsole {object : ObjectRef} :
      binder.Autowires (after history).resolver spec object ↔ Sole history typeName object :=
    hawaits.autowires_iff
  constructor
  · intro hresolves
    cases hresolves with
    | fallback _ hfallback => simp [hnothing] at hfallback
    | autowired _ _ hautowires => exact .sole (hsole.mp hautowires)
    | missing _ _ hautowires hrequired =>
      exact .missing (fun object ↦ mt hsole.mpr (hautowires object)) hrequired
    | unset _ _ hautowires hrequired =>
      exact .unset (fun object ↦ mt hsole.mpr (hautowires object)) hrequired
    | supplied hone => simp [hentries] at hone
    | conflicting hseveral => simp [hentries] at hseveral
  · intro hwires
    cases hwires with
    | sole hobject => exact .autowired hentries hnothing (hsole.mpr hobject)
    | missing hnone hrequired =>
      exact .missing hentries hnothing (fun object ↦ mt hsole.mp (hnone object)) hrequired
    | unset hnone hrequired =>
      exact .unset hentries hnothing (fun object ↦ mt hsole.mp (hnone object)) hrequired

/-- In a configuration that is bound the option is filled, or left open where it may be. -/
theorem Awaits.wires_of_bind (hawaits : binder.Awaits schema raw spec typeName) {bound : Bound}
    (hbind : (binder.bind schema raw (after history).resolver).value = .ok bound) :
    Wires history schema.id spec typeName (.ok (bound.get? spec.name)) := by
  obtain ⟨index, hindex⟩ := List.mem_iff_getElem?.mp hawaits.declared
  obtain ⟨value, hvalue⟩ := exists_resolved_of_bind_eq_ok hawaits.declared hbind
  have hleads : bound.schema.Leads spec.name index spec :=
    ⟨schema_of_bind_eq_ok hbind ▸ hindex, rfl⟩
  have hget : bound.get? spec.name = value := by
    rw [Bound.get?_of_leads hleads, getElem?_of_resolved hvalue hbind hindex]
    rfl
  rw [hget, ← hawaits.resolves_iff]
  exact Binder.resolves_iff.mpr hvalue.symm

/-- After any changes of a registry, a name has the object that was last put under it and not
removed since, and a search by type finds the objects of the type that names hold, one for each
name. So an option that waits for an object of a type gets one exactly if a single name holds one,
and it gets this one. -/
theorem filled_over_time (history : List Change) :
    (∀ name object, (after history).lookup name = some object ↔ Holds history name object) ∧
    (∀ typeName, ListsOnce history typeName ((after history).findByType typeName)) ∧
    ∀ (binder : Binder) (schema : Schema) (raw : RawValues) (spec : OptionSpec) (typeName : String),
      binder.Awaits schema raw spec typeName →
      (∀ outcome,
        binder.Resolves schema.id (after history).resolver spec (entriesOf raw spec) outcome ↔
          Wires history schema.id spec typeName outcome) ∧
      ∀ bound, (binder.bind schema raw (after history).resolver).value = .ok bound →
        ((∃ value, bound.get? spec.name = some value) ↔
          ∃! name, ∃ object, Holds history name object ∧ object.typeName = typeName) ∧
        ∀ value, bound.get? spec.name = some value ↔
          ∃ object, value = .object object ∧ Sole history typeName object := by
  refine ⟨fun _ _ ↦ lookup_after, listsOnce_findByType history, ?_⟩
  intro binder schema raw spec typeName hawaits
  refine ⟨fun _ ↦ hawaits.resolves_iff, fun bound hbind ↦ ?_⟩
  have hvalue : ∀ value, bound.get? spec.name = some value ↔
      ∃ object, value = .object object ∧ Sole history typeName object := fun _ ↦
    (hawaits.wires_of_bind hbind).eq_some_iff
  refine ⟨?_, hvalue⟩
  rw [← exists_sole_iff]
  simp [hvalue]

/-- Two names of one client are two candidates, so none is taken. Once one of them is removed the
other is the only one: the client that was under a third name has given way to something else. -/
theorem filled_over_time_shipments :
    let client := ObjectRef.ofType 1 "http::Client"
    let history : List Change := [.insert "log" 2 "http::Client", .insert "main" 1 "http::Client",
      .insertRef "spare" client, .insert "log" 3 "files::Log"]
    let removed : List Change := history ++ [.remove "main"]
    let binder : Binder := {}
    let bound : Bound := ⟨shipments, [some (.enum "POST"), some (.object client)]⟩
    (∀ object, ¬ Sole history "Client" object) ∧
      (after removed).lookup "main" = none ∧ Holds removed "spare" client ∧
      (binder.bind shipments [] (after removed).resolver).value = .ok bound ∧
      Sole removed "Client" client ∧ bound.get? "client" = some (.object client) := by
  intro client history removed binder bound
  have hawaits : binder.Awaits shipments []
      { name := "client", kind := .object "Client", required := true, autowired := true }
      "Client" :=
    ⟨rfl, by simp [shipments], rfl, rfl, by simp⟩
  have hbind : (binder.bind shipments [] (after removed).resolver).value = .ok bound := by
    decide +kernel
  have hget : bound.get? "client" = some (.object client) := by decide +kernel
  obtain ⟨hlookup, -, hfilled⟩ := filled_over_time removed
  refine ⟨?_, by decide +kernel, (hlookup "spare" client).mp (by decide +kernel), hbind, ?_, hget⟩
  · obtain ⟨-, -, hbefore⟩ := filled_over_time history
    have hwires :=
      ((hbefore _ _ _ _ _ hawaits).1 (.error (.missingRequired "shipments" "client"))).mp
        (Binder.resolves_iff.mpr (by decide +kernel))
    cases hwires with
    | missing hnone => exact hnone
  · obtain ⟨object, hobject, hsole⟩ := (((hfilled _ _ _ _ _ hawaits).2 bound hbind).2 _).mp hget
    cases hobject
    exact hsole

end Binder

end Connectors
