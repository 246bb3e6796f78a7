import Connectors.Proofs.Binding.Comparison

/-!
# Order and spelling do not matter

Raw values come from maps without an order of their own, and so do beans. Binding gives the same
answer and the same reports whatever the order (`bind_perm`, `bind_sameObjects`).

Keys come in the spelling of their source. Where raw values differ only in the spelling of their
keys (`RawValues.Respelled`), a binding that succeeds gives the same configuration, and one that is
refused is refused for the same reason: the refusal differs at most in the keys it quotes
(`SameButKeys`). This is so because an option takes its entries by the normal form of their keys, a
lone entry is read without regard to its key, and whether a key leads nowhere depends on its normal
form.

`bind_order_and_spelling` puts the three together.
-/

set_option autoImplicit false
set_option relaxedAutoImplicit false

namespace Connectors

open Traversal (Alike)

/-! ### Objects in another order -/

/-- Two resolvers find the same objects: the same one by each name, and by a type the same ones in
any order. -/
structure Resolver.SameObjects (first second : Resolver) : Prop where
  lookup : ∀ name, first.lookup name = second.lookup name
  findByType : ∀ typeName, (first.findByType typeName).Perm (second.findByType typeName)

/-- No name of a registry stands twice. -/
def BeanRegistry.Distinct (registry : BeanRegistry) : Prop :=
  (registry.beans.map (·.1)).Nodup

instance (registry : BeanRegistry) : Decidable registry.Distinct :=
  inferInstanceAs (Decidable (registry.beans.map (·.1)).Nodup)

/-- The order in which a registry holds its beans does not matter. -/
theorem BeanRegistry.sameObjects_of_perm {registry other : BeanRegistry}
    (hnames : registry.Distinct) (hbeans : registry.beans.Perm other.beans) :
    registry.resolver.SameObjects other.resolver where
  lookup name := by
    have hother : other.Distinct := (hbeans.map Prod.fst).nodup_iff.mp hnames
    refine Option.ext fun reference ↦ ?_
    exact (lookup_eq_some_iff_mem hnames).trans
      (hbeans.mem_iff.trans (lookup_eq_some_iff_mem hother).symm)
  findByType typeName := (hbeans.map Prod.snd).filter _

namespace Binder

variable {binder : Binder} {component : String} {resolver resolver' : Resolver} {spec : OptionSpec}
variable {schema : Schema} {raw other : RawValues}

theorem autowired?_sameObjects (hobjects : resolver.SameObjects resolver') :
    binder.autowired? resolver spec = binder.autowired? resolver' spec := by
  have hsingle : ∀ typeName reference, resolver.findByType typeName = [reference] ↔
      resolver'.findByType typeName = [reference] := by
    intro typeName reference
    rw [← List.perm_singleton, ← List.perm_singleton]
    exact (hobjects.findByType typeName).congr_left [reference]
  refine Option.ext fun reference ↦ ?_
  simp only [← autowires_iff, Autowires, hsingle]

theorem resolve_sameObjects (hobjects : resolver.SameObjects resolver') (entries : RawValues) :
    binder.resolve component resolver spec entries =
      binder.resolve component resolver' spec entries := by
  match entries with
  | [] => simp only [resolve, absent, autowired?_sameObjects hobjects]
  | [(key, raw)] => simp only [resolve, coerce, hobjects.lookup]
  | _ :: _ :: _ => rfl

/-- Binding does not see the order in which objects are found. -/
theorem bind_sameObjects (hobjects : resolver.SameObjects resolver') :
    binder.bind schema raw resolver = binder.bind schema raw resolver' :=
  bind_congr (fun _ _ ↦ resolve_sameObjects hobjects _) rfl

end Binder

/-! ### Keys in another spelling -/

/-- Raw values are the same, in any order, once their keys are normalized. -/
def RawValues.Respelled (raw other : RawValues) : Prop :=
  (raw.map fun entry ↦ (Key.normal entry.1, entry.2)).Perm
    (other.map fun entry ↦ (Key.normal entry.1, entry.2))

/-- Entries are the same once their keys are normalized. -/
def RawValues.EntryRespelled (entry other : String × RawValue) : Prop :=
  Key.normal entry.1 = Key.normal other.1 ∧ entry.2 = other.2

/-- Respelled raw values can be put in the order of the first ones. -/
theorem RawValues.Respelled.exists_aligned {raw other : RawValues} (hraw : raw.Respelled other) :
    ∃ aligned : RawValues, aligned.Perm other ∧ List.Forall₂ EntryRespelled raw aligned := by
  have hforms : List.Forall₂ (fun form entry ↦ form = (Key.normal entry.1, entry.2))
      (other.map fun entry ↦ (Key.normal entry.1, entry.2)) other := by
    rw [List.forall₂_map_left_iff, List.forall₂_same]
    exact fun _ _ ↦ rfl
  obtain ⟨aligned, haligned, hperm⟩ := List.perm_comp_forall₂ hraw hforms
  refine ⟨aligned, hperm, ?_⟩
  rw [List.forall₂_map_left_iff] at haligned
  exact haligned.imp fun entry entry' hentry ↦ Prod.mk.inj hentry

namespace Binder

variable {binder : Binder} {component : String} {resolver : Resolver} {spec : OptionSpec}
variable {schema : Schema} {raw other : RawValues}

/-- Two refusals differ at most in the keys that they quote. Keys that lead to one option are quoted
in as many spellings, of the same normal forms. -/
inductive SameButKeys : BindError → BindError → Prop
  | refl (error : BindError) : SameButKeys error error
  | conflictingKeys (component option : String) {keys keys' : List String}
      (hforms : (keys.map Key.normal).Perm (keys'.map Key.normal)) :
      SameButKeys (.conflictingKeys component option keys) (.conflictingKeys component option keys')
  | unknownOption (component key key' : String) :
      SameButKeys (.unknownOption component key) (.unknownOption component key')

/-- Respelled entries give an option the same value, or the same refusal with other keys. -/
theorem resolve_respelled {entries others : RawValues}
    (hentries : List.Forall₂ RawValues.EntryRespelled entries others) :
    Alike SameButKeys Eq (binder.resolve component resolver spec entries).value
      (binder.resolve component resolver spec others).value := by
  refine resolve_alike hentries SameButKeys.refl (fun _ ↦ rfl) ?_
    (.conflictingKeys component spec.name ?_)
  · intro entry other hentry
    rw [hentry.2]
    refine .refl SameButKeys.refl (fun value ↦ ?_) _
    rfl
  · have hforms : (entries.map (·.1)).map Key.normal = (others.map (·.1)).map Key.normal := by
      induction hentries with
      | nil => rfl
      | cons hfirst _ ih => simpa [hfirst.1] using ih
    exact ((List.mergeSort_perm _ _).map _).trans
      (hforms ▸ ((List.mergeSort_perm _ _).map _).symm)

/-- Of respelled keys as many are stray. -/
theorem length_strayKeys_respelled (hraw : List.Forall₂ RawValues.EntryRespelled raw other) :
    (strayKeys schema raw).length = (strayKeys schema other).length := by
  have hkeys : List.Forall₂ (fun key key' ↦ Key.normal key = Key.normal key') (raw.map (·.1))
      (other.map (·.1)) := by
    rw [List.forall₂_map_left_iff, List.forall₂_map_right_iff]
    exact hraw.imp fun entry entry' hentry ↦ hentry.1
  rw [strayKeys, strayKeys, List.length_mergeSort, List.length_mergeSort]
  refine (List.rel_filter (fun key key' hkey ↦ ?_) hkeys).length_eq
  show decide (LeadsNowhere schema.options key) = true ↔
    decide (LeadsNowhere schema.options key') = true
  rw [decide_eq_true_iff, decide_eq_true_iff, leadsNowhere_iff, leadsNowhere_iff, hkey]

/-- Respelled raw values give the same configuration, or the same refusal with other keys. -/
theorem bind_respelled (hraw : raw.Respelled other) :
    Alike SameButKeys Eq (binder.bind schema raw resolver).value
      (binder.bind schema other resolver).value := by
  obtain ⟨aligned, hperm, haligned⟩ := hraw.exists_aligned
  rw [← bind_perm hperm]
  have hvalues : ∀ spec ∈ schema.options, Alike SameButKeys Eq
      (binder.resolved schema.id resolver raw spec)
      (binder.resolved schema.id resolver aligned spec) := fun spec _ ↦
    resolve_respelled (entriesOf_forall₂ (fun _ _ hentry ↦ hentry.1) haligned spec)
  have hstray : Option.Rel (fun key key' ↦
      SameButKeys (.unknownOption schema.id key) (.unknownOption schema.id key'))
      (strayKeys schema raw).head? (strayKeys schema aligned).head? := by
    have hlength : (strayKeys schema raw).length = (strayKeys schema aligned).length :=
      length_strayKeys_respelled haligned
    match strayKeys schema raw, strayKeys schema aligned, hlength with
    | [], [], _ => exact .none
    | key :: _, key' :: _, _ => exact .some (.unknownOption schema.id key key')
  have halike := bind_alike (V := fun _ ↦ Eq) hvalues hstray
  generalize (binder.bind schema raw resolver).value = outcome at halike
  generalize (binder.bind schema aligned resolver).value = outcome' at halike
  cases halike with
  | error herror => exact .error herror
  | @ok bound bound' hbound =>
    obtain ⟨hschema, hschema', heach⟩ := hbound
    cases bound
    cases bound'
    obtain rfl := hschema
    obtain rfl := hschema'
    exact .ok (congrArg _ heach.eq)

/-- Binding does not depend on the order of raw values, nor on the order of beans: the answer and
the reports are the same. Nor does it depend on the spelling of keys: with other spellings of the
same normal forms, a binding that succeeds gives the same configuration, and one that is refused is
refused by the same error but for the keys that are quoted. -/
theorem bind_order_and_spelling (binder : Binder) (schema : Schema) :
    (∀ (raw other : RawValues) (resolver : Resolver), raw.Perm other →
      binder.bind schema raw resolver = binder.bind schema other resolver) ∧
    (∀ (raw : RawValues) (registry registry' : BeanRegistry), registry.Distinct →
      registry.beans.Perm registry'.beans →
      binder.bind schema raw registry.resolver = binder.bind schema raw registry'.resolver) ∧
    (∀ (raw other : RawValues) (resolver : Resolver), raw.Respelled other →
      (∀ bound, (binder.bind schema raw resolver).value = .ok bound →
        (binder.bind schema other resolver).value = .ok bound) ∧
      (∀ error, (binder.bind schema raw resolver).value = .error error →
        ∃ error', (binder.bind schema other resolver).value = .error error' ∧
          SameButKeys error error')) := by
  refine ⟨fun raw other resolver hraw ↦ bind_perm hraw, ?_, ?_⟩
  · intro raw registry registry' hnames hbeans
    exact bind_sameObjects (BeanRegistry.sameObjects_of_perm hnames hbeans)
  · intro raw other resolver hraw
    have halike : Alike SameButKeys Eq (binder.bind schema raw resolver).value
        (binder.bind schema other resolver).value := bind_respelled hraw
    constructor
    · intro bound hbind
      rw [hbind] at halike
      generalize (binder.bind schema other resolver).value = outcome at halike
      cases halike with
      | ok heq => rw [heq]
    · intro error hbind
      rw [hbind] at halike
      generalize (binder.bind schema other resolver).value = outcome at halike
      cases halike with
      | @error _ error' herror => exact ⟨error', rfl, herror⟩

/-- Raw values in two orders, two clients in two orders, and raw values in two spellings of which a
lenient binder makes the same configuration and a strict one the same refusal. -/
theorem bind_order_and_spelling_orders :
    let main := ("main", ObjectRef.ofType 1 "kinesis::Client")
    let spare := ("spare", ObjectRef.ofType 2 "kinesis::Client")
    let raw : RawValues := [("stream-name", .text "a"), ("region", .text "eu")]
    let reordered : RawValues := [("region", .text "eu"), ("stream-name", .text "a")]
    let respelled : RawValues := [("STREAM_NAME", .text "a"), ("re.gion", .text "eu")]
    let lenient : Binder := {}
    let bound : Bound := ⟨orders, [some (.string "a"), some (.int 5), none]⟩
    lenient.bind orders raw .none = lenient.bind orders reordered .none ∧
      lenient.bind orders raw (BeanRegistry.resolver ⟨[main, spare]⟩) =
        lenient.bind orders raw (BeanRegistry.resolver ⟨[spare, main]⟩) ∧
      (lenient.bind orders respelled .none).value = .ok bound ∧
      ∃ error, (strict.bind orders respelled .none).value = .error error ∧
        SameButKeys (.unknownOption "orders" "region") error := by
  intro main spare raw reordered respelled lenient bound
  obtain ⟨horder, hbeans, hspelling⟩ := bind_order_and_spelling lenient orders
  have hrespelled : raw.Respelled respelled := List.Perm.of_eq (by decide +kernel)
  refine ⟨horder raw reordered .none (List.Perm.swap _ _ _), ?_, ?_, ?_⟩
  · exact hbeans raw ⟨[main, spare]⟩ ⟨[spare, main]⟩ (by decide +kernel) (List.Perm.swap _ _ _)
  · exact (hspelling raw respelled .none hrespelled).1 bound (by decide +kernel)
  · obtain ⟨-, -, hstrict⟩ := bind_order_and_spelling strict orders
    exact (hstrict raw respelled .none hrespelled).2 _ (by decide +kernel)

end Binder

end Connectors
