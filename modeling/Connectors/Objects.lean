import Connectors.Text.Quoted
import Connectors.Text.Split

/-!
# Objects from outside

Some options hold an object that was made elsewhere, such as a client for a service. The library
never looks inside one. It knows an object by its identity, by the type name it is offered under,
and by the concrete type behind that name (`ObjectRef`).

A `Resolver` finds objects by name and by type name. `BeanRegistry` is the resolver that
applications fill: one object per name, the last one inserted. The order of its entries carries no
meaning.
-/

set_option autoImplicit false
set_option relaxedAutoImplicit false

namespace Connectors

/-- A shared object that was made outside. -/
structure ObjectRef where
  /-- What tells this object from every other one. -/
  identity : Nat
  /-- The type name the object is offered under. -/
  typeName : String
  /-- The full name of its concrete type. -/
  concreteType : String
deriving DecidableEq, Repr, Inhabited

namespace ObjectRef

/-- The last segment of a type's full name, not counting its arguments. -/
def shortTypeName (concreteType : String) : String :=
  let head := concreteType.toList.takeWhile (· ≠ '<')
  String.ofList (lastSegment head)
where
  /-- What follows the last pair of colons. -/
  lastSegment : List Char → List Char
    | [] => []
    | c :: rest =>
      if hasColons rest then lastSegment rest
      else match c, rest with
        | ':', ':' :: after => after
        | _, _ => c :: rest
  /-- Whether a pair of colons occurs. -/
  hasColons : List Char → Bool
    | ':' :: ':' :: _ => true
    | _ :: rest => hasColons rest
    | [] => false

/-- An object offered under the short name of its concrete type. -/
def ofType (identity : Nat) (concreteType : String) : ObjectRef :=
  ⟨identity, shortTypeName concreteType, concreteType⟩

/-- Whether the object is offered under a type name. -/
def isType (object : ObjectRef) (typeName : String) : Bool :=
  object.typeName == typeName

/-- Whether two references are to one object. -/
def same (a b : ObjectRef) : Bool :=
  a.identity == b.identity

/-- The diagnostic form of a reference. -/
def describe (object : ObjectRef) : String :=
  Text.openRecord "ObjectRef"
    [("type_name", Text.quote object.typeName), ("rust_type", Text.quote object.concreteType)]

end ObjectRef

/-- The name that a textual reference gives: the text without the mark `#bean:` or `#` at its
start. -/
def referenceName (text : String) : String :=
  match Text.stripStart? "#bean:".toList text.toList with
  | some name => String.ofList name
  | none =>
    match text.toList with
    | '#' :: name => String.ofList name
    | _ => text

/-- A way to find objects. -/
structure Resolver where
  /-- The object of a name. -/
  lookup : String → Option ObjectRef
  /-- The objects offered under a type name. -/
  findByType : String → List ObjectRef

/-- The resolver that knows no object. -/
def Resolver.none : Resolver where
  lookup _ := Option.none
  findByType _ := []

/-- Named objects, one per name. -/
structure BeanRegistry where
  /-- The objects with their names, in no particular order. -/
  beans : List (String × ObjectRef)
deriving DecidableEq, Repr, Inhabited

namespace BeanRegistry

/-- The registry without objects. -/
def empty : BeanRegistry := ⟨[]⟩

/-- The object of a name. -/
def lookup (registry : BeanRegistry) (name : String) : Option ObjectRef :=
  registry.beans.lookup name

/-- The objects offered under a type name, one for each name that holds one. -/
def findByType (registry : BeanRegistry) (typeName : String) : List ObjectRef :=
  (registry.beans.map (·.2)).filter (·.isType typeName)

/-- Removes the object of a name. -/
def remove (registry : BeanRegistry) (name : String) : BeanRegistry :=
  ⟨registry.beans.filter (·.1 ≠ name)⟩

/-- Puts an object under a name, in place of the one that was there. -/
def insert (registry : BeanRegistry) (name : String) (object : ObjectRef) : BeanRegistry :=
  ⟨(name, object) :: (registry.remove name).beans⟩

/-- How many names hold an object. -/
def size (registry : BeanRegistry) : Nat :=
  registry.beans.length

/-- The registry as a resolver. -/
def resolver (registry : BeanRegistry) : Resolver where
  lookup := registry.lookup
  findByType := registry.findByType

/-- The diagnostic form of a registry: its names in order. -/
def describe (registry : BeanRegistry) : String :=
  Text.record "BeanRegistry"
    [("beans", Text.quotedList ((registry.beans.map (·.1)).mergeSort (· ≤ ·)))]

end BeanRegistry

end Connectors
