import XdrPack.TypeRef

/-!
# The registry of types

The registry binds the names of all types known so far. A type is completed
before it is bound, so that a reference takes over from the one type it names
and never has to look further.
-/

namespace XdrPack

/-- The bindings of type names, the latest first. -/
structure Registry where
  bindings : List (String × TypeRef)
  deriving DecidableEq, Repr

namespace Registry

/-- The registry without any type. -/
def empty : Registry := ⟨[]⟩

/-- The type bound to a name. -/
def lookup (registry : Registry) (name : String) : Option TypeRef :=
  registry.bindings.lookup name

/-- Whether a name is bound. -/
def contains (registry : Registry) (name : String) : Bool :=
  (registry.lookup name).isSome

/-- Binds a name, which hides any earlier binding of it. -/
def insert (registry : Registry) (name : String) (type : TypeRef) : Registry :=
  ⟨(name, type) :: registry.bindings⟩

@[simp]
theorem lookup_empty (name : String) : empty.lookup name = none := rfl

/-- A name that was just bound has the type it was bound to, and the other names
keep theirs. -/
@[simp]
theorem lookup_insert (registry : Registry) (name other : String) (type : TypeRef) :
    (registry.insert name type).lookup other =
      if other = name then some type else registry.lookup other := by
  by_cases same : other = name
  · simp [insert, lookup, same]
  · have differs : (other == name) = false := by simpa using same
    simp [insert, lookup, List.lookup_cons, same, differs]

/-- The built-in types and the routine that codes each of them. There is no
routine for `quadruple`, which is coded as a `double`. -/
def primitives : List (String × String) := [
  ("int", "int"),
  ("unsigned_int", "uint"),
  ("hyper", "hyper"),
  ("unsigned_hyper", "uhyper"),
  ("float", "float"),
  ("double", "double"),
  ("quadruple", "double"),
  ("bool", "bool"),
  ("opaque", "opaque"),
  ("string", "string"),
  ("enum", "enum")]

/-- The registry of the built-in types. -/
def builtin : Registry :=
  primitives.foldl (fun registry (name, routine) =>
    registry.insert name (.primitive name routine)) empty

/-- The routine and the shape that a bare reference takes over from a type. -/
def inherited? (registry : Registry) (base : String) : Option (Option String × Shape) :=
  (registry.lookup base).map fun type => (type.routine, type.shape)

/-- Completes a reference as written. It takes over the routine of the type it
names, and its shape too unless it has one of its own. -/
def complete? (registry : Registry) (type : TypeRef) : Option TypeRef :=
  if type.isVoid then
    some type
  else
    (registry.inherited? type.base).map fun (routine, shape) =>
      if !type.shape.isArray && shape.isArray then
        { type with routine, shape, inherited := true }
      else
        { type with routine }

end Registry

end XdrPack
