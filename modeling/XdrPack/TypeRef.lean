/-!
# References to types

A declaration refers to a type by name and may wrap it in an array. What the
name stands for is filled in later: the routine that ultimately codes the value,
and the array shape that a bare name takes over from the type it names.

A length, a case label or the value of an enumeration member is written as a
number or as the name of a constant. Numbers keep their source text and are
never evaluated.
-/

namespace XdrPack

/-- A number as written, or a reference to a named constant. -/
inductive Value where
  | number (text : String)
  | constant (name : String)
  deriving DecidableEq, Repr

/-- The source text of a value. -/
def Value.text : Value -> String
  | number text => text
  | constant name => name

/-- The array shape of a declaration. -/
inductive Shape where
  /-- A single value. -/
  | scalar
  /-- Exactly as many values as the length says; the length is never sent. -/
  | fixed (length : Value)
  /-- A counted sequence, possibly with an upper bound. -/
  | varying (bound : Option Value)
  deriving DecidableEq, Repr

namespace Shape

/-- Whether the shape is an array. -/
def isArray : Shape -> Bool
  | scalar => false
  | fixed _ | varying _ => true

/-- The shape as it is written after a declared name. -/
def suffix : Shape -> String
  | scalar => ""
  | fixed length => "[" ++ length.text ++ "]"
  | varying (some bound) => "<" ++ bound.text ++ ">"
  | varying none => "<>"

end Shape

/-- A reference to a type. -/
structure TypeRef where
  /-- The name of the type referred to. -/
  base : String
  /-- The primitive routine that codes the values. Records have none. -/
  routine : Option String
  shape : Shape
  /-- Whether the shape was taken over from the named type. -/
  inherited : Bool
  isVoid : Bool
  deriving DecidableEq, Repr

namespace TypeRef

/-- A reference as written, before its name has been looked up. -/
def shaped (base : String) (shape : Shape) : TypeRef :=
  { base, routine := none, shape, inherited := false, isVoid := false }

/-- A bare name. -/
def named (base : String) : TypeRef := shaped base .scalar

/-- A built-in type and the routine that codes it. -/
def primitive (name routine : String) : TypeRef :=
  { named name with routine := some routine }

/-- A structure or union, which refers to itself. -/
def record (name : String) : TypeRef := named name

/-- The type without values. -/
def void : TypeRef := { named "void" with isVoid := true }

/-- Whether values are coded by a record class. -/
def isRecord (type : TypeRef) : Bool := !type.isVoid && type.routine.isNone

/-- The array suffix as it was written at the declaration. -/
def writtenSuffix (type : TypeRef) : String :=
  if type.inherited then "" else type.shape.suffix

end TypeRef

end XdrPack
