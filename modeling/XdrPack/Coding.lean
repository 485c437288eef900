import XdrPack.Definition
import XdrPack.Registry

/-!
# How values are coded

The coding of a declared value says which routine, record class or array
routine encodes and decodes it.
-/

namespace XdrPack

/-- How a value of a declared type is encoded and decoded. -/
inductive Coding where
  /-- Nothing is coded. -/
  | void
  /-- By the pair of routines with this name. -/
  | routine (name : String)
  /-- By a record class. -/
  | record (name : String)
  /-- As a string. Its bound is left to the routine. -/
  | text
  /-- As exactly so many bytes. -/
  | fixedBytes (length : Value)
  /-- As counted bytes. -/
  | bytes
  /-- As an array of values that a routine codes. A fixed array has a length and
  no count. -/
  | array (element : String) (fixed : Option Value)
  /-- As an array of records. -/
  | recordArray (element : String) (fixed : Option Value)
  deriving DecidableEq, Repr

namespace Coding

/-- Whether the elements of a type are records. A type that names an array of
records is coded by routines, so its own values are not. -/
def elementIsRecord (registry : Registry) (type : TypeRef) : Bool :=
  match registry.lookup type.base with
  | some entry => entry.isRecord && !entry.shape.isArray
  | none => type.routine.isNone

/-- The coding of an array of the named type. -/
def ofArray (base : String) (elementIsRecord : Bool) (fixed : Option Value) : Coding :=
  if base = "string" then
    text
  else if base = "opaque" then
    match fixed with
    | some length => fixedBytes length
    | none => bytes
  else if elementIsRecord then
    recordArray base fixed
  else
    array base fixed

/-- The coding of a completed type. A shape that was taken over is coded by the
routines of the type it was taken over from. -/
def choose (registry : Registry) (type : TypeRef) : Coding :=
  if type.isVoid then
    void
  else if type.inherited then
    routine type.base
  else
    match type.shape with
    | .scalar =>
        if elementIsRecord registry type then record type.base else routine type.base
    | .fixed length => ofArray type.base (elementIsRecord registry type) (some length)
    | .varying _ => ofArray type.base (elementIsRecord registry type) none

/-- Whether routines of this coding only forward to another pair of routines. -/
def isAlias : Coding -> Bool
  | routine _ => true
  | _ => false

end Coding

/-- A declaration with a completed type, and how its value is coded. -/
structure Field where
  declaration : Declaration
  coding : Coding
  deriving DecidableEq, Repr

namespace Field

/-- The declared name. -/
def name (field : Field) : String := field.declaration.name

/-- Whether nothing is declared. -/
def isVoid (field : Field) : Bool := field.declaration.isVoid

end Field

end XdrPack
