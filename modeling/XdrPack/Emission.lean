import XdrPack.Failure
import XdrPack.Union

/-!
# Emissions

What the compiler hands to a back end: one emission for each built-in type, and
then one for each accepted definition that code is generated for, in source
order. A back end that is asked to finish turns the emissions into the texts of
the generated modules, unless it fails.
-/

namespace XdrPack

/-- A type, constant or record that code is generated for. -/
inductive Emission where
  | primitive (name routine : String)
  | constant (name : String) (value : Value)
  | enum (name : String) (members : List EnumMember)
  | typedef (name : String) (target : Field)
  | struct (name : String) (fields : List Field)
  | union (name : String) (layout : UnionLayout)
  deriving DecidableEq, Repr

/-- The texts of the three generated modules. -/
structure Artifacts where
  constants : String
  types : String
  packer : String
  deriving DecidableEq, Repr

/-- A call that the compiler makes to a back end. -/
inductive HookCall where
  | emit (emission : Emission)
  | finish
  deriving DecidableEq, Repr

/-- What a call emits. -/
def HookCall.emission? : HookCall -> Option Emission
  | emit emission => some emission
  | finish => none

/-- Which names are needed by the generated code itself, once something has been
emitted. -/
abbrev Reservation := List Emission -> String -> Bool

/-- Names that are needed whatever has been emitted. -/
abbrev Reservation.fixed (isReserved : String -> Bool) : Reservation := fun _ => isReserved

/-- A target of code generation. -/
structure Backend where
  /-- Names that the generated code needs for itself. -/
  isReserved : Reservation
  /-- The modules generated for a sequence of emissions. -/
  finish : List Emission -> Except Failure Artifacts

/-- A back end that generates nothing and reserves only the given names. -/
def Backend.silent (reserved : List String) : Backend :=
  { isReserved := .fixed reserved.contains, finish := fun _ => .ok ⟨"", "", ""⟩ }

end XdrPack
