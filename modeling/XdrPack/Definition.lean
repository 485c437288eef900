import XdrPack.TypeRef

/-!
# Definitions

The parsed form of an interface file is a list of definitions. Every definition
but a program, and every part of it that can be at fault later, carries the line
it was written on.
-/

namespace XdrPack

/-- A declared name with its type. The name of a void declaration is empty. -/
structure Declaration where
  name : String
  type : TypeRef
  line : Int
  deriving DecidableEq, Repr

namespace Declaration

/-- The declaration of nothing. -/
def void (line : Int) : Declaration := ⟨"", .void, line⟩

/-- Whether nothing is declared. -/
def isVoid (declaration : Declaration) : Bool := declaration.type.isVoid

/-- The source text of a declaration. -/
def text (declaration : Declaration) : String :=
  if declaration.isVoid then "void"
  else declaration.type.base ++ " " ++ declaration.name ++ declaration.type.writtenSuffix

end Declaration

/-- A member of an enumeration. -/
structure EnumMember where
  name : String
  value : Value
  line : Int
  deriving DecidableEq, Repr

/-- What selects a case of a union. -/
inductive CaseLabel where
  | value (value : Value)
  | default
  deriving DecidableEq, Repr

/-- A case of a union. A case without a body falls through to the next case
that has one. -/
structure Case where
  label : CaseLabel
  body : Option Declaration
  line : Int
  deriving DecidableEq, Repr

/-- The cases of a union, of which there is at least one, and its default. -/
structure Switch where
  first : Case
  more : List Case
  fallback : Option Case
  deriving DecidableEq, Repr

/-- The cases of a switch in order, the default not among them. -/
def Switch.cases (switch : Switch) : List Case := switch.first :: switch.more

/-- A remote procedure. -/
structure Procedure where
  name : String
  result : TypeRef
  arguments : List TypeRef
  number : Value
  deriving DecidableEq, Repr

/-- A version of a remote program. -/
structure Version where
  name : String
  procedures : List Procedure
  number : Value
  deriving DecidableEq, Repr

/-- A remote program. -/
structure Program where
  name : String
  versions : List Version
  number : Value
  deriving DecidableEq, Repr

/-- A definition at the top level of an interface file. -/
inductive Definition where
  | constant (name : String) (value : Value) (line : Int)
  | enum (name : String) (members : List EnumMember) (line : Int)
  | typedef (declaration : Declaration)
  | struct (name : String) (fields : List Declaration) (line : Int)
  | union (name : String) (discriminant : Declaration) (switch : Switch) (line : Int)
  | program (program : Program)
  deriving DecidableEq, Repr

end XdrPack
