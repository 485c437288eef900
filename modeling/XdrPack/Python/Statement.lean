import XdrPack.Code
import XdrPack.Coding

/-!
# Statements of generated methods

The methods that encode and decode a record are built as data first: a list of
actions, possibly followed by a choice among branches. How an action is written
depends on where the coding routines are found.

Python writes octal numbers with a marker of its own and refuses a decimal
number with a leading zero. All other numbers are written as in the interface
language.
-/

namespace XdrPack.Python

/-- The literal of a number without a sign. -/
def unsignedLiteral : List Char -> List Char
  | '0' :: c :: rest =>
      if c = 'x' || c = 'X' then '0' :: c :: rest else '0' :: 'o' :: c :: rest
  | digits => digits

/-- The literal of a number. -/
def numberLiteral : List Char -> List Char
  | '-' :: digits => '-' :: unsignedLiteral digits
  | digits => unsignedLiteral digits

/-- The text of a value in Python. -/
def literal : Value -> String
  | .constant name => name
  | .number text => String.ofList (numberLiteral text.toList)

/-- Where a statement stands, which decides how routines are reached. -/
inductive Site where
  /-- In a record class, which holds a packer and an unpacker. -/
  | record
  /-- In the packer or the unpacker class itself. -/
  | routines
  deriving DecidableEq, Repr

/-- The object with the encoding routines. -/
def Site.packer : Site -> String
  | record => "self.packer"
  | routines => "self"

/-- The object with the decoding routines. -/
def Site.unpacker : Site -> String
  | record => "self.unpacker"
  | routines => "self"

/-- A place that holds a value. -/
inductive Place where
  /-- An attribute of the record. -/
  | member (name : String)
  /-- The local variable of a routine. -/
  | data
  deriving DecidableEq, Repr

/-- The expression for a place. -/
def Place.text : Place -> String
  | member name => "self." ++ name
  | data => "data"

/-- The statement that encodes the value of a place, if there is anything to
encode. -/
def encodeStatement? (site : Site) (place : Place) : Coding -> Option String
  | .void => none
  | .routine name => some (site.packer ++ ".pack_" ++ name ++ "(" ++ place.text ++ ")")
  | .record _ => some (place.text ++ ".pack()")
  | .text => some (site.packer ++ ".pack_string(" ++ place.text ++ ")")
  | .fixedBytes length =>
      some (site.packer ++ ".pack_fopaque(" ++ literal length ++ ", " ++ place.text ++ ")")
  | .bytes => some (site.packer ++ ".pack_opaque(" ++ place.text ++ ")")
  | .array element none =>
      some (site.packer ++ ".pack_array(" ++ place.text ++ ", " ++ site.packer ++ ".pack_"
        ++ element ++ ")")
  | .array element (some length) =>
      some (site.packer ++ ".pack_farray(" ++ literal length ++ ", " ++ place.text ++ ", "
        ++ site.packer ++ ".pack_" ++ element ++ ")")
  | .recordArray _ none => some ("pack_objarray(self.ncl, " ++ place.text ++ ")")
  | .recordArray _ (some length) =>
      some ("pack_fobjarray(self.ncl, " ++ literal length ++ ", " ++ place.text ++ ")")

/-- The expression that decodes a value. A record has none: it is created first
and then decodes itself. -/
def decodeExpression? (site : Site) : Coding -> Option String
  | .void => none
  | .record _ => none
  | .routine name => some (site.unpacker ++ ".unpack_" ++ name ++ "()")
  | .text => some (site.unpacker ++ ".unpack_string()")
  | .fixedBytes length => some (site.unpacker ++ ".unpack_fopaque(" ++ literal length ++ ")")
  | .bytes => some (site.unpacker ++ ".unpack_opaque()")
  | .array element none =>
      some (site.unpacker ++ ".unpack_array(" ++ site.unpacker ++ ".unpack_" ++ element ++ ")")
  | .array element (some length) =>
      some (site.unpacker ++ ".unpack_farray(" ++ literal length ++ ", " ++ site.unpacker
        ++ ".unpack_" ++ element ++ ")")
  | .recordArray element none => some ("unpack_objarray(self.ncl, " ++ element ++ ")")
  | .recordArray element (some length) =>
      some ("unpack_fobjarray(self.ncl, " ++ literal length ++ ", " ++ element ++ ")")

/-- The statements that decode a value into a place. -/
def decodeStatements (site : Site) (place : Place) (coding : Coding) : List String :=
  match coding with
  | .record name => [place.text ++ " = " ++ name ++ "(self.ncl)", place.text ++ ".unpack()"]
  | _ => (decodeExpression? site coding).toList.map fun expression =>
      place.text ++ " = " ++ expression

/-- One action of a method of a record class. -/
inductive Action where
  /-- Insists that attributes are set. -/
  | assertSet (names : List String)
  /-- Encodes an attribute. -/
  | encode (name : String) (coding : Coding)
  /-- Decodes an attribute. -/
  | decode (name : String) (coding : Coding)
  /-- Remembers which arm of a union is in use. -/
  | setArm (name : Option String)
  /-- Refuses the value of the discriminant. -/
  | refuse (discriminant : String)
  deriving DecidableEq, Repr

/-- The statements of an action. -/
def Action.statements : Action -> List String
  | assertSet [] => ["assert_not_none(self)"]
  | assertSet names =>
      ["assert_not_none(self, "
        ++ ", ".intercalate (names.map fun name => name ++ "=self." ++ name) ++ ")"]
  | encode name coding => (encodeStatement? .record (.member name) coding).toList
  | decode name coding => decodeStatements .record (.member name) coding
  | setArm none => ["self.arm = None"]
  | setArm (some name) => ["self.arm = self." ++ name]
  | refuse discriminant => ["raise BadDiscriminant(self." ++ discriminant ++ ")"]

/-- The code of a list of actions. -/
def actionCode (actions : List Action) : Code :=
  .lines (actions.flatMap (·.statements))

/-- The actions that are taken for certain values of the discriminant. -/
structure Branch where
  labels : List Value
  actions : List Action
  deriving DecidableEq, Repr

/-- A choice among branches by the value of the discriminant. -/
structure Choice where
  discriminant : String
  branches : List Branch
  otherwise : List Action
  deriving DecidableEq, Repr

/-- The condition under which a branch is taken. -/
def Branch.condition (discriminant : String) (branch : Branch) : String :=
  " or ".intercalate (branch.labels.map fun label =>
    "self." ++ discriminant ++ " == " ++ literal label)

/-- The code of a branch with the word that introduces it. -/
def Branch.code (discriminant word : String) (branch : Branch) : Code :=
  .single (word ++ " " ++ branch.condition discriminant ++ ":") (actionCode branch.actions)

/-- The code of a choice. Without branches there is nothing to choose. -/
def Choice.code (choice : Choice) : Code :=
  match choice.branches with
  | [] => actionCode choice.otherwise
  | first :: rest =>
      first.code choice.discriminant "if"
        ++ .concat (rest.map (·.code choice.discriminant "elif"))
        ++ .single "else:" (actionCode choice.otherwise)

end XdrPack.Python
