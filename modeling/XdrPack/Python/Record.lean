import XdrPack.Python.Statement
import XdrPack.Union

/-!
# Record classes

A structure or a union becomes a class that shows its definition in a comment
and has a constructor, a printed form, and methods that encode and decode it.
-/

namespace XdrPack.Python

/-- The constructor of a record with the given attributes, and the statements at
its end. -/
def constructorCode (names trailer : List String) : Code :=
  .single
    ("def __init__(self, ncl" ++ String.join (names.map fun name => ", " ++ name ++ "=None")
      ++ "):")
    (.lines (["init_type_class(self, ncl)"]
      ++ names.map (fun name => "self." ++ name ++ " = " ++ name) ++ trailer))

/-- The methods of a record class in order, with an empty line after each and one
more after the last. -/
def methodsCode (constructor printed pack unpack : Code) : Code :=
  constructor ++ .blank .done ++ printed ++ .blank .done ++ pack ++ .blank .done ++ unpack
    ++ .blank (.blank .done)

/-- The lines of a comment. -/
def commentCode (texts : List String) : Code :=
  .lines (texts.map fun text => "# " ++ text)

namespace Struct

/-- The fields of a structure that hold a value. -/
def valued (fields : List Field) : List Field := fields.filter fun field => !field.isVoid

/-- The definition of a structure, as its class shows it. -/
def definitionLines (name : String) (fields : List Field) : List String :=
  ["struct " ++ name ++ " \x7b"]
    ++ fields.map (fun field => "    " ++ field.declaration.text ++ ";")
    ++ ["\x7d;"]

/-- The statement that gives the printed form of a structure. -/
def printedForm (name : String) (names : List String) : String :=
  if names.isEmpty then
    "return \"<" ++ name ++ ">\""
  else
    "return \"<" ++ name ++ String.join (names.map fun field => " " ++ field ++ "=%r")
      ++ ">\" % (" ++ " ".intercalate (names.map fun field => "self." ++ field ++ ",") ++ ")"

/-- The actions that encode a structure. -/
def packActions (fields : List Field) : List Action :=
  .assertSet (fields.map (·.name)) :: fields.map fun field => .encode field.name field.coding

/-- The actions that decode a structure. -/
def unpackActions (fields : List Field) : List Action :=
  fields.map fun field => .decode field.name field.coding

/-- The body of the method that decodes a structure. -/
def unpackBody (fields : List Field) : Code :=
  if fields.isEmpty then .line "pass" .done else actionCode (unpackActions fields)

/-- The class of a structure. -/
def code (name : String) (fields : List Field) : Code :=
  let fields := valued fields
  let names := fields.map (·.name)
  .single ("class " ++ name ++ ":")
    (commentCode ("XDR definition:" :: definitionLines name fields)
      ++ methodsCode
        (constructorCode names [])
        (.single "def __repr__(self):" (.line (printedForm name names) .done))
        (.single "def pack(self, dummy=None):" (actionCode (packActions fields)))
        (.single "def unpack(self):" (unpackBody fields)))

end Struct

namespace Union

/-- The definition of an arm, as the class of its union shows it. -/
def armLines (arm : UnionArm) : List String :=
  arm.labels.map (fun label => "    case " ++ label.text ++ ":")
    ++ ["        " ++ arm.body.declaration.text ++ ";"]

/-- The definition of a default, as the class of its union shows it. -/
def defaultLines : Option Field -> List String
  | none => []
  | some field => ["    default:", "        " ++ field.declaration.text ++ ";"]

/-- The definition of a union, as its class shows it. -/
def definitionLines (name : String) (layout : UnionLayout) : List String :=
  ["union " ++ name ++ " switch (" ++ layout.discriminant.declaration.text ++ ") \x7b"]
    ++ layout.arms.flatMap armLines ++ defaultLines layout.fallback ++ ["\x7d;"]

/-- The attributes of a union: its discriminant and its members. -/
def attributes (layout : UnionLayout) : List String :=
  layout.discriminant.name :: layout.members.map (·.name)

/-- The actions that encode the body of an arm. -/
def packBody (field : Field) : List Action :=
  if field.isVoid then [.setArm none]
  else [.assertSet [field.name], .encode field.name field.coding, .setArm (some field.name)]

/-- The actions that decode the body of an arm. -/
def unpackBody (field : Field) : List Action :=
  if field.isVoid then [.setArm none]
  else [.decode field.name field.coding, .setArm (some field.name)]

/-- The choice of an arm, when `body` gives the actions of each. Without a
default the other values of the discriminant are refused. -/
def choice (body : Field -> List Action) (layout : UnionLayout) : Choice :=
  { discriminant := layout.discriminant.name
    branches := layout.arms.map fun arm => ⟨arm.labels, body arm.body⟩
    otherwise :=
      match layout.fallback with
      | some field => body field
      | none => [.refuse layout.discriminant.name] }

/-- The actions that encode the discriminant. -/
def packDiscriminant (layout : UnionLayout) : List Action :=
  [.assertSet [layout.discriminant.name],
    .encode layout.discriminant.name layout.discriminant.coding]

/-- The actions that decode the discriminant. -/
def unpackDiscriminant (layout : UnionLayout) : List Action :=
  [.decode layout.discriminant.name layout.discriminant.coding]

/-- The class of a union. -/
def code (name : String) (layout : UnionLayout) : Code :=
  .single ("class " ++ name ++ ":")
    (commentCode ("XDR definition:" :: definitionLines name layout)
      ++ methodsCode
        (constructorCode (attributes layout) ["# Shortcut to current arm", "self.arm = None"])
        (.single "def __repr__(self):"
          (.line ("return \"<" ++ name ++ ": discriminant:%r>\" % (self."
            ++ layout.discriminant.name ++ ",)") .done))
        (.single "def pack(self, dummy=None):"
          (actionCode (packDiscriminant layout) ++ (choice packBody layout).code))
        (.single "def unpack(self):"
          (actionCode (unpackDiscriminant layout) ++ (choice unpackBody layout).code)))

end Union

end XdrPack.Python
