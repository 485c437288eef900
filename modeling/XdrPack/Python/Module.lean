import XdrPack.Emission
import XdrPack.Python.Record
import XdrPack.Python.Routine
import XdrPack.Text.Upper

/-!
# The generated modules

Every emission adds constants, record classes and coding routines, which stand
in the generated modules in the order of the emissions. The modules mention the
file they were made from, import one another by name, and define two classes
named after the interface. Names that the classes need for themselves cannot be
used by a definition.
-/

namespace XdrPack

/-- The names that appear in generated modules. -/
structure Naming where
  /-- The name of the interface file. -/
  sourceName : String
  /-- The start of the names of all generated modules. -/
  moduleStem : String
  /-- The start of the names of the packer and unpacker classes. -/
  classPrefix : String
  deriving DecidableEq, Repr

/-- The names that follow from a stem. -/
def Naming.ofStem (stem : String) : Naming :=
  { sourceName := stem ++ ".x", moduleStem := stem, classPrefix := Text.upper stem }

/-- The names used when none are given. -/
def Naming.standard : Naming := .ofStem "rpc"

namespace Python

/-- The keywords of Python. -/
def keywords : List String := [
  "False", "None", "True", "and", "as", "assert", "async", "await", "break", "class",
  "continue", "def", "del", "elif", "else", "except", "finally", "for", "from", "global",
  "if", "import", "in", "is", "lambda", "nonlocal", "not", "or", "pass", "raise",
  "return", "try", "while", "with", "yield"]

/-- The names that the generated classes use for themselves. -/
def classNames : List String := [
  "self", "ncl", "arm", "packer", "unpacker", "dummy", "pack", "unpack"]

/-- Whether a name is reserved. -/
def isReserved (name : String) : Bool :=
  keywords.contains name || classNames.contains name

/-- A constant of the module of constants. -/
structure ConstantBinding where
  name : String
  value : Value
  deriving DecidableEq, Repr

/-- A name that the module of record classes binds. -/
inductive ClassBinding where
  | struct (name : String) (fields : List Field)
  | union (name : String) (layout : UnionLayout)
  /-- Another name for a class. -/
  | same (name target : String)
  deriving DecidableEq, Repr

/-- The code of a constant. -/
def ConstantBinding.code (constant : ConstantBinding) : Code :=
  .line (constant.name ++ " = " ++ literal constant.value) .done

/-- The code of a record class or of another name for it. -/
def ClassBinding.code : ClassBinding -> Code
  | struct name fields => Struct.code name fields
  | union name layout => Union.code name layout
  | same name target => .line (name ++ " = " ++ target) (.blank (.blank .done))

/-- The constants that an emission adds. -/
def constants : Emission -> List ConstantBinding
  | .constant name value => [⟨name, value⟩]
  | .enum _ members => members.map fun member => ⟨member.name, member.value⟩
  | _ => []

/-- The classes that an emission adds. -/
def classes : Emission -> List ClassBinding
  | .typedef name target =>
      match target.coding with
      | .record other => [.same name other]
      | _ => []
  | .struct name fields => [.struct name fields]
  | .union name layout => [.union name layout]
  | _ => []

/-- The routines that an emission adds. -/
def routines : Emission -> List Routine
  | .primitive name routine => [⟨name, .runtime routine⟩]
  | .enum name _ => [⟨name, .forward "enum"⟩]
  | .typedef name target => [.ofCoding name target.coding]
  | _ => []

/-- The first line of a generated module. -/
def banner (naming : Naming) : String :=
  "# Generated by rpcgen from " ++ naming.sourceName ++ ". Do not edit."

/-- The start of the module of record classes: what all of them rely on. -/
def typesPreamble (naming : Naming) : List String := [
  banner naming,
  "",
  "from " ++ naming.moduleStem ++ "constants import *",
  "",
  "",
  "class XDRError(Exception):",
  "    pass",
  "",
  "",
  "class FieldNotSet(XDRError):",
  "    def __init__(self, record, field):",
  "        XDRError.__init__(self, \"%s.%s is not set\" % (record, field))",
  "        self.record = record",
  "        self.field = field",
  "",
  "",
  "class BadDiscriminant(XDRError):",
  "    def __init__(self, value):",
  "        XDRError.__init__(self, \"no arm for discriminant %r\" % (value,))",
  "        self.value = value",
  "",
  "",
  "def init_type_class(klass, ncl):",
  "    klass.ncl = ncl",
  "    klass.packer = ncl.packer",
  "    klass.unpacker = ncl.unpacker",
  "",
  "",
  "def assert_not_none(obj, **fields):",
  "    for name, value in fields.items():",
  "        if value is None:",
  "            raise FieldNotSet(obj.__class__.__name__, name)",
  "",
  "",
  "def pack_objarray(ncl, items):",
  "    ncl.packer.pack_uint(len(items))",
  "    for item in items:",
  "        item.pack()",
  "",
  "",
  "def pack_fobjarray(ncl, n, items):",
  "    if len(items) != n:",
  "        raise ValueError(\"wrong array size\")",
  "    for item in items:",
  "        item.pack()",
  "",
  "",
  "def unpack_objarray(ncl, klass):",
  "    n = ncl.unpacker.unpack_uint()",
  "    return unpack_fobjarray(ncl, n, klass)",
  "",
  "",
  "def unpack_fobjarray(ncl, n, klass):",
  "    items = []",
  "    for i in range(n):",
  "        obj = klass(ncl)",
  "        obj.unpack()",
  "        items.append(obj)",
  "    return items",
  "",
  ""]

/-- The start of the module of coding routines. -/
def packerPreamble (naming : Naming) : List String := [
  banner naming,
  "#",
  "# Packer and unpacker instances must carry `ncl`, the object whose",
  "# `packer` and `unpacker` the record classes are bound to.",
  "",
  "import rpc",
  "from " ++ naming.moduleStem ++ "types import *",
  "",
  ""]

/-- The code of the module of constants. -/
def constantsCode (emissions : List Emission) : Code :=
  .concat ((emissions.flatMap constants).map (·.code))

/-- The code of the module of record classes. -/
def typesCode (naming : Naming) (emissions : List Emission) : Code :=
  .lines (typesPreamble naming) ++ .concat ((emissions.flatMap classes).map (·.code))

/-- The code of a class of routines. The routines are written first and indented
as a whole, whatever line ends their names contain. -/
def routinesCode (header : String) (codes : List Code) : Code :=
  .single header (.inset (.concat codes) .done)

/-- The code of the module of coding routines. -/
def packerCode (naming : Naming) (emissions : List Emission) : Code :=
  let routines := emissions.flatMap routines
  .lines (packerPreamble naming)
    ++ routinesCode ("class " ++ naming.classPrefix ++ "Packer(rpc.Packer):")
      (routines.map (·.packCode))
    ++ .blank (.blank .done)
    ++ routinesCode ("class " ++ naming.classPrefix ++ "Unpacker(rpc.Unpacker):")
      (routines.map (·.unpackCode))

/-- The generated modules for a sequence of emissions. -/
def artifacts (naming : Naming) (emissions : List Emission) : Artifacts :=
  { constants := (constantsCode emissions).render
    types := (typesCode naming emissions).render
    packer := (packerCode naming emissions).render }

/-- The back end for Python. -/
def backend (naming : Naming) : Backend :=
  { isReserved := .fixed isReserved, finish := fun emissions => .ok (artifacts naming emissions) }

/-- The extension of the names of generated files. -/
def extension : String := "py"

end Python

end XdrPack
