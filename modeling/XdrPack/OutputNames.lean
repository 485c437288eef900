import XdrPack.Path

/-!
# Names of the generated files

The generated files are named after the interface file. Its name without the
extension is turned into a name that a module can have: characters other than
letters, digits and underscores become underscores, and the name starts with
neither a digit nor nothing.
-/

namespace XdrPack

/-- Whether a character may stand in the name of a module. -/
def isModuleChar (c : Char) : Bool := c.isAlphanum || c == '_'

/-- A name with underscores in place of the characters that a module name cannot
have. -/
def moduleName (name : List Char) : List Char :=
  match name.map fun c => if isModuleChar c then c else '_' with
  | [] => ['_']
  | first :: rest => if first.isDigit then '_' :: first :: rest else first :: rest

/-- The name of an interface file as the start of module names. -/
def Path.moduleStem (path : Path) : String :=
  String.ofList (moduleName (path.stem?.getD "").toList)

/-- The paths of the three generated files. -/
structure OutputNames where
  stem : String
  constants : Path
  types : Path
  packer : Path
  deriving DecidableEq, Repr

namespace OutputNames

/-- The paths of the files generated for an interface file into a directory. -/
def derive (input directory : Path) (extension : String) : OutputNames :=
  let stem := input.moduleStem
  let path := fun (role : String) => directory.join ⟨stem ++ role ++ "." ++ extension⟩
  { stem, constants := path "constants", types := path "types", packer := path "packer" }

end OutputNames

/-- The path beside a file at which its new contents are prepared. -/
def Path.temporary (path : Path) : Path :=
  path.withFileName (path.fileName?.getD "" ++ ".tmp")

end XdrPack
