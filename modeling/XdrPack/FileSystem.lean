import XdrPack.Path

/-!
# File systems

A file system without links: files and directories at locations, and the
directory that relative paths start from. An operation that fails changes
nothing. The same operations are offered by a file store, which a run may use
in any monad. The reason for which an operation fails is worded with the error
number of the operating system where it has one.
-/

namespace XdrPack

/-- Why an operation on a file fails. -/
inductive FileError where
  | notFound
  | notDirectory
  | isDirectory
  | nameTooLong
  | nulInName
  | notText
  | other (text : String)
  deriving DecidableEq, Repr

/-- The wording of a file error. -/
def FileError.message : FileError -> String
  | notFound => "No such file or directory (os error 2)"
  | notDirectory => "Not a directory (os error 20)"
  | isDirectory => "Is a directory (os error 21)"
  | nameTooLong => "File name too long (os error 36)"
  | nulInName => "file name contained an unexpected NUL byte"
  | notText => "stream did not contain valid UTF-8"
  | other text => text

/-- Contents are equal if their bytes are. -/
instance decidableEqContents : DecidableEq ByteArray := fun left right =>
  decidable_of_iff (left.data = right.data) ByteArray.ext_iff.symm

/-- What stands at a location. -/
inductive Node where
  | file (contents : ByteArray)
  | directory
  deriving DecidableEq

/-- The names on the way from the root directory. -/
abbrev Location := List String

/-- The files and directories, the root directory apart. -/
structure FileSystem where
  nodes : List (Location × Node)
  workingDirectory : Location
  deriving DecidableEq

namespace FileSystem

/-- The most bytes that a name may have. -/
def longestName : Nat := 255

/-- The most bytes that a path may have. -/
def longestPath : Nat := 4095

/-- What stands at a location, if anything does. -/
def node? (system : FileSystem) (location : Location) : Option Node :=
  if location = [] then some .directory else system.nodes.lookup location

/-- The file system with nothing at a location. -/
def erase (system : FileSystem) (location : Location) : FileSystem :=
  { system with nodes := system.nodes.filter fun entry => entry.1 != location }

/-- The file system with something else at a location. -/
def put (system : FileSystem) (location : Location) (node : Node) : FileSystem :=
  { system with nodes := (location, node) :: (system.erase location).nodes }

/-- Follows the pieces of a path from a location. Every piece needs a directory
to be followed in; the location it leads to need not hold anything. -/
def walk (system : FileSystem) (here : Location) : List String -> Except FileError Location
  | [] => .ok here
  | piece :: rest =>
      match system.node? here with
      | none => .error .notFound
      | some (.file _) => .error .notDirectory
      | some .directory =>
          if Path.isIdle piece then system.walk here rest
          else if piece = ".." then system.walk here.dropLast rest
          else if longestName < piece.utf8ByteSize then .error .nameTooLong
          else system.walk (here ++ [piece]) rest

/-- Where the pieces of a path lead from where it starts. -/
def follow (system : FileSystem) (path : Path) : Except FileError Location :=
  system.walk (if path.isAbsolute then [] else system.workingDirectory) path.pieces

/-- The location at which a path is looked up. -/
def locate (system : FileSystem) (path : Path) : Except FileError Location :=
  if '\x00' ∈ path.text.toList then .error .nulInName
  else if path.text = "" then .error .notFound
  else if longestPath < path.text.utf8ByteSize then .error .nameTooLong
  else system.follow path

/-- The contents of a file. -/
def read (system : FileSystem) (path : Path) : Except FileError ByteArray := do
  let location <- system.locate path
  match system.node? location with
  | none => .error .notFound
  | some .directory => .error .isDirectory
  | some (.file contents) => .ok contents

/-- The text of a file. -/
def readText (system : FileSystem) (path : Path) : Except FileError String := do
  let contents <- system.read path
  match String.fromUTF8? contents with
  | none => .error .notText
  | some text => .ok text

/-- Creates a file, or replaces the contents of one. -/
def write (system : FileSystem) (path : Path) (contents : ByteArray) :
    Except FileError FileSystem := do
  let location <- system.locate path
  match system.node? location with
  | some .directory => .error .isDirectory
  | _ => .ok (system.put location (.file contents))

/-- Moves a file to another path, where it replaces any file. -/
def rename (system : FileSystem) (source target : Path) : Except FileError FileSystem := do
  let source <- system.locate source
  let target <- system.locate target
  match system.node? source, system.node? target with
  | none, _ => .error .notFound
  | some .directory, _ => .error .isDirectory
  | some (.file _), some .directory => .error .isDirectory
  | some (.file contents), _ => .ok ((system.erase source).put target (.file contents))

/-- Removes a file. -/
def remove (system : FileSystem) (path : Path) : Except FileError FileSystem := do
  let location <- system.locate path
  match system.node? location with
  | none => .error .notFound
  | some .directory => .error .isDirectory
  | some (.file _) => .ok (system.erase location)

/-- Creates the directories on the way from a location along the pieces of a
path, as far as nothing stands there. -/
def makeDirectories (system : FileSystem) (here : Location) : List String -> FileSystem
  | [] => system
  | piece :: rest =>
      if Path.isIdle piece then system.makeDirectories here rest
      else if piece = ".." then system.makeDirectories here.dropLast rest
      else
        let next := here ++ [piece]
        match system.node? next with
        | none => (system.put next .directory).makeDirectories next rest
        | some _ => system.makeDirectories next rest

/-- A file system with one empty directory, the one that relative paths start
from. -/
def scratch : FileSystem := ⟨[(["scratch"], .directory)], ["scratch"]⟩

/-- Everything below the working directory by its relative path, in the order of
the paths. -/
def listing (system : FileSystem) : List (String × Node) :=
  let below := system.nodes.filterMap fun (location, node) =>
    match location.drop system.workingDirectory.length with
    | [] => none
    | names =>
        if system.workingDirectory.isPrefixOf location then some ("/".intercalate names, node)
        else none
  below.mergeSort fun first second => first.1 <= second.1

end FileSystem

/-- The operations on files that a run needs. -/
structure FileStore (m : Type -> Type) where
  readText : Path -> m (Except FileError String)
  write : Path -> String -> m (Except FileError Unit)
  rename : Path -> Path -> m (Except FileError Unit)
  remove : Path -> m (Except FileError Unit)

namespace FileSystem

/-- Changes a file system by an operation that may fail. -/
def change (operation : FileSystem -> Except FileError FileSystem) :
    StateM FileSystem (Except FileError Unit) := fun system =>
  match operation system with
  | .error error => (.error error, system)
  | .ok next => (.ok (), next)

/-- A file system as a store. -/
def store : FileStore (StateM FileSystem) :=
  { readText := fun path system => (system.readText path, system)
    write := fun path text => change (·.write path text.toUTF8)
    rename := fun source target => change (·.rename source target)
    remove := fun path => change (·.remove path) }

end FileSystem

end XdrPack
