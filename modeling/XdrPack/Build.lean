import XdrPack.Compiler
import XdrPack.FileSystem
import XdrPack.OutputNames
import XdrPack.Python.Module

/-!
# Building the modules of an interface file

A build reads an interface file, compiles it and writes the generated modules.
Nothing is written unless the whole file compiles. Each module is first written
to a temporary file beside its place, and they are moved to their places only
once all of them have been written. When that fails, the temporary files are
removed.
-/

namespace XdrPack

/-- What to build. -/
structure BuildRequest where
  input : Path
  /-- Where the modules go. Without it they go beside the interface file. -/
  directory : Option Path
  /-- How the names of the generated classes start. Without it they start with
  the upper case of the module names. -/
  classPrefix : Option String
  deriving DecidableEq, Repr

/-- The outcome of a successful build: where the modules are, and the lexical
errors that were skipped over. -/
structure Built where
  outputs : OutputNames
  errors : List LexicalError
  deriving DecidableEq, Repr

/-- What a build reports: the notes made on the way, and the outcome. -/
structure BuildReport where
  notes : List Progress
  outcome : Except Failure Built

namespace BuildRequest

/-- The directory that the modules go to. -/
def outputDirectory (request : BuildRequest) : Path :=
  match request.directory with
  | some directory => directory
  | none => request.input.parent?.getD ⟨""⟩

/-- The names in the generated modules. -/
def naming (request : BuildRequest) : Naming :=
  let standard := Naming.ofStem request.input.moduleStem
  { standard with
    sourceName := request.input.fileName?.getD ""
    classPrefix := request.classPrefix.getD standard.classPrefix }

/-- The paths of the modules. -/
def outputs (request : BuildRequest) : OutputNames :=
  .derive request.input request.outputDirectory Python.extension

end BuildRequest

/-- A text on its way to its place. -/
structure Staged where
  target : Path
  text : String
  deriving DecidableEq, Repr

/-- Where the text is kept on its way. -/
def Staged.temporary (staged : Staged) : Path := staged.target.temporary

/-- The texts of a compilation with their places. -/
def OutputNames.staged (outputs : OutputNames) (artifacts : Artifacts) :
    List Staged := [
  ⟨outputs.constants, artifacts.constants⟩,
  ⟨outputs.types, artifacts.types⟩,
  ⟨outputs.packer, artifacts.packer⟩]

namespace FileStore

variable {m : Type -> Type} [Monad m] (store : FileStore m)

/-- Writes texts to their temporary files, up to the first failure. -/
def stage : List Staged -> m (Except Failure Unit)
  | [] => pure (.ok ())
  | staged :: rest => do
      match <- store.write staged.temporary staged.text with
      | .error error => pure (.error (.file staged.temporary error))
      | .ok () => stage rest

/-- Moves texts from their temporary files to their places, up to the first
failure, with a note before each. -/
def publish (notes : List Progress) : List Staged -> m (List Progress × Except Failure Unit)
  | [] => pure (notes, .ok ())
  | staged :: rest => do
      let notes := notes ++ [.writing staged.target]
      match <- store.rename staged.temporary staged.target with
      | .error error => pure (notes, .error (.file staged.target error))
      | .ok () => publish notes rest

/-- Removes temporary files, as far as they are there. -/
def discard : List Staged -> m Unit
  | [] => pure ()
  | staged :: rest => do
      let _ <- store.remove staged.temporary
      discard rest

/-- Puts texts in their places. -/
def writeAll (files : List Staged) : m (List Progress × Except Failure Unit) := do
  match <- store.stage files with
  | .error failure => do
      store.discard files
      pure ([], .error failure)
  | .ok () =>
      match <- store.publish [] files with
      | (notes, .error failure) => do
          store.discard files
          pure (notes, .error failure)
      | (notes, .ok ()) => pure (notes, .ok ())

/-- Builds the modules of an interface file. -/
def build (request : BuildRequest) : m BuildReport := do
  match <- store.readText request.input with
  | .error error => pure ⟨[], .error (.file request.input error)⟩
  | .ok source =>
      match Compiler.start.compile (Python.backend request.naming) source with
      | (.error failure, compiler) => pure ⟨compiler.notes.toList, .error failure⟩
      | (.ok compilation, compiler) => do
          match <- store.writeAll (request.outputs.staged compilation.artifacts) with
          | (notes, .error failure) => pure ⟨compiler.notes.toList ++ notes, .error failure⟩
          | (notes, .ok ()) =>
              pure ⟨compiler.notes.toList ++ notes, .ok ⟨request.outputs, compilation.errors⟩⟩

end FileStore

end XdrPack
