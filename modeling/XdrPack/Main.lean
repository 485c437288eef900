import XdrPack.CommandLine

/-!
# The program

The files of the machine as a file store, and the program that runs on them.
-/

namespace XdrPack

/-- An error of the operating system as a file error. -/
def FileError.ofSystem (error : IO.Error) : FileError :=
  match error with
  | .noFileOrDirectory _ _ _ => .notFound
  | .inappropriateType _ 20 _ => .notDirectory
  | .inappropriateType _ 21 _ => .isDirectory
  | .invalidArgument _ 36 _ => .nameTooLong
  | _ => .other error.toString

/-- Performs an operation and turns its error into a value. -/
def attempt {α : Type} (operation : IO α) : IO (Except FileError α) := do
  try
    let value <- operation
    pure (.ok value)
  catch error =>
    pure (.error (.ofSystem error))

/-- The files of the machine. -/
def machineStore : FileStore IO :=
  { readText := fun path => do
      match <- attempt (IO.FS.withFile path.text .read (·.readBinToEnd)) with
      | .error error => pure (.error error)
      | .ok bytes =>
          match String.fromUTF8? bytes with
          | none => pure (.error .notText)
          | some text => pure (.ok text)
    write := fun path text => attempt (IO.FS.writeFile path.text text)
    rename := fun source target => attempt (IO.FS.rename source.text target.text)
    remove := fun path => attempt (IO.FS.removeFile path.text) }

end XdrPack

/-- Runs the program. -/
def main (arguments : List String) : IO UInt32 := do
  let exit <- XdrPack.Command.runArguments XdrPack.machineStore arguments
  IO.print exit.output
  IO.eprint exit.errors
  pure exit.code.toUInt32
