import XdrPack.Python.Statement

/-!
# Coding routines

A type other than a record is coded by a pair of routines with its name, one in
the packer class and one in the unpacker class. A pair is taken from the
runtime, forwards to another pair, or is written out.
-/

namespace XdrPack.Python

/-- What a pair of routines does. -/
inductive RoutineBody where
  /-- What the runtime does under another name. -/
  | runtime (routine : String)
  /-- What another pair does. -/
  | forward (target : String)
  /-- The coding of a defined type. -/
  | coding (coding : Coding)
  deriving DecidableEq, Repr

/-- A pair of routines. -/
structure Routine where
  name : String
  body : RoutineBody
  deriving DecidableEq, Repr

namespace Routine

/-- The pair of routines of a defined type. -/
def ofCoding (name : String) : Coding -> Routine
  | .routine target => ⟨name, .forward target⟩
  | coding => ⟨name, .coding coding⟩

/-- The statements that decode a value and return it. -/
def returnStatements (coding : Coding) : List String :=
  match decodeExpression? .routines coding with
  | some expression => ["return " ++ expression]
  | none => decodeStatements .routines .data coding ++ ["return data"]

/-- The code of the encoding routine. -/
def packCode (routine : Routine) : Code :=
  match routine.body with
  | .runtime source => .line ("pack_" ++ routine.name ++ " = rpc.Packer.pack_" ++ source) .done
  | .forward target => .line ("pack_" ++ routine.name ++ " = pack_" ++ target) .done
  | .coding coding =>
      .block ("def pack_" ++ routine.name ++ "(self, data):")
        (.line ((encodeStatement? .routines .data coding).getD "pass") .done)
        (.blank .done)

/-- The code of the decoding routine. -/
def unpackCode (routine : Routine) : Code :=
  match routine.body with
  | .runtime source =>
      .line ("unpack_" ++ routine.name ++ " = rpc.Unpacker.unpack_" ++ source) .done
  | .forward target => .line ("unpack_" ++ routine.name ++ " = unpack_" ++ target) .done
  | .coding coding =>
      .block ("def unpack_" ++ routine.name ++ "(self):")
        (.lines (returnStatements coding))
        (.blank .done)

end Routine

end XdrPack.Python
