import XdrPack.Compiler.Verdict

/-!
# The compiler

The compiler reads one definition after the other, takes in the verdict on it
and stops at the first that cannot be parsed or is refused. The state of the
compiler outlives a refusal, so definitions may also be submitted one by one.
-/

namespace XdrPack

/-- The state of a compilation: the types known, the calls made to the back end,
and the notes made. -/
structure Compiler where
  registry : Registry
  calls : Array HookCall
  notes : Array Progress
  deriving DecidableEq, Repr

/-- A finished compilation: the generated modules, and the lexical errors that
were skipped over. -/
@[ext]
structure Compilation where
  artifacts : Artifacts
  errors : List LexicalError
  deriving DecidableEq, Repr

namespace Compiler

/-- A compiler that knows the built-in types and has emitted them. -/
def start : Compiler :=
  { registry := .builtin
    calls := (Registry.primitives.map fun (name, routine) =>
      .emit (.primitive name routine)).toArray
    notes := #[] }

/-- What has been emitted, in order. -/
def emissions (compiler : Compiler) : List Emission :=
  compiler.calls.toList.filterMap HookCall.emission?

/-- At the start, the built-in types have been emitted. -/
theorem emissions_start :
    start.emissions = Registry.primitives.map fun (name, routine) => .primitive name routine := rfl

/-- Takes in a verdict. -/
def apply : Compiler -> Verdict -> Compiler
  | ⟨registry, calls, notes⟩, verdict =>
      { registry :=
          match verdict.binding with
          | none => registry
          | some (name, type) => registry.insert name type
        calls :=
          match verdict.result with
          | .ok (some emission) => calls.push (.emit emission)
          | _ => calls
        notes :=
          match verdict.note with
          | none => notes
          | some note => notes.push note }

/-- Taking in a verdict adds what it emits. -/
theorem emissions_apply (compiler : Compiler) (verdict : Verdict) :
    (compiler.apply verdict).emissions =
      match verdict.result with
      | .ok (some emission) => compiler.emissions ++ [emission]
      | _ => compiler.emissions := by
  simp only [apply, emissions]
  rcases verdict.result with failure | _ | emission <;> simp [HookCall.emission?]

/-- Submits a definition. -/
def define (compiler : Compiler) (isReserved : Reservation) (definition : Definition) :
    Except DefinitionError Unit × Compiler :=
  let verdict := Verdict.judge (isReserved compiler.emissions) compiler.registry definition
  (verdict.result.map fun _ => (), compiler.apply verdict)

/-- Submits the definitions of a stream up to its end or the first failure, and
says what is left of the stream then. -/
def defineAll (compiler : Compiler) (isReserved : Reservation) (stream : TokenStream) :
    Except Failure Unit × Compiler × TokenStream :=
  match _ : Parser.definition?.run stream with
  | .rejected error rest => (.error (.syntactic error), compiler, rest)
  | .accepted none rest => (.ok (), compiler, rest)
  | .accepted (some definition) rest =>
      match compiler.define isReserved definition with
      | (.error error, next) => (.error (.refused error), next, rest)
      | (.ok (), next) => next.defineAll isReserved rest
termination_by stream.unread.length
decreasing_by exact Parser.length_definition? (by assumption)

/-- Asks the back end to finish. -/
def finish (compiler : Compiler) (backend : Backend) : Except Failure Artifacts × Compiler :=
  (backend.finish compiler.emissions, { compiler with calls := compiler.calls.push .finish })

/-- Finishing emits nothing. -/
@[simp]
theorem emissions_finish (compiler : Compiler) (backend : Backend) :
    (compiler.finish backend).2.emissions = compiler.emissions := by
  simp [finish, emissions, HookCall.emission?]

/-- Compiles a source text on top of what has been submitted before. There is a
result only if every definition is accepted and the back end can finish. -/
def compile (compiler : Compiler) (backend : Backend) (source : String) :
    Except Failure Compilation × Compiler :=
  let lexing := Lexing.ofText source
  let (outcome, final, rest) := compiler.defineAll backend.isReserved lexing.stream
  let errors := lexing.errorsSeen rest.unread.length
  match outcome with
  | .error failure => (.error (failure.after errors), final)
  | .ok () =>
      let (finished, last) := final.finish backend
      (finished.map (⟨·, errors⟩), last)

end Compiler

namespace Backend

/-- Compiles a source text. -/
def compile (backend : Backend) (source : String) : Except Failure Compilation :=
  (Compiler.start.compile backend source).1

/-- The calls that compiling a source text makes. -/
def calls (backend : Backend) (source : String) : List HookCall :=
  (Compiler.start.compile backend source).2.calls.toList

end Backend

end XdrPack
