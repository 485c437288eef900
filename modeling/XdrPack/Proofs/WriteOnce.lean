import XdrPack.Proofs.Session
import XdrPack.Proofs.TwoPhases

/-!
# Types are bound once

Binding a name hides any type that it had, and it is the verdicts that keep this from ever
happening: a name is bound only where it is found to be new, by definitions that are accepted
and by those that are refused. So in a session no type changes or goes away, and a definition
of a type that is known is always refused.
-/

namespace XdrPack

/-! ## Known names -/

/-- The name of the type that a definition asks for and the line where it does. A type
definition without a type asks for none. -/
def Definition.newType? : Definition -> Option (String × Int)
  | .enum name _ line => some (name, line)
  | .typedef declaration =>
      if declaration.isVoid then none else some (declaration.name, declaration.line)
  | .struct name _ line => some (name, line)
  | .union name _ _ line => some (name, line)
  | .constant _ _ _ | .program _ => none

/-- Every built-in type is known at the start by its routine. -/
theorem Registry.lookup_builtin :
    forall each, each ∈ primitives ->
      builtin.lookup each.1 = some (.primitive each.1 each.2) := by
  decide +kernel

section

variable {isReserved : String -> Bool} {registry : Registry} {name : String} {line : Int}

/-- A name that is known is refused as the name of another type. -/
theorem checkTypeName_of_known (allowed : isReserved name = false)
    (known : registry.lookup name ≠ none) :
    checkTypeName isReserved registry name line = .error (.redefinition name line) := by
  have taken : registry.contains name = true := Option.isSome_iff_ne_none.mpr known
  simp [checkTypeName, checkName, allowed, taken, bind, Except.bind]

/-- A known name is the first thing that is held against a definition. -/
theorem Verdict.result_of_known {definition : Definition}
    (asked : definition.newType? = some (name, line)) (allowed : isReserved name = false)
    (known : registry.lookup name ≠ none) :
    (judge isReserved registry definition).result = .error (.redefinition name line) := by
  have refused : checkTypeName isReserved registry name line = .error (.redefinition name line) :=
    checkTypeName_of_known allowed known
  cases definition with
  | constant | program => cases asked
  | enum own members ownLine =>
      cases asked
      simp [judge, onEnum, refused, plain, bind, Except.bind]
  | typedef declaration =>
      simp only [Definition.newType?] at asked
      split at asked
      · cases asked
      · next declares =>
          cases asked
          simp [judge, onTypedef, declares, refused, plain]
  | struct own fields ownLine =>
      cases asked
      simp [judge, onStruct, refused, plain]
  | union own discriminant switch ownLine =>
      cases asked
      simp [judge, onUnion, refused, plain]

end

/-! ## Sessions -/

namespace Compiler

namespace Submits

variable {isReserved : String -> Bool} {compiler next : Compiler} {definition : Definition}
  {outcome : Except DefinitionError Unit} {name : String} {type : TypeRef}

/-- A submission leaves every name alone but that of its own type. -/
theorem lookup_ne (submits : Submits isReserved compiler definition next outcome)
    (other : definition.typeName ≠ some name) :
    next.registry.lookup name = compiler.registry.lookup name := by
  cases submits with
  | accepted accepted registry =>
      rw [registry]
      exact accepted.lookup_other other
  | refused registry => rw [registry]
  | refusedRecord named new registry =>
      rw [registry, Registry.lookup_insert, if_neg]
      rintro rfl
      exact other named

/-- The step: a submission leaves every known name alone. -/
theorem lookup_known (submits : Submits isReserved compiler definition next outcome)
    (found : compiler.registry.lookup name = some type) :
    next.registry.lookup name = some type := by
  cases submits with
  | accepted accepted registry =>
      rw [registry]
      exact accepted.lookup_extend found
  | refused registry => rwa [registry]
  | refusedRecord named new registry =>
      rw [registry, Registry.lookup_insert, if_neg, found]
      rintro rfl
      cases found.symm.trans new.fresh

/-- A definition that is accepted makes its own type known, which was not known before. -/
theorem lookup_own (submits : Submits isReserved compiler definition next (.ok ()))
    (named : definition.typeName = some name) :
    compiler.registry.lookup name = none ∧ ∃ type, next.registry.lookup name = some type := by
  cases submits with
  | accepted accepted registry =>
      rw [registry]
      exact ⟨accepted.fresh_name named, Option.ne_none_iff_exists'.mp (accepted.known_name named)⟩

end Submits

/-- The run: any number of submissions leave every known name alone. -/
theorem lookup_submit {isReserved : Reservation} {compiler : Compiler} {name : String}
    {type : TypeRef} (found : compiler.registry.lookup name = some type)
    (definitions : List Definition) :
    (compiler.submit isReserved definitions).registry.lookup name = some type := by
  induction definitions generalizing compiler with
  | nil => exact found
  | cons first later inductionHypothesis =>
      exact inductionHypothesis ((compiler.define_submits isReserved first).lookup_known found)

/-- Definitions are submitted one after the other, and some may be refused. A name that is
bound keeps its type, and the built-in types are bound from the start. A further definition
leaves all names but its own alone, and if it is accepted it binds that one, which was not bound
before. If its name is bound and may be used, it is refused for that. -/
theorem bindings_writeOnce (isReserved : Reservation) (earlier later : List Definition)
    (definition : Definition) :
    let before := start.submit isReserved earlier
    let reply := before.define isReserved definition
    (forall name type, before.registry.lookup name = some type ->
      (start.submit isReserved (earlier ++ later)).registry.lookup name = some type) ∧
    (forall name routine, (name, routine) ∈ Registry.primitives ->
      before.registry.lookup name = some (.primitive name routine)) ∧
    (forall name, definition.typeName ≠ some name ->
      reply.2.registry.lookup name = before.registry.lookup name) ∧
    (forall name, definition.typeName = some name -> reply.1 = .ok () ->
      before.registry.lookup name = none ∧ ∃ type, reply.2.registry.lookup name = some type) ∧
    forall name line, definition.newType? = some (name, line) ->
      isReserved before.emissions name = false ->
      before.registry.lookup name ≠ none -> reply.1 = .error (.redefinition name line) := by
  intro before reply
  have submits := before.define_submits isReserved definition
  refine ⟨?_, ?_, ?_, ?_, ?_⟩
  · intro name type found
    rw [submit_append]
    exact lookup_submit found later
  · intro name routine builtin
    exact lookup_submit (Registry.lookup_builtin _ builtin) earlier
  · intro name other
    exact submits.lookup_ne other
  · intro name named success
    rw [success] at submits
    exact submits.lookup_own named
  · intro name line asked allowed known
    have refused := Verdict.result_of_known asked allowed known
    simp [reply, define, refused, Except.map]

end Compiler

end XdrPack
