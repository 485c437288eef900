import XdrPack.Proofs.Session
import XdrPack.Proofs.TwoPhases

/-!
# Refused definitions

Nothing is emitted for a refused definition. It leaves the known types as they were as
well, and then whatever is submitted later is answered as if it had never been there,
unless it is a structure or union that has been entered under its name already: that
name remains, bound to a record for which no class is generated.
-/

namespace XdrPack

/-- What is entered becomes known as a record, whatever comes of its fields. -/
theorem Verdict.binding_of_entered {isReserved : String -> Bool} {registry : Registry}
    {definition : Definition} {name : String}
    (entered : definition.Entered isReserved registry name) :
    (judge isReserved registry definition).binding = some (name, .record name) := by
  cases entered with
  | struct new => simp [judge, onStruct, checkTypeName_eq_ok.mpr new]
  | union new declares => simp [judge, onUnion, checkTypeName_eq_ok.mpr new, declares]

namespace Compiler

/-! ## Compilers that answer alike -/

/-- Two compilers know the same types and have made the same calls. Their notes may
differ. -/
structure Alike (left right : Compiler) : Prop where
  registry : left.registry = right.registry
  calls : left.calls = right.calls

variable {left right compiler next : Compiler} {isReserved : Reservation}
  {definition : Definition} {error : DefinitionError}

/-- Compilers that are alike give the same reply and remain alike. -/
theorem Alike.define (alike : left.Alike right) (isReserved : Reservation)
    (definition : Definition) :
    (left.define isReserved definition).1 = (right.define isReserved definition).1 ∧
      (left.define isReserved definition).2.Alike (right.define isReserved definition).2 := by
  obtain ⟨registry, calls⟩ := alike
  have emissions : left.emissions = right.emissions := by simp only [Compiler.emissions, calls]
  refine ⟨?_, ?_, ?_⟩
  · simp only [Compiler.define, registry, emissions]
  · simp only [Compiler.define, apply, registry, emissions]
  · simp only [Compiler.define, apply, registry, emissions, calls]

/-- Compilers that are alike remain so through any number of definitions. -/
theorem Alike.submit (alike : left.Alike right) (isReserved : Reservation)
    (definitions : List Definition) :
    (left.submit isReserved definitions).Alike (right.submit isReserved definitions) := by
  induction definitions generalizing left right with
  | nil => exact alike
  | cons first later inductionHypothesis =>
      exact inductionHypothesis (alike.define isReserved first).2

/-- Compilers that are alike reply to every definition of a list alike. -/
theorem Alike.replyAt (alike : left.Alike right) (isReserved : Reservation)
    (definitions : List Definition) (place : Nat) :
    left.replyAt isReserved definitions place = right.replyAt isReserved definitions place := by
  have before := alike.submit isReserved (definitions.take place)
  simp only [Compiler.replyAt]
  cases definitions[place]? with
  | none => rfl
  | some definition => exact congrArg some (before.define isReserved definition).1

/-! ## What a refusal leaves behind -/

/-- A refused definition makes no call, and makes nothing known unless it has been
entered under its name. -/
theorem define_eq_error (refused : compiler.define isReserved definition = (.error error, next)) :
    next.calls = compiler.calls ∧
      ((forall name,
            ¬ definition.Entered (isReserved compiler.emissions) compiler.registry name) ∧
          next.registry = compiler.registry ∨
        ∃ name, definition.Entered (isReserved compiler.emissions) compiler.registry name ∧
          next.registry = compiler.registry.insert name (.record name)) := by
  obtain ⟨failed, rfl⟩ := Prod.mk.inj refused
  cases result :
    (Verdict.judge (isReserved compiler.emissions) compiler.registry definition).result with
  | ok emission => simp [result, Except.map] at failed
  | error cause =>
      refine ⟨by simp [apply, result], ?_⟩
      rcases Verdict.binding_of_error result with nothing | ⟨name, entered, record⟩
      · refine .inl ⟨?_, by simp [apply, nothing]⟩
        intro name entered
        rw [Verdict.binding_of_entered entered] at nothing
        cases nothing
      · exact .inr ⟨name, entered, by simp [apply, record]⟩

/-- For every refused definition: no call is made; the known types are what they were
exactly if it has not been entered under its name, and then everything submitted later is
answered and handed to the back end as if it had never been submitted; and if it has been
entered, the one change is that its name is bound to a record. -/
theorem define_error_unchanged_iff
    (refused : compiler.define isReserved definition = (.error error, next)) :
    let Entered := definition.Entered (isReserved compiler.emissions) compiler.registry
    next.calls = compiler.calls ∧
    ((forall name, next.registry.lookup name = compiler.registry.lookup name) ↔
      forall name, ¬ Entered name) ∧
    ((forall name, ¬ Entered name) ->
      forall later,
        (forall place, next.replyAt isReserved later place =
          compiler.replyAt isReserved later place) ∧
        (next.submit isReserved later).calls = (compiler.submit isReserved later).calls ∧
        (next.submit isReserved later).registry = (compiler.submit isReserved later).registry) ∧
    forall name, Entered name ->
      forall other, next.registry.lookup other =
        if other = name then some (.record name) else compiler.registry.lookup other := by
  intro Entered
  obtain ⟨calls, ⟨notEntered, registry⟩ | ⟨name, entered, registry⟩⟩ := define_eq_error refused
  · have alike : next.Alike compiler := ⟨registry, calls⟩
    refine ⟨calls, iff_of_true (fun name => by rw [registry]) notEntered, ?_, ?_⟩
    · intro _ later
      have after := alike.submit isReserved later
      exact ⟨alike.replyAt isReserved later, after.calls, after.registry⟩
    · intro name entered
      exact absurd entered (notEntered name)
  · -- The name was free before and is bound now.
    have changed : next.registry.lookup name ≠ compiler.registry.lookup name := by
      simp [registry, entered.newName.2.fresh]
    refine ⟨calls,
      iff_of_false (fun same => changed (same name)) (fun none => none name entered),
      fun none => absurd entered (none name), ?_⟩
    intro other enteredToo
    obtain rfl : name = other :=
      Option.some.inj (entered.newName.1.symm.trans enteredToo.newName.1)
    simp [registry]

/-- A union with a label that nothing follows is refused after it has been entered. -/
theorem define_error_dangling :
    let definition := Definition.union "Reply" ⟨"status", .named "int", 1⟩
      ⟨⟨.value (.number "0"), some ⟨"code", .named "int", 2⟩, 2⟩,
        [⟨.value (.number "1"), none, 3⟩], none⟩ 1
    let reply := start.define (.fixed fun _ => false) definition
    reply.1 = .error (.danglingCase "1" 3) ∧ reply.2.calls = start.calls ∧
      reply.2.registry.lookup "Reply" = some (.record "Reply") := by
  intro definition reply
  have refused : start.define (.fixed fun _ => false) definition =
      (.error (.danglingCase "1" 3), reply.2) := by decide
  have entered : definition.Entered (fun _ => false) start.registry "Reply" :=
    .union ⟨rfl, by decide⟩ rfl
  obtain ⟨calls, -, -, bound⟩ := define_error_unchanged_iff refused
  exact ⟨by decide, calls, bound "Reply" entered "Reply"⟩

/-- A structure with a field of an unknown type is refused and stays known all the same:
another structure may then hold it, though it could not before and no class is emitted
for what it holds. -/
theorem define_leaves_refused_name :
    let isReserved := Reservation.fixed fun _ => false
    let holder := Definition.struct "Holder" [⟨"point", .named "Point", 2⟩] 2
    let reply := start.define isReserved (.struct "Point" [⟨"x", .named "Missing", 1⟩] 1)
    reply.1 = .error (.undeclaredType "Missing" 1) ∧
      start.registry.lookup "Point" = none ∧
      reply.2.registry.lookup "Point" = some (.record "Point") ∧
      (start.define isReserved holder).1 = .error (.undeclaredType "Point" 2) ∧
      (reply.2.define isReserved holder).1 = .ok () ∧
      forall emission, emission ∈ (reply.2.define isReserved holder).2.emissions ->
        emission.typeName ≠ some "Point" := by
  decide

end Compiler

end XdrPack
