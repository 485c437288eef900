import Mathlib.Data.List.Induction
import XdrPack.Proofs.TypeNames
import XdrPack.Proofs.WrittenForm

/-!
# Sessions

In a session definitions are submitted one after the other, and a refusal does not
end it. One submission either adds what an accepted definition makes known and
emits, or it is refused and emits nothing. A refused structure or union may still
leave its name behind, as a record that is known under it.
-/

namespace XdrPack

/-! ## What the parser gives -/

/-- A definition that the parser gives for some tokens. -/
def Definition.Parsed (definition : Definition) : Prop :=
  ∃ stream rest, Parser.definition?.run stream = .accepted (some definition) rest

/-- A type that the parser gives for some tokens: that of a declaration, or that of a
result or an argument of a procedure. -/
def TypeRef.Parsed (type : TypeRef) : Prop :=
  (∃ stream declaration rest,
      Parser.declaration.run stream = .accepted declaration rest ∧ declaration.type = type) ∨
    ∃ stream rest, Parser.callType.run stream = .accepted type rest

/-- A parsed definition is as it was written. -/
theorem Definition.Parsed.written {definition : Definition} (parsed : definition.Parsed) :
    definition.Written := by
  obtain ⟨stream, rest, reply⟩ := parsed
  obtain ⟨tokens, -, ⟨tree, derived, isTree⟩, -⟩ :=
    Parser.definition_reads.accepts (TokenStream.accepted_some_iff.mp reply)
  obtain rfl : definition.unlined = tree := by simpa using isTree
  exact definition.written_of_unlined (written_of_definitionPhrase derived)

/-- A parsed type has not taken over anything. -/
theorem TypeRef.Parsed.not_inherited {type : TypeRef} (parsed : type.Parsed) :
    type.inherited = false := by
  rcases parsed with ⟨stream, declaration, rest, reply, rfl⟩ | ⟨stream, rest, reply⟩
  · obtain ⟨tokens, -, derived, -⟩ := Parser.declaration_reads.accepts reply
    have written : declaration.unlined.Written := written_of_declarationPhrase derived
    exact written
  · obtain ⟨tokens, -, derived, -⟩ := Parser.callType_reads.accepts reply
    generalize tokens.map (·.kind) = phrase at derived
    cases derived with
    | void => rfl
    | named => rfl

/-! ## One submission -/

/-- A structure or union is entered under its name before its fields are looked at, so
that they may refer to it: as soon as the name is found to be new, and the
discriminant of a union not to be void. -/
inductive Definition.Entered (isReserved : String -> Bool) (registry : Registry) :
    Definition -> String -> Prop where
  | struct {name fields line} (new : NewName isReserved registry name) :
      Entered isReserved registry (.struct name fields line) name
  | union {name discriminant switch line} (new : NewName isReserved registry name)
      (declares : discriminant.isVoid = false) :
      Entered isReserved registry (.union name discriminant switch line) name

/-- What is entered has a name of its own, and the name is new. -/
theorem Definition.Entered.newName {isReserved : String -> Bool} {registry : Registry}
    {definition : Definition} {name : String}
    (entered : definition.Entered isReserved registry name) :
    definition.typeName = some name ∧ NewName isReserved registry name := by
  cases entered with
  | struct new => exact ⟨rfl, new⟩
  | union new declares => exact ⟨rfl, new⟩

/-- What a refused definition makes known: nothing, or the record that it has been
entered as. -/
theorem Verdict.binding_of_error {isReserved : String -> Bool} {registry : Registry}
    {definition : Definition} {error : DefinitionError}
    (failure : (judge isReserved registry definition).result = .error error) :
    (judge isReserved registry definition).binding = none ∨
      ∃ name, definition.Entered isReserved registry name ∧
        (judge isReserved registry definition).binding = some (name, .record name) := by
  cases definition with
  | constant name value line => exact .inl rfl
  | enum name members line =>
      simp only [judge, onEnum] at failure ⊢
      split at failure
      · exact .inl rfl
      · cases failure
  | typedef declaration =>
      simp only [judge, onTypedef] at failure ⊢
      split at failure
      · next isVoid =>
          rw [if_pos isVoid]
          exact .inl rfl
      · next declares =>
          rw [if_neg declares]
          split at failure
          · exact .inl rfl
          · split at failure
            · exact .inl rfl
            · cases failure
  | struct name fields line =>
      simp only [judge, onStruct]
      split
      · exact .inl rfl
      · next new => exact .inr ⟨name, .struct (checkTypeName_eq_ok.mp new), rfl⟩
  | union name discriminant switch line =>
      simp only [judge, onUnion]
      split
      · exact .inl rfl
      · next new =>
          split
          · exact .inl rfl
          · next declares =>
              exact .inr ⟨name, .union (checkTypeName_eq_ok.mp new) (by simpa using declares), rfl⟩
  | program remote => cases failure

/-- What a submission can do. -/
inductive Compiler.Submits (isReserved : String -> Bool) (compiler : Compiler)
    (definition : Definition) (next : Compiler) : Except DefinitionError Unit -> Prop where
  | accepted {binding emission}
      (accepted : Verdict.Accepted isReserved compiler.registry definition binding emission)
      (registry : next.registry = compiler.registry.extend binding)
      (emissions : next.emissions = compiler.emissions ++ emission.toList) :
      Submits isReserved compiler definition next (.ok ())
  | refused {error} (registry : next.registry = compiler.registry)
      (emissions : next.emissions = compiler.emissions) :
      Submits isReserved compiler definition next (.error error)
  | refusedRecord {error name} (named : definition.typeName = some name)
      (new : NewName isReserved compiler.registry name)
      (registry : next.registry = compiler.registry.insert name (.record name))
      (emissions : next.emissions = compiler.emissions) :
      Submits isReserved compiler definition next (.error error)

/-- Submitting a definition does one of these things. -/
theorem Compiler.define_submits (isReserved : Reservation) (compiler : Compiler)
    (definition : Definition) :
    Submits (isReserved compiler.emissions) compiler definition
      (compiler.define isReserved definition).2 (compiler.define isReserved definition).1 := by
  generalize reply : compiler.define isReserved definition = result
  obtain ⟨outcome, next⟩ := result
  cases outcome with
  | ok done =>
      obtain ⟨binding, emission, accepted, registry, emissions⟩ := define_eq_ok reply
      exact .accepted accepted registry emissions
  | error error =>
      obtain ⟨refused, rfl⟩ := Prod.mk.inj reply
      cases result :
        (Verdict.judge (isReserved compiler.emissions) compiler.registry definition).result with
      | ok emission => simp [result, Except.map] at refused
      | error cause =>
          rcases Verdict.binding_of_error result with nothing | ⟨name, entered, record⟩
          · exact .refused (by simp [apply, nothing]) (by simp [emissions_apply, result])
          · obtain ⟨named, new⟩ := entered.newName
            exact .refusedRecord named new (by simp [apply, record])
              (by simp [emissions_apply, result])

/-! ## Any number of submissions -/

/-- The state of a compiler and the definitions that it has accepted so far. -/
structure Session where
  compiler : Compiler
  accepted : List Definition

namespace Session

variable (isReserved : Reservation)

/-- A session in which nothing has been submitted yet. -/
def start : Session := ⟨.start, []⟩

/-- Submits a definition. -/
def submit (session : Session) (definition : Definition) : Session :=
  match session.compiler.define isReserved definition with
  | (.ok (), next) => ⟨next, session.accepted ++ [definition]⟩
  | (.error _, next) => ⟨next, session.accepted⟩

/-- Submits definitions one after the other. -/
def run (definitions : List Definition) : Session := definitions.foldl (submit isReserved) start

/-- What holds at the start and is kept by every submission holds after all of them. -/
theorem run_invariant {Holds : Session -> Prop} {Submitted : Definition -> Prop}
    (atStart : Holds start)
    (kept : forall session definition, Submitted definition -> Holds session ->
      Holds (session.submit isReserved definition))
    (definitions : List Definition)
    (submitted : forall definition, definition ∈ definitions -> Submitted definition) :
    Holds (run isReserved definitions) := by
  induction definitions using List.reverseRecOn with
  | nil => exact atStart
  | append_singleton earlier last inductionHypothesis =>
      obtain ⟨earlierSubmitted, lastSubmitted⟩ := List.forall_mem_append.mp submitted
      rw [run, List.foldl_concat]
      exact kept _ last (lastSubmitted last (by simp)) (inductionHypothesis earlierSubmitted)

/-- What one submission does to a session. -/
theorem submit_cases (session : Session) (definition : Definition) :
    (session.submit isReserved definition).accepted = session.accepted ++ [definition] ∧
        session.compiler.Submits (isReserved session.compiler.emissions) definition
          (session.submit isReserved definition).compiler (.ok ()) ∨
      (session.submit isReserved definition).accepted = session.accepted ∧
        ∃ error, session.compiler.Submits (isReserved session.compiler.emissions) definition
          (session.submit isReserved definition).compiler (.error error) := by
  have submits := session.compiler.define_submits isReserved definition
  unfold submit
  generalize session.compiler.define isReserved definition = result at submits ⊢
  obtain ⟨outcome, next⟩ := result
  cases outcome with
  | ok done => exact .inl ⟨rfl, submits⟩
  | error error => exact .inr ⟨rfl, error, submits⟩

end Session

end XdrPack
