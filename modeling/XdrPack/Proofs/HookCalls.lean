import XdrPack.Proofs.Choice
import XdrPack.Proofs.Refusal

/-!
# Calls to a back end

A compilation calls the hooks of its back end once for each built-in type and then once
for each definition that code is generated for, in the order of the source text and with
all that the definition says. The calls end before the first definition that cannot be
parsed or is refused, and the back end is asked to finish only if there is none.
-/

namespace XdrPack

/-! ## What a call carries -/

/-- The field is a declaration as it was written, but for what is taken over from the
type that it names. -/
structure Declaration.CarriedBy (declaration : Declaration) (field : Field) : Prop where
  name : field.declaration.name = declaration.name
  line : field.declaration.line = declaration.line
  base : field.declaration.type.base = declaration.type.base
  isVoid : field.declaration.type.isVoid = declaration.type.isVoid
  shape : declaration.type.shape.isArray = true ->
    field.declaration.type.shape = declaration.type.shape

/-- The arm has the labels of a group and its body. -/
structure CaseGroup.CarriedBy (group : CaseGroup) (arm : UnionArm) : Prop where
  labels : arm.labels = group.labels
  body : group.body.CarriedBy arm.body

/-- What is emitted for a definition: its name with all that it consists of, in order.
Nothing is emitted for a program. -/
inductive Definition.Announces : Definition -> Option Emission -> Prop where
  | constant {name value line} :
      Announces (.constant name value line) (some (.constant name value))
  | enum {name members line} : Announces (.enum name members line) (some (.enum name members))
  | typedef {declaration target} (carried : declaration.CarriedBy target) :
      Announces (.typedef declaration) (some (.typedef declaration.name target))
  | struct {name fields line members}
      (carried : List.Forall₂ Declaration.CarriedBy fields members) :
      Announces (.struct name fields line) (some (.struct name members))
  | union {name discriminant switch line layout groups fallback}
      (selector : discriminant.CarriedBy layout.discriminant)
      (collapsed : switch.collapse = .ok (groups, fallback))
      (arms : List.Forall₂ CaseGroup.CarriedBy groups layout.arms)
      (default : Option.Rel Declaration.CarriedBy fallback layout.fallback) :
      Announces (.union name discriminant switch line) (some (.union name layout))
  | program {remote} : Announces (.program remote) none

/-- Completing a reference keeps all that was written. -/
theorem Registry.written_of_complete? {registry : Registry} {type result : TypeRef}
    (completed : registry.complete? type = some result) :
    result.base = type.base ∧ result.isVoid = type.isVoid ∧
      (type.shape.isArray = true -> result.shape = type.shape) := by
  cases isVoid : type.isVoid with
  | true =>
      rw [complete?, if_pos isVoid, Option.some.injEq] at completed
      subst completed
      exact ⟨rfl, isVoid, fun _ => rfl⟩
  | false =>
      obtain ⟨entry, -, rfl⟩ := complete?_eq_some isVoid completed
      split
      · next bare =>
          refine ⟨rfl, isVoid, ?_⟩
          intro isArray
          simp [isArray] at bare
      · exact ⟨rfl, isVoid, fun _ => rfl⟩

/-- Completing a declaration keeps all that was written. -/
theorem Declaration.Completes.carriedBy {registry : Registry} {declaration : Declaration}
    {field : Field} (completes : declaration.Completes registry field) :
    declaration.CarriedBy field := by
  obtain ⟨declared, known, -⟩ := completes
  obtain ⟨base, isVoid, shape⟩ := Registry.written_of_complete? known
  exact ⟨by rw [declared], by rw [declared], base, isVoid, shape⟩

/-- Completing a group keeps its labels and all that was written of its body. -/
theorem CaseGroup.Completes.carriedBy {isReserved : String -> Bool} {registry : Registry}
    {group : CaseGroup} {arm : UnionArm} (completes : group.Completes isReserved registry arm) :
    group.CarriedBy arm :=
  ⟨completes.labels, completes.body.carriedBy⟩

/-- What is emitted for an accepted definition is what it says. -/
theorem Verdict.Accepted.announces {isReserved : String -> Bool} {registry : Registry}
    {definition : Definition} {binding : Option (String × TypeRef)} {emission : Option Emission}
    (accepted : Accepted isReserved registry definition binding emission) :
    definition.Announces emission := by
  cases accepted with
  | constant => exact .constant
  | enum => exact .enum
  | typedef _ _ completed => exact .typedef completed.carriedBy
  | struct _ completed => exact .struct (completed.imp fun _ _ member => member.carriedBy)
  | union _ _ completed =>
      refine .union completed.selector.carriedBy (Switch.collapse_of_closed completed.closed)
        (completed.arms.imp fun _ _ group => group.carriedBy) (rel_of_forall₂_toList ?_)
      exact completed.fallback.imp fun _ _ member => member.carriedBy
  | program => exact .program

/-! ## Up to the first failure -/

namespace Compiler

/-- The definitions of a list that come before the first refused one, or all of them if
none is refused. -/
structure AcceptsUpTo (compiler : Compiler) (isReserved : Reservation)
    (definitions accepted : List Definition) : Prop where
  front : accepted <+: definitions
  each : forall place, place < accepted.length ->
    compiler.replyAt isReserved definitions place = some (.ok ())
  next : accepted.length < definitions.length ->
    ∃ error, compiler.replyAt isReserved definitions accepted.length = some (.error error)

variable {compiler : Compiler} {isReserved : Reservation}

/-- Of no definitions, all are accepted. -/
theorem acceptsUpTo_nil : compiler.AcceptsUpTo isReserved [] [] :=
  ⟨List.prefix_rfl, by simp, by simp⟩

/-- Nothing is accepted if the first definition is refused. -/
theorem acceptsUpTo_of_refused {first : Definition} {later : List Definition}
    {error : DefinitionError} (refused : (compiler.define isReserved first).1 = .error error) :
    compiler.AcceptsUpTo isReserved (first :: later) [] := by
  refine ⟨List.nil_prefix, by simp, fun _ => ⟨error, ?_⟩⟩
  rw [List.length_nil, replyAt_cons_zero, refused]

/-- One more definition is accepted before others. -/
theorem AcceptsUpTo.cons {first : Definition} {later accepted : List Definition}
    (isAccepted : (compiler.define isReserved first).1 = .ok ())
    (others : (compiler.define isReserved first).2.AcceptsUpTo isReserved later accepted) :
    compiler.AcceptsUpTo isReserved (first :: later) (first :: accepted) := by
  refine ⟨List.cons_prefix_cons.mpr ⟨rfl, others.front⟩, ?_, ?_⟩
  · intro place before
    cases place with
    | zero => rw [replyAt_cons_zero, isAccepted]
    | succ place => exact others.each place (Nat.lt_of_succ_lt_succ before)
  · intro more
    exact others.next (Nat.lt_of_succ_lt_succ more)

/-- An accepted definition is one more call, unless it is a program. -/
theorem calls_of_accepted {next : Compiler} {definition : Definition}
    (accepted : compiler.define isReserved definition = (.ok (), next)) :
    ∃ emission, definition.Announces emission ∧
      next.calls.toList = compiler.calls.toList ++ emission.toList.map .emit := by
  obtain ⟨passed, rfl⟩ := Prod.mk.inj accepted
  cases result :
    (Verdict.judge (isReserved compiler.emissions) compiler.registry definition).result with
  | error cause => simp [result, Except.map] at passed
  | ok emission =>
      refine ⟨emission, (Verdict.accepted_of_judge result).announces, ?_⟩
      simp only [apply, result]
      cases emission <;> simp

/-- Submitting definitions as they are parsed hands over what the definitions before the
first failure say, and succeeds if these are all. -/
theorem defineAll_announces (compiler : Compiler) (isReserved : Reservation)
    (stream : TokenStream) :
    ∃ accepted announced, compiler.AcceptsUpTo isReserved stream.parsing.definitions accepted ∧
      List.Forall₂ Definition.Announces accepted announced ∧
      (compiler.defineAll isReserved stream).2.1.calls.toList =
        compiler.calls.toList ++ (announced.flatMap Option.toList).map .emit ∧
      ((compiler.defineAll isReserved stream).1 = .ok () ↔
        stream.parsing.outcome = .ok () ∧ accepted = stream.parsing.definitions) := by
  fun_induction defineAll compiler isReserved stream with
  | case1 compiler stream error rest reply =>
      rw [TokenStream.parsing_eq, reply]
      exact ⟨[], [], acceptsUpTo_nil, .nil, by simp, by simp⟩
  | case2 compiler stream rest reply =>
      rw [TokenStream.parsing_eq, reply]
      exact ⟨[], [], acceptsUpTo_nil, .nil, by simp, iff_of_true rfl ⟨rfl, rfl⟩⟩
  | case3 compiler stream definition rest reply error next refused =>
      rw [TokenStream.parsing_eq, reply]
      refine ⟨[], [], acceptsUpTo_of_refused (by rw [refused]), .nil, ?_, ?_⟩
      · simp [(define_eq_error refused).1]
      · simp [Parsing.definitions]
  | case4 compiler stream definition rest reply next isAccepted inductionHypothesis =>
      obtain ⟨emission, own, calls⟩ := calls_of_accepted isAccepted
      obtain ⟨accepted, announced, upTo, announces, later, success⟩ := inductionHypothesis
      rw [TokenStream.parsing_eq, reply]
      have isOk : (compiler.define isReserved definition).1 = .ok () := by rw [isAccepted]
      obtain rfl : (compiler.define isReserved definition).2 = next := by rw [isAccepted]
      refine ⟨definition :: accepted, emission :: announced, upTo.cons isOk,
        .cons own announces, ?_, ?_⟩
      · rw [later, calls, List.flatMap_cons, List.map_append, List.append_assoc]
      · rw [success]
        simp [Parsing.definitions]

end Compiler

/-! ## A whole run -/

/-- What has been emitted by calls that only emit. -/
theorem Compiler.emissions_of_calls {compiler : Compiler} {emitted : List Emission}
    (calls : compiler.calls.toList = emitted.map .emit) : compiler.emissions = emitted := by
  have isEmitted : HookCall.emission? ∘ HookCall.emit = some := rfl
  rw [emissions, calls, List.filterMap_map, isEmitted, List.filterMap_some]

/-- The calls of a run are one for each built-in type, one for each definition before the
first that fails, except for programs, and one to finish if no definition fails. A back
end that is asked to finish makes the result out of exactly what has been emitted, or
fails, and the reply is the same for every back end that is not. -/
theorem Backend.calls_eq (backend : Backend) (source : String) :
    let parsing := (Lexing.ofText source).stream.parsing
    let primitives := Registry.primitives.map fun (name, routine) => Emission.primitive name routine
    ∃ accepted announced ending,
      Compiler.start.AcceptsUpTo backend.isReserved parsing.definitions accepted ∧
      List.Forall₂ Definition.Announces accepted announced ∧
      let emitted := primitives ++ announced.flatMap Option.toList
      backend.calls source = emitted.map .emit ++ ending ∧
      (ending = [.finish] ∧ parsing.outcome = .ok () ∧ accepted = parsing.definitions ∧
          (∃ errors, forall finish, Backend.compile ⟨backend.isReserved, finish⟩ source =
            (finish emitted).map (⟨·, errors⟩)) ∨
        ending = [] ∧ ¬ (parsing.outcome = .ok () ∧ accepted = parsing.definitions) ∧
          ∃ failure, forall finish, Backend.compile ⟨backend.isReserved, finish⟩ source =
            .error failure) := by
  intro parsing primitives
  obtain ⟨accepted, announced, upTo, announces, calls, success⟩ :=
    Compiler.start.defineAll_announces backend.isReserved (Lexing.ofText source).stream
  replace calls : (Compiler.start.defineAll backend.isReserved
      (Lexing.ofText source).stream).2.1.calls.toList =
        (primitives ++ announced.flatMap Option.toList).map .emit := by
    rw [calls, List.map_append]
    rfl
  rcases submitted :
    Compiler.start.defineAll backend.isReserved (Lexing.ofText source).stream with
    ⟨failure | finished, final, rest⟩
  · rw [submitted] at calls success
    refine ⟨accepted, announced, [], upTo, announces, ?_, .inr ⟨rfl, ?_, ?_⟩⟩
    · rw [Backend.calls, List.append_nil, <- calls]
      simp only [Compiler.compile, submitted]
    · rw [<- success]
      simp
    · refine ⟨failure.after ((Lexing.ofText source).errorsSeen rest.unread.length), ?_⟩
      intro finish
      simp only [Backend.compile, Compiler.compile, submitted]
  · rw [submitted] at calls success
    obtain ⟨ended, all⟩ := success.mp rfl
    refine ⟨accepted, announced, [.finish], upTo, announces, ?_, .inl ⟨rfl, ended, all, ?_⟩⟩
    · rw [Backend.calls, Compiler.compile_of_defineAll submitted, <- calls]
      simp [Compiler.finish]
    · refine ⟨(Lexing.ofText source).errorsSeen rest.unread.length, ?_⟩
      intro finish
      have run : (Compiler.start.compile ⟨backend.isReserved, finish⟩ source) = _ :=
        Compiler.compile_of_defineAll submitted
      rw [Backend.compile, run, Compiler.emissions_of_calls calls]

end XdrPack
