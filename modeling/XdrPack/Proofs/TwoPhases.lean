import XdrPack.Proofs.Recognition
import XdrPack.Proofs.Scanning
import XdrPack.Proofs.Words

/-!
# Compiling in two phases

A compiler submits each definition as soon as it is parsed. The outcome is the same
as if the whole text were parsed first and the definitions submitted afterwards, one
after the other. If that fails, the first refused definition is to blame, or else the
syntax error, and the lexical errors that come along are those which a scanner has
recorded one token behind the last one that was consumed.
-/

namespace XdrPack

/-! ## The first phase -/

/-- What parsing gives up to the end of the input or the first syntax error: the
definitions, each with what was left behind it, how parsing ended, and what was left
then. -/
structure Parsing where
  parsed : List (Definition × TokenStream)
  outcome : Except SyntaxError Unit
  rest : TokenStream

/-- The definitions without their places. -/
def Parsing.definitions (parsing : Parsing) : List Definition := parsing.parsed.map (·.1)

namespace TokenStream

/-- Parses one definition after the other. -/
def parsing (stream : TokenStream) : Parsing :=
  match _ : Parser.definition?.run stream with
  | .rejected error rest => ⟨[], .error error, rest⟩
  | .accepted none rest => ⟨[], .ok (), rest⟩
  | .accepted (some definition) rest =>
      let later := rest.parsing
      { later with parsed := (definition, rest) :: later.parsed }
termination_by stream.unread.length
decreasing_by exact Parser.length_definition? (by assumption)

/-- Parsing in one equation, one definition at a time. -/
theorem parsing_eq (stream : TokenStream) :
    stream.parsing =
      match Parser.definition?.run stream with
      | .rejected error rest => ⟨[], .error error, rest⟩
      | .accepted none rest => ⟨[], .ok (), rest⟩
      | .accepted (some definition) rest =>
          { rest.parsing with parsed := (definition, rest) :: rest.parsing.parsed } := by
  rw [parsing]
  split
  · next reply => rw [reply]
  · next reply => rw [reply]
  · next reply => rw [reply]

/-- Advancing takes at most one token away. -/
theorem exists_after_advance (stream : TokenStream) :
    ∃ tokens, stream.unread = tokens ++ stream.advance.unread := by
  obtain ⟨unread, finish⟩ := stream
  cases unread with
  | nil => exact ⟨[], rfl⟩
  | cons token rest => exact ⟨[token], rfl⟩

/-- Reading a definition, or failing to, only takes tokens away from the front. -/
theorem exists_consumed (stream : TokenStream) :
    ∃ tokens, stream.unread = tokens ++ (Parser.definition?.run stream).rest.unread := by
  rw [Parser.run_definition?]
  split
  · exact stream.exists_after_advance
  · cases reply : Parser.definition.run stream with
    | accepted definition rest =>
        obtain ⟨tokens, rfl, -, -⟩ := Parser.definition_reads.accepts reply
        exact ⟨tokens, rfl⟩
    | rejected error rest =>
        obtain ⟨tokens, fault, rfl, rfl, -⟩ := Parser.definition_reads.rejects reply
        obtain ⟨last, split⟩ := fault.exists_after_advance
        refine ⟨tokens ++ last, ?_⟩
        rw [List.append_assoc]
        exact congrArg (tokens ++ ·) split

end TokenStream

/-! ## The second phase -/

namespace Compiler

variable (compiler : Compiler) (isReserved : Reservation)

/-- The compiler after some definitions, whether they are accepted or not. -/
def submit (definitions : List Definition) : Compiler :=
  definitions.foldl (fun state definition => (state.define isReserved definition).2) compiler

/-- The reply to the definition at a place, with all those before it submitted. -/
def replyAt (definitions : List Definition) (place : Nat) :
    Option (Except DefinitionError Unit) :=
  definitions[place]?.map fun definition =>
    ((compiler.submit isReserved (definitions.take place)).define isReserved definition).1

/-- Every definition is accepted with those before it submitted. -/
def AcceptsAll (definitions : List Definition) : Prop :=
  forall place reply, compiler.replyAt isReserved definitions place = some reply -> reply = .ok ()

/-- The first definition that is refused is at the place, with the error. -/
structure FirstRefusal (definitions : List Definition) (place : Nat) (error : DefinitionError) :
    Prop where
  refused : compiler.replyAt isReserved definitions place = some (.error error)
  accepted : forall earlier, earlier < place ->
    compiler.replyAt isReserved definitions earlier = some (.ok ())

/-- What makes a compilation fail and what is left of the stream then: the first
definition that is refused, or the syntax error if none is. -/
inductive FirstFault (parsing : Parsing) : Failure -> TokenStream -> Prop where
  | refused {place error definition rest}
      (first : compiler.FirstRefusal isReserved parsing.definitions place error)
      (there : parsing.parsed[place]? = some (definition, rest)) :
      FirstFault parsing (.refused error) rest
  | syntactic {error} (accepted : compiler.AcceptsAll isReserved parsing.definitions)
      (ended : parsing.outcome = .error error) :
      FirstFault parsing (.syntactic error) parsing.rest

variable {compiler isReserved}

/-- Definitions are submitted one list after the other. -/
theorem submit_append (first second : List Definition) :
    compiler.submit isReserved (first ++ second) =
      (compiler.submit isReserved first).submit isReserved second :=
  List.foldl_append

@[simp]
theorem replyAt_nil (place : Nat) : compiler.replyAt isReserved [] place = none := rfl

@[simp]
theorem replyAt_cons_zero (first : Definition) (later : List Definition) :
    compiler.replyAt isReserved (first :: later) 0 =
      some (compiler.define isReserved first).1 := rfl

@[simp]
theorem replyAt_cons_succ (first : Definition) (later : List Definition) (place : Nat) :
    compiler.replyAt isReserved (first :: later) (place + 1) =
      (compiler.define isReserved first).2.replyAt isReserved later place := rfl

/-- Of no definitions, none is refused. -/
theorem acceptsAll_nil : compiler.AcceptsAll isReserved [] := by
  intro place reply found
  cases found

/-- All definitions are accepted if the first one is, and then the others. -/
theorem AcceptsAll.cons {first : Definition} {later : List Definition}
    (accepted : (compiler.define isReserved first).1 = .ok ())
    (others : (compiler.define isReserved first).2.AcceptsAll isReserved later) :
    compiler.AcceptsAll isReserved (first :: later) := by
  intro place reply found
  cases place with
  | zero => rwa [replyAt_cons_zero, Option.some.injEq, accepted, eq_comm] at found
  | succ place => exact others place reply found

/-- A refusal is the first one after a definition that is accepted. -/
theorem FirstRefusal.cons {first : Definition} {later : List Definition} {place : Nat}
    {error : DefinitionError} (accepted : (compiler.define isReserved first).1 = .ok ())
    (refusal : (compiler.define isReserved first).2.FirstRefusal isReserved later place error) :
    compiler.FirstRefusal isReserved (first :: later) (place + 1) error := by
  refine ⟨refusal.refused, ?_⟩
  intro earlier before
  cases earlier with
  | zero => rw [replyAt_cons_zero, accepted]
  | succ earlier => exact refusal.accepted earlier (by omega)

/-- A fault is the first one after a definition that is accepted. -/
theorem FirstFault.cons {parsing : Parsing} {first : Definition} {behind rest : TokenStream}
    {failure : Failure} (accepted : (compiler.define isReserved first).1 = .ok ())
    (fault : (compiler.define isReserved first).2.FirstFault isReserved parsing failure rest) :
    compiler.FirstFault isReserved { parsing with parsed := (first, behind) :: parsing.parsed }
      failure rest := by
  cases fault with
  | refused refusal there => exact .refused (refusal.cons accepted) there
  | syntactic others ended => exact .syntactic (others.cons accepted) ended

/-- Where all definitions are accepted, none is refused. -/
theorem AcceptsAll.not_refused {definitions : List Definition} {place : Nat}
    {error : DefinitionError} (accepted : compiler.AcceptsAll isReserved definitions) :
    ¬ compiler.FirstRefusal isReserved definitions place error := by
  intro refusal
  cases accepted _ _ refusal.refused

/-- Where there is a fault, not all is accepted or parsing failed. -/
theorem FirstFault.not_success {parsing : Parsing} {rest : TokenStream} {failure : Failure}
    (fault : compiler.FirstFault isReserved parsing failure rest)
    (finished : parsing.outcome = .ok ()) :
    ¬ compiler.AcceptsAll isReserved parsing.definitions := by
  intro accepted
  cases fault with
  | refused refusal there => exact accepted.not_refused refusal
  | syntactic _ ended =>
      rw [finished] at ended
      cases ended

/-- Only one refusal is the first. -/
theorem FirstRefusal.unique {definitions : List Definition} {place other : Nat}
    {error cause : DefinitionError}
    (first : compiler.FirstRefusal isReserved definitions place error)
    (second : compiler.FirstRefusal isReserved definitions other cause) :
    place = other ∧ error = cause := by
  have notBefore : forall {here there : Nat} {left right : DefinitionError},
      compiler.FirstRefusal isReserved definitions here left ->
      compiler.FirstRefusal isReserved definitions there right -> ¬ here < there := by
    intro here there left right refusal later before
    have both := refusal.refused.symm.trans (later.accepted here before)
    cases both
  obtain rfl : place = other :=
    Nat.le_antisymm (Nat.not_lt.mp (notBefore second first))
      (Nat.not_lt.mp (notBefore first second))
  have same := first.refused.symm.trans second.refused
  cases same
  exact ⟨rfl, rfl⟩

/-- A compilation has at most one first fault. -/
theorem FirstFault.unique {parsing : Parsing} {rest remaining : TokenStream}
    {failure cause : Failure} (first : compiler.FirstFault isReserved parsing failure rest)
    (second : compiler.FirstFault isReserved parsing cause remaining) :
    failure = cause ∧ rest = remaining := by
  cases first with
  | refused refusal there =>
      cases second with
      | refused other thereToo =>
          obtain ⟨rfl, rfl⟩ := refusal.unique other
          rw [there] at thereToo
          cases thereToo
          exact ⟨rfl, rfl⟩
      | syntactic accepted _ => exact absurd refusal accepted.not_refused
  | syntactic accepted ended =>
      cases second with
      | refused other _ => exact absurd other accepted.not_refused
      | syntactic _ endedToo =>
          rw [ended] at endedToo
          cases endedToo
          exact ⟨rfl, rfl⟩

/-! ## The two phases together -/

/-- What submitting definitions as they are parsed gives. -/
def Staged (compiler : Compiler) (isReserved : Reservation) (parsing : Parsing) :
    Except Failure Unit × Compiler × TokenStream -> Prop
  | (.ok (), final, rest) =>
      parsing.outcome = .ok () ∧ compiler.AcceptsAll isReserved parsing.definitions ∧
        final = compiler.submit isReserved parsing.definitions ∧ rest = parsing.rest
  | (.error failure, _, rest) => compiler.FirstFault isReserved parsing failure rest

/-- Submitting definitions as they are parsed comes to the same as parsing all of them
first. -/
theorem defineAll_staged (compiler : Compiler) (isReserved : Reservation)
    (stream : TokenStream) :
    compiler.Staged isReserved stream.parsing (compiler.defineAll isReserved stream) := by
  fun_induction defineAll compiler isReserved stream with
  | case1 compiler stream error rest reply =>
      rw [TokenStream.parsing_eq, reply]
      exact .syntactic acceptsAll_nil rfl
  | case2 compiler stream rest reply =>
      rw [TokenStream.parsing_eq, reply]
      exact ⟨rfl, acceptsAll_nil, rfl, rfl⟩
  | case3 compiler stream definition rest reply error next refused =>
      rw [TokenStream.parsing_eq, reply]
      have first : compiler.FirstRefusal isReserved
          (definition :: rest.parsing.definitions) 0 error := by
        refine ⟨by rw [replyAt_cons_zero, refused], ?_⟩
        intro earlier before
        exact absurd before (Nat.not_lt_zero earlier)
      exact .refused first rfl
  | case4 compiler stream definition rest reply next accepted inductionHypothesis =>
      have accepts : (compiler.define isReserved definition).1 = .ok () := by rw [accepted]
      obtain rfl : (compiler.define isReserved definition).2 = next := by rw [accepted]
      rw [TokenStream.parsing_eq, reply]
      generalize (compiler.define isReserved definition).2.defineAll isReserved rest = outcome
        at inductionHypothesis ⊢
      obtain ⟨outcome | finished, final, remaining⟩ := outcome
      · exact FirstFault.cons accepts inductionHypothesis
      · obtain ⟨ended, others, submitted, left⟩ := inductionHypothesis
        exact ⟨ended, others.cons accepts, submitted, left⟩

section

variable {isReserved : Reservation} {Holds : Compiler -> Prop}
  (kept : forall compiler definition, Holds compiler ->
    Holds (compiler.define isReserved definition).2)

include kept

/-- What every definition keeps is kept by any number of them. -/
theorem submit_invariant {compiler : Compiler} (holds : Holds compiler)
    (definitions : List Definition) : Holds (compiler.submit isReserved definitions) := by
  induction definitions generalizing compiler with
  | nil => exact holds
  | cons first later inductionHypothesis => exact inductionHypothesis (kept compiler first holds)

/-- What every definition keeps is kept by those of a stream. -/
theorem defineAll_invariant {compiler : Compiler} (holds : Holds compiler)
    (stream : TokenStream) : Holds (compiler.defineAll isReserved stream).2.1 := by
  fun_induction defineAll compiler isReserved stream with
  | case1 | case2 => exact holds
  | case3 compiler stream definition rest reply error next refused =>
      have after := kept compiler definition holds
      rwa [refused] at after
  | case4 compiler stream definition rest reply next accepted inductionHypothesis =>
      have after := kept compiler definition holds
      rw [accepted] at after
      exact inductionHypothesis after

/-- What every definition keeps, and finishing as well, is kept by compiling a source text. -/
theorem compile_invariant {compiler : Compiler} (holds : Holds compiler) (backend : Backend)
    (same : backend.isReserved = isReserved)
    (finished : forall final, Holds final -> Holds (final.finish backend).2) (source : String) :
    Holds (compiler.compile backend source).2 := by
  have after := defineAll_invariant kept holds (Lexing.ofText source).stream
  rw [<- same] at after
  simp only [compile]
  generalize compiler.defineAll backend.isReserved (Lexing.ofText source).stream = reply at after ⊢
  obtain ⟨outcome, final, rest⟩ := reply
  cases outcome with
  | error failure => exact after
  | ok done => exact finished final after

end

end Compiler

/-- Nothing but the front of a stream is consumed, wherever parsing is stopped. -/
theorem TokenStream.exists_consumed_of_parsing (stream : TokenStream) :
    (∃ tokens, stream.unread = tokens ++ stream.parsing.rest.unread) ∧
      forall definition rest, (definition, rest) ∈ stream.parsing.parsed ->
        ∃ tokens, stream.unread = tokens ++ rest.unread := by
  fun_induction parsing stream with
  | case1 stream error rest reply =>
      obtain ⟨tokens, split⟩ := stream.exists_consumed
      rw [reply] at split
      exact ⟨⟨tokens, split⟩, by simp⟩
  | case2 stream rest reply =>
      obtain ⟨tokens, split⟩ := stream.exists_consumed
      rw [reply] at split
      exact ⟨⟨tokens, split⟩, by simp⟩
  | case3 stream definition rest reply later inductionHypothesis =>
      obtain ⟨tokens, split⟩ := stream.exists_consumed
      rw [reply] at split
      have split : stream.unread = tokens ++ rest.unread := split
      have further : forall {remaining : TokenStream},
          (∃ more, rest.unread = more ++ remaining.unread) ->
          ∃ more, stream.unread = more ++ remaining.unread := by
        rintro remaining ⟨more, splitMore⟩
        exact ⟨tokens ++ more, by rw [split, splitMore, List.append_assoc]⟩
      refine ⟨further inductionHypothesis.1, ?_⟩
      intro other remaining found
      obtain found | found := List.mem_cons.mp found
      · cases found
        exact ⟨tokens, split⟩
      · exact further (inductionHypothesis.2 other remaining found)

namespace Compiler

/-- At a fault, too, nothing but the front of the stream has been consumed. -/
theorem FirstFault.exists_consumed {compiler : Compiler} {isReserved : Reservation}
    {stream rest : TokenStream} {failure : Failure}
    (fault : compiler.FirstFault isReserved stream.parsing failure rest) :
    ∃ tokens, stream.unread = tokens ++ rest.unread := by
  cases fault with
  | refused refusal there =>
      exact stream.exists_consumed_of_parsing.2 _ _ (List.mem_of_getElem? there)
  | syntactic accepted ended => exact stream.exists_consumed_of_parsing.1

end Compiler

/-- When parsing has come to the end of the input, nothing is left. -/
theorem TokenStream.rest_of_finished {stream : TokenStream} (inside : stream.Inside)
    (finished : stream.parsing.outcome = .ok ()) : stream.parsing.rest.unread = [] := by
  fun_induction parsing stream with
  | case1 stream error rest reply => cases finished
  | case2 stream rest reply =>
      have ended := inside.unread_eq_nil (atEnd_of_accepted_none reply)
      obtain ⟨tokens, split⟩ := stream.exists_consumed
      rw [reply, ended] at split
      exact (List.append_eq_nil_iff.mp split.symm).2
  | case3 stream definition rest reply later inductionHypothesis =>
      obtain ⟨tokens, split⟩ := stream.exists_consumed
      rw [reply] at split
      have split : stream.unread = tokens ++ rest.unread := split
      refine inductionHypothesis (fun token unread => inside token ?_) finished
      rw [split]
      exact List.mem_append_right _ unread

/-- What a failure carries along when a text has been consumed up to the rest. -/
theorem Scanner.recorded_at_rest (source : String) {consumed : List Token} {rest : TokenStream}
    (split : (Lexing.ofText source).tokens = consumed ++ rest.unread) :
    ((ofText source).afterTokens (consumed.length + 1)).recorded =
      (Lexing.ofText source).errorsSeen rest.unread.length := by
  have total : (Lexing.ofText source).lexemes.length = consumed.length + rest.unread.length := by
    rw [<- List.length_append, <- split, Lexing.tokens, List.length_map]
  have within : rest.unread.length <= (Lexing.ofText source).lexemes.length := by omega
  rw [<- recorded_eq_errorsSeen source within, total, Nat.add_sub_cancel]

/-- Attaching the recorded errors to a failure shows it alone if there are none. -/
theorem Failure.after_eq (errors : List LexicalError) (failure : Failure) :
    failure.after errors = if errors = [] then failure else .afterErrors failure errors := by
  cases errors with
  | nil => rfl
  | cons first others => rfl

namespace Compiler

/-- Compiling replies with the first fault and the errors seen before the rest, or with
what the back end makes out of all definitions and with all errors. -/
theorem compile_reply (compiler : Compiler) (backend : Backend) (source : String) :
    let lexing := Lexing.ofText source
    let parsing := lexing.stream.parsing
    let final := compiler.submit backend.isReserved parsing.definitions
    (∃ root rest, compiler.FirstFault backend.isReserved parsing root rest ∧
      (compiler.compile backend source).1 =
        .error (root.after (lexing.errorsSeen rest.unread.length))) ∨
    (parsing.outcome = .ok () ∧ compiler.AcceptsAll backend.isReserved parsing.definitions ∧
      (compiler.compile backend source).1 =
        (backend.finish final.emissions).map (⟨·, lexing.errors⟩)) := by
  intro lexing parsing final
  have staged := compiler.defineAll_staged backend.isReserved lexing.stream
  cases submitted : compiler.defineAll backend.isReserved lexing.stream with
  | mk outcome state =>
  obtain ⟨last, rest⟩ := state
  rw [submitted] at staged
  cases outcome with
  | error root =>
      refine .inl ⟨root, rest, staged, ?_⟩
      simp only [compile, submitted, lexing]
  | ok finished =>
      obtain ⟨ended, accepted, rfl, rfl⟩ := staged
      refine .inr ⟨ended, accepted, ?_⟩
      have nothingLeft : parsing.rest.unread.length = 0 := by
        rw [List.length_eq_zero_iff]
        exact TokenStream.rest_of_finished (Lexing.stream_inside source) ended
      rw [compile_of_defineAll submitted, Lexing.errorsSeen, if_pos nothingLeft]

/-- A text is compiled exactly if it can be parsed, all definitions are accepted in order and
the back end can finish, and then the result shows all of them and all lexical errors.
Compiling fails exactly if there is a first fault, which is shown alone if the scanner has
recorded no error by then and with what it has recorded, once, if it has, or if there is
none and the back end fails. -/
theorem compile_staged (compiler : Compiler) (backend : Backend) (source : String) :
    let lexing := Lexing.ofText source
    let parsing := lexing.stream.parsing
    let final := compiler.submit backend.isReserved parsing.definitions
    (forall compilation, (compiler.compile backend source).1 = .ok compilation ↔
      parsing.outcome = .ok () ∧ compiler.AcceptsAll backend.isReserved parsing.definitions ∧
        backend.finish final.emissions = .ok compilation.artifacts ∧
        compilation.errors = lexing.errors) ∧
    forall failure, (compiler.compile backend source).1 = .error failure ↔
      (∃ root rest consumed, compiler.FirstFault backend.isReserved parsing root rest ∧
        lexing.tokens = consumed ++ rest.unread ∧
        let recorded := ((Scanner.ofText source).afterTokens (consumed.length + 1)).recorded
        recorded <+: lexing.errors ∧
          failure = if recorded = [] then root else .afterErrors root recorded) ∨
      parsing.outcome = .ok () ∧ compiler.AcceptsAll backend.isReserved parsing.definitions ∧
        backend.finish final.emissions = .error failure := by
  intro lexing parsing final
  obtain ⟨root, rest, fault, reply⟩ | ⟨ended, accepted, reply⟩ :=
    compiler.compile_reply backend source
  · rw [reply]
    refine ⟨fun compilation => ⟨by simp, ?_⟩, fun failure => ⟨?_, ?_⟩⟩
    · rintro ⟨ended, accepted, -⟩
      exact absurd accepted (fault.not_success ended)
    · intro equal
      obtain ⟨consumed, split⟩ := fault.exists_consumed
      refine .inl ⟨root, rest, consumed, fault, split, Scanner.recorded_prefix source _, ?_⟩
      rw [Scanner.recorded_at_rest source split, <- Failure.after_eq]
      exact (Except.error.inj equal).symm
    · rintro (⟨other, remaining, consumed, first, split, -, rfl⟩ | ⟨ended, accepted, -⟩)
      · obtain ⟨rfl, rfl⟩ := fault.unique first
        rw [Scanner.recorded_at_rest source split, <- Failure.after_eq]
      · exact absurd accepted (fault.not_success ended)
  · rw [reply]
    replace ended : parsing.outcome = .ok () := ended
    replace accepted : compiler.AcceptsAll backend.isReserved parsing.definitions := accepted
    have noFault : forall root rest, ¬ compiler.FirstFault backend.isReserved parsing root rest :=
      fun _ _ fault => fault.not_success ended accepted
    cases made : backend.finish final.emissions with
    | error cause =>
        refine ⟨fun compilation => ?_, fun failure => ?_⟩
        · simp [Except.map]
        · simp [Except.map, noFault, ended, accepted]
    | ok artifacts =>
        refine ⟨fun compilation => ?_, fun failure => ?_⟩
        · simp [Except.map, ended, accepted, Compilation.ext_iff, lexing,
            @eq_comm _ _ compilation.errors]
        · simp [Except.map, noFault]

end Compiler

end XdrPack
