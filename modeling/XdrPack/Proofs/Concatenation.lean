import XdrPack.Proofs.Layout
import XdrPack.Proofs.Partition
import XdrPack.Proofs.TwoPhases

/-!
# Source texts one after the other

A line end separates a source text from another one behind it: unless a comment is left
open, the segments of the whole are those of the first text, the line end, and those of
the second text, which are so many lines further down. As a definition is complete with
its last token, whatever comes behind it, compiling the whole comes to the same as
compiling the second text on top of the definitions of the first.
-/

namespace XdrPack

namespace Segment

/-! ## Segments before a line end -/

/-- Up to a line end, what is taken of a text and what is left do not depend on what
stands behind it. -/
theorem takeWhile_line_end (continues : Char -> Bool) (stops : continues '\n' = false)
    (text more : List Char) :
    (text ++ '\n' :: more).takeWhile continues = text.takeWhile continues ∧
      (text ++ '\n' :: more).dropWhile continues = text.dropWhile continues ++ '\n' :: more := by
  induction text with
  | nil => simp [stops]
  | cons c rest inductionHypothesis =>
      rw [List.cons_append, List.takeWhile_cons, List.takeWhile_cons, List.dropWhile_cons,
        List.dropWhile_cons]
      split
      · exact ⟨congrArg (c :: ·) inductionHypothesis.1, inductionHypothesis.2⟩
      · exact ⟨rfl, rfl⟩

/-- A comment that is closed ends at the same place whatever stands behind it. -/
theorem closeComment?_append {inside body after : List Char}
    (closed : closeComment? inside = some (body, after)) (more : List Char) :
    closeComment? (inside ++ more) = some (body, after ++ more) := by
  obtain ⟨rfl, firstEnd⟩ := closeComment?_eq_some.mp closed
  exact closeComment?_eq_some.mpr ⟨by simp, firstEnd⟩

/-- An ordinary segment does not go on behind a line end. -/
theorem ordinary_line_end (c : Char) (rest more : List Char) :
    ordinary c (rest ++ '\n' :: more) =
      ((ordinary c rest).1, (ordinary c rest).2 ++ '\n' :: more) := by
  obtain ⟨taken, left⟩ := takeWhile_line_end isWordChar (by decide) rest more
  have digit : startsWithDigit (rest ++ '\n' :: more) = startsWithDigit rest := by
    cases rest <;> rfl
  unfold ordinary
  rw [taken, left, digit]
  split
  · rfl
  · split
    · rfl
    · split <;> rfl

/-- The first segment where no comment is opened. -/
theorem first_unopened {atLineStart : Bool} {c : Char} {text : List Char}
    (notOpen : c = '/' -> text.head? ≠ some '*') :
    first atLineStart c text =
      if c = '\n' then (newline, text)
      else if isBlank c then (blank c, text)
      else if c = '%' && atLineStart then
        (directive (text.takeWhile (· != '\n')), text.dropWhile (· != '\n'))
      else ordinary c text := by
  unfold first
  split
  · rfl
  split
  · rfl
  split
  · rfl
  split
  · exact absurd rfl (notOpen rfl)
  · rfl

/-- The first segment is the same before a line end, unless it is a comment that is never
closed. -/
theorem first_line_end {atLineStart : Bool} {c : Char} {rest : List Char}
    (closed : forall body, (first atLineStart c rest).1 ≠ openComment body) (more : List Char) :
    first atLineStart c (rest ++ '\n' :: more) =
      ((first atLineStart c rest).1, (first atLineStart c rest).2 ++ '\n' :: more) := by
  obtain ⟨taken, left⟩ := takeWhile_line_end (· != '\n') (by decide) rest more
  by_cases opens : c = '/' ∧ rest.head? = some '*'
  · obtain ⟨rfl, star⟩ := opens
    obtain ⟨inside, rfl⟩ : ∃ inside, rest = '*' :: inside := by
      cases rest with
      | nil => cases star
      | cons next inside =>
          obtain rfl : next = '*' := Option.some.inj star
          exact ⟨inside, rfl⟩
    rw [List.cons_append, first_slash_star, first_slash_star]
    rw [first_slash_star] at closed
    cases ends : closeComment? inside with
    | none =>
        rw [ends] at closed
        exact absurd rfl (closed inside)
    | some found => rw [closeComment?_append ends]
  · -- No comment is opened, and the line end cannot open one.
    have notOpen : c = '/' -> (rest ++ '\n' :: more).head? ≠ some '*' := by
      rintro rfl star
      cases rest with
      | nil => simp at star
      | cons next others => exact opens ⟨rfl, star⟩
    rw [first_unopened notOpen, first_unopened fun slash star => opens ⟨slash, star⟩, taken, left,
      ordinary_line_end]
    split
    · rfl
    split
    · rfl
    split <;> rfl

/-- The segments of two texts with a line end between them, if no comment of the first
one is left open. -/
theorem split_line_end {atLineStart : Bool} {text : List Char}
    (closed : forall body, openComment body ∉ split atLineStart text) (more : List Char) :
    split atLineStart (text ++ '\n' :: more) =
      split atLineStart text ++ newline :: split true more := by
  fun_induction split atLineStart text with
  | case1 atLineStart =>
      rw [List.nil_append, split_cons, first_newline]
      rfl
  | case2 atLineStart c rest segment inductionHypothesis =>
      have here : forall body, (first atLineStart c rest).1 ≠ openComment body :=
        fun body same => closed body (List.mem_cons.mpr (.inl same.symm))
      rw [List.cons_append, split_cons, first_line_end here, List.cons_append]
      exact congrArg (segment :: ·)
        (inductionHypothesis fun body listed => closed body (List.mem_cons_of_mem _ listed))

end Segment

/-! ## Lexing further down -/

namespace Lexing

/-- Segments behind others are read from where those end. -/
theorem ofSegments_append (cursor : Cursor) (first second : List Segment) :
    let behind := ofSegments (cursor.advance (first.flatMap Segment.chars)) second
    (ofSegments cursor (first ++ second)).tokens =
        (ofSegments cursor first).tokens ++ behind.tokens ∧
      (ofSegments cursor (first ++ second)).errors =
        (ofSegments cursor first).errors ++ behind.errors := by
  intro behind
  induction first generalizing cursor with
  | nil => exact ⟨rfl, rfl⟩
  | cons segment rest inductionHypothesis =>
      obtain ⟨tokens, errors⟩ := inductionHypothesis (cursor.advance segment.chars)
      obtain ⟨allTokens, allErrors⟩ := ofSegments_cons cursor segment (rest ++ second)
      obtain ⟨ownTokens, ownErrors⟩ := ofSegments_cons cursor segment rest
      have place : (cursor.advance segment.chars).advance (rest.flatMap Segment.chars) =
          cursor.advance ((segment :: rest).flatMap Segment.chars) := by
        rw [List.flatMap_cons, Cursor.advance_append]
      rw [place] at tokens errors
      rw [List.cons_append, allTokens, allErrors, ownTokens, ownErrors, tokens, errors,
        List.append_assoc, List.append_assoc]
      exact ⟨rfl, rfl⟩

end Lexing

section

variable (lines : Int)

/-- Moving a cursor down and then advancing it is the same as advancing it first. -/
theorem Cursor.advance_down (cursor : Cursor) (text : List Char) :
    (cursor.moved (.down lines)).advance text = (cursor.advance text).moved (.down lines) := by
  induction text generalizing cursor with
  | nil => rfl
  | cons c rest inductionHypothesis =>
      have stepped : (cursor.moved (.down lines)).step c = (cursor.step c).moved (.down lines) := by
        unfold step
        split
        · simp only [moved, Relocation.down, id, Cursor.mk.injEq, and_true]
          omega
        · rfl
      rw [advance, List.foldl_cons, stepped]
      exact inductionHypothesis (cursor.step c)

/-- The token of a segment moves down with the cursor. -/
theorem Segment.token?_down (cursor : Cursor) (segment : Segment) :
    segment.token? (cursor.moved (.down lines)) =
      (segment.token? cursor).map (Token.moved (.down lines)) := by
  rw [token?, token?, Option.map_map]
  rfl

/-- The error of a segment moves down with the cursor. -/
theorem Segment.error?_down (cursor : Cursor) (segment : Segment) :
    segment.error? (cursor.moved (.down lines)) =
      (segment.error? cursor).map (LexicalError.moved (.down lines)) := by
  cases segment with
  | numeral text =>
      rw [error?, error?]
      split <;> rfl
  | blank | newline | directive | comment | openComment | mark | word | illegal => rfl

/-- Segments further down have the same tokens and errors further down. -/
theorem Lexing.ofSegments_down (cursor : Cursor) (segments : List Segment) :
    let lower := ofSegments (cursor.moved (.down lines)) segments
    lower.tokens = (ofSegments cursor segments).tokens.map (Token.moved (.down lines)) ∧
      lower.errors =
        (ofSegments cursor segments).errors.map (LexicalError.moved (.down lines)) := by
  intro lower
  induction segments generalizing cursor with
  | nil => exact ⟨rfl, rfl⟩
  | cons segment rest inductionHypothesis =>
      obtain ⟨tokens, errors⟩ := inductionHypothesis (cursor.advance segment.chars)
      obtain ⟨lowerTokens, lowerErrors⟩ :=
        ofSegments_cons (cursor.moved (.down lines)) segment rest
      obtain ⟨ownTokens, ownErrors⟩ := ofSegments_cons cursor segment rest
      rw [lowerTokens, lowerErrors, ownTokens, ownErrors, Cursor.advance_down, tokens, errors,
        Segment.token?_down, Segment.error?_down, List.map_append, List.map_append,
        Option.toList_map, Option.toList_map]
      exact ⟨rfl, rfl⟩

end

namespace Lexing

/-- A comment that is left open is reported. -/
theorem exists_unclosedComment (cursor : Cursor) {segments : List Segment} {body : List Char}
    (listed : .openComment body ∈ segments) :
    ∃ line, .unclosedComment line ∈ (ofSegments cursor segments).errors := by
  induction segments generalizing cursor with
  | nil => cases listed
  | cons segment rest inductionHypothesis =>
      obtain ⟨-, errors⟩ := ofSegments_cons cursor segment rest
      rw [errors]
      obtain rfl | later := List.mem_cons.mp listed
      · exact ⟨cursor.line, List.mem_append_left _ (by simp [Segment.error?])⟩
      · obtain ⟨line, reported⟩ := inductionHypothesis (cursor.advance segment.chars) later
        exact ⟨line, List.mem_append_right _ reported⟩

/-- How many lines a text and a line end behind it move down what follows. -/
def linesOver (text : String) : Int := text.toList.count '\n' + 1

/-- The place behind a text and a line end is the start of a text, so many lines further
down. -/
theorem advance_line_end (text : String) :
    (Cursor.start.advance text.toList).advance ['\n'] =
      Cursor.start.moved (.down (linesOver text)) := by
  have line := Cursor.start.line_advance text.toList
  show Cursor.mk ((Cursor.start.advance text.toList).line + 1) 0 = _
  rw [line]
  simp only [Cursor.moved, Cursor.start, Relocation.down, linesOver, id, Cursor.mk.injEq, and_true]
  omega

/-- Lexing two texts with a line end between them: the tokens and errors of the first,
and then those of the second so many lines further down. -/
theorem ofText_line_end {first : String}
    (closed : forall line, .unclosedComment line ∉ (ofText first).errors) (second : String) :
    let whole := ofText (first ++ "\n" ++ second)
    let move := Relocation.down (linesOver first)
    whole.stream = ((ofText second).stream.moved move).after (ofText first).tokens ∧
      whole.errors =
        (ofText first).errors ++ (ofText second).errors.map (LexicalError.moved move) := by
  intro whole move
  have segments : Segment.split true (first ++ "\n" ++ second).toList =
      Segment.split true first.toList ++ .newline :: Segment.split true second.toList := by
    rw [String.toList_append, String.toList_append, List.append_assoc]
    refine Segment.split_line_end (fun body listed => ?_) second.toList
    obtain ⟨line, reported⟩ := exists_unclosedComment .start listed
    exact closed line reported
  have covers := fun text : String => (Segment.partition_text text.toList).flatMap_chars
  -- Nothing is read of the line end, and the second text begins on the line behind it.
  have behind : ofSegments (Cursor.start.advance first.toList)
      (.newline :: Segment.split true second.toList) =
      ofSegments (Cursor.start.moved move) (Segment.split true second.toList) := by
    rw [ofSegments, Segment.chars, advance_line_end]
    rfl
  obtain ⟨tokens, errors⟩ := ofSegments_append .start (Segment.split true first.toList)
    (.newline :: Segment.split true second.toList)
  obtain ⟨lowerTokens, lowerErrors⟩ := ofSegments_down (linesOver first) .start
    (Segment.split true second.toList)
  rw [covers, behind] at tokens errors
  rw [lowerTokens, <- segments] at tokens
  rw [lowerErrors, <- segments] at errors
  refine ⟨?_, errors⟩
  have finish : whole.finish = (ofText second).finish.moved move := by
    simp only [whole, ofText, finish_ofSegments, covers]
    rw [String.toList_append, String.toList_append, Cursor.advance_append, Cursor.advance_append]
    show ((Cursor.start.advance first.toList).advance ['\n']).advance second.toList = _
    rw [advance_line_end, Cursor.advance_down]
  exact congrArg₂ TokenStream.mk tokens finish

/-- A line end separates a text from what follows, if no comment of it is left open: all
tokens but its end of the input are returned, and then those of the second text with its end
of the input, so many lines further down and in the same columns. So are the errors. -/
theorem returned_line_end (first second : String)
    (closed : forall line, .unclosedComment line ∉ (ofText first).errors) :
    let whole := ofText (first ++ "\n" ++ second)
    let move := Relocation.down (first.toList.count '\n' + 1)
    whole.returned = (ofText first).tokens ++ (ofText second).returned.map (Token.moved move) ∧
      whole.errors =
        (ofText first).errors ++ (ofText second).errors.map (LexicalError.moved move) := by
  intro whole move
  obtain ⟨stream, errors⟩ := ofText_line_end closed second
  have tokens : whole.tokens =
      (ofText first).tokens ++ (ofText second).tokens.map (Token.moved move) :=
    congrArg TokenStream.unread stream
  have finish : whole.finish = (ofText second).finish.moved move :=
    congrArg TokenStream.finish stream
  have endToken : whole.endToken = (ofText second).endToken.moved move := by
    rw [Lexing.endToken, finish]
    rfl
  refine ⟨?_, errors⟩
  rw [returned, returned, tokens, endToken, List.map_append, List.append_assoc]
  rfl

/-- A minus sign at the end of a text does not become the sign of the number on the next line,
and a percent sign starts a directive there. -/
theorem returned_line_end_minus :
    (ofText "a\n-").errors = [.illegalCharacter '-' 2] ∧
      (ofText ("a\n-" ++ "\n" ++ "5 %\n%b")).returned =
        [⟨.identifier "a", 1, 1⟩, ⟨.number "5", 3, 1⟩, ⟨.endOfInput, 4, 2⟩] ∧
      (ofText ("a\n-" ++ "\n" ++ "5 %\n%b")).errors =
        [.illegalCharacter '-' 2, .illegalCharacter '%' 3] := by
  have errors : (ofText "a\n-").errors = [.illegalCharacter '-' 2] := by decide +kernel
  have tokens : (ofText "a\n-").tokens = [⟨.identifier "a", 1, 1⟩] := by decide +kernel
  have later : (ofText "5 %\n%b").returned = [⟨.number "5", 1, 1⟩, ⟨.endOfInput, 2, 2⟩] ∧
      (ofText "5 %\n%b").errors = [.illegalCharacter '%' 1] := by decide +kernel
  have whole := returned_line_end "a\n-" "5 %\n%b" (by simp [errors])
  rw [tokens, errors, later.1, later.2] at whole
  exact ⟨errors, whole⟩

end Lexing

/-! ## Definitions before a text -/

/-- Moving a definition away leaves it without lines. -/
theorem Definition.away_eq_unlined (definition : Definition) :
    definition.moved .away = definition.unlined := by
  cases definition <;> rfl

namespace Compiler

variable {left right compiler : Compiler} {isReserved : Reservation}

/-- Similarity does not depend on the order. -/
protected theorem Similar.symm (similar : left.Similar right) : right.Similar left :=
  ⟨similar.registry.symm, similar.emissions.symm⟩

/-- Compilers that are similar to a third one are similar. -/
protected theorem Similar.trans (first : left.Similar compiler) (second : compiler.Similar right) :
    left.Similar right :=
  ⟨first.registry.trans second.registry, first.emissions.trans second.emissions⟩

/-- Similar compilers accept definitions that differ only in their lines alike, and remain
similar. -/
theorem Similar.define_unlined (similar : left.Similar right)
    (ignores : isReserved.IgnoresLines) {first second : Definition}
    (same : first.unlined = second.unlined)
    (accepted : (left.define isReserved first).1 = .ok ()) :
    (right.define isReserved second).1 = .ok () ∧
      (left.define isReserved first).2.Similar (right.define isReserved second).2 := by
  obtain ⟨firstReply, firstSimilar⟩ := (Similar.refl left).define ignores .away first
  obtain ⟨secondReply, secondSimilar⟩ := similar.symm.define ignores .away second
  rw [Definition.away_eq_unlined] at firstReply firstSimilar secondReply secondSimilar
  rw [same, accepted] at firstReply
  rw [same] at firstSimilar
  refine ⟨?_, firstSimilar.trans secondSimilar.symm⟩
  rw [firstReply] at secondReply
  cases reply : (right.define isReserved second).1 with
  | ok done => rfl
  | error error =>
      rw [reply] at secondReply
      cases secondReply

/-- Tokens that are parsed and whose definitions are accepted are done with before whatever
follows them is looked at. -/
theorem Similar.defineAll_after {stream : TokenStream} {definitions : List Definition}
    (similar : left.Similar right) (ignores : isReserved.IgnoresLines) (inside : stream.Inside)
    (parsed : stream.parse = .ok definitions)
    (accepted : left.AcceptsAll isReserved definitions) (later : TokenStream) :
    ∃ last, (left.submit isReserved definitions).Similar last ∧
      right.defineAll isReserved (later.after stream.unread) = last.defineAll isReserved later := by
  fun_induction TokenStream.parse stream generalizing left right definitions with
  | case1 stream error rest reply => cases parsed
  | case2 stream rest reply =>
      cases parsed
      have ended := inside.unread_eq_nil (TokenStream.atEnd_of_accepted_none reply)
      exact ⟨right, similar, by rw [ended, TokenStream.after_nil]⟩
  | case3 stream first rest reply error failed => cases parsed
  | case4 stream first rest reply others parsedOthers inductionHypothesis =>
      cases parsed
      obtain ⟨tokens, rfl, derived, -⟩ :=
        Parser.definition_reads.accepts (TokenStream.accepted_some_iff.mp reply)
      have follows : Parser.anything (some first.unlined) (later.after rest.unread).next.kind :=
        trivial
      obtain ⟨value, read, same⟩ := Parser.definition_reads.completes derived follows
      obtain ⟨again, rfl, unlined⟩ := Option.map_eq_some_iff.mp same
      have acceptedFirst : (left.define isReserved first).1 = .ok () := accepted 0 _ rfl
      obtain ⟨acceptedAgain, remain⟩ := similar.define_unlined ignores unlined.symm acceptedFirst
      obtain ⟨last, final, reaches⟩ := inductionHypothesis remain inside.of_after parsedOthers
        fun place answer found => accepted (place + 1) answer found
      refine ⟨last, final, ?_⟩
      have next : (later.after (rest.after tokens).unread) =
          (later.after rest.unread).after tokens := later.after_append tokens rest.unread
      rw [next, defineAll_eq, TokenStream.accepted_some_iff.mpr read]
      rcases reply : right.define isReserved again with ⟨answer, state⟩
      rw [reply] at acceptedAgain reaches
      obtain rfl : answer = .ok () := acceptedAgain
      simp only [reply]
      exact reaches

/-- Where every definition is accepted, nothing is left. -/
theorem unread_of_defineAll {final : Compiler} {stream rest : TokenStream}
    (inside : stream.Inside)
    (success : compiler.defineAll isReserved stream = (.ok (), final, rest)) :
    rest.unread = [] := by
  have staged := compiler.defineAll_staged isReserved stream
  rw [success] at staged
  obtain ⟨finished, -, -, rfl⟩ := staged
  exact TokenStream.rest_of_finished inside finished

/-- Two texts with a line end between them are compiled as the second one is on top of the
definitions of the first, if no comment of that is left open, it is parsed and all of its
definitions are accepted: one succeeds exactly if the other one does, with the same
modules, and with the errors of the first text before those of the second; and a failure
has the same cause. What is found in the second text is so many lines further down. -/
theorem compile_line_end (compiler : Compiler) (naming : Naming) (first second : String)
    (definitions : List Definition)
    (closed : forall line, .unclosedComment line ∉ (Lexing.ofText first).errors)
    (parsed : (Lexing.ofText first).stream.parse = .ok definitions)
    (accepted : compiler.AcceptsAll (.fixed Python.isReserved) definitions) :
    let backend := Python.backend naming
    let defined := compiler.submit (.fixed Python.isReserved) definitions
    let move := Relocation.down (first.toList.count '\n' + 1)
    (compiler.compile backend (first ++ "\n" ++ second)).1.mapError Failure.root =
      match (defined.compile backend second).1 with
      | .ok compilation => .ok ⟨compilation.artifacts,
          (Lexing.ofText first).errors ++ compilation.errors.map (LexicalError.moved move)⟩
      | .error failure => .error (failure.root.moved move) := by
  intro backend defined move
  obtain ⟨stream, errors⟩ := Lexing.ofText_line_end closed second
  have ignores := Reservation.ignoresLines_fixed Python.isReserved
  obtain ⟨last, similar, reaches⟩ := (Similar.refl compiler).defineAll_after ignores
    (Lexing.stream_inside first) parsed accepted ((Lexing.ofText second).stream.moved move)
  have run := similar.defineAll ignores move (Lexing.ofText second).stream
  have whole : compiler.defineAll (.fixed Python.isReserved)
      (Lexing.ofText (first ++ "\n" ++ second)).stream =
      last.defineAll (.fixed Python.isReserved) ((Lexing.ofText second).stream.moved move) := by
    rw [stream]
    exact reaches
  rw [fst_compile, fst_compile, whole]
  have ended : forall final rest, defined.defineAll (.fixed Python.isReserved)
      (Lexing.ofText second).stream = (.ok (), final, rest) -> rest.unread = [] :=
    fun _ _ => unread_of_defineAll (Lexing.stream_inside second)
  generalize last.defineAll _ ((Lexing.ofText second).stream.moved move) = lower at run ⊢
  change MovedRun move (defined.defineAll _ (Lexing.ofText second).stream) lower at run
  generalize defined.defineAll _ (Lexing.ofText second).stream = upper at run ended ⊢
  obtain ⟨outcome, state, remaining⟩ := lower
  obtain ⟨_ | _, final, rest⟩ := upper <;> obtain ⟨rfl, same, rfl⟩ := run
  · refine congrArg Except.error ?_
    rw [Failure.root_after, Failure.root_after, Failure.root_moved]
  · have nothingLeft := ended final rest rfl
    have noneLeft : (rest.moved move).unread = [] := by
      rw [TokenStream.moved, nothingLeft, List.map_nil]
    refine congrArg Except.ok ?_
    rw [nothingLeft, noneLeft]
    exact congrArg₂ Compilation.mk (same.artifacts naming).symm errors

/-- The second text goes on where the first one ends in the middle of a line, and its
errors and its refused definition are shown on the lines of the whole. -/
theorem compile_line_end_pair :
    let backend := Python.backend .standard
    let first := "typedef int id;\n%pass\nstruct p \x7b id x; \x7d; @ /* end */"
    let second := "struct q \x7b p y;\n p z; \x7d; $"
    let integer : Declaration := ⟨"id", .named "int", 1⟩
    let defined := start.submit (.fixed Python.isReserved)
      [.typedef integer, .struct "p" [⟨"x", .named "id", 3⟩] 3]
    let again := "\nstruct p \x7b int y; \x7d;"
    (∃ compilation, (defined.compile backend second).1 = .ok compilation ∧
      compilation.errors = [.illegalCharacter '$' 2] ∧
      (start.compile backend (first ++ "\n" ++ second)).1.mapError Failure.root =
        .ok ⟨compilation.artifacts, [.illegalCharacter '@' 3, .illegalCharacter '$' 5]⟩) ∧
    (defined.compile backend again).1 = .error (.refused (.redefinition "p" 2)) ∧
    (start.compile backend (first ++ "\n" ++ again)).1.mapError Failure.root =
      .error (.refused (.redefinition "p" 5)) := by
  intro backend first second integer defined again
  have errors : (Lexing.ofText first).errors = [.illegalCharacter '@' 3] := by decide +kernel
  have lines : first.toList.count '\n' = 2 := by decide +kernel
  have accepted : start.AcceptsAll (.fixed Python.isReserved)
      [.typedef integer, .struct "p" [⟨"x", .named "id", 3⟩] 3] :=
    .cons (by decide +kernel) (.cons (by decide +kernel) acceptsAll_nil)
  have whole := fun text => compile_line_end start .standard first text _ (by simp [errors])
    (by decide +kernel) accepted
  have failed : (defined.compile backend again).1 = .error (.refused (.redefinition "p" 2)) := by
    decide +kernel
  refine ⟨?_, failed, ?_⟩
  · obtain ⟨compilation, final, success⟩ : ∃ compilation final,
        defined.compile backend second = (.ok compilation, final) :=
      exists_of_isOk (by decide +kernel)
    have shown : (defined.compile backend second).1.map (·.errors) =
        .ok [.illegalCharacter '$' 2] := by decide +kernel
    rw [success] at shown
    have shown : compilation.errors = [.illegalCharacter '$' 2] := Except.ok.inj shown
    obtain ⟨artifacts, found⟩ := compilation
    subst shown
    refine ⟨_, by rw [success], rfl, (whole second).trans ?_⟩
    rw [success, errors, lines]
    rfl
  · refine (whole again).trans ?_
    rw [failed, lines]
    rfl

end Compiler

end XdrPack
