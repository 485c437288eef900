import Mathlib.Data.List.DropRight
import XdrPack.Proofs.Partition

/-!
# Positions

A token and a lexical error have the position of the first character of their segment. It
follows from the text before that character alone: the line is counted by the line ends in
this text, and the column by the characters behind the last of them. No such position
exceeds the number of characters of the whole text. So signed integers of 64 bits hold the
positions of all tokens and errors of a text that is shorter than 2^63 characters. The end of
the input may be on one line more, which they hold as well unless the text consists of
2^63 - 1 line ends.
-/

namespace XdrPack

/-! ## Counting lines and columns -/

/-- The line of a character with the given text before it. -/
def lineOf (before : List Char) : Int := 1 + before.count '\n'

/-- What of a text is behind its last line end. -/
def lastLine (text : List Char) : List Char := text.rtakeWhile (· != '\n')

/-- The column of a character with the given text before it. -/
def columnOf (before : List Char) : Int := (lastLine before).length + 1

/-- The line of the first character of what an error is about. -/
def LexicalError.line : LexicalError -> Int
  | illegalCharacter _ line | malformedNumber _ line | unclosedComment line => line

/-- The cursor is behind as many characters of its line as are behind the last line end. -/
theorem Cursor.advance_start (text : List Char) :
    start.advance text = ⟨lineOf text, (lastLine text).length⟩ := by
  induction text using List.reverseRecOn with
  | nil => rfl
  | append_singleton text c inductionHypothesis =>
      rw [advance_append, inductionHypothesis]
      change step _ c = _
      by_cases isNewline : c = '\n'
      · simp [step, lineOf, lastLine, isNewline]
        omega
      · simp [step, lineOf, lastLine, isNewline]

/-- Further text is on the same line or on later ones. -/
theorem lineOf_le_append (before text : List Char) : lineOf before <= lineOf (before ++ text) := by
  rw [lineOf, lineOf, List.count_append]
  omega

/-- There are no more line ends than characters. -/
theorem lineOf_le (before : List Char) : lineOf before <= before.length + 1 := by
  have counted : before.count '\n' <= before.length := List.count_le_length
  rw [lineOf]
  omega

/-- The last line is no longer than the text. -/
theorem length_lastLine_le (text : List Char) : ((lastLine text).length : Int) <= text.length :=
  Int.ofNat_le.mpr (List.rtakeWhile_suffix _ text).length_le

/-- There are no more characters in a line than in the text. -/
theorem columnOf_le (before : List Char) : columnOf before <= before.length + 1 :=
  Int.add_le_add_right (length_lastLine_le before) 1

/-! ## Segments in their places -/

namespace Segment

/-- The tokens and errors that segments behind a text are read as, each with the position of
the first character of its segment. -/
inductive Locates : List Char -> List Segment -> List Token -> List LexicalError -> Prop where
  | done {before} : Locates before [] [] []
  | next {before segment segments kinds tokens errors others}
      (yields : Yields (lineOf before) segment kinds errors)
      (rest : Locates (before ++ segment.chars) segments tokens others) :
      Locates before (segment :: segments)
        (kinds.map (fun kind => ⟨kind, lineOf before, columnOf before⟩) ++ tokens)
        (errors ++ others)

/-- The errors of a segment are on its line. -/
theorem Yields.line_eq {line : Int} {segment : Segment} {kinds : List Token.Kind}
    {errors : List LexicalError} (yields : Yields line segment kinds errors) :
    forall error, error ∈ errors -> error.line = line := by
  cases yields with
  | malformedNumber | illegalCharacter | unclosedComment => simp [LexicalError.line]
  | _ => simp

namespace Locates

variable {before : List Char} {segments : List Segment} {tokens : List Token}
  {errors : List LexicalError}

/-- Tokens are on lines between the one where the first segment begins and the one where the
last segment ends. -/
theorem line_between (located : Locates before segments tokens errors) :
    forall token, token ∈ tokens ->
      lineOf before <= token.line ∧ token.line <= lineOf (before ++ segments.flatMap chars) := by
  induction located with
  | done => simp
  | @next before segment segments kinds tokens errors others yields rest inductionHypothesis =>
      intro token listed
      rw [List.flatMap_cons, <- List.append_assoc]
      have fromHere := lineOf_le_append before segment.chars
      rcases List.mem_append.mp listed with here | later
      · obtain ⟨kind, -, rfl⟩ := List.mem_map.mp here
        exact ⟨le_refl _, fromHere.trans (lineOf_le_append _ _)⟩
      · obtain ⟨above, below⟩ := inductionHypothesis token later
        exact ⟨fromHere.trans above, below⟩

/-- The lines of tokens do not decrease. -/
theorem pairwise_line (located : Locates before segments tokens errors) :
    tokens.Pairwise fun token later => token.line <= later.line := by
  induction located with
  | done => exact .nil
  | @next before segment segments kinds tokens errors others yields rest inductionHypothesis =>
      refine List.pairwise_append.mpr ⟨?_, inductionHypothesis, ?_⟩
      · exact List.pairwise_map.mpr (List.pairwise_of_forall fun _ _ => le_refl _)
      · intro token here other later
        obtain ⟨kind, -, rfl⟩ := List.mem_map.mp here
        exact (lineOf_le_append before segment.chars).trans (rest.line_between other later).1

/-- No position exceeds the number of characters up to the end of the last segment. -/
theorem position_le (located : Locates before segments tokens errors)
    (nonempty : forall segment, segment ∈ segments -> segment.chars ≠ []) :
    (forall token, token ∈ tokens ->
      token.line <= (before ++ segments.flatMap chars).length ∧
        token.column <= (before ++ segments.flatMap chars).length) ∧
    forall error, error ∈ errors -> error.line <= (before ++ segments.flatMap chars).length := by
  induction located with
  | done => simp
  | @next before segment segments kinds tokens errors others yields rest inductionHypothesis =>
      obtain ⟨isNonempty, restNonempty⟩ := List.forall_mem_cons.mp nonempty
      obtain ⟨tokensLe, errorsLe⟩ := inductionHypothesis restNonempty
      rw [List.flatMap_cons, <- List.append_assoc]
      -- The segment has a first character, which the text before it does not count.
      have room : (before.length + 1 : Int) <=
          ((before ++ segment.chars) ++ segments.flatMap chars).length := by
        have := List.length_pos_of_ne_nil isNonempty
        simp only [List.length_append]
        omega
      constructor
      · intro token listed
        rcases List.mem_append.mp listed with here | later
        · obtain ⟨kind, -, rfl⟩ := List.mem_map.mp here
          exact ⟨(lineOf_le before).trans room, (columnOf_le before).trans room⟩
        · exact tokensLe token later
      · intro error listed
        rcases List.mem_append.mp listed with here | later
        · rw [yields.line_eq error here]
          exact (lineOf_le before).trans room
        · exact errorsLe error later

end Locates

/-- The segments of a partition are not empty. -/
theorem Partition.chars_ne_nil {before segments : List Segment} {text : List Char}
    (partition : Partition before text segments) :
    forall segment, segment ∈ segments -> segment.chars ≠ [] := by
  induction partition with
  | done => simp
  | next fits _ inductionHypothesis =>
      obtain ⟨c, others, isChars⟩ := fits.exists_cons
      exact List.forall_mem_cons.mpr ⟨by simp [isChars], inductionHypothesis⟩

end Segment

namespace Lexing

/-- What lexing finds in segments behind a text has the positions of their first characters. -/
theorem locates_ofSegments (before : List Char) (segments : List Segment) :
    Segment.Locates before segments (ofSegments (Cursor.start.advance before) segments).tokens
      (ofSegments (Cursor.start.advance before) segments).errors := by
  induction segments generalizing before with
  | nil => exact .done
  | cons segment rest inductionHypothesis =>
      obtain ⟨tokens, errors⟩ := ofSegments_cons (Cursor.start.advance before) segment rest
      have line : (Cursor.start.advance before).line = lineOf before := by
        rw [Cursor.advance_start]
      have token : (segment.token? (Cursor.start.advance before)).toList =
          segment.kind?.toList.map fun kind => ⟨kind, lineOf before, columnOf before⟩ := by
        rw [Segment.token?, Option.toList_map, Cursor.advance_start, columnOf]
      have yields := segment.yields (Cursor.start.advance before)
      rw [line] at yields
      have behind := inductionHypothesis (before ++ segment.chars)
      rw [Cursor.advance_append] at behind
      rw [tokens, errors, token]
      exact .next yields behind

/-- The positions in a text that lexing finds. -/
structure Positioned (source : String) (lexing : Lexing) : Prop where
  /-- Tokens and errors have the positions of the first characters of their segments. -/
  located : ∃ segments, Segment.Partition [] source.toList segments ∧
    Segment.Locates [] segments lexing.tokens lexing.errors
  /-- The end of the input is on the last line, at its last character. -/
  atEnd : lexing.endToken =
    ⟨.endOfInput, lineOf source.toList, (lastLine source.toList).length⟩
  /-- Lines do not decrease from token to token, up to the end of the input. -/
  ordered : lexing.returned.Pairwise fun token later => token.line <= later.line
  /-- Tokens and errors need no larger numbers than the characters of the text do. The end of the
  input is at most on the line behind as many line ends as there are characters. -/
  bounded : (forall token, token ∈ lexing.tokens ->
      token.line <= source.length ∧ token.column <= source.length) ∧
    (forall error, error ∈ lexing.errors -> error.line <= source.length) ∧
    lexing.endToken.line <= source.length + 1 ∧ lexing.endToken.column <= source.length

/-- The positions of tokens, errors and the end of the input are exact in every text. -/
theorem ofText_positioned (source : String) : Positioned source (ofText source) := by
  have partition := Segment.partition_text source.toList
  have located := locates_ofSegments [] (Segment.split true source.toList)
  have covers : [] ++ (Segment.split true source.toList).flatMap Segment.chars = source.toList :=
    partition.flatMap_chars
  have atEnd : (ofText source).endToken =
      ⟨.endOfInput, lineOf source.toList, (lastLine source.toList).length⟩ := by
    rw [endToken, ofText, finish_ofSegments, partition.flatMap_chars, Cursor.advance_start]
  refine ⟨⟨_, partition, located⟩, atEnd, ?_, ?_⟩
  · refine List.pairwise_append.mpr ⟨located.pairwise_line, List.pairwise_singleton _ _, ?_⟩
    intro token listed last isLast
    have below := (located.line_between token listed).2
    rw [covers] at below
    rw [List.mem_singleton.mp isLast, atEnd]
    exact below
  · obtain ⟨tokens, errors⟩ := located.position_le partition.chars_ne_nil
    rw [covers] at tokens errors
    rw [atEnd]
    exact ⟨tokens, errors, lineOf_le source.toList, length_lastLine_le source.toList⟩

end Lexing

end XdrPack
