import XdrPack.Proofs.Numerals
import XdrPack.Proofs.Scanning
import XdrPack.Proofs.Spelling

/-!
# Partitions of a source text

Which segments a text may fall into is said here without a procedure: for each sort of
segment, what it consists of, what may precede it and what may follow it. Words and
numerals are followed by nothing that continues them, a comment ends where its end
first appears, and a character is illegal where no other segment can begin. Every text
falls into segments in exactly one way, and what they are read as gives the tokens and
the lexical errors of the text, in order.
-/

namespace XdrPack

namespace Segment

/-! ## Where segments may stand -/

/-- A blank or a comment, behind which a directive may still follow on the line. -/
def IsLayout : Segment -> Prop
  | blank _ | comment _ => True
  | _ => False

/-- There are only blanks and comments behind the last line end outside comments, or
behind the start if there is no such line end. -/
def OpensLine (before : List Segment) : Prop :=
  ∃ earlier recent, before = earlier ++ recent ∧
    (earlier = [] ∨ earlier.getLast? = some newline) ∧
    forall segment, segment ∈ recent -> segment.IsLayout

/-- The text that ends a comment. -/
def commentEnd : List Char := ['*', '/']

/-- The places of all segments but illegal characters: a segment between the segments
before it and the text after it. -/
inductive Regular (before : List Segment) : Segment -> List Char -> Prop where
  | blank {c after} (isBlank : c = ' ' ∨ c = '\t' ∨ c = '\r') : Regular before (.blank c) after
  | newline {after} : Regular before .newline after
  | directive {text after} (opens : OpensLine before) (oneLine : '\n' ∉ text)
      (ends : after = [] ∨ after.head? = some '\n') : Regular before (.directive text) after
  | comment {body after} (firstEnd : ¬ commentEnd <:+: body) : Regular before (.comment body) after
  | openComment {body} (neverEnds : ¬ commentEnd <:+: body) : Regular before (.openComment body) []
  | mark {sign after} : Regular before (.mark sign) after
  | word {text after} (isWord : isWordText text = true) (longest : EndsWord after) :
      Regular before (.word text) after
  | numeral {text after} (isNumeral : isNumeralText text = true) (longest : EndsWord after) :
      Regular before (.numeral text) after

/-- The places of segments. An illegal character stands where no other segment can
begin. -/
inductive Fits (before : List Segment) : Segment -> List Char -> Prop where
  | regular {segment after} (regular : Regular before segment after) : Fits before segment after
  | illegal {c after}
      (nothingElse : forall segment rest, segment.chars ++ rest = c :: after ->
        ¬ Regular before segment rest) :
      Fits before (.illegal c) after

/-- Segments behind others cover a text, in order and without gap or overlap, each in a
place where it fits. -/
inductive Partition : List Segment -> List Char -> List Segment -> Prop where
  | done {before} : Partition before [] []
  | next {before segment after segments} (fits : Fits before segment after)
      (rest : Partition (before ++ [segment]) after segments) :
      Partition before (segment.chars ++ after) (segment :: segments)

/-! ## The ends of comments -/

/-- A comment ends at its first characters or behind them. -/
theorem commentEnd_infix_cons {c : Char} {rest : List Char} :
    commentEnd <:+: c :: rest ↔ (c = '*' ∧ rest.head? = some '/') ∨ commentEnd <:+: rest := by
  have starts : commentEnd <+: c :: rest ↔ c = '*' ∧ rest.head? = some '/' := by
    cases rest with
    | nil => simp [commentEnd]
    | cons next others => simp [commentEnd, List.cons_prefix_cons, eq_comm]
  rw [List.infix_cons_iff, starts]

/-- A comment is never closed if its end does not appear. -/
theorem closeComment?_eq_none {inside : List Char} :
    closeComment? inside = none ↔ ¬ commentEnd <:+: inside := by
  fun_induction closeComment? inside with
  | case1 => simp [commentEnd]
  | case2 rest => simp [commentEnd_infix_cons]
  | case3 c rest notEnd inductionHypothesis =>
      have notHere : ¬ (c = '*' ∧ rest.head? = some '/') := by
        rintro ⟨rfl, slash⟩
        cases rest with
        | nil => cases slash
        | cons next others =>
            obtain rfl : next = '/' := Option.some.inj slash
            exact notEnd others rfl rfl
      rw [Option.map_eq_none_iff, inductionHypothesis, commentEnd_infix_cons]
      simp [notHere]

/-- A comment is closed where its end first appears. -/
theorem closeComment?_eq_some {inside body after : List Char} :
    closeComment? inside = some (body, after) ↔
      inside = body ++ commentEnd ++ after ∧ ¬ commentEnd <:+: body := by
  fun_induction closeComment? inside generalizing body with
  | case1 => simp [commentEnd]
  | case2 rest =>
      constructor
      · rintro ⟨⟩
        exact ⟨rfl, by simp [commentEnd]⟩
      · rintro ⟨split, firstEnd⟩
        cases body with
        | nil =>
            cases split
            rfl
        | cons c others =>
            -- The end would appear before the place where the comment is closed.
            refine absurd ?_ firstEnd
            obtain ⟨rfl, behind⟩ := List.cons.inj split
            refine commentEnd_infix_cons.mpr (.inl ⟨rfl, ?_⟩)
            cases others with
            | nil => cases behind
            | cons next more =>
                obtain ⟨rfl, -⟩ := List.cons.inj behind
                rfl
  | case3 c rest notEnd inductionHypothesis =>
      rw [Option.map_eq_some_iff]
      constructor
      · rintro ⟨⟨inner, remaining⟩, found, ⟨⟩⟩
        obtain ⟨rfl, firstEnd⟩ := inductionHypothesis.mp found
        refine ⟨rfl, ?_⟩
        rw [commentEnd_infix_cons]
        rintro (⟨rfl, slash⟩ | later)
        · cases inner with
          | nil => cases slash
          | cons next others =>
              obtain rfl : next = '/' := Option.some.inj slash
              exact notEnd _ rfl rfl
        · exact firstEnd later
      · rintro ⟨split, firstEnd⟩
        cases body with
        | nil =>
            obtain ⟨rfl, rfl⟩ := List.cons.inj split
            exact absurd rfl (notEnd after rfl)
        | cons first others =>
            obtain ⟨rfl, rfl⟩ := List.cons.inj split
            have noEnd : ¬ commentEnd <:+: others := fun found =>
              firstEnd (commentEnd_infix_cons.mpr (.inr found))
            exact ⟨(others, after), inductionHypothesis.mpr ⟨rfl, noEnd⟩, rfl⟩

/-! ## The first segment -/

/-- The flag of the lexer says whether a directive may stand at the start of the text.
It does not matter at the end of a line or of the text, and behind a directive there is
nothing else. -/
def Tracks (atLineStart : Bool) (before : List Segment) (text : List Char) : Prop :=
  text = [] ∨ text.head? = some '\n' ∨ (atLineStart = true ↔ OpensLine before)

/-- Before anything else than a line end, the flag says whether a line was opened. -/
theorem Tracks.opensLine_iff {atLineStart : Bool} {before : List Segment} {c : Char}
    {rest : List Char} (tracks : Tracks atLineStart before (c :: rest)) (notNewline : c ≠ '\n') :
    atLineStart = true ↔ OpensLine before := by
  rcases tracks with ended | lineEnd | same
  · cases ended
  · exact absurd (Option.some.inj lineEnd) notNewline
  · exact same

/-- A slash and a star open a comment. -/
theorem first_slash_star (atLineStart : Bool) (inside : List Char) :
    first atLineStart '/' ('*' :: inside) =
      match closeComment? inside with
      | some (body, after) => (comment body, after)
      | none => (openComment inside, []) := rfl

/-- A comment is the first segment up to where its end first appears. -/
theorem first_comment (atLineStart : Bool) {body : List Char} (firstEnd : ¬ commentEnd <:+: body)
    (after : List Char) :
    first atLineStart '/' ('*' :: (body ++ commentEnd ++ after)) = (comment body, after) := by
  have closed : closeComment? (body ++ commentEnd ++ after) = some (body, after) :=
    closeComment?_eq_some.mpr ⟨rfl, firstEnd⟩
  rw [first_slash_star, closed]

/-- A regular segment is found where it stands. -/
theorem first_of_regular {atLineStart : Bool} {before : List Segment} {segment : Segment}
    {c : Char} {after rest : List Char} (tracks : Tracks atLineStart before (c :: rest))
    (regular : Regular before segment after) (text : segment.chars ++ after = c :: rest) :
    first atLineStart c rest = (segment, after) := by
  cases regular with
  | blank isBlank =>
      obtain ⟨rfl, rfl⟩ := List.cons.inj text
      rcases isBlank with rfl | rfl | rfl <;> rfl
  | newline =>
      obtain ⟨rfl, rfl⟩ := List.cons.inj text
      rfl
  | @directive line _ opens oneLine ends =>
      obtain ⟨rfl, rfl⟩ := List.cons.inj text
      obtain rfl : atLineStart = true := (tracks.opensLine_iff (by decide)).mpr opens
      have allInLine : forall c, c ∈ line -> (c != '\n') = true := by
        intro c listed
        rw [bne_iff_ne]
        rintro rfl
        exact oneLine listed
      have stops : after.takeWhile (· != '\n') = [] ∧ after.dropWhile (· != '\n') = after := by
        cases after with
        | nil => exact ⟨rfl, rfl⟩
        | cons next others =>
            obtain rfl : next = '\n' := by simpa using ends
            exact ⟨rfl, rfl⟩
      change (directive ((line ++ after).takeWhile (· != '\n')),
        (line ++ after).dropWhile (· != '\n')) = _
      rw [List.takeWhile_append_of_pos allInLine, List.dropWhile_append_of_pos allInLine, stops.1,
        stops.2, List.append_nil]
  | comment firstEnd =>
      obtain ⟨rfl, rfl⟩ := List.cons.inj text
      exact first_comment atLineStart firstEnd after
  | @openComment body neverEnds =>
      rw [List.append_nil] at text
      obtain ⟨rfl, rfl⟩ := List.cons.inj text
      change first atLineStart '/' ('*' :: body) = _
      rw [first_slash_star, closeComment?_eq_none.mpr neverEnds]
  | mark =>
      obtain ⟨rfl, rfl⟩ := List.cons.inj text
      exact first_mark atLineStart _ _
  | @word letters _ isWord longest =>
      cases letters with
      | nil => cases isWord
      | cons letter others =>
          obtain ⟨rfl, rfl⟩ := List.cons.inj text
          exact first_word atLineStart isWord longest
  | @numeral digits _ isNumeral longest =>
      cases digits with
      | nil => cases isNumeral
      | cons digit others =>
          obtain ⟨rfl, rfl⟩ := List.cons.inj text
          exact first_numeral atLineStart isNumeral longest

/-- What is left behind the characters of a word does not continue it. -/
theorem endsWord_dropWhile (text : List Char) : EndsWord (text.dropWhile isWordChar) := by
  intro c isHead
  have stops := List.head?_dropWhile_not isWordChar text
  rw [isHead] at stops
  simpa using stops

/-- What an ordinary segment is: a regular one, or an illegal character. -/
theorem ordinary_cases (before : List Segment) (c : Char) (rest : List Char) :
    (ordinary c rest).1.chars ++ (ordinary c rest).2 = c :: rest ∧
      (Regular before (ordinary c rest).1 (ordinary c rest).2 ∨
        ordinary c rest = (illegal c, rest)) := by
  have run : rest.takeWhile isWordChar ++ rest.dropWhile isWordChar = rest :=
    List.takeWhile_append_dropWhile
  have all : (rest.takeWhile isWordChar).all isWordChar = true := List.all_takeWhile
  unfold ordinary
  split
  · next sign isSign =>
      have sameChar : sign.char = c := by simpa using List.find?_some isSign
      exact ⟨by rw [chars, sameChar, List.singleton_append], .inl .mark⟩
  · split
    · next letter =>
        refine ⟨by rw [chars, List.cons_append, run], .inl (.word ?_ (endsWord_dropWhile rest))⟩
        rw [isWordText, letter, all, Bool.and_self]
    · split
      · next starts =>
          refine ⟨by rw [chars, List.cons_append, run],
            .inl (.numeral ?_ (endsWord_dropWhile rest))⟩
          have sameStart : startsWithDigit (rest.takeWhile isWordChar) = startsWithDigit rest := by
            cases rest with
            | nil => rfl
            | cons next others =>
                rw [List.takeWhile_cons]
                split
                · rfl
                · next notWordChar =>
                    simp only [isWordChar, Char.isAlphanum, Bool.or_eq_true, not_or] at notWordChar
                    simpa [startsWithDigit] using notWordChar.1.2
          rw [isNumeralText, sameStart, starts, all, Bool.and_self]
      · exact ⟨rfl, .inr rfl⟩

/-- What the first segment of a text is: a regular one, or an illegal character. -/
theorem first_cases {atLineStart : Bool} {before : List Segment} {c : Char} {rest : List Char}
    (tracks : Tracks atLineStart before (c :: rest)) :
    (first atLineStart c rest).1.chars ++ (first atLineStart c rest).2 = c :: rest ∧
      (Regular before (first atLineStart c rest).1 (first atLineStart c rest).2 ∨
        first atLineStart c rest = (illegal c, rest)) := by
  unfold first
  split
  · next isNewline =>
      subst isNewline
      exact ⟨rfl, .inl .newline⟩
  next notNewline =>
  split
  · next blank =>
      simp only [isBlank, Bool.or_eq_true, beq_iff_eq, or_assoc] at blank
      exact ⟨rfl, .inl (.blank blank)⟩
  split
  · next starts =>
      simp only [Bool.and_eq_true, decide_eq_true_eq] at starts
      obtain ⟨rfl, atStart⟩ := starts
      refine ⟨by rw [chars, List.cons_append, List.takeWhile_append_dropWhile], .inl (.directive
        ((tracks.opensLine_iff notNewline).mp atStart) ?_ ?_)⟩
      · intro listed
        have inLine := List.all_eq_true.mp (List.all_takeWhile (p := (· != '\n'))) _ listed
        simp at inLine
      · cases ends : (rest.dropWhile (· != '\n')).head? with
        | none => exact .inl (List.head?_eq_none_iff.mp ends)
        | some next =>
            have stops := List.head?_dropWhile_not (· != '\n') rest
            rw [ends] at stops
            exact .inr (congrArg some (by simpa using stops))
  split
  · next inside _ _ =>
      cases closed : closeComment? inside with
      | none =>
          exact ⟨by rw [chars, List.append_nil]; rfl,
            .inl (.openComment (closeComment?_eq_none.mp closed))⟩
      | some found =>
          obtain ⟨rfl, firstEnd⟩ := closeComment?_eq_some.mp closed
          exact ⟨rfl, .inl (.comment firstEnd)⟩
  · exact ordinary_cases before c rest

/-- The first segment fits. -/
theorem fits_first {atLineStart : Bool} {before : List Segment} {c : Char} {rest : List Char}
    (tracks : Tracks atLineStart before (c :: rest)) :
    Fits before (first atLineStart c rest).1 (first atLineStart c rest).2 := by
  obtain ⟨-, regular | isIllegal⟩ := first_cases tracks
  · exact .regular regular
  · rw [isIllegal]
    refine .illegal ?_
    intro segment after text regular
    have found := first_of_regular tracks regular text
    rw [isIllegal] at found
    obtain ⟨rfl, -⟩ := Prod.mk.inj found
    cases regular

/-- A segment that fits is the first one. -/
theorem first_of_fits {atLineStart : Bool} {before : List Segment} {segment : Segment}
    {c : Char} {after rest : List Char} (tracks : Tracks atLineStart before (c :: rest))
    (fits : Fits before segment after) (text : segment.chars ++ after = c :: rest) :
    first atLineStart c rest = (segment, after) := by
  cases fits with
  | regular regular => exact first_of_regular tracks regular text
  | illegal nothingElse =>
      obtain ⟨rfl, rfl⟩ := List.cons.inj text
      obtain ⟨covers, regular | isIllegal⟩ := first_cases tracks
      · exact absurd regular (nothingElse _ _ covers)
      · exact isIllegal

/-! ## All segments -/

/-- A text opens a line with its start. -/
theorem opensLine_nil : OpensLine [] :=
  ⟨[], [], rfl, .inl rfl, by simp⟩

/-- A line end opens a line, and blanks and comments keep it open. -/
theorem opensLine_concat {before : List Segment} {segment : Segment} :
    OpensLine (before ++ [segment]) ↔
      segment = newline ∨ segment.IsLayout ∧ OpensLine before := by
  constructor
  · rintro ⟨earlier, recent, split, opened, layout⟩
    obtain rfl | ⟨others, last, rfl⟩ := List.eq_nil_or_concat recent
    · rw [List.append_nil] at split
      subst split
      left
      simpa using opened
    · rw [List.concat_eq_append, <- List.append_assoc] at split
      obtain ⟨rfl, sameLast⟩ := List.append_inj' split rfl
      obtain rfl := List.singleton_inj.mp sameLast
      refine .inr ⟨layout segment (by simp), earlier, others, rfl, opened, ?_⟩
      intro other listed
      exact layout other (by simp [listed])
  · rintro (rfl | ⟨isLayout, earlier, recent, rfl, opened, layout⟩)
    · exact ⟨before ++ [newline], [], by simp, .inr (by simp), by simp⟩
    · refine ⟨earlier, recent ++ [segment], by simp, opened, ?_⟩
      intro other listed
      rcases List.mem_append.mp listed with inRecent | isLast
      · exact layout other inRecent
      · rwa [List.mem_singleton.mp isLast]

/-- The flag keeps track behind a segment. -/
theorem Tracks.behind {atLineStart : Bool} {before : List Segment} {segment : Segment} {c : Char}
    {after rest : List Char} (tracks : Tracks atLineStart before (c :: rest))
    (fits : Fits before segment after) (text : segment.chars ++ after = c :: rest) :
    Tracks (segment.keepsLineStart atLineStart) (before ++ [segment]) after := by
  have shut : segment ≠ newline -> ¬ segment.IsLayout -> ¬ OpensLine (before ++ [segment]) := by
    intro notNewline notLayout opens
    rcases opensLine_concat.mp opens with isNewline | ⟨isLayout, -⟩
    · exact notNewline isNewline
    · exact notLayout isLayout
  have kept : segment.IsLayout -> c ≠ '\n' ->
      (atLineStart = true ↔ OpensLine (before ++ [segment])) := by
    intro isLayout notNewline
    rw [tracks.opensLine_iff notNewline, opensLine_concat]
    constructor
    · exact fun opens => .inr ⟨isLayout, opens⟩
    · rintro (rfl | ⟨-, opens⟩)
      · cases isLayout
      · exact opens
  cases fits with
  | illegal => exact .inr (.inr (iff_of_false (by simp [keepsLineStart]) (shut (by simp) id)))
  | regular regular =>
      cases regular with
      | newline => exact .inr (.inr (iff_of_true rfl (opensLine_concat.mpr (.inl rfl))))
      | directive _ _ ends => exact ends.elim .inl fun lineEnd => .inr (.inl lineEnd)
      | openComment => exact .inl rfl
      | blank isBlank =>
          obtain ⟨rfl, -⟩ := List.cons.inj text
          refine .inr (.inr (kept trivial ?_))
          rcases isBlank with rfl | rfl | rfl <;> decide
      | comment =>
          obtain ⟨rfl, -⟩ := List.cons.inj text
          exact .inr (.inr (kept trivial (by decide)))
      | mark | word | numeral =>
          exact .inr (.inr (iff_of_false (by simp [keepsLineStart]) (shut (by simp) id)))

/-- A segment that fits is not empty. -/
theorem Fits.exists_cons {before : List Segment} {segment : Segment} {after : List Char}
    (fits : Fits before segment after) : ∃ c others, segment.chars = c :: others := by
  cases fits with
  | illegal => exact ⟨_, _, rfl⟩
  | regular regular =>
      cases regular with
      | @word text _ isWord =>
          cases text with
          | nil => cases isWord
          | cons c others => exact ⟨c, others, rfl⟩
      | @numeral text _ isNumeral =>
          cases text with
          | nil => cases isNumeral
          | cons c others => exact ⟨c, others, rfl⟩
      | _ => exact ⟨_, _, rfl⟩

/-- The segments that the lexer finds are a partition of the text. -/
theorem partition_split (atLineStart : Bool) (text : List Char) :
    forall before, Tracks atLineStart before text ->
      Partition before text (split atLineStart text) := by
  fun_induction split atLineStart text with
  | case1 atLineStart =>
      intro before _
      exact .done
  | case2 atLineStart c rest segment inductionHypothesis =>
      intro before tracks
      have fits := fits_first tracks
      obtain ⟨covers, -⟩ := first_cases tracks
      have remaining := inductionHypothesis _ (tracks.behind fits covers)
      rw [<- covers]
      exact .next fits remaining

/-- The segments of a whole text, which a directive may start, are a partition of it. -/
theorem partition_text (text : List Char) : Partition [] text (split true text) :=
  partition_split true text [] (.inr (.inr (iff_of_true rfl opensLine_nil)))

/-- Any partition of a text consists of the segments that the lexer finds. -/
theorem Partition.eq_split {before segments : List Segment} {text : List Char}
    (partition : Partition before text segments) {atLineStart : Bool}
    (tracks : Tracks atLineStart before text) : segments = split atLineStart text := by
  induction partition generalizing atLineStart with
  | done => rw [split]
  | @next before segment after segments fits rest inductionHypothesis =>
      obtain ⟨c, others, isChars⟩ := fits.exists_cons
      have text : segment.chars ++ after = c :: (others ++ after) := by
        rw [isChars, List.cons_append]
      rw [text] at tracks ⊢
      rw [split_cons, first_of_fits tracks fits text,
        <- inductionHypothesis (tracks.behind fits text)]

/-- Nothing of a text is lost in a partition. -/
theorem Partition.flatMap_chars {before segments : List Segment} {text : List Char}
    (partition : Partition before text segments) : segments.flatMap chars = text := by
  induction partition with
  | done => rfl
  | next fits rest inductionHypothesis => rw [List.flatMap_cons, inductionHypothesis]

/-! ## What segments are read as -/

/-- What a segment on a line is read as: at most one token or one error. -/
inductive Yields (line : Int) : Segment -> List Token.Kind -> List LexicalError -> Prop where
  | blank {c} : Yields line (.blank c) [] []
  | newline : Yields line .newline [] []
  | directive {text} : Yields line (.directive text) [] []
  | comment {body} : Yields line (.comment body) [] []
  | mark {sign} : Yields line (.mark sign) [.mark sign] []
  | keyword {keyword : Keyword} : Yields line (.word keyword.text.toList) [.keyword keyword] []
  | identifier {text} (unknown : forall keyword : Keyword, keyword.text.toList ≠ text) :
      Yields line (.word text) [.identifier (String.ofList text)] []
  | number {text} (wellFormed : text ∈ Numeral.pattern.matches') :
      Yields line (.numeral text) [.number (String.ofList text)] []
  | malformedNumber {text} (malformed : text ∉ Numeral.pattern.matches') :
      Yields line (.numeral text) [] [.malformedNumber (String.ofList text) line]
  | illegalCharacter {c} : Yields line (.illegal c) [] [.illegalCharacter c line]
  | unclosedComment {body} : Yields line (.openComment body) [] [.unclosedComment line]

/-- The line that begins or goes on behind some segments. -/
def lineBehind (before : List Segment) : Int := 1 + (before.flatMap chars).count '\n'

/-- What segments behind others are read as, one after the other. -/
inductive Reads : List Segment -> List Segment -> List Token.Kind -> List LexicalError -> Prop where
  | done {before} : Reads before [] [] []
  | next {before segment segments kinds more errors others}
      (yields : Yields (lineBehind before) segment kinds errors)
      (rest : Reads (before ++ [segment]) segments more others) :
      Reads before (segment :: segments) (kinds ++ more) (errors ++ others)

end Segment

/-- Every keyword is among all of them. -/
theorem Keyword.mem_all (keyword : Keyword) : keyword ∈ all := by
  cases keyword <;> decide

/-- A word is a keyword if it is spelled like one. -/
theorem Keyword.ofText?_eq_some {word : String} {keyword : Keyword}
    (isKeyword : ofText? word = some keyword) : keyword.text = word := by
  simpa using List.find?_some isKeyword

/-- The kind and the error of a segment are what it is read as. -/
theorem Segment.yields (segment : Segment) (cursor : Cursor) :
    segment.Yields cursor.line segment.kind?.toList (segment.error? cursor).toList := by
  cases segment with
  | word text =>
      rw [kind?]
      split
      · next keyword isKeyword =>
          obtain rfl : keyword.text.toList = text := by
            rw [Keyword.ofText?_eq_some isKeyword, String.toList_ofList]
          exact .keyword
      · next noKeyword =>
          refine .identifier ?_
          rintro keyword rfl
          have differs := List.find?_eq_none.mp noKeyword keyword keyword.mem_all
          simp at differs
  | numeral text =>
      rw [kind?, error?]
      split
      · next isNumeral => exact .number (Numeral.isNumeral_iff.mp isNumeral)
      · next notNumeral => exact .malformedNumber (notNumeral ∘ Numeral.isNumeral_iff.mpr)
  | blank c => exact .blank
  | newline => exact .newline
  | directive text => exact .directive
  | comment body => exact .comment
  | openComment body => exact .unclosedComment
  | mark sign => exact .mark
  | illegal c => exact .illegalCharacter

/-- A cursor advances over a text piece by piece. -/
theorem Cursor.advance_append (cursor : Cursor) (text more : List Char) :
    cursor.advance (text ++ more) = (cursor.advance text).advance more :=
  List.foldl_append

/-- A text goes on for as many lines as it has line ends. -/
theorem Cursor.line_advance (cursor : Cursor) (text : List Char) :
    (cursor.advance text).line = cursor.line + text.count '\n' := by
  induction text generalizing cursor with
  | nil => simp [advance]
  | cons c rest inductionHypothesis =>
      rw [advance, List.foldl_cons, <- advance, inductionHypothesis, List.count_cons, step]
      split
      · next isNewline =>
          simp [isNewline]
          omega
      · next notNewline => simp [notNewline]

namespace Lexing

/-- The tokens that are returned one after the other, up to the first end of the input. -/
def returned (lexing : Lexing) : List Token := lexing.tokens ++ [lexing.endToken]

@[simp]
theorem tokens_afterError (error : LexicalError) (lexing : Lexing) :
    (lexing.afterError error).tokens = lexing.tokens := by
  obtain ⟨lexemes, trailing, finish⟩ := lexing
  cases lexemes <;> rfl

@[simp]
theorem errors_afterError (error : LexicalError) (lexing : Lexing) :
    (lexing.afterError error).errors = error :: lexing.errors := by
  obtain ⟨lexemes, trailing, finish⟩ := lexing
  cases lexemes <;> rfl

@[simp]
theorem finish_afterError (error : LexicalError) (lexing : Lexing) :
    (lexing.afterError error).finish = lexing.finish := by
  obtain ⟨lexemes, trailing, finish⟩ := lexing
  cases lexemes <;> rfl

@[simp]
theorem tokens_afterToken (token : Token) (lexing : Lexing) :
    (lexing.afterToken token).tokens = token :: lexing.tokens := rfl

@[simp]
theorem errors_afterToken (token : Token) (lexing : Lexing) :
    (lexing.afterToken token).errors = lexing.errors := rfl

/-- The first segment is the first token or the first error, or neither. -/
theorem ofSegments_cons (cursor : Cursor) (segment : Segment) (rest : List Segment) :
    let remaining := ofSegments (cursor.advance segment.chars) rest
    (ofSegments cursor (segment :: rest)).tokens =
        (segment.token? cursor).toList ++ remaining.tokens ∧
      (ofSegments cursor (segment :: rest)).errors =
        (segment.error? cursor).toList ++ remaining.errors := by
  intro remaining
  rw [ofSegments]
  split
  · next token isToken =>
      have noError := Scanner.error?_of_token? isToken
      simp [isToken, noError, remaining]
  · next error noToken isError => simp [noToken, isError, remaining]
  · next noToken noError => simp [noToken, noError, remaining]

/-- The text ends behind the last segment. -/
theorem finish_ofSegments (cursor : Cursor) (segments : List Segment) :
    (ofSegments cursor segments).finish = cursor.advance (segments.flatMap Segment.chars) := by
  induction segments generalizing cursor with
  | nil => rfl
  | cons segment rest inductionHypothesis =>
      have behind : (ofSegments cursor (segment :: rest)).finish =
          (ofSegments (cursor.advance segment.chars) rest).finish := by
        rw [ofSegments]
        split
        · rfl
        · exact finish_afterError _ _
        · rfl
      rw [behind, inductionHypothesis, List.flatMap_cons, Cursor.advance_append]

/-- What lexing finds in segments is what they are read as. -/
theorem reads_ofSegments {before segments : List Segment} {cursor : Cursor}
    (line : cursor.line = Segment.lineBehind before) :
    Segment.Reads before segments ((ofSegments cursor segments).tokens.map (·.kind))
      (ofSegments cursor segments).errors := by
  induction segments generalizing before cursor with
  | nil => exact .done
  | cons segment rest inductionHypothesis =>
      obtain ⟨tokens, errors⟩ := ofSegments_cons cursor segment rest
      have kinds : (segment.token? cursor).toList.map (·.kind) = segment.kind?.toList := by
        rw [Segment.token?]
        cases segment.kind? <;> rfl
      have nextLine : (cursor.advance segment.chars).line =
          Segment.lineBehind (before ++ [segment]) := by
        simp [Cursor.line_advance, Segment.lineBehind, line]
        omega
      have yields := segment.yields cursor
      rw [line] at yields
      rw [tokens, errors, List.map_append, kinds]
      exact .next yields (inductionHypothesis nextLine)

/-- Every text falls into segments in exactly one way, nothing of it is lost, and its
tokens and lexical errors are what the segments are read as. -/
theorem ofText_partition (source : String) :
    ∃ segments, Segment.Partition [] source.toList segments ∧
      segments.flatMap Segment.chars = source.toList ∧
      (forall others, Segment.Partition [] source.toList others -> others = segments) ∧
      Segment.Reads [] segments ((ofText source).tokens.map (·.kind)) (ofText source).errors := by
  have tracks : Segment.Tracks true [] source.toList :=
    .inr (.inr (iff_of_true rfl Segment.opensLine_nil))
  have partition := Segment.partition_split true source.toList [] tracks
  refine ⟨_, partition, partition.flatMap_chars, ?_, reads_ofSegments rfl⟩
  intro others another
  exact another.eq_split tracks

end Lexing

end XdrPack
