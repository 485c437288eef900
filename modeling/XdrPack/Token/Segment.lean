import XdrPack.Token

/-!
# Segments of a source text

A source text falls, without gap or overlap, into segments: blanks, line ends,
pass-through directives, comments, punctuation marks, words, numerals and
characters that belong to nothing. Words and numerals are as long as possible.
Splitting never fails; a comment that is never closed is a segment too.
-/

namespace XdrPack

/-- A stretch of source text of one sort. -/
inductive Segment where
  /-- A space, a tab or a carriage return. -/
  | blank (c : Char)
  /-- A line feed. -/
  | newline
  /-- A percent sign at the start of a line and the rest of that line. -/
  | directive (text : List Char)
  /-- A comment, given by what stands between its delimiters. -/
  | comment (body : List Char)
  /-- A comment that is opened and never closed. -/
  | openComment (body : List Char)
  /-- A punctuation mark. -/
  | mark (mark : Mark)
  /-- A letter with the letters, digits and underscores that follow. -/
  | word (text : List Char)
  /-- A digit, or a minus sign and a digit, with the letters, digits and
  underscores that follow. -/
  | numeral (text : List Char)
  /-- A character that begins nothing. -/
  | illegal (c : Char)
  deriving DecidableEq, Repr

namespace Segment

/-- The characters of a segment. -/
def chars : Segment -> List Char
  | blank c => [c]
  | newline => ['\n']
  | directive text => '%' :: text
  | comment body => ['/', '*'] ++ body ++ ['*', '/']
  | openComment body => ['/', '*'] ++ body
  | mark sign => [sign.char]
  | word text => text
  | numeral text => text
  | illegal c => [c]

/-- Whether a directive may follow the segment on the same line, given whether
it could have stood in the segment's place. -/
def keepsLineStart (atLineStart : Bool) : Segment -> Bool
  | newline => true
  | blank _ | directive _ | comment _ | openComment _ => atLineStart
  | mark _ | word _ | numeral _ | illegal _ => false

/-- Whether a character is a blank. -/
def isBlank (c : Char) : Bool := c == ' ' || c == '\t' || c == '\r'

/-- Whether a character may continue a word or a numeral. -/
def isWordChar (c : Char) : Bool := c.isAlphanum || c == '_'

/-- Splits a text behind the first comment end, which is left out. -/
def closeComment? : List Char -> Option (List Char × List Char)
  | [] => none
  | '*' :: '/' :: rest => some ([], rest)
  | c :: rest => (closeComment? rest).map fun (body, after) => (c :: body, after)

/-- Whether a text starts with a digit. -/
def startsWithDigit : List Char -> Bool
  | [] => false
  | c :: _ => c.isDigit

/-- The segment of a character that begins neither a comment nor a directive,
and what is left of the text after it. -/
def ordinary (c : Char) (rest : List Char) : Segment × List Char :=
  match Mark.ofChar? c with
  | some sign => (mark sign, rest)
  | none =>
      if c.isAlpha then
        (word (c :: rest.takeWhile isWordChar), rest.dropWhile isWordChar)
      else if c.isDigit || (c == '-' && startsWithDigit rest) then
        (numeral (c :: rest.takeWhile isWordChar), rest.dropWhile isWordChar)
      else
        (illegal c, rest)

/-- The first segment of a text that starts with the character `c`, and what is
left of the text after it. -/
def first (atLineStart : Bool) (c : Char) (rest : List Char) : Segment × List Char :=
  if c = '\n' then
    (newline, rest)
  else if isBlank c then
    (blank c, rest)
  else if c = '%' && atLineStart then
    (directive (rest.takeWhile (· != '\n')), rest.dropWhile (· != '\n'))
  else
    match c, rest with
    | '/', '*' :: inside =>
        match closeComment? inside with
        | some (body, after) => (comment body, after)
        | none => (openComment inside, [])
    | _, _ => ordinary c rest

/-- What follows a closed comment is shorter than what follows its opening. -/
theorem length_closeComment? {inside body after : List Char}
    (closed : closeComment? inside = some (body, after)) : after.length < inside.length := by
  fun_induction closeComment? inside generalizing body with
  | case1 => simp at closed
  | case2 rest =>
      simp only [Option.some.injEq, Prod.mk.injEq] at closed
      obtain ⟨-, rfl⟩ := closed
      simp only [List.length_cons]
      omega
  | case3 c rest _ inductionHypothesis =>
      obtain ⟨⟨inner, remaining⟩, found, equal⟩ := Option.map_eq_some_iff.mp closed
      simp only [Prod.mk.injEq] at equal
      obtain ⟨-, rfl⟩ := equal
      have shorter := inductionHypothesis found
      simp only [List.length_cons]
      omega

/-- An ordinary segment leaves no more than what followed its first character. -/
theorem length_ordinary (c : Char) (rest : List Char) :
    (ordinary c rest).2.length <= rest.length := by
  have shorter := (List.dropWhile_suffix (l := rest) isWordChar).length_le
  unfold ordinary
  split
  · exact Nat.le_refl _
  · split
    · exact shorter
    · split
      · exact shorter
      · exact Nat.le_refl _

/-- The first segment leaves no more than what followed its first character. -/
theorem length_first (atLineStart : Bool) (c : Char) (rest : List Char) :
    (first atLineStart c rest).2.length <= rest.length := by
  unfold first
  split
  · exact Nat.le_refl _
  split
  · exact Nat.le_refl _
  split
  · exact (List.dropWhile_suffix (l := rest) _).length_le
  split
  · next inside =>
      split
      · next closed =>
          have shorter := length_closeComment? closed
          simp only [List.length_cons]
          omega
      · exact Nat.zero_le _
  · exact length_ordinary c rest

/-- The segments of a text, given whether a directive may stand at its start. -/
def split (atLineStart : Bool) : List Char -> List Segment
  | [] => []
  | c :: rest =>
      let segment := (first atLineStart c rest).1
      segment :: split (segment.keepsLineStart atLineStart) (first atLineStart c rest).2
termination_by text => text.length
decreasing_by exact Nat.lt_succ_of_le (length_first atLineStart c rest)

end Segment

end XdrPack
