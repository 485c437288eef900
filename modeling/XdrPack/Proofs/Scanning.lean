import XdrPack.Token.Lexing

/-!
# Scanning on demand

A scanner reads a text piece by piece: each advance goes on to the end of the next
token and records the errors that it meets on the way. Lexing finds the same errors
all at once, and remembers between which tokens they are. So what a scanner has
recorded after some tokens follows from the lexing, and is the start of all errors.
-/

namespace XdrPack

/-- What a scanner has still to read, where it is, and the errors that it has met. -/
structure Scanner where
  text : List Char
  atLineStart : Bool
  cursor : Cursor
  recorded : List LexicalError

namespace Scanner

/-- A scanner at the start of a text. -/
def ofText (source : String) : Scanner := ⟨source.toList, true, .start, []⟩

/-- The scanner behind the next segment, which starts with the given character. -/
def behind (scanner : Scanner) (c : Char) (rest : List Char) : Scanner :=
  let (segment, after) := Segment.first scanner.atLineStart c rest
  { text := after
    atLineStart := segment.keepsLineStart scanner.atLineStart
    cursor := scanner.cursor.advance segment.chars
    recorded := scanner.recorded ++ (segment.error? scanner.cursor).toList }

/-- Reads up to the end of the next token, or to the end of the text. -/
def advance (scanner : Scanner) : Scanner :=
  match _ : scanner.text with
  | [] => scanner
  | c :: rest =>
      match (Segment.first scanner.atLineStart c rest).1.token? scanner.cursor with
      | some _ => scanner.behind c rest
      | none => (scanner.behind c rest).advance
termination_by scanner.text.length
decreasing_by
  rw [‹scanner.text = c :: rest›]
  exact Nat.lt_succ_of_le (Segment.length_first _ c rest)

/-- Reads up to the end of the given number of tokens. -/
def afterTokens (scanner : Scanner) : Nat -> Scanner
  | 0 => scanner
  | count + 1 => scanner.advance.afterTokens count

/-- All that is still to be found. -/
def remaining (scanner : Scanner) : Lexing :=
  .ofSegments scanner.cursor (Segment.split scanner.atLineStart scanner.text)

/-- What is found from a segment on. -/
theorem remaining_cons {scanner : Scanner} {c : Char} {rest : List Char}
    (unread : scanner.text = c :: rest) :
    scanner.remaining =
      let segment := (Segment.first scanner.atLineStart c rest).1
      match segment.token? scanner.cursor, segment.error? scanner.cursor with
      | some token, _ => (scanner.behind c rest).remaining.afterToken token
      | none, some error => (scanner.behind c rest).remaining.afterError error
      | none, none => (scanner.behind c rest).remaining := by
  unfold remaining
  rw [unread, Segment.split, Lexing.ofSegments]
  rfl

/-- No segment is both a token and an error. -/
theorem error?_of_token? {cursor : Cursor} {segment : Segment} {token : Token}
    (isToken : segment.token? cursor = some token) : segment.error? cursor = none := by
  cases segment with
  | numeral text =>
      simp only [Segment.token?, Segment.kind?, Segment.error?] at isToken ⊢
      split
      · rfl
      · next malformed => simp [malformed] at isToken
  | openComment | illegal => simp [Segment.token?, Segment.kind?] at isToken
  | _ => rfl

/-- An advance records the errors before the next token and leaves what is behind it,
or it records all errors that are left. -/
theorem advance_spec (scanner : Scanner) :
    match scanner.remaining.lexemes with
    | [] =>
        scanner.advance.recorded = scanner.recorded ++ scanner.remaining.trailing ∧
          scanner.advance.remaining = { scanner.remaining with trailing := [] }
    | first :: rest =>
        scanner.advance.recorded = scanner.recorded ++ first.skipped ∧
          scanner.advance.remaining = { scanner.remaining with lexemes := rest } := by
  fun_induction advance scanner with
  | case1 scanner unread =>
      have nothing : scanner.remaining = ⟨[], [], scanner.cursor⟩ := by
        rw [remaining, unread, Segment.split, Lexing.ofSegments]
      simp [nothing]
  | case2 scanner c rest unread token isToken =>
      have found := remaining_cons unread
      simp only [isToken] at found
      rw [found]
      simp [Lexing.afterToken, behind, error?_of_token? isToken]
  | case3 scanner c rest unread noToken inductionHypothesis =>
      have found := remaining_cons unread
      simp only [noToken] at found
      cases noError : (Segment.first scanner.atLineStart c rest).1.error? scanner.cursor with
      | none =>
          have recorded : (scanner.behind c rest).recorded = scanner.recorded := by
            simp [behind, noError]
          simp only [noError] at found
          rw [recorded] at inductionHypothesis
          rwa [found]
      | some error =>
          have recorded : (scanner.behind c rest).recorded = scanner.recorded ++ [error] := by
            simp [behind, noError]
          simp only [noError] at found
          rw [recorded] at inductionHypothesis
          rw [found]
          cases lexemes : (scanner.behind c rest).remaining.lexemes with
          | nil => simpa [Lexing.afterError, lexemes] using inductionHypothesis
          | cons first others => simpa [Lexing.afterError, lexemes] using inductionHypothesis

/-- A scanner records the errors before each token that it reads, and the errors behind
the last token once it is asked for one more. -/
theorem recorded_afterTokens (scanner : Scanner) (count : Nat) :
    (scanner.afterTokens count).recorded =
      scanner.recorded ++ (scanner.remaining.lexemes.take count).flatMap (·.skipped)
        ++ if count <= scanner.remaining.lexemes.length then []
          else scanner.remaining.trailing := by
  induction count generalizing scanner with
  | zero => simp [afterTokens]
  | succ count inductionHypothesis =>
      have step := scanner.advance_spec
      rw [afterTokens, inductionHypothesis]
      cases lexemes : scanner.remaining.lexemes with
      | nil =>
          simp only [lexemes] at step
          obtain ⟨recorded, remaining⟩ := step
          simp [recorded, remaining]
      | cons first rest =>
          simp only [lexemes] at step
          obtain ⟨recorded, remaining⟩ := step
          simp [recorded, remaining]

/-- The errors that are seen with all but some tokens consumed are those that are
recorded when the token behind the consumed ones has been read. -/
theorem recorded_eq_errorsSeen (source : String) {unread : Nat}
    (within : unread <= (Lexing.ofText source).lexemes.length) :
    ((ofText source).afterTokens ((Lexing.ofText source).lexemes.length - unread + 1)).recorded =
      (Lexing.ofText source).errorsSeen unread := by
  have lexing : (ofText source).remaining = Lexing.ofText source := rfl
  have nothing : (ofText source).recorded = [] := rfl
  rw [recorded_afterTokens, lexing, nothing, List.nil_append, Lexing.errorsSeen]
  split
  · next notAll =>
      have more : unread ≠ 0 := by omega
      rw [if_neg more, List.append_nil]
  · next all =>
      have ended : unread = 0 := by omega
      rw [if_pos ended, List.take_of_length_le (by omega), Lexing.errors]

/-- What has been recorded at any time is the start of all errors. -/
theorem recorded_prefix (source : String) (count : Nat) :
    ((ofText source).afterTokens count).recorded <+: (Lexing.ofText source).errors := by
  have lexing : (ofText source).remaining = Lexing.ofText source := rfl
  have nothing : (ofText source).recorded = [] := rfl
  rw [recorded_afterTokens, lexing, nothing, List.nil_append, Lexing.errors]
  split
  · rw [List.append_nil]
    refine List.IsPrefix.trans ?_ (List.prefix_append _ _)
    exact ⟨_, by rw [<- List.flatMap_append, List.take_append_drop]⟩
  · next all => exact ⟨[], by rw [List.append_nil, List.take_of_length_le (by omega)]⟩

end Scanner

end XdrPack
