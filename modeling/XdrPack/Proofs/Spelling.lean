import XdrPack.Proofs.Words

/-!
# Spelling tokens

A text spells a list of token kinds if the lexer finds exactly these in it, wherever
it stands and whatever may follow. Spellings are put together piece by piece: words
and numerals have to be followed by something that does not continue them, and blanks,
line ends and punctuation marks by nothing in particular.
-/

namespace XdrPack

/-! ## First segments -/

namespace Segment

/-- A text is split into its first segment and what is behind it. -/
theorem split_cons (atLineStart : Bool) (c : Char) (rest : List Char) :
    split atLineStart (c :: rest) =
      (first atLineStart c rest).1 ::
        split ((first atLineStart c rest).1.keepsLineStart atLineStart)
          (first atLineStart c rest).2 := by
  rw [split]

/-- A mark is a segment of its own. -/
theorem first_mark (atLineStart : Bool) (sign : Mark) (rest : List Char) :
    first atLineStart sign.char rest = (mark sign, rest) := by
  cases sign <;> rfl

/-- A space is a segment of its own. -/
theorem first_space (atLineStart : Bool) (rest : List Char) :
    first atLineStart ' ' rest = (blank ' ', rest) := rfl

/-- A line end is a segment of its own. -/
theorem first_newline (atLineStart : Bool) (rest : List Char) :
    first atLineStart '\n' rest = (newline, rest) := rfl

/-- A character that is no sign of its own begins an ordinary segment. -/
theorem first_eq_ordinary {c : Char} (atLineStart : Bool) (rest : List Char)
    (plain : c.isAlphanum = true ∨ c = '-') :
    first atLineStart c rest = ordinary c rest := by
  have differs : forall sign : Char, sign.isAlphanum = false -> sign ≠ '-' -> c ≠ sign := by
    rintro sign notPlain notMinus rfl
    rcases plain with plain | plain
    · rw [plain] at notPlain
      cases notPlain
    · exact notMinus plain
  have notNewline : c ≠ '\n' := differs _ (by decide) (by decide)
  have notBlank : isBlank c = false := by
    simp [isBlank, differs ' ' (by decide) (by decide), differs '\t' (by decide) (by decide),
      differs '\r' (by decide) (by decide)]
  have notPercent : c ≠ '%' := differs _ (by decide) (by decide)
  have notSlash : c ≠ '/' := differs _ (by decide) (by decide)
  unfold first
  rw [if_neg notNewline, notBlank]
  simp only [Bool.false_eq_true, if_false, notPercent, decide_false, Bool.false_and]
  split
  · exact absurd rfl notSlash
  · rfl

/-- No letter, digit or sign of a number is a mark. -/
theorem ofChar?_eq_none {c : Char} (plain : c.isAlphanum = true ∨ c = '-') :
    Mark.ofChar? c = none := by
  rw [Mark.ofChar?, List.find?_eq_none]
  rintro sign - isSign
  obtain rfl : sign.char = c := by simpa using isSign
  revert plain
  cases sign <;> decide

/-- Whether a text is a digit, or a minus sign and a digit, with word characters
behind it. -/
def isNumeralText : List Char -> Bool
  | [] => false
  | c :: rest => (c.isDigit || (c == '-' && startsWithDigit rest)) && rest.all isWordChar

/-- Word characters are taken up to where they end. -/
theorem takeWhile_append {text rest : List Char} (all : text.all isWordChar = true)
    (ends : forall c, rest.head? = some c -> isWordChar c = false) :
    (text ++ rest).takeWhile isWordChar = text ∧ (text ++ rest).dropWhile isWordChar = rest := by
  have isWord : IsWord (String.ofList text) := by
    simpa [IsWord, List.all_eq_true] using all
  have taken := isWord.takeWhile ends
  have dropped := isWord.dropWhile ends
  rw [String.toList_ofList] at taken dropped
  exact ⟨taken, dropped⟩

/-- A word is the first segment where it ends. -/
theorem first_word {c : Char} {text rest : List Char} (atLineStart : Bool)
    (isWord : isWordText (c :: text) = true)
    (ends : forall c, rest.head? = some c -> isWordChar c = false) :
    first atLineStart c (text ++ rest) = (word (c :: text), rest) := by
  simp only [isWordText, Bool.and_eq_true] at isWord
  obtain ⟨letter, all⟩ := isWord
  have plain : c.isAlphanum = true ∨ c = '-' := .inl (by simp [Char.isAlphanum, letter])
  obtain ⟨taken, dropped⟩ := takeWhile_append all ends
  rw [first_eq_ordinary atLineStart _ plain, ordinary, ofChar?_eq_none plain]
  simp only [letter, if_true, taken, dropped]

/-- The letters are those of the two alphabets of the character set. -/
theorem isAlpha_iff (c : Char) :
    c.isAlpha = true ↔ ('A' <= c ∧ c <= 'Z') ∨ ('a' <= c ∧ c <= 'z') := by
  change (decide ('A'.val <= c.val ∧ c.val <= 'Z'.val) ||
    (decide ('a'.val <= c.val) && decide (c.val <= 'z'.val))) = true ↔ _
  simp only [Bool.or_eq_true, Bool.and_eq_true, decide_eq_true_eq, Char.le_def]

/-- No digit is a letter. -/
theorem isAlpha_eq_false_of_isDigit {c : Char} (digit : c.isDigit = true) :
    c.isAlpha = false := by
  rw [Bool.eq_false_iff, Ne, isAlpha_iff]
  simp only [Char.isDigit, Bool.and_eq_true, decide_eq_true_eq, ge_iff_le, Char.le_def,
    UInt32.le_iff_toNat_le] at *
  have capital : '9'.val.toNat < 'A'.val.toNat := by decide
  have small : '9'.val.toNat < 'a'.val.toNat := by decide
  omega

/-- Hexadecimal digits are word characters. -/
theorem isWordChar_of_isHexDigit {c : Char} (digit : Numeral.isHexDigit c = true) :
    isWordChar c = true := by
  simp only [Numeral.isHexDigit, isWordChar, Char.isAlphanum, Char.isDigit, isAlpha_iff,
    Bool.and_eq_true, Bool.or_eq_true, decide_eq_true_eq, ge_iff_le, Char.le_def,
    UInt32.le_iff_toNat_le] at *
  have small : 'f'.val.toNat <= 'z'.val.toNat := by decide
  have capital : 'F'.val.toNat <= 'Z'.val.toNat := by decide
  omega

/-- Octal digits are digits. -/
theorem isDigit_of_isOctalDigit {c : Char} (digit : Numeral.isOctalDigit c = true) :
    c.isDigit = true := by
  simp only [Numeral.isOctalDigit, Char.isDigit, Bool.and_eq_true, decide_eq_true_eq, ge_iff_le,
    Char.le_def, UInt32.le_iff_toNat_le] at *
  have fewer : '7'.val.toNat <= '9'.val.toNat := by decide
  omega

/-- A number without a sign starts with a digit. -/
theorem isNumeralText_of_isUnsigned {text : List Char} (isNumber : Numeral.isUnsigned text = true) :
    startsWithDigit text = true ∧ text.all isWordChar = true := by
  have wordChar : forall {c : Char}, c.isDigit = true -> isWordChar c = true := by
    intro c digit
    simp [isWordChar, Char.isAlphanum, digit]
  have allWordChars : forall {digits : List Char} {isOne : Char -> Bool},
      (forall {c : Char}, isOne c = true -> isWordChar c = true) -> digits.all isOne = true ->
      digits.all isWordChar = true := by
    intro digits isOne each all
    exact List.all_eq_true.mpr fun c listed => each (List.all_eq_true.mp all c listed)
  unfold Numeral.isUnsigned at isNumber
  split at isNumber
  · cases isNumber
  · have all := allWordChars isWordChar_of_isHexDigit (Bool.and_eq_true_iff.mp isNumber).2
    exact ⟨rfl, all⟩
  · have all := allWordChars isWordChar_of_isHexDigit (Bool.and_eq_true_iff.mp isNumber).2
    exact ⟨rfl, all⟩
  · have all := allWordChars (fun digit => wordChar (isDigit_of_isOctalDigit digit)) isNumber
    exact ⟨rfl, all⟩
  · obtain ⟨digit, digits⟩ := Bool.and_eq_true_iff.mp isNumber
    refine ⟨digit, ?_⟩
    rw [List.all_cons, wordChar digit, allWordChars wordChar digits, Bool.and_self]

/-- A numeral is written like one. -/
theorem isNumeralText_of_isNumeral {text : List Char} (isNumber : Numeral.isNumeral text = true) :
    isNumeralText text = true := by
  unfold Numeral.isNumeral at isNumber
  split at isNumber
  · obtain ⟨starts, all⟩ := isNumeralText_of_isUnsigned isNumber
    simpa [isNumeralText, starts] using all
  · obtain ⟨starts, all⟩ := isNumeralText_of_isUnsigned isNumber
    cases text with
    | nil => cases starts
    | cons c rest =>
        have digit : c.isDigit = true := starts
        rw [isNumeralText, digit, Bool.true_or, Bool.true_and]
        exact (Bool.and_eq_true_iff.mp all).2

/-- A numeral is the first segment where it ends. -/
theorem first_numeral {c : Char} {text rest : List Char} (atLineStart : Bool)
    (isNumeral : isNumeralText (c :: text) = true)
    (ends : forall c, rest.head? = some c -> isWordChar c = false) :
    first atLineStart c (text ++ rest) = (numeral (c :: text), rest) := by
  simp only [isNumeralText, Bool.and_eq_true] at isNumeral
  obtain ⟨starts, all⟩ := isNumeral
  have plain : c.isAlphanum = true ∨ c = '-' := by
    rcases Bool.or_eq_true_iff.mp starts with digit | minus
    · exact .inl (by simp [Char.isAlphanum, digit])
    · exact .inr (by simpa using (Bool.and_eq_true_iff.mp minus).1)
  have notLetter : c.isAlpha = false := by
    rcases Bool.or_eq_true_iff.mp starts with digit | minus
    · exact isAlpha_eq_false_of_isDigit digit
    · obtain rfl : c = '-' := by simpa using (Bool.and_eq_true_iff.mp minus).1
      decide
  have starts : (c.isDigit || (c == '-' && startsWithDigit (text ++ rest))) = true := by
    cases text with
    | nil =>
        have digit : c.isDigit = true := by simpa [startsWithDigit] using starts
        simp [digit]
    | cons next others => exact starts
  obtain ⟨taken, dropped⟩ := takeWhile_append all ends
  rw [first_eq_ordinary atLineStart _ plain, ordinary, ofChar?_eq_none plain]
  simp only [notLetter, starts, if_true, taken, dropped, Bool.false_eq_true, if_false]

end Segment

/-! ## Spelling -/

/-- What follows does not continue a word. -/
def EndsWord (text : List Char) : Prop :=
  forall c, text.head? = some c -> Segment.isWordChar c = false

/-- A character that belongs to no word ends one. -/
theorem endsWord_cons {c : Char} (ends : Segment.isWordChar c = false) (rest : List Char) :
    EndsWord (c :: rest) := by
  rintro other ⟨⟩
  exact ends

/-- Anything follows. -/
def AnyText (_ : List Char) : Prop := True

/-- The segment is no error, wherever it begins. -/
def Segment.IsFaultless (segment : Segment) : Prop :=
  forall cursor, segment.error? cursor = none

/-- The text is read as the phrase and without errors before whatever may follow. -/
def Spells (follows : List Char -> Prop) (text : String) (phrase : List Token.Kind) : Prop :=
  forall atLineStart rest, follows rest ->
    ∃ segments later,
      Segment.split atLineStart (text.toList ++ rest) = segments ++ Segment.split later rest ∧
      segments.filterMap Segment.kind? = phrase ∧
      forall segment, segment ∈ segments -> segment.IsFaultless

namespace Spells

variable {follows before : List Char -> Prop} {left right text : String}
  {front back : List Token.Kind}

/-- A text that is one segment spells what the segment is. -/
theorem ofSegment (segment : Segment) {c : Char} {others : List Char}
    (chars : text.toList = c :: others)
    (isFirst : forall atLineStart rest, follows rest ->
      Segment.first atLineStart c (others ++ rest) = (segment, rest))
    (faultless : segment.IsFaultless) : Spells follows text segment.kind?.toList := by
  intro atLineStart rest allowed
  refine ⟨[segment], segment.keepsLineStart atLineStart, ?_, ?_, by simpa using faultless⟩
  · rw [chars, List.cons_append, Segment.split_cons, isFirst atLineStart rest allowed]
    rfl
  · rw [List.filterMap_cons, List.filterMap_nil]
    cases segment.kind? <;> rfl

/-- The empty text spells nothing. -/
theorem empty : Spells follows "" [] := by
  intro atLineStart rest _
  exact ⟨[], atLineStart, rfl, rfl, by simp⟩

/-- One text after another spells one phrase after another, if the second may follow
the first. -/
theorem append (first : Spells before left front) (second : Spells follows right back)
    (fits : forall rest, follows rest -> before (right.toList ++ rest)) :
    Spells follows (left ++ right) (front ++ back) := by
  intro atLineStart rest allowed
  obtain ⟨segments, middle, split, rfl, faultless⟩ := first atLineStart _ (fits rest allowed)
  obtain ⟨more, later, splitMore, rfl, faultlessMore⟩ := second middle rest allowed
  refine ⟨segments ++ more, later, ?_, by simp, ?_⟩
  · rw [String.toList_append, List.append_assoc, split, splitMore, List.append_assoc]
  · intro segment listed
    rcases List.mem_append.mp listed with earlier | late
    · exact faultless segment earlier
    · exact faultlessMore segment late

/-- Anything may come after what needs no end. -/
theorem andThen (first : Spells AnyText left front) (second : Spells follows right back) :
    Spells follows (left ++ right) (front ++ back) :=
  first.append second fun _ _ => trivial

/-- What needs an end may come anywhere before it. -/
theorem narrow (spells : Spells AnyText text front) : Spells follows text front :=
  fun atLineStart rest _ => spells atLineStart rest trivial

/-- A space spells nothing. -/
theorem space : Spells AnyText " " [] :=
  ofSegment (.blank ' ') rfl (fun atLineStart rest _ => Segment.first_space atLineStart rest)
    fun _ => rfl

/-- A line end spells nothing. -/
theorem newline : Spells AnyText "\n" [] :=
  ofSegment .newline rfl (fun atLineStart rest _ => Segment.first_newline atLineStart rest)
    fun _ => rfl

/-- The character of a mark spells the mark. -/
theorem mark (sign : Mark) : Spells AnyText (String.singleton sign.char) [.mark sign] :=
  ofSegment (.mark sign) (String.toList_singleton sign.char)
    (fun atLineStart rest _ => Segment.first_mark atLineStart sign rest) fun _ => rfl

/-- A word is read as what it is, if it ends. -/
theorem word (isWord : Segment.isWordText text.toList = true) :
    Spells EndsWord text (Segment.word text.toList).kind?.toList := by
  cases chars : text.toList with
  | nil =>
      rw [chars] at isWord
      cases isWord
  | cons c others =>
      rw [chars] at isWord
      exact ofSegment _ chars (fun atLineStart _ ends => Segment.first_word atLineStart isWord ends)
        fun _ => rfl

/-- A numeral is read as a number, if it ends. -/
theorem number (isNumeral : Numeral.isNumeral text.toList = true) :
    Spells EndsWord text [.number text] := by
  have isText := Segment.isNumeralText_of_isNumeral isNumeral
  have faultless : (Segment.numeral text.toList).IsFaultless := by
    intro cursor
    simp [Segment.error?, isNumeral]
  have kind : (Segment.numeral text.toList).kind? = some (.number text) := by
    simp [Segment.kind?, isNumeral]
  cases chars : text.toList with
  | nil =>
      rw [chars] at isText
      cases isText
  | cons c others =>
      rw [chars] at isText faultless kind
      have spelled := ofSegment _ chars
        (fun atLineStart _ ends => Segment.first_numeral atLineStart isText ends) faultless
      rwa [kind] at spelled

/-- The spelling of a keyword is a word that is that keyword. -/
theorem isWordText_keyword (word : Keyword) :
    Segment.isWordText word.text.toList = true ∧ Keyword.ofText? word.text = some word := by
  cases word <;> decide

/-- A keyword is read as the keyword, if it ends. -/
theorem keyword (word : Keyword) : Spells EndsWord word.text [.keyword word] := by
  obtain ⟨isWord, isKeyword⟩ := isWordText_keyword word
  have spelled := Spells.word isWord
  rwa [Segment.kind?, String.ofList_toList, isKeyword] at spelled

/-- An identifier is read as the identifier, if it ends. -/
theorem identifier (isLexical : (Token.Kind.identifier text).isLexical = true) :
    Spells EndsWord text [.identifier text] := by
  obtain ⟨isWord, noKeyword⟩ := Bool.and_eq_true_iff.mp isLexical
  have spelled := Spells.word isWord
  rwa [Segment.kind?, String.ofList_toList, Option.isNone_iff_eq_none.mp noKeyword] at spelled

end Spells

/-! ## Lines -/

/-- One item after the other, with nothing between them. -/
inductive Grammar.Each {τ : Type} (item : Grammar τ) : Grammar (List τ) where
  | nil : Each item [] []
  | cons {phrase others : Phrase} {tree : τ} {trees : List τ} (first : item phrase tree)
      (rest : Each item others trees) : Each item (phrase ++ others) (tree :: trees)

namespace Grammar.Each

variable {τ : Type} {item : Grammar τ} {phrase others : Phrase} {trees more : List τ}

/-- One phrase is a list of phrases. -/
theorem single {tree : τ} (only : item phrase tree) : Each item phrase [tree] := by
  simpa using Each.cons only .nil

/-- Lists of phrases can be joined. -/
theorem append (first : Each item phrase trees) (second : Each item others more) :
    Each item (phrase ++ others) (trees ++ more) := by
  induction first with
  | nil => exact second
  | cons head _ inductionHypothesis =>
      rw [List.append_assoc]
      exact .cons head inductionHypothesis

/-- A list of items that is not empty is one of at least one item. -/
theorem oneOrMore (each : Each item phrase trees) (nonempty : trees ≠ []) :
    OneOrMore item [] phrase trees := by
  induction each with
  | nil => exact absurd rfl nonempty
  | @cons phrase others tree trees first rest inductionHypothesis =>
      cases rest with
      | nil => simpa using OneOrMore.one first
      | cons second third => simpa using OneOrMore.more first (inductionHypothesis (by simp))

end Grammar.Each

/-- Lines that spell one phrase after the other. -/
abbrev SpellsLines (phrase : Phrase) (lines : List String) : Prop :=
  Grammar.Each (fun spelled line => Spells AnyText line spelled) phrase lines

/-- Joined lines spell what the lines do. -/
theorem SpellsLines.joined {phrase : Phrase} {lines : List String}
    (spelled : SpellsLines phrase lines) : Spells AnyText ("\n".intercalate lines) phrase := by
  induction spelled with
  | nil => exact .empty
  | cons first rest inductionHypothesis =>
      cases rest with
      | nil => simpa using first
      | cons second others =>
          rw [String.intercalate_cons_cons]
          have ended := first.andThen .newline
          rw [List.append_nil] at ended
          exact ended.andThen inductionHypothesis

/-! ## Lexing a spelling -/

/-- Segments without a fault give their kinds and no errors. -/
theorem Lexing.ofSegments_faultless {segments : List Segment} (cursor : Cursor)
    (faultless : forall segment, segment ∈ segments -> segment.IsFaultless) :
    (ofSegments cursor segments).errors = [] ∧
      (ofSegments cursor segments).tokens.map (·.kind) = segments.filterMap Segment.kind? := by
  induction segments generalizing cursor with
  | nil => exact ⟨rfl, rfl⟩
  | cons segment rest inductionHypothesis =>
      obtain ⟨isFaultless, restFaultless⟩ := List.forall_mem_cons.mp faultless
      obtain ⟨noErrors, kinds⟩ :=
        inductionHypothesis (cursor.advance segment.chars) restFaultless
      simp only [ofSegments, Segment.token?, isFaultless cursor]
      cases isKind : segment.kind? with
      | none => simpa [isKind] using ⟨noErrors, kinds⟩
      | some kind =>
          simp only [Option.map_some, List.filterMap_cons, isKind, <- kinds]
          exact ⟨noErrors, rfl⟩

/-- Lexing a spelling that may end the text gives what is spelled, and no errors. -/
theorem Spells.lexing {follows : List Char -> Prop} {text : String} {phrase : List Token.Kind}
    (spelled : Spells follows text phrase) (mayEnd : follows []) :
    (Lexing.ofText text).errors = [] ∧ (Lexing.ofText text).tokens.map (·.kind) = phrase := by
  obtain ⟨segments, later, split, rfl, faultless⟩ := spelled true [] mayEnd
  rw [List.append_nil, Segment.split, List.append_nil] at split
  rw [Lexing.ofText, split]
  exact Lexing.ofSegments_faultless .start faultless

-- Spellings are put together by the lemmas above. Comparing texts piece by piece should
-- not open what they mean.
attribute [irreducible] Spells

end XdrPack
