import XdrPack.Proofs.TypeNames

/-!
# Names are words

The lexer makes identifiers of letters, digits and underscores only, and a type
name of a parsed definition is one of the identifiers. So every type name that
appears in generated code is a word, and ends where the word ends.
-/

namespace XdrPack

open Grammar

/-- A name of letters, digits and underscores. -/
def IsWord (name : String) : Prop := forall c, c ∈ name.toList -> Segment.isWordChar c = true

instance (name : String) : Decidable (IsWord name) :=
  decidable_of_iff (name.toList.all Segment.isWordChar) List.all_eq_true

/-- A word is read up to its end. -/
theorem IsWord.takeWhile {name : String} (isWord : IsWord name) {rest : List Char}
    (ends : forall c, rest.head? = some c -> Segment.isWordChar c = false) :
    (name.toList ++ rest).takeWhile Segment.isWordChar = name.toList := by
  rw [List.takeWhile_append_of_pos isWord]
  cases rest with
  | nil => simp
  | cons c others => simp [ends c rfl]

/-- What follows a word is left. -/
theorem IsWord.dropWhile {name : String} (isWord : IsWord name) {rest : List Char}
    (ends : forall c, rest.head? = some c -> Segment.isWordChar c = false) :
    (name.toList ++ rest).dropWhile Segment.isWordChar = rest := by
  rw [List.dropWhile_append_of_pos isWord]
  cases rest with
  | nil => rfl
  | cons c others => simp [ends c rfl]

/-! ## Identifiers -/

namespace Segment

/-- Whether a text is a letter with word characters behind it. -/
def isWordText : List Char -> Bool
  | [] => false
  | c :: rest => c.isAlpha && rest.all isWordChar

/-- A word text consists of word characters. -/
theorem isWordChar_of_isWordText {text : List Char} (isWord : isWordText text = true) :
    forall c, c ∈ text -> isWordChar c = true := by
  cases text with
  | nil => cases isWord
  | cons c rest =>
      obtain ⟨letter, all⟩ := Bool.and_eq_true_iff.mp isWord
      intro each listed
      rcases List.mem_cons.mp listed with rfl | later
      · simp [isWordChar, Char.isAlphanum, letter]
      · exact List.all_eq_true.mp all each later

/-- A word starts with a letter, and word characters follow it. -/
theorem isWordText_of_first {atLineStart : Bool} {c : Char} {rest text : List Char}
    (isWord : (first atLineStart c rest).1 = .word text) : isWordText text = true := by
  have ordinaryWord : (ordinary c rest).1 = .word text -> isWordText text = true := by
    unfold ordinary
    intro isWord
    split at isWord
    · cases isWord
    · split at isWord
      · next letter =>
          cases isWord
          simp [isWordText, letter, List.all_takeWhile]
      · split at isWord <;> cases isWord
  unfold first at isWord
  split at isWord
  · cases isWord
  split at isWord
  · cases isWord
  split at isWord
  · cases isWord
  split at isWord
  · split at isWord <;> cases isWord
  · exact ordinaryWord isWord

/-- The words of a text are word texts. -/
theorem isWordText_of_split {atLineStart : Bool} {source text : List Char}
    (listed : .word text ∈ split atLineStart source) : isWordText text = true := by
  fun_induction split atLineStart source with
  | case1 => cases listed
  | case2 atLineStart c rest segment inductionHypothesis =>
      rcases List.mem_cons.mp listed with isFirst | later
      · exact isWordText_of_first isFirst.symm
      · exact inductionHypothesis later

end Segment

/-- Every token comes from a segment of the text. -/
theorem Lexing.exists_segment {cursor : Cursor} {segments : List Segment} {token : Token}
    (listed : token ∈ (ofSegments cursor segments).tokens) :
    ∃ segment, segment ∈ segments ∧ segment.kind? = some token.kind := by
  induction segments generalizing cursor with
  | nil => cases listed
  | cons segment rest inductionHypothesis =>
      have later : token ∈ (ofSegments (cursor.advance segment.chars) rest).tokens ->
          ∃ each, each ∈ segment :: rest ∧ each.kind? = some token.kind := by
        intro inRest
        obtain ⟨each, member, kind⟩ := inductionHypothesis inRest
        exact ⟨each, List.mem_cons_of_mem _ member, kind⟩
      simp only [ofSegments] at listed
      split at listed
      · next found =>
          rcases List.mem_cons.mp listed with rfl | inRest
          · obtain ⟨kind, isKind, rfl⟩ := Option.map_eq_some_iff.mp found
            exact ⟨segment, List.mem_cons_self, isKind⟩
          · exact later inRest
      · refine later ?_
        simp only [afterError, tokens] at listed ⊢
        split at listed <;> simp_all
      · exact later listed

/-- Whether a token can be read back from its text. -/
def Token.Kind.isLexical : Token.Kind -> Bool
  | keyword _ | mark _ => true
  | identifier name => Segment.isWordText name.toList && (Keyword.ofText? name).isNone
  | number text => Numeral.isNumeral text.toList
  | startOfInput | endOfInput => false

/-- The tokens of a text can be read back from their texts. -/
theorem Lexing.isLexical_of_mem {source : String} {token : Token}
    (listed : token ∈ (ofText source).tokens) : token.kind.isLexical = true := by
  obtain ⟨segment, member, isKind⟩ := exists_segment listed
  generalize token.kind = kind at isKind ⊢
  cases segment with
  | mark sign =>
      obtain rfl := Option.some.inj isKind
      rfl
  | word text =>
      simp only [Segment.kind?] at isKind
      split at isKind
      · obtain rfl := Option.some.inj isKind
        rfl
      · next noKeyword =>
          obtain rfl := Option.some.inj isKind
          simp [Token.Kind.isLexical, noKeyword, Segment.isWordText_of_split member]
  | numeral text =>
      simp only [Segment.kind?] at isKind
      split at isKind
      · next isNumeral =>
          obtain rfl := Option.some.inj isKind
          simpa [Token.Kind.isLexical] using isNumeral
      · cases isKind
  | _ => cases isKind

/-- The tokens of a text do not include the end of the input. -/
theorem Lexing.stream_inside (source : String) : (Lexing.ofText source).stream.Inside := by
  intro token isToken atEnd
  have isLexical := Lexing.isLexical_of_mem isToken
  rw [atEnd] at isLexical
  cases isLexical

/-- Identifiers are words. -/
theorem Lexing.isWord_identifier {source name : String} {token : Token}
    (listed : token ∈ (ofText source).tokens) (isName : token.kind = .identifier name) :
    IsWord name := by
  have isLexical := isLexical_of_mem listed
  rw [isName, Token.Kind.isLexical, Bool.and_eq_true] at isLexical
  exact Segment.isWordChar_of_isWordText isLexical.1

/-! ## Type names -/

/-- The declared name is one of the identifiers of a declaration. -/
theorem identifier_mem_of_declarationPhrase {phrase : Phrase} {tree : Declaration}
    (derived : DeclarationPhrase phrase tree) (declares : tree.isVoid = false) :
    .identifier tree.name ∈ phrase := by
  cases derived with
  | void => cases declares
  | _ => simp

/-- The type that a definition introduces is named by one of its identifiers. -/
theorem identifier_mem_of_definitionPhrase {phrase : Phrase} {tree : Definition} {name : String}
    (derived : DefinitionPhrase phrase tree) (named : tree.typeName = some name)
    (declares : forall declaration, tree = .typedef declaration -> declaration.isVoid = false) :
    .identifier name ∈ phrase := by
  cases derived with
  | constant | program => cases named
  | enum | struct | union =>
      cases named
      simp
  | typedef declared =>
      cases named
      obtain ⟨declared⟩ := declared
      have inDeclaration :=
        identifier_mem_of_declarationPhrase declared (declares _ rfl)
      simp [inDeclaration]

/-- The same for the definitions of a file. -/
theorem identifier_mem_of_filePhrase {phrase : Phrase} {trees : List Definition}
    (derived : FilePhrase phrase trees)
    (declares : forall declaration, .typedef declaration ∈ trees -> declaration.isVoid = false) :
    forall name, name ∈ trees.filterMap Definition.typeName -> .identifier name ∈ phrase := by
  induction derived with
  | empty => simp
  | define first rest inductionHypothesis =>
      intro name introduced
      obtain ⟨definition, listed, named⟩ := List.mem_filterMap.mp introduced
      rcases List.mem_cons.mp listed with rfl | later
      · refine List.mem_append_left _ (identifier_mem_of_definitionPhrase first named ?_)
        rintro declaration rfl
        exact declares declaration List.mem_cons_self
      · refine List.mem_append_right _ (inductionHypothesis ?_ name ?_)
        · exact fun declaration member => declares declaration (List.mem_cons_of_mem _ member)
        · exact List.mem_filterMap.mpr ⟨definition, later, named⟩

/-- The name of a type does not depend on lines. -/
theorem Definition.typeName_unlined (definition : Definition) :
    definition.unlined.typeName = definition.typeName := by
  cases definition <;> rfl

/-- Every type definition of a run declares something. -/
theorem Run.declares {isReserved : String -> Bool} {registry final : Registry}
    {definitions : List Definition} {emissions : List Emission}
    (run : Run isReserved registry definitions final emissions) :
    forall declaration, .typedef declaration ∈ definitions -> declaration.isVoid = false := by
  induction run with
  | done => simp
  | step accepted rest inductionHypothesis =>
      intro declaration listed
      rcases List.mem_cons.mp listed with rfl | later
      · cases accepted with
        | typedef declares => exact declares
      · exact inductionHypothesis declaration later

/-- Every type name of an accepted source text is a word. -/
theorem Run.isWord_names {isReserved : String -> Bool} {registry final : Registry}
    {definitions : List Definition} {emissions : List Emission} {source : String}
    (run : Run isReserved registry definitions final emissions)
    (parsed : (Lexing.ofText source).stream.parse = .ok definitions) :
    forall name, name ∈ definitions.filterMap Definition.typeName -> IsWord name := by
  obtain ⟨tokens, rest, split, -, derived⟩ := TokenStream.exists_filePhrase parsed
  have declares : forall declaration, .typedef declaration ∈ definitions.map Definition.unlined ->
      declaration.isVoid = false := by
    intro declaration listed
    obtain ⟨definition, member, equal⟩ := List.mem_map.mp listed
    cases definition with
    | typedef written =>
        cases equal
        exact run.declares written member
    | _ => cases equal
  intro name introduced
  have sameNames : (definitions.map Definition.unlined).filterMap Definition.typeName
      = definitions.filterMap Definition.typeName := by
    simp [List.filterMap_map, Definition.typeName_unlined]
  rw [<- sameNames] at introduced
  obtain ⟨token, read, isName⟩ :=
    List.mem_map.mp (identifier_mem_of_filePhrase derived declares name introduced)
  have unread : (Lexing.ofText source).tokens = tokens ++ rest.unread :=
    congrArg TokenStream.unread split
  have lexed : token ∈ (Lexing.ofText source).tokens := by
    rw [unread]
    exact List.mem_append_left _ read
  exact Lexing.isWord_identifier lexed isName

end XdrPack
