import XdrPack.Proofs.Partition

/-!
# Tokens between separators

Blanks, line ends and comments separate tokens. Tokens that are written one after the other
with separators between them are read back, whatever the separators are: no token runs into
the separator behind it, and no comment goes on behind its end. The first token needs no
separator before it and the last one none behind it.
-/

namespace XdrPack

/-- The text of a token in a source. The edges of the input have none. -/
def Token.Kind.text : Token.Kind -> String
  | keyword word => word.text
  | mark sign => String.singleton sign.char
  | identifier name => name
  | number text => text
  | startOfInput | endOfInput => ""

/-- Blanks, line ends and comments, one after the other. The end of a comment does not
appear in it. -/
inductive IsSeparator : List Char -> Prop where
  | empty : IsSeparator []
  | blank {c rest} (isBlank : c = ' ' ∨ c = '\t' ∨ c = '\r' ∨ c = '\n')
      (more : IsSeparator rest) : IsSeparator (c :: rest)
  | comment {body rest} (firstEnd : ¬ Segment.commentEnd <:+: body) (more : IsSeparator rest) :
      IsSeparator (['/', '*'] ++ body ++ ['*', '/'] ++ rest)

/-- The texts of tokens, each with the separator behind it. -/
def writeTokens : List (Token.Kind × String) -> String
  | [] => ""
  | (kind, separator) :: rest => kind.text ++ (separator ++ writeTokens rest)

/-! ## Separators -/

namespace Spells

/-- A blank character spells nothing. -/
theorem blank {c : Char} (isBlank : c = ' ' ∨ c = '\t' ∨ c = '\r' ∨ c = '\n') :
    Spells AnyText (String.singleton c) [] := by
  rcases isBlank with rfl | rfl | rfl | rfl
  · exact .space
  · exact ofSegment (.blank '\t') (String.toList_singleton _) (fun _ _ _ => rfl) fun _ => rfl
  · exact ofSegment (.blank '\r') (String.toList_singleton _) (fun _ _ _ => rfl) fun _ => rfl
  · exact .newline

/-- A comment spells nothing, whatever follows its end. -/
theorem comment {body : List Char} (firstEnd : ¬ Segment.commentEnd <:+: body) :
    Spells AnyText (String.ofList (['/', '*'] ++ body ++ ['*', '/'])) [] :=
  ofSegment (.comment body) String.toList_ofList
    (fun atLineStart rest _ => Segment.first_comment atLineStart firstEnd rest) fun _ => rfl

/-- A separator spells nothing. -/
theorem separator {text : String} (isSeparator : IsSeparator text.toList) :
    Spells AnyText text [] := by
  generalize chars : text.toList = separator at isSeparator
  induction isSeparator generalizing text with
  | empty =>
      obtain rfl : text = "" := String.toList_inj.mp chars
      exact .empty
  | @blank c rest isBlank _ inductionHypothesis =>
      obtain rfl : text = String.singleton c ++ String.ofList rest :=
        String.toList_inj.mp (by simp [chars])
      exact (Spells.blank isBlank).andThen (inductionHypothesis String.toList_ofList)
  | @comment body rest firstEnd _ inductionHypothesis =>
      obtain rfl : text = String.ofList (['/', '*'] ++ body ++ ['*', '/']) ++ String.ofList rest :=
        String.toList_inj.mp (by simp [chars])
      exact (Spells.comment firstEnd).andThen (inductionHypothesis String.toList_ofList)

/-- A token is spelled by its text, if a word ends behind it. -/
theorem token {kind : Token.Kind} (isLexical : kind.isLexical = true) :
    Spells EndsWord kind.text [kind] := by
  cases kind with
  | keyword word => exact .keyword word
  | mark sign => exact (Spells.mark sign).narrow
  | identifier name => exact .identifier isLexical
  | number text => exact .number isLexical
  | startOfInput | endOfInput => cases isLexical

end Spells

/-- A separator that is not empty ends a word. -/
theorem IsSeparator.endsWord_append {text : List Char} (isSeparator : IsSeparator text)
    (nonempty : text ≠ []) (more : List Char) : EndsWord (text ++ more) := by
  cases isSeparator with
  | empty => exact absurd rfl nonempty
  | blank isBlank =>
      refine endsWord_cons ?_ _
      rcases isBlank with rfl | rfl | rfl | rfl <;> decide
  | comment => exact endsWord_cons (by decide) _

/-! ## Tokens -/

/-- Tokens with separators behind them are spelled by what is written, if only the last
separator may be empty. -/
theorem spells_writeTokens {items : List (Token.Kind × String)}
    (lexical : forall item, item ∈ items -> item.1.isLexical = true)
    (separators : forall item, item ∈ items -> IsSeparator item.2.toList)
    (apart : forall item, item ∈ items.dropLast -> item.2 ≠ "") :
    Spells EndsWord (writeTokens items) (items.map (·.1)) := by
  induction items with
  | nil => exact .empty
  | cons item rest inductionHypothesis =>
      obtain ⟨kind, separator⟩ := item
      obtain ⟨isLexical, lexicalRest⟩ := List.forall_mem_cons.mp lexical
      obtain ⟨isSeparator, separatorsRest⟩ := List.forall_mem_cons.mp separators
      have apartRest : forall item, item ∈ rest.dropLast -> item.2 ≠ "" := by
        intro item listed
        refine apart item ?_
        cases rest with
        | nil => cases listed
        | cons next others => exact List.mem_cons_of_mem _ listed
      have spelledRest := inductionHypothesis lexicalRest separatorsRest apartRest
      have spelledBehind := (Spells.separator isSeparator).andThen spelledRest
      refine (Spells.token isLexical).append spelledBehind ?_
      intro behind ends
      rw [String.toList_append, List.append_assoc]
      by_cases nothing : separator = ""
      · -- Only the last separator is empty, so there is no token behind it.
        subst nothing
        cases rest with
        | nil => exact ends
        | cons next others => exact absurd rfl (apart (kind, "") List.mem_cons_self)
      · exact isSeparator.endsWord_append (by simpa using nothing) _

namespace Lexing

/-- Tokens of all kinds, written with any separators before, between and behind them, are
returned in their order and before the end of the input, without errors. Only the separators
before the first and behind the last token may be empty. -/
theorem ofText_writeTokens (leading : String) (items : List (Token.Kind × String))
    (lexical : forall item, item ∈ items -> item.1.isLexical = true)
    (separators : forall separator, separator ∈ leading :: items.map (·.2) ->
      IsSeparator separator.toList)
    (apart : forall item, item ∈ items.dropLast -> item.2 ≠ "") :
    (ofText (leading ++ writeTokens items)).returned.map (·.kind) =
        items.map (·.1) ++ [.endOfInput] ∧
      (ofText (leading ++ writeTokens items)).errors = [] := by
  obtain ⟨isSeparator, separatorsItems⟩ := List.forall_mem_cons.mp separators
  have spelledItems := spells_writeTokens lexical
    (fun item listed => separatorsItems item.2 (List.mem_map_of_mem listed)) apart
  have spelled := (Spells.separator isSeparator).andThen spelledItems
  obtain ⟨noErrors, kinds⟩ := spelled.lexing (by simp [EndsWord])
  refine ⟨?_, noErrors⟩
  rw [returned, List.map_append, kinds]
  rfl

/-- A star before a comment does not end one, comments may begin with a slash and end with a
star, and what looks like a directive or like another comment inside of them is skipped. -/
theorem ofText_writeTokens_comments :
    let items : List (Token.Kind × String) :=
      [(.keyword .struct, "/*/\n%\"/**/"), (.mark .star, "/***/"), (.identifier "structs", "\t\r"),
        (.number "-0x1F", "")]
    "\n" ++ writeTokens items = "\nstruct/*/\n%\"/**/*/***/structs\t\r-0x1F" ∧
      (ofText ("\n" ++ writeTokens items)).returned.map (·.kind) =
        [.keyword .struct, .mark .star, .identifier "structs", .number "-0x1F", .endOfInput] ∧
      (ofText ("\n" ++ writeTokens items)).errors = [] := by
  intro items
  have noisy : IsSeparator "/*/\n%\"/**/".toList := by
    have chars : "/*/\n%\"/**/".toList =
        ['/', '*'] ++ ['/', '\n', '%', '"', '/', '*'] ++ ['*', '/'] ++ [] := by decide
    rw [chars]
    exact .comment (by decide) .empty
  have starred : IsSeparator "/***/".toList := by
    have chars : "/***/".toList = ['/', '*'] ++ ['*'] ++ ['*', '/'] ++ [] := by decide
    rw [chars]
    exact .comment (by decide) .empty
  have blanks : IsSeparator "\t\r".toList := .blank (by decide) (.blank (by decide) .empty)
  have lineEnd : IsSeparator "\n".toList := .blank (by decide) .empty
  have read := ofText_writeTokens "\n" items (by decide)
    (by simpa [items] using ⟨lineEnd, noisy, starred, blanks, .empty⟩) (by decide)
  exact ⟨by decide, read⟩

end Lexing

end XdrPack
