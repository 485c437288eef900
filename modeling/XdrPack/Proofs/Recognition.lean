import Mathlib.Control.Monad.Basic
import XdrPack.Proofs.Reading.Definition

/-!
# Files

The parser accepts a list of tokens exactly if the grammar derives it, and what
it gives is the tree of the derivation. As the parser gives one answer, no list
of tokens has two trees.
-/

namespace XdrPack

open Grammar

namespace TokenStream

/-- Parsing a file, one definition at a time. -/
theorem parse_eq (stream : TokenStream) :
    stream.parse =
      match Parser.definition?.run stream with
      | .rejected error _ => .error error
      | .accepted none _ => .ok []
      | .accepted (some first) rest =>
          match rest.parse with
          | .error error => .error error
          | .ok others => .ok (first :: others) := by
  rw [parse]
  split
  · next reply => rw [reply]
  · next reply => rw [reply]
  · next reply => exact reply ▸ rfl

/-- No token that is still to be read is the end of the input. -/
def Inside (stream : TokenStream) : Prop :=
  forall token, token ∈ stream.unread -> token.kind ≠ .endOfInput

/-- What follows the first tokens of a stream without the end of the input is
another such stream. -/
theorem Inside.of_after {stream : TokenStream} {tokens : List Token}
    (inside : (stream.after tokens).Inside) : stream.Inside :=
  fun token unread => inside token (List.mem_append_right tokens unread)

/-- The end of the input comes next only if nothing is left to read. -/
theorem Inside.unread_eq_nil {stream : TokenStream} (inside : stream.Inside)
    (atEnd : stream.next.kind = .endOfInput) : stream.unread = [] := by
  obtain ⟨unread, finish⟩ := stream
  cases unread with
  | nil => rfl
  | cons token rest => exact absurd atEnd (inside token (by simp))

/-- Nothing is accepted as a definition but a definition. -/
theorem atEnd_of_accepted_none {stream rest : TokenStream}
    (reply : Parser.definition?.run stream = .accepted none rest) :
    stream.next.kind = .endOfInput := by
  rw [Parser.run_definition?] at reply
  split at reply
  · next atEnd => exact atEnd
  · obtain ⟨tokens, -, ⟨definition, -, impossible⟩, -⟩ := Parser.definition_reads.accepts reply
    cases impossible

/-- A definition is read as one that must come. -/
theorem accepted_some_iff {stream rest : TokenStream} {first : Definition} :
    Parser.definition?.run stream = .accepted (some first) rest ↔
      Parser.definition.run stream = .accepted (some first) rest := by
  rw [Parser.run_definition?]
  split
  · next atEnd => simp [Parser.definition, Parser.take, Parser.unexpected, Parser.reject, atEnd]
  · rfl

/-- What the parser accepts is derived by the grammar from the tokens before the
end of the input. -/
theorem exists_filePhrase {stream : TokenStream} {definitions : List Definition}
    (success : stream.parse = .ok definitions) :
    ∃ tokens rest, stream = TokenStream.after rest tokens ∧ rest.next.kind = .endOfInput ∧
      FilePhrase (tokens.map (·.kind)) (definitions.map Definition.unlined) := by
  fun_induction parse stream generalizing definitions with
  | case1 stream error rest reply => cases success
  | case2 stream rest reply =>
      cases success
      exact ⟨[], stream, rfl, atEnd_of_accepted_none reply, .empty⟩
  | case3 stream first rest reply error failure => cases success
  | case4 stream first rest reply others parsed inductionHypothesis =>
      cases success
      obtain ⟨tokens, rfl, ⟨definition, derived, isFirst⟩, -⟩ :=
        Parser.definition_reads.accepts (accepted_some_iff.mp reply)
      obtain rfl : first.unlined = definition := by simpa using isFirst
      obtain ⟨more, final, rfl, atEnd, derivedMore⟩ := inductionHypothesis parsed
      refine ⟨tokens ++ more, final, by simp, atEnd, ?_⟩
      simpa using FilePhrase.define derived derivedMore

/-- Without the end of the input among the tokens, all of them are derived. -/
theorem filePhrase_of_parse {stream : TokenStream} (inside : stream.Inside)
    {definitions : List Definition} (success : stream.parse = .ok definitions) :
    FilePhrase (stream.unread.map (·.kind)) (definitions.map Definition.unlined) := by
  obtain ⟨tokens, rest, rfl, atEnd, derived⟩ := exists_filePhrase success
  simpa [after, inside.of_after.unread_eq_nil atEnd] using derived

/-- What the grammar derives is accepted by the parser, with the same tree. -/
theorem exists_parse_of_filePhrase {phrase : Phrase} {tree : List Definition}
    (derived : FilePhrase phrase tree) {tokens : List Token}
    (kinds : tokens.map (·.kind) = phrase) (finish : Cursor) :
    ∃ definitions, parse ⟨tokens, finish⟩ = .ok definitions ∧
      definitions.map Definition.unlined = tree := by
  induction derived generalizing tokens with
  | empty =>
      obtain rfl : tokens = [] := by simpa using kinds
      exact ⟨[], by simp [parse_eq, Parser.run_definition?, next], rfl⟩
  | @define phrase tree remaining trees first rest inductionHypothesis =>
      obtain ⟨front, back, rfl, rfl, rfl⟩ := List.map_eq_append_iff.mp kinds
      obtain ⟨others, parsed, rfl⟩ := inductionHypothesis rfl
      let stream : TokenStream := ⟨back, finish⟩
      have parsed : stream.parse = .ok others := parsed
      have read : Parser.someDefinition (front.map (·.kind)) (some tree) := ⟨tree, first, rfl⟩
      have followed : Parser.anything (some tree) stream.next.kind := trivial
      obtain ⟨value, reply, isFirst⟩ := Parser.definition_reads.completes read followed
      obtain ⟨definition, rfl, rfl⟩ := Option.map_eq_some_iff.mp isFirst
      refine ⟨definition :: others, ?_, rfl⟩
      show (stream.after front).parse = _
      rw [parse_eq, accepted_some_iff.mpr reply]
      simp only [parsed]

/-- The parser accepts exactly the phrases of the grammar and gives their trees,
each phrase having only one. -/
theorem parse_ok_iff_filePhrase (stream : TokenStream) (inside : stream.Inside) :
    (forall tree, FilePhrase (stream.unread.map (·.kind)) tree ↔
      ∃ definitions, stream.parse = .ok definitions ∧
        definitions.map Definition.unlined = tree) ∧
    forall tree other, FilePhrase (stream.unread.map (·.kind)) tree ->
      FilePhrase (stream.unread.map (·.kind)) other -> tree = other := by
  have parses : forall tree, FilePhrase (stream.unread.map (·.kind)) tree ->
      ∃ definitions, stream.parse = .ok definitions ∧ definitions.map Definition.unlined = tree :=
    fun tree derived => exists_parse_of_filePhrase derived rfl stream.finish
  refine ⟨fun tree => ⟨parses tree, ?_⟩, ?_⟩
  · rintro ⟨definitions, success, rfl⟩
    exact filePhrase_of_parse inside success
  · intro tree other derivedTree derivedOther
    obtain ⟨definitions, success, rfl⟩ := parses tree derivedTree
    obtain ⟨others, successAgain, rfl⟩ := parses other derivedOther
    rw [success] at successAgain
    cases successAgain
    rfl

/-- A star before the declared name stands for a counted array of at most one. -/
theorem filePhrase_star :
    let stream : TokenStream := ⟨[⟨.keyword .typedef, 1, 1⟩, ⟨.keyword .unsigned, 1, 9⟩,
      ⟨.mark .star, 2, 1⟩, ⟨.identifier "next", 2, 2⟩, ⟨.mark .semicolon, 2, 6⟩], .start⟩
    let declared : Declaration :=
      ⟨"next", .shaped "unsigned_int" (.varying (some (.number "1"))), 0⟩
    stream.Inside ∧ FilePhrase (stream.unread.map (·.kind)) [Definition.typedef declared] := by
  intro stream declared
  have inside : stream.Inside := by simp [Inside, stream]
  have success : stream.parse = .ok [Definition.typedef { declared with line := 1 }] := by
    decide +kernel
  exact ⟨inside, ((parse_ok_iff_filePhrase stream inside).1 _).mpr ⟨_, success, rfl⟩⟩

end TokenStream

end XdrPack
