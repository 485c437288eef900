import XdrPack.Proofs.Recognition

/-!
# The first fault of a file

A file is refused at the first token that continues no file. Everything before
that token begins some file that is accepted, the token is the one that the
error shows, and nothing behind it has any influence on the error.
-/

namespace XdrPack

open Grammar

namespace TokenStream

/-- The beginning of a file can be completed to a file by definitions in front of
it. -/
theorem viable_append {phrase remaining : Phrase} {definition : Definition}
    (derived : DefinitionPhrase phrase definition) (viable : Viable FilePhrase remaining) :
    Viable FilePhrase (phrase ++ remaining) := by
  obtain ⟨rest, tree, derivedRest⟩ := viable
  exact ⟨rest, definition :: tree, by simpa using FilePhrase.define derived derivedRest⟩

/-- The beginning of a definition is the beginning of a file. -/
theorem viable_of_someDefinition {phrase : Phrase}
    (viable : Viable Parser.someDefinition phrase) : Viable FilePhrase phrase := by
  obtain ⟨rest, -, definition, derived, -⟩ := viable
  exact ⟨rest, [definition], by simpa using FilePhrase.define derived .empty⟩

/-- Parsing fails at a token, with a viable beginning before it and no regard to
what comes after it. -/
theorem exists_fault {stream : TokenStream} {error : SyntaxError}
    (failure : stream.parse = .error error) :
    ∃ tokens fault, stream = TokenStream.after fault tokens ∧
      Viable FilePhrase (tokens.map (·.kind)) ∧ error.Blames fault.next ∧
      forall other : TokenStream, other.next = fault.next ->
        (other.after tokens).parse = .error error := by
  fun_induction parse stream generalizing error with
  | case1 stream cause rest reply =>
      obtain rfl : cause = error := by simpa using failure
      rw [Parser.run_definition?] at reply
      split at reply
      · cases reply
      · next notEnd =>
          obtain ⟨tokens, fault, rfl, -, viable, blames, again⟩ :=
            Parser.definition_reads.rejects reply
          refine ⟨tokens, fault, rfl, viable_of_someDefinition viable, blames, ?_⟩
          intro other same
          rw [<- next_after_congr same] at notEnd
          rw [parse_eq, Parser.run_definition?, if_neg notEnd, again other same]
  | case2 stream rest reply => cases failure
  | case3 stream first rest reply cause parsed inductionHypothesis =>
      obtain rfl : cause = error := by simpa using failure
      obtain ⟨tokens, rfl, ⟨definition, derived, -⟩, again⟩ :=
        Parser.definition_reads.accepts (accepted_some_iff.mp reply)
      obtain ⟨more, fault, rfl, viable, blames, againMore⟩ := inductionHypothesis parsed
      refine ⟨tokens ++ more, fault, by simp, ?_, blames, ?_⟩
      · simpa using viable_append derived viable
      · intro other same
        have reread := again _ (next_after_congr same more)
        rw [after_append, parse_eq, accepted_some_iff.mpr reread]
        simp only [againMore other same]
  | case4 stream first rest reply others parsed inductionHypothesis => cases failure

/-- No file contains the end of the input. -/
theorem endOfInput_not_mem {phrase : Phrase} {tree : List Definition}
    (derived : FilePhrase phrase tree) : .endOfInput ∉ phrase := by
  induction derived with
  | empty => simp
  | define first rest inductionHypothesis =>
      have notInFirst := Parser.definition_reads.inside ⟨_, first, rfl⟩
      simp only [List.mem_append, not_or]
      exact ⟨notInFirst, inductionHypothesis⟩

/-- The tokens of a phrase, all at the same place. -/
def tokensOf (phrase : Phrase) : List Token := phrase.map fun kind => ⟨kind, 0, 0⟩

@[simp]
theorem kinds_tokensOf (phrase : Phrase) : (tokensOf phrase).map (·.kind) = phrase := by
  simp [tokensOf, Function.comp_def]

/-- The error of a file belongs to the token with the given number, counting from
zero, where the end of the input comes after all tokens. -/
structure FaultAt (stream : TokenStream) (error : SyntaxError) (index : Nat) : Prop where
  /-- The fault is at a token or at the end. -/
  within : index <= stream.unread.length
  /-- The tokens before the fault begin a file. -/
  viable : ∃ more : List Token, ∃ definitions,
    (forall token, token ∈ more -> token.kind ≠ .endOfInput) ∧
      parse ⟨stream.unread.take index ++ more, stream.finish⟩ = .ok definitions
  /-- The error shows the token. -/
  blamed : error.Blames (TokenStream.mk (stream.unread.drop index) stream.finish).next
  /-- Every file that starts with the same tokens up to the fault is refused with
  the same error. -/
  decided : index < stream.unread.length -> forall more finish,
    parse ⟨stream.unread.take (index + 1) ++ more, finish⟩ = .error error
  /-- If the fault is at the end, the file is refused wherever it ends. -/
  unfinished : index = stream.unread.length -> forall finish definitions,
    parse ⟨stream.unread, finish⟩ ≠ .ok definitions

/-- A file that is refused has a first fault. -/
theorem exists_faultAt (stream : TokenStream) (inside : stream.Inside) (error : SyntaxError)
    (failure : stream.parse = .error error) : ∃ index, stream.FaultAt error index := by
  obtain ⟨tokens, fault, rfl, ⟨rest, tree, derived⟩, blames, again⟩ := exists_fault failure
  have unread : (fault.after tokens).unread = tokens ++ fault.unread := rfl
  refine ⟨tokens.length, by simp [unread], ?_, by simpa [after] using blames, ?_, ?_⟩
  · have kinds : (tokens ++ tokensOf rest).map (·.kind) = tokens.map (·.kind) ++ rest := by simp
    obtain ⟨definitions, success, -⟩ := exists_parse_of_filePhrase derived kinds fault.finish
    refine ⟨tokensOf rest, definitions, ?_, by simpa [unread, after] using success⟩
    intro token listed atEnd
    refine endOfInput_not_mem derived (List.mem_append_right _ ?_)
    rw [<- kinds_tokensOf rest, <- atEnd]
    exact List.mem_map_of_mem listed
  · intro isInside more finish
    obtain ⟨token, others, first⟩ : ∃ token others, fault.unread = token :: others := by
      rw [unread, List.length_append] at isInside
      exact List.exists_cons_of_length_pos (by omega)
    have same : (TokenStream.mk (token :: more) finish).next = fault.next := by
      simp [next, first]
    have refused := again _ same
    have taken : (fault.after tokens).unread.take (tokens.length + 1) = tokens ++ [token] := by
      simp [unread, first, List.take_append, List.take_of_length_le]
    rw [taken]
    simpa [after] using refused
  · intro _ finish definitions success
    -- The grammar does not see where the input ends.
    have derived := filePhrase_of_parse (show (TokenStream.mk _ finish).Inside from inside) success
    obtain ⟨others, accepted, -⟩ := exists_parse_of_filePhrase derived rfl fault.finish
    have accepted : (fault.after tokens).parse = .ok others := accepted
    rw [failure] at accepted
    cases accepted

/-- An enumeration cannot be defined within a declaration, so its keyword is the
first fault there. -/
theorem faultAt_anonymous :
    let stream : TokenStream := ⟨[⟨.keyword .const, 1, 1⟩, ⟨.identifier "limit", 1, 7⟩,
      ⟨.mark .equals, 1, 13⟩, ⟨.number "4", 1, 15⟩, ⟨.mark .semicolon, 1, 16⟩,
      ⟨.keyword .typedef, 2, 1⟩, ⟨.keyword .enum, 3, 1⟩, ⟨.mark .openBrace, 3, 6⟩], ⟨4, 0⟩⟩
    let error := SyntaxError.anonymousType .enum 3
    stream.Inside ∧ stream.parse = .error error ∧ ∃ index, stream.FaultAt error index := by
  intro stream error
  have inside : stream.Inside := by simp [Inside, stream]
  have failure : stream.parse = .error error := by decide +kernel
  exact ⟨inside, failure, exists_faultAt stream inside error failure⟩

end TokenStream

end XdrPack
