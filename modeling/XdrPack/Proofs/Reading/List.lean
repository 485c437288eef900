import XdrPack.Proofs.Reading.Token

/-!
# Reading lists

A list has at least one item, a fixed phrase between each two items, and a fixed
phrase at its end. Any of these phrases may be empty: then the token that comes
next decides whether the list goes on.
-/

namespace XdrPack.Parser

variable {α τ : Type}

/-- Reading items, one step at a time. -/
theorem readItems_eq (item : Parser α) (again : Parser Bool) (consumes : item.Consumes)
    (stream : TokenStream) :
    readItems item again consumes stream =
      match item.run stream with
      | .rejected error rest => .rejected error rest
      | .accepted first afterItem =>
          match again.run afterItem with
          | .rejected error rest => .rejected error rest
          | .accepted false rest => .accepted (first, []) rest
          | .accepted true rest =>
              match readItems item again consumes rest with
              | .rejected error final => .rejected error final
              | .accepted (second, more) final => .accepted (first, second :: more) final := by
  rw [readItems]
  split
  · next found => rw [found]
  · next found =>
      rw [found]
      dsimp only
      split
      · next decided => rw [decided]
      · next decided => rw [decided]
      · next decided => exact decided ▸ rfl

namespace Reads

variable {erase : α -> τ} {grammar : Grammar τ} {follows : τ -> Token.Kind -> Prop}

variable {item : Parser α} {again : Parser Bool} (consumes : item.Consumes)
  {separator terminator : Phrase} {followsAgain : Bool -> Token.Kind -> Prop}
  (readsItem : item.Reads erase grammar follows)
  (readsAgain : again.Reads id (Grammar.goesOn separator terminator) followsAgain)

include readsItem readsAgain

/-- Items that are accepted form a list of the grammar, and only the token behind it matters.
-/
theorem readItems_accepts {stream rest : TokenStream} {read : α × List α}
    (success : readItems item again consumes stream = .accepted read rest) :
    ∃ tokens, stream = rest.after tokens ∧
      grammar.terminated separator terminator (tokens.map (·.kind))
        ((read.1 :: read.2).map erase) ∧
      forall other : TokenStream, other.next = rest.next ->
        readItems item again consumes (other.after tokens) = .accepted read other := by
  fun_induction readItems item again consumes stream generalizing read rest with
  | case1 stream error remaining found => simp at success
  | case2 stream first afterItem found error remaining decided => simp at success
  | case3 stream first afterItem found remaining decided =>
      obtain ⟨rfl, rfl⟩ : (first, []) = read ∧ remaining = rest := by simpa using success
      obtain ⟨tokens, rfl, derived, rereads⟩ := readsItem.accepts found
      obtain ⟨ending, rfl, ended, redecides⟩ := readsAgain.accepts decided
      refine ⟨tokens ++ ending, by simp, ⟨_, ?_, .one derived⟩, ?_⟩
      · simpa [Grammar.goesOn] using ended
      · intro other same
        rw [readItems_eq, TokenStream.after_append,
          rereads _ (TokenStream.next_after_congr same ending)]
        simp only [redecides other same]
  | case4 stream first afterItem found remaining decided error final reply _ => simp at success
  | case5 stream first afterItem found remaining decided second more final reply
      inductionHypothesis =>
      obtain ⟨rfl, rfl⟩ : (first, second :: more) = read ∧ final = rest := by simpa using success
      obtain ⟨tokens, rfl, derived, rereads⟩ := readsItem.accepts found
      obtain ⟨between, rfl, separated, redecides⟩ := readsAgain.accepts decided
      obtain ⟨others, rfl, ⟨listed, ended, derivedMore⟩, rereadsMore⟩ := inductionHypothesis reply
      refine ⟨tokens ++ between ++ others, by simp, ⟨_, ?_, .more derived derivedMore⟩, ?_⟩
      · have separated : between.map (·.kind) = separator := by
          simpa [Grammar.goesOn] using separated
        simp [separated, ended]
      · intro other same
        have sameOthers := TokenStream.next_after_congr same others
        rw [readItems_eq, TokenStream.after_append, TokenStream.after_append,
          rereads _ (TokenStream.next_after_congr sameOthers between)]
        simp only [redecides _ sameOthers, rereadsMore other same]

/-- Every list of the grammar is read to its end. -/
theorem readItems_completes
    (fits : forall tree more kind, followsAgain more kind ->
      follows tree ((if more then separator else terminator).headD kind))
    (starts : forall phrase tree, grammar phrase tree ->
      ∃ kind rest, phrase = kind :: rest ∧ followsAgain true kind)
    {listed ending : List Token} {trees : List τ} {stream : TokenStream}
    (derived : grammar.OneOrMore separator (listed.map (·.kind)) trees)
    (ended : ending.map (·.kind) = terminator)
    (followed : followsAgain false stream.next.kind) :
    ∃ read : α × List α,
      readItems item again consumes ((stream.after ending).after listed) = .accepted read stream ∧
      (read.1 :: read.2).map erase = trees := by
  generalize phraseIs : listed.map (·.kind) = phrase at derived
  induction derived generalizing listed with
  | @one phrase tree only =>
      subst phraseIs
      have fitsItem := fits tree false _ followed
      rw [if_neg (by simp), <- ended, <- TokenStream.next_after_kind] at fitsItem
      obtain ⟨value, found, rfl⟩ := readsItem.completes only fitsItem
      have stops : Grammar.goesOn separator terminator (ending.map (·.kind)) false := by
        simpa [Grammar.goesOn] using ended
      obtain ⟨more, decided, isFalse⟩ := readsAgain.completes stops followed
      obtain rfl : more = false := isFalse
      refine ⟨(value, []), ?_, rfl⟩
      rw [readItems_eq, found]
      simp only [decided]
  | @more phrase tree others trees first rest inductionHypothesis =>
      obtain ⟨front, back, rfl, frontKinds, rfl⟩ := List.map_eq_append_iff.mp phraseIs
      obtain ⟨tokens, between, rfl, rfl, separated⟩ := List.map_eq_append_iff.mp frontKinds
      obtain ⟨read, reply, rfl⟩ := inductionHypothesis rfl
      have goesOn : followsAgain true ((stream.after ending).after back).next.kind := by
        obtain ⟨kind, remaining, startsWith, follow⟩ := rest.startsWith starts
        rw [TokenStream.next_after_kind, startsWith]
        exact follow
      have fitsItem := fits tree true _ goesOn
      rw [if_pos rfl, <- separated, <- TokenStream.next_after_kind] at fitsItem
      obtain ⟨value, found, rfl⟩ := readsItem.completes first fitsItem
      have continues : Grammar.goesOn separator terminator (between.map (·.kind)) true := by
        simpa [Grammar.goesOn] using separated
      obtain ⟨more, decided, isTrue⟩ := readsAgain.completes continues goesOn
      obtain rfl : more = true := isTrue
      refine ⟨(value, read.1 :: read.2), ?_, by simp⟩
      rw [readItems_eq, TokenStream.after_append, TokenStream.after_append, found]
      simp only [decided, reply]

/-- Where a list is at fault, what was read of it could have been continued. -/
theorem readItems_rejects {stream rest : TokenStream} {error : SyntaxError}
    (failure : readItems item again consumes stream = .rejected error rest) :
    ∃ tokens fault, stream = TokenStream.after fault tokens ∧ rest = fault.advance ∧
      (grammar.terminated separator terminator).Viable (tokens.map (·.kind)) ∧
      error.Blames fault.next ∧
      forall other : TokenStream, other.next = fault.next ->
        readItems item again consumes (other.after tokens) = .rejected error other.advance := by
  fun_induction readItems item again consumes stream generalizing error rest with
  | case1 stream cause remaining found =>
      obtain ⟨rfl, rfl⟩ : cause = error ∧ remaining = rest := by simpa using failure
      obtain ⟨tokens, fault, rfl, left, ⟨others, tree, derived⟩, blames, rereads⟩ :=
        readsItem.rejects found
      refine ⟨tokens, fault, rfl, left,
        ⟨others ++ terminator, [tree], _, by simp, .one derived⟩, blames, ?_⟩
      intro other same
      rw [readItems_eq, rereads other same]
  | case2 stream first afterItem found cause remaining decided =>
      obtain ⟨rfl, rfl⟩ : cause = error ∧ remaining = rest := by simpa using failure
      obtain ⟨tokens, rfl, derived, rereads⟩ := readsItem.accepts found
      obtain ⟨more, fault, rfl, left, ⟨others, goesOn, completed⟩, blames, redecides⟩ :=
        readsAgain.rejects decided
      refine ⟨tokens ++ more, fault, by simp, left, ?_, blames, ?_⟩
      · -- The list may end here, or go on with any other item.
        cases goesOn with
        | false =>
            refine ⟨others, [erase first], _, ?_, .one derived⟩
            simpa [Grammar.goesOn] using completed
        | true =>
            obtain ⟨phrase, tree, derivedMore⟩ := readsItem.inhabited
            refine ⟨others ++ phrase ++ terminator, _, _, ?_, .more derived (.one derivedMore)⟩
            have completed : more.map (·.kind) ++ others = separator := by
              simpa [Grammar.goesOn] using completed
            simp [<- completed]
      · intro other same
        rw [readItems_eq, TokenStream.after_append,
          rereads _ (TokenStream.next_after_congr same more)]
        simp only [redecides other same]
  | case3 stream first afterItem found remaining decided => simp at failure
  | case4 stream first afterItem found remaining decided cause final reply inductionHypothesis =>
      obtain ⟨rfl, rfl⟩ : cause = error ∧ final = rest := by simpa using failure
      obtain ⟨tokens, rfl, derived, rereads⟩ := readsItem.accepts found
      obtain ⟨between, rfl, separated, redecides⟩ := readsAgain.accepts decided
      obtain ⟨more, fault, rfl, left, ⟨others, trees, listed, completed, derivedMore⟩, blames,
        rereadsMore⟩ := inductionHypothesis reply
      refine ⟨tokens ++ between ++ more, fault, by simp, left,
        ⟨others, _, _, ?_, .more derived derivedMore⟩, blames, ?_⟩
      · have separated : between.map (·.kind) = separator := by
          simpa [Grammar.goesOn] using separated
        simp [separated, completed]
      · intro other same
        have sameMore := TokenStream.next_after_congr same more
        rw [readItems_eq, TokenStream.after_append, TokenStream.after_append,
          rereads _ (TokenStream.next_after_congr sameMore between)]
        simp only [redecides _ sameMore, rereadsMore other same]
  | case5 stream first afterItem found remaining decided second more final reply _ =>
      simp at failure

/-- One item or more. The parser `again` decides whether another item comes: it
reads the separator if so and the terminator if not. -/
protected theorem oneOrMore
    (fits : forall tree more kind, followsAgain more kind ->
      follows tree ((if more then separator else terminator).headD kind))
    (starts : forall phrase tree, grammar phrase tree ->
      ∃ kind rest, phrase = kind :: rest ∧ followsAgain true kind) :
    (oneOrMore item again consumes).Reads (fun read => (read.1 :: read.2).map erase)
      (grammar.terminated separator terminator) (fun _ => followsAgain false) where
  inhabited := by
    obtain ⟨phrase, tree, derived⟩ := readsItem.inhabited
    exact ⟨phrase ++ terminator, [tree], phrase, rfl, .one derived⟩
  closable _ := readsAgain.closable false
  inside := by
    have continues : Grammar.goesOn separator terminator separator true := rfl
    have stops : Grammar.goesOn separator terminator terminator false := rfl
    rintro phrase trees ⟨listed, rfl, derived⟩
    have notInList : Token.Kind.endOfInput ∉ listed := by
      induction derived with
      | one only => exact readsItem.inside only
      | more first rest inductionHypothesis =>
          simp only [List.mem_append, not_or]
          exact ⟨⟨readsItem.inside first, readsAgain.inside continues⟩, inductionHypothesis⟩
    simp only [List.mem_append, not_or]
    exact ⟨notInList, readsAgain.inside stops⟩
  accepts success := readItems_accepts consumes readsItem readsAgain success
  completes := by
    rintro tokens trees stream ⟨listed, split, derived⟩ followed
    obtain ⟨front, ending, rfl, rfl, ended⟩ := List.map_eq_append_iff.mp split
    rw [TokenStream.after_append]
    exact readItems_completes consumes readsItem readsAgain fits starts derived ended followed
  rejects failure := readItems_rejects consumes readsItem readsAgain failure

/-- A list of at least one item. -/
protected theorem nonempty
    (fits : forall tree more kind, followsAgain more kind ->
      follows tree ((if more then separator else terminator).headD kind))
    (starts : forall phrase tree, grammar phrase tree ->
      ∃ kind rest, phrase = kind :: rest ∧ followsAgain true kind) :
    (nonempty item again consumes).Reads (List.map erase)
      (grammar.terminated separator terminator) (fun _ => followsAgain false) := by
  have closable : forall _ : List τ, ∃ kind, followsAgain false kind :=
    fun _ => readsAgain.closable false
  refine ((Reads.oneOrMore consumes readsItem readsAgain fits starts).andThen Grammar.only
    (fun read => .pure (read.1 :: read.2) closable) ?_).congr fun phrase trees => ?_
  · rintro trees phrase result kind ⟨rfl, -⟩ followed
    exact followed
  · constructor
    · rintro ⟨front, back, listed, rfl, derived, rfl, rfl⟩
      simpa using derived
    · intro derived
      exact ⟨phrase, [], trees, by simp, derived, rfl, rfl⟩

end Reads

end XdrPack.Parser
