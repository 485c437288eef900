import XdrPack.Proofs.Reading

/-!
# Reading fixed and optional tokens

Punctuation and keywords are read as tokens of a fixed kind. An optional token is
taken if it is there, so it can only be missing before another kind of token.
-/

namespace XdrPack.Parser.Reads

variable {α τ : Type} {erase : α -> τ} {grammar : Grammar τ}
  {follows : τ -> Token.Kind -> Prop}

/-- A token of a fixed kind. -/
protected theorem expect {kind : Token.Kind} (inside : kind ≠ .endOfInput) :
    (expect kind).Reads (·.kind) (fun phrase read => phrase = [kind] ∧ read = kind) anything := by
  refine ofTake ⟨_, _, rfl, rfl⟩ anything_closable (by simp) fun token => ?_
  by_cases same : token.kind = kind
  · refine .inr ⟨same ▸ inside, ?_⟩
    simp only [same, if_true]
    refine (Reads.pure token anything_closable).congr fun phrase tree => ?_
    simp [Grammar.only, Grammar.startingWith, same]
  · refine .inl ⟨_, if_neg same, ⟨rfl, rfl⟩, ?_⟩
    rintro phrase tree ⟨equal, -⟩
    exact same (List.cons.inj equal).1

/-- A token of a fixed kind, and then something that does not depend on it beyond
its position. -/
theorem token {kind : Token.Kind} (inside : kind ≠ .endOfInput) {second : Token -> Parser α}
    (each : forall token, (second token).Reads erase grammar follows) :
    (Parser.expect kind >>= second).Reads erase (Grammar.behind kind grammar) follows := by
  refine ((Reads.expect inside).andThen (fun _ => grammar) each ?_).congr ?_
  · exact fun _ _ _ _ _ _ => trivial
  · intro phrase tree
    constructor
    · rintro ⟨front, back, read, rfl, ⟨rfl, rfl⟩, derived⟩
      exact ⟨back, rfl, derived⟩
    · rintro ⟨rest, rfl, derived⟩
      exact ⟨[kind], rest, kind, rfl, ⟨rfl, rfl⟩, derived⟩

/-- A keyword, and then something else. -/
protected theorem keyword (word : Keyword) {second : Token -> Parser α}
    (each : forall token, (second token).Reads erase grammar follows) :
    (Parser.keyword word >>= second).Reads erase (Grammar.behind (.keyword word) grammar) follows :=
  token (by simp) each

/-- A punctuation mark, and then something else. -/
protected theorem mark (sign : Mark) {second : Token -> Parser α}
    (each : forall token, (second token).Reads erase grammar follows) :
    (Parser.mark sign >>= second).Reads erase (Grammar.behind (.mark sign) grammar) follows :=
  token (by simp) each

/-! ## Optional tokens -/

/-- There is always another kind of token. -/
theorem exists_other_kind (kind : Token.Kind) : ∃ other, other ≠ kind := by
  by_cases atEnd : kind = .endOfInput
  · exact ⟨.startOfInput, by simp [atEnd]⟩
  · exact ⟨.endOfInput, fun same => atEnd same.symm⟩

/-- Looking for a token of a fixed kind reads nothing. -/
protected theorem sees (kind : Token.Kind) :
    (sees kind).Reads id (Grammar.goesOn [] []) (fun seen next => seen = decide (next = kind)) := by
  have closable : forall seen, ∃ next, seen = decide (next = kind) := by
    intro seen
    cases seen with
    | true => exact ⟨kind, by simp⟩
    | false =>
        obtain ⟨other, differs⟩ := exists_other_kind kind
        exact ⟨other, by simp [differs]⟩
  let back : Token.Kind -> Grammar Bool := fun read => Grammar.only (decide (read = kind))
  have reads : (sees kind).Reads id (fun phrase seen => ∃ read, back read phrase seen)
      (fun seen next => seen = decide (next = kind)) := by
    refine ofPeek back (fun token => .pure _ closable) ?_
    rintro read phrase seen next ⟨rfl, -⟩ found
    exact ⟨rfl, found⟩
  refine reads.congr fun phrase seen => ?_
  constructor
  · rintro ⟨read, rfl, -⟩
    simp [Grammar.goesOn]
  · intro empty
    obtain ⟨next, found⟩ := closable seen
    exact ⟨next, by simpa [Grammar.goesOn] using empty, found⟩

/-- An expected kind of token is consumed, and any other one is left. -/
theorem run_accept (kind : Token.Kind) (stream : TokenStream) :
    (accept kind).run stream =
      if stream.next.kind = kind then .accepted true stream.advance
      else .accepted false stream := by
  by_cases found : stream.next.kind = kind
  · simp [accept, sees, peek, take, found]
  · simp [accept, sees, peek, found]

/-- An optional token. It may only be missing before another kind of token. -/
protected theorem accept {kind : Token.Kind} (inside : kind ≠ .endOfInput) :
    (accept kind).Reads id (Grammar.goesOn [kind] [])
      (fun found next => found = false -> next ≠ kind) where
  inhabited := ⟨[], false, rfl⟩
  closable found := by
    obtain ⟨other, differs⟩ := exists_other_kind kind
    exact ⟨other, fun _ => differs⟩
  inside := by
    rintro phrase found rfl
    cases found with
    | true => simpa using inside.symm
    | false => simp
  accepts := by
    intro stream value rest success
    rw [run_accept] at success
    by_cases found : stream.next.kind = kind
    · obtain ⟨rfl, rfl⟩ : true = value ∧ stream.advance = rest := by simpa [found] using success
      refine ⟨[stream.next], TokenStream.eq_after_next (found ▸ inside), ?_, ?_⟩
      · simp [Grammar.goesOn, found]
      · intro other same
        simp [run_accept, found]
    · obtain ⟨rfl, rfl⟩ : false = value ∧ stream = rest := by simpa [found] using success
      refine ⟨[], rfl, rfl, ?_⟩
      intro other same
      simp [run_accept, same, found]
  completes := by
    intro tokens found stream derived fits
    cases found with
    | true =>
        obtain ⟨token, rfl, same⟩ : ∃ token, tokens = [token] ∧ token.kind = kind := by
          simpa [Grammar.goesOn, List.map_eq_singleton_iff] using derived
        exact ⟨true, by simp [run_accept, same], rfl⟩
    | false =>
        obtain rfl : tokens = [] := by simpa [Grammar.goesOn] using derived
        exact ⟨false, by simp [run_accept, fits rfl], rfl⟩
  rejects := by
    intro stream error rest failure
    rw [run_accept] at failure
    split at failure <;> simp at failure

/-- A list that goes on until a mark, which is consumed. -/
protected theorem untilMark (sign : Mark) :
    (untilMark sign).Reads id (Grammar.goesOn [] [.mark sign])
      (fun more next => more = true -> next ≠ .mark sign) := by
  have closable : forall more : Bool, ∃ next, more = true -> next ≠ Token.Kind.mark sign :=
    fun _ => ⟨.endOfInput, by simp⟩
  have optional := Reads.accept (show Token.Kind.mark sign ≠ .endOfInput by simp)
  have reads : (untilMark sign).Reads id
      ((Grammar.goesOn [.mark sign] []).andThen fun ended => Grammar.only (!ended))
      (fun more next => more = true -> next ≠ .mark sign) := by
    refine optional.andThen _ (fun ended => .pure (!ended) closable) ?_
    rintro ended phrase more next ⟨rfl, rfl⟩ fits missing
    exact fits (by simp [missing])
  refine reads.congr fun phrase more => ?_
  constructor
  · rintro ⟨front, back, ended, rfl, derived, rfl, rfl⟩
    cases ended <;> simpa [Grammar.goesOn] using derived
  · intro derived
    refine ⟨phrase, [], !more, by simp, ?_, rfl, by simp⟩
    cases more <;> simpa [Grammar.goesOn] using derived

/-! ## Choices by the next token -/

/-- A choice between what comes after an optional token and what comes in its
place. The latter must not start with that token. -/
theorem ofAccept {kind : Token.Kind} (inside : kind ≠ .endOfInput) {present absent : Parser α}
    {whenPresent whenAbsent : Grammar τ} (readsPresent : present.Reads erase whenPresent follows)
    (readsAbsent : absent.Reads erase whenAbsent follows)
    (decided : forall phrase tree next, whenAbsent phrase tree -> follows tree next ->
      phrase.headD next ≠ kind) :
    (Parser.accept kind >>= fun found => if found then present else absent).Reads erase
      (fun phrase tree => Grammar.behind kind whenPresent phrase tree ∨ whenAbsent phrase tree)
      follows := by
  let back : Bool -> Grammar τ := fun found => if found then whenPresent else whenAbsent
  refine ((Reads.accept inside).andThen back (fun found => ?_) ?_).congr fun phrase tree => ?_
  · cases found with
    | true => exact readsPresent
    | false => exact readsAbsent
  · rintro found phrase tree next derived followed rfl
    exact decided phrase tree next derived followed
  · constructor
    · rintro ⟨front, rest, found, rfl, rfl, derived⟩
      cases found with
      | true => exact .inl ⟨rest, rfl, derived⟩
      | false => exact .inr derived
    · rintro (⟨rest, rfl, derived⟩ | derived)
      · exact ⟨[kind], rest, true, rfl, rfl, derived⟩
      · exact ⟨[], phrase, false, rfl, rfl, derived⟩

/-- A choice between what starts with a token and what does not. -/
theorem ofSees {kind : Token.Kind} {present absent : Parser α} {whenPresent whenAbsent : Grammar τ}
    (readsPresent : present.Reads erase (Grammar.behind kind whenPresent) follows)
    (readsAbsent : absent.Reads erase whenAbsent follows)
    (decided : forall phrase tree next, whenAbsent phrase tree -> follows tree next ->
      phrase.headD next ≠ kind) :
    (Parser.sees kind >>= fun found => if found then present else absent).Reads erase
      (fun phrase tree => Grammar.behind kind whenPresent phrase tree ∨ whenAbsent phrase tree)
      follows := by
  let back : Bool -> Grammar τ := fun found =>
    if found then Grammar.behind kind whenPresent else whenAbsent
  refine ((Reads.sees kind).andThen back (fun found => ?_) ?_).congr fun phrase tree => ?_
  · cases found with
    | true => exact readsPresent
    | false => exact readsAbsent
  · intro found phrase tree next derived followed
    cases found with
    | true =>
        obtain ⟨rest, rfl, -⟩ := derived
        simp
    | false => simpa using decided phrase tree next derived followed
  · constructor
    · rintro ⟨front, rest, found, rfl, empty, derived⟩
      obtain rfl : front = [] := by simpa [Grammar.goesOn] using empty
      cases found with
      | true => exact .inl derived
      | false => exact .inr derived
    · rintro (derived | derived)
      · exact ⟨[], phrase, true, rfl, rfl, derived⟩
      · exact ⟨[], phrase, false, rfl, rfl, derived⟩

end XdrPack.Parser.Reads
