import XdrPack.Parser
import XdrPack.Proofs.Grammar

/-!
# Reading a grammar with one token of lookahead

`Parser.Reads` says that a parser accepts exactly the phrases of a grammar, and
that it decides on the tokens it consumes and the one after them only. A refusal
is part of the judgement: what was consumed before the token at fault begins
some phrase of the grammar, and nothing behind that token has any influence.

The judgement is closed under the combinators that the parsers are built from.
Sequencing has one side condition: the token after the first part must be one
that the first part can be followed by, which is where an LL(1) grammar rules
out that two productions compete for the same token.
-/

namespace XdrPack

/-! ## Streams with tokens in front of them -/

namespace TokenStream

/-- The stream that has some tokens in front of it. -/
def after (stream : TokenStream) (tokens : List Token) : TokenStream :=
  { stream with unread := tokens ++ stream.unread }

@[simp]
theorem after_nil (stream : TokenStream) : stream.after [] = stream := rfl

@[simp]
theorem after_append (stream : TokenStream) (first second : List Token) :
    stream.after (first ++ second) = (stream.after second).after first := by
  simp [after]

@[simp]
theorem next_after_cons (stream : TokenStream) (token : Token) (tokens : List Token) :
    (stream.after (token :: tokens)).next = token := rfl

@[simp]
theorem advance_after_cons (stream : TokenStream) (token : Token) (tokens : List Token) :
    (stream.after (token :: tokens)).advance = stream.after tokens := rfl

/-- The kind of the next token is the first of the tokens in front, if any. -/
theorem next_after_kind (stream : TokenStream) (tokens : List Token) :
    (stream.after tokens).next.kind = (tokens.map (·.kind)).headD stream.next.kind := by
  cases tokens with
  | nil => rfl
  | cons token rest => rfl

/-- Streams with the same next token keep having the same one behind the same
tokens. -/
theorem next_after_congr {left right : TokenStream} (same : left.next = right.next)
    (tokens : List Token) : (left.after tokens).next = (right.after tokens).next := by
  cases tokens with
  | nil => exact same
  | cons token rest => rfl

/-- A stream whose next token is not the end of the input has that token in front
of what is left. -/
theorem eq_after_next {stream : TokenStream} (inside : stream.next.kind ≠ .endOfInput) :
    stream = stream.advance.after [stream.next] := by
  obtain ⟨unread, finish⟩ := stream
  cases unread with
  | nil => simp [next] at inside
  | cons token rest => rfl

end TokenStream

/-! ## Grammars -/

namespace Grammar

variable {σ τ : Type}

/-- Only the empty phrase, with one tree. -/
def only (tree : τ) : Grammar τ := fun phrase other => phrase = [] ∧ other = tree

/-- One token of a fixed kind, and then a phrase of the grammar. -/
def behind (kind : Token.Kind) (grammar : Grammar τ) : Grammar τ :=
  fun phrase tree => ∃ rest, phrase = kind :: rest ∧ grammar rest tree

/-- The phrases of the grammar that start with a given token, without that token. -/
def startingWith (grammar : Grammar τ) (kind : Token.Kind) : Grammar τ :=
  fun phrase tree => grammar (kind :: phrase) tree

/-- A phrase of the first grammar, and then one of the second, which may depend on
the tree of the first. -/
def andThen (first : Grammar σ) (second : σ -> Grammar τ) : Grammar τ :=
  fun phrase tree => ∃ front back middle,
    phrase = front ++ back ∧ first front middle ∧ second middle back tree

/-- The phrase that goes on with a list, and the one that ends it. -/
def goesOn (separator terminator : Phrase) : Grammar Bool :=
  fun phrase more => phrase = if more then separator else terminator

/-- One item or more, and a phrase that ends the list. -/
def terminated (item : Grammar τ) (separator terminator : Phrase) : Grammar (List τ) :=
  fun phrase trees => ∃ listed,
    phrase = listed ++ terminator ∧ item.OneOrMore separator listed trees

/-- A list starts as its items do. -/
theorem OneOrMore.startsWith {item : Grammar τ} {separator phrase : Phrase} {trees : List τ}
    {Start : Token.Kind -> Prop} (derived : item.OneOrMore separator phrase trees)
    (starts : forall phrase tree, item phrase tree ->
      ∃ kind rest, phrase = kind :: rest ∧ Start kind) :
    ∃ kind rest, phrase = kind :: rest ∧ Start kind := by
  cases derived with
  | one only => exact starts _ _ only
  | more first _ =>
      obtain ⟨kind, rest, rfl, start⟩ := starts _ _ first
      exact ⟨kind, _, rfl, start⟩

/-- A phrase is viable if it is the beginning of a phrase of the grammar. -/
def Viable (grammar : Grammar τ) (phrase : Phrase) : Prop :=
  ∃ rest tree, grammar (phrase ++ rest) tree

end Grammar

/-! ## The judgement -/

/-- A syntax error blames a token if it shows the line and the kind of the token.
Only the three words that introduce a type can be blamed for a type without a
name. -/
def SyntaxError.Blames : SyntaxError -> Token -> Prop
  | unexpectedToken _ found line, token => found = token.kind.describe ∧ line = token.line
  | anonymousType kind line, token =>
      line = token.line ∧ ∃ word, token.kind = .keyword word ∧ kind.text = word.text ∧
        (word = .enum ∨ word = .struct ∨ word = .union)

namespace Parser

variable {α β σ τ : Type}

/-- The parser reads the grammar. The trees of the grammar are the values of the
parser less what `erase` takes away from them, and `follows` says which tokens
may come after a phrase. -/
structure Reads (parser : Parser α) (erase : α -> τ) (grammar : Grammar τ)
    (follows : τ -> Token.Kind -> Prop) : Prop where
  /-- There is something to read. -/
  inhabited : ∃ phrase tree, grammar phrase tree
  /-- Every tree can be followed by something. -/
  closable : forall tree, ∃ kind, follows tree kind
  /-- No phrase contains the end of the input. -/
  inside : forall {phrase tree}, grammar phrase tree -> .endOfInput ∉ phrase
  /-- What is accepted is a phrase of the grammar, and the same tokens are accepted
  wherever the same token comes after them. -/
  accepts : forall {stream value rest}, parser.run stream = .accepted value rest ->
    ∃ tokens, stream = rest.after tokens ∧ grammar (tokens.map (·.kind)) (erase value) ∧
      forall other : TokenStream, other.next = rest.next ->
        parser.run (other.after tokens) = .accepted value other
  /-- Every phrase of the grammar is accepted before a token that may follow it. -/
  completes : forall {tokens tree} {stream : TokenStream}, grammar (tokens.map (·.kind)) tree ->
    follows tree stream.next.kind ->
    ∃ value, parser.run (stream.after tokens) = .accepted value stream ∧ erase value = tree
  /-- What is consumed before the token at fault is viable, that token is blamed
  and consumed, and nothing behind it matters. -/
  rejects : forall {stream error rest}, parser.run stream = .rejected error rest ->
    ∃ tokens fault, stream = TokenStream.after fault tokens ∧ rest = fault.advance ∧
      Grammar.Viable grammar (tokens.map (·.kind)) ∧ error.Blames fault.next ∧
      forall other : TokenStream, other.next = fault.next ->
        parser.run (other.after tokens) = .rejected error other.advance

/-- Any token may follow. -/
def anything (_ : τ) (_ : Token.Kind) : Prop := True

/-- Where anything may follow, something may. -/
theorem anything_closable (tree : τ) : ∃ kind, anything tree kind := ⟨.endOfInput, trivial⟩

namespace Reads

variable {parser : Parser α} {erase : α -> τ} {grammar : Grammar τ}
  {follows : τ -> Token.Kind -> Prop}

/-- A grammar can be replaced by another one with the same phrases and trees. -/
theorem congr {other : Grammar τ} (reads : parser.Reads erase grammar follows)
    (same : forall phrase tree, grammar phrase tree ↔ other phrase tree) :
    parser.Reads erase other follows := by
  have equal : grammar = other := by
    funext phrase tree
    exact propext (same phrase tree)
  exact equal ▸ reads

/-- What may follow can be restricted. -/
theorem narrow {fewer : τ -> Token.Kind -> Prop} (reads : parser.Reads erase grammar follows)
    (closable : forall tree, ∃ kind, fewer tree kind)
    (included : forall tree kind, fewer tree kind -> follows tree kind) :
    parser.Reads erase grammar fewer :=
  { reads with
    closable
    completes := fun derived fits => reads.completes derived (included _ _ fits) }

/-- A tree of the grammar is the tree of some value. -/
theorem exists_value (reads : parser.Reads erase grammar follows) {phrase : Phrase} {tree : τ}
    (derived : grammar phrase tree) : ∃ value, erase value = tree := by
  obtain ⟨kind, fits⟩ := reads.closable tree
  let tokens : List Token := phrase.map fun each => ⟨each, 0, 0⟩
  let stream : TokenStream := ⟨[⟨kind, 0, 0⟩], .start⟩
  have kinds : tokens.map (·.kind) = phrase := by simp [tokens, Function.comp_def]
  have fits : follows tree stream.next.kind := fits
  obtain ⟨value, -, equal⟩ := reads.completes (kinds ▸ derived) fits
  exact ⟨value, equal⟩

/-- Giving a value without reading. -/
protected theorem pure (value : α) (closable : forall tree, ∃ kind, follows tree kind) :
    (pure value : Parser α).Reads erase (Grammar.only (erase value)) follows where
  inhabited := ⟨[], erase value, rfl, rfl⟩
  closable := closable
  inside := by
    rintro phrase tree ⟨rfl, -⟩
    simp
  accepts := by
    intro stream result rest success
    obtain ⟨rfl, rfl⟩ : value = result ∧ stream = rest := by simpa using success
    exact ⟨[], rfl, ⟨rfl, rfl⟩, fun other _ => rfl⟩
  completes := by
    rintro tokens tree stream ⟨empty, rfl⟩ -
    obtain rfl : tokens = [] := by simpa using empty
    exact ⟨value, rfl, rfl⟩
  rejects := by
    intro stream error rest failure
    simp at failure

/-- Giving a value after the only token of its phrase. -/
theorem last {kind : Token.Kind} {value : α} (closable : forall tree, ∃ kind, follows tree kind)
    (derived : grammar [kind] (erase value))
    (unique : forall phrase tree, grammar (kind :: phrase) tree ->
      phrase = [] ∧ tree = erase value) :
    (pure value : Parser α).Reads erase (grammar.startingWith kind) follows := by
  refine (Reads.pure value closable).congr fun phrase tree => ⟨?_, unique phrase tree⟩
  rintro ⟨rfl, rfl⟩
  exact derived

/-- One parser after another. The first part must be able to stop before the first
token of the second, or before the token after both if the second reads nothing. -/
theorem andThen {first : Parser α} {second : α -> Parser β} {eraseFirst : α -> σ}
    {eraseSecond : β -> τ} {front : Grammar σ}
    {followsFirst : σ -> Token.Kind -> Prop} {followsSecond : τ -> Token.Kind -> Prop}
    (readsFirst : first.Reads eraseFirst front followsFirst) (back : σ -> Grammar τ)
    (readsSecond : forall value,
      (second value).Reads eraseSecond (back (eraseFirst value)) followsSecond)
    (fits : forall middle phrase tree kind, back middle phrase tree -> followsSecond tree kind ->
      followsFirst middle (phrase.headD kind)) :
    (first >>= second).Reads eraseSecond (front.andThen back) followsSecond where
  inhabited := by
    obtain ⟨phrase, middle, derived⟩ := readsFirst.inhabited
    obtain ⟨value, rfl⟩ := readsFirst.exists_value derived
    obtain ⟨others, tree, continued⟩ := (readsSecond value).inhabited
    exact ⟨phrase ++ others, tree, phrase, others, _, rfl, derived, continued⟩
  closable := by
    obtain ⟨phrase, middle, derived⟩ := readsFirst.inhabited
    obtain ⟨value, -⟩ := readsFirst.exists_value derived
    exact (readsSecond value).closable
  inside := by
    rintro phrase tree ⟨before, behind, middle, rfl, derived, continued⟩ contained
    obtain ⟨value, rfl⟩ := readsFirst.exists_value derived
    rcases List.mem_append.mp contained with inFirst | inSecond
    · exact readsFirst.inside derived inFirst
    · exact (readsSecond value).inside continued inSecond
  accepts := by
    intro stream result rest success
    rw [run_bind] at success
    cases reply : first.run stream with
    | rejected error remaining => simp [reply] at success
    | accepted value remaining =>
        rw [reply] at success
        obtain ⟨tokens, rfl, derived, again⟩ := readsFirst.accepts reply
        obtain ⟨more, rfl, continued, againMore⟩ := (readsSecond value).accepts success
        refine ⟨tokens ++ more, by simp, ⟨_, _, _, List.map_append, derived, continued⟩, ?_⟩
        intro other same
        rw [run_bind, TokenStream.after_append,
          again _ (TokenStream.next_after_congr same more)]
        exact againMore other same
  completes := by
    rintro tokens tree stream ⟨before, behind, middle, split, derived, continued⟩ fitsTree
    obtain ⟨front, back, rfl, rfl, rfl⟩ := List.map_eq_append_iff.mp split
    have fitsMiddle := fits _ _ _ _ continued fitsTree
    rw [<- TokenStream.next_after_kind] at fitsMiddle
    obtain ⟨value, reply, rfl⟩ := readsFirst.completes derived fitsMiddle
    obtain ⟨result, success, equal⟩ := (readsSecond value).completes continued fitsTree
    refine ⟨result, ?_, equal⟩
    rw [run_bind, TokenStream.after_append, reply]
    exact success
  rejects := by
    intro stream error rest failure
    rw [run_bind] at failure
    cases reply : first.run stream with
    | rejected cause remaining =>
        rw [reply] at failure
        obtain ⟨rfl, rfl⟩ : cause = error ∧ remaining = rest := by simpa using failure
        obtain ⟨tokens, fault, rfl, left, ⟨others, middle, derived⟩, blames, again⟩ :=
          readsFirst.rejects reply
        -- What is missing of the first part and all of the second complete the phrase.
        obtain ⟨value, rfl⟩ := readsFirst.exists_value derived
        obtain ⟨rest, tree, continued⟩ := (readsSecond value).inhabited
        refine ⟨tokens, fault, rfl, left,
          ⟨others ++ rest, tree, _, rest, _, by simp, derived, continued⟩, blames, ?_⟩
        intro other same
        rw [run_bind, again other same]
    | accepted value remaining =>
        rw [reply] at failure
        obtain ⟨tokens, rfl, derived, again⟩ := readsFirst.accepts reply
        obtain ⟨more, fault, rfl, left, ⟨rest, tree, continued⟩, blames, againMore⟩ :=
          (readsSecond value).rejects failure
        refine ⟨tokens ++ more, fault, by simp, left,
          ⟨rest, tree, _, _, _, by simp, derived, continued⟩, blames, ?_⟩
        intro other same
        rw [run_bind, TokenStream.after_append,
          again _ (TokenStream.next_after_congr same more)]
        exact againMore other same

/-- One parser after another, where the value of the first is kept as it is. -/
theorem keeping {first : Parser α} {second : α -> Parser β} {eraseSecond : β -> τ}
    {front : Grammar α} {back : α -> Grammar τ} {followsFirst : α -> Token.Kind -> Prop}
    {followsSecond : τ -> Token.Kind -> Prop} (readsFirst : first.Reads id front followsFirst)
    (readsSecond : forall value, (second value).Reads eraseSecond (back value) followsSecond)
    (fits : forall middle phrase tree kind, back middle phrase tree -> followsSecond tree kind ->
      followsFirst middle (phrase.headD kind)) :
    (first >>= second).Reads eraseSecond (front.andThen back) followsSecond :=
  readsFirst.andThen back readsSecond fits

/-- One parser after another, where the value of the first is kept as it is and
any token may come after it. -/
theorem seq {first : Parser α} {second : α -> Parser β} {eraseSecond : β -> τ}
    {front : Grammar α} {back : α -> Grammar τ} {followsSecond : τ -> Token.Kind -> Prop}
    (readsFirst : first.Reads id front anything)
    (readsSecond : forall value, (second value).Reads eraseSecond (back value) followsSecond) :
    (first >>= second).Reads eraseSecond (front.andThen back) followsSecond :=
  readsFirst.keeping readsSecond fun _ _ _ _ _ _ => trivial

/-- Reading one token and deciding on it. A token is either blamed at once, and
then no phrase starts with it, or it is consumed and the rest is read. -/
theorem ofTake {second : Token -> Parser α} (inhabited : ∃ phrase tree, grammar phrase tree)
    (closable : forall tree, ∃ kind, follows tree kind)
    (nonempty : forall tree, ¬ grammar [] tree)
    (each : forall token,
      (∃ error, second token = reject error ∧ error.Blames token ∧
        forall phrase tree, ¬ grammar.startingWith token.kind phrase tree) ∨
      (token.kind ≠ .endOfInput ∧
        (second token).Reads erase (grammar.startingWith token.kind) follows)) :
    (take >>= second).Reads erase grammar follows where
  inhabited := inhabited
  closable := closable
  inside := by
    intro phrase tree derived
    cases phrase with
    | nil => simp
    | cons kind rest =>
        rcases each ⟨kind, 0, 0⟩ with ⟨error, -, -, none⟩ | ⟨notEnd, reads⟩
        · exact absurd derived (none rest tree)
        · simp only [List.mem_cons, not_or]
          exact ⟨fun atEnd => notEnd atEnd.symm, reads.inside derived⟩
  accepts := by
    intro stream value rest success
    have success : (second stream.next).run stream.advance = .accepted value rest := success
    rcases each stream.next with ⟨error, rejected, -, -⟩ | ⟨notEnd, reads⟩
    · simp [rejected, reject] at success
    · obtain ⟨tokens, split, derived, again⟩ := reads.accepts success
      refine ⟨stream.next :: tokens, ?_, derived, fun other same => again other same⟩
      rw [TokenStream.eq_after_next notEnd, split]
      rfl
  completes := by
    intro tokens tree stream derived fits
    cases tokens with
    | nil => exact absurd derived (nonempty tree)
    | cons token tokens =>
        rcases each token with ⟨error, -, -, none⟩ | ⟨-, reads⟩
        · exact absurd derived (none _ tree)
        · exact reads.completes derived fits
  rejects := by
    intro stream error rest failure
    have failure : (second stream.next).run stream.advance = .rejected error rest := failure
    rcases each stream.next with ⟨cause, rejected, blames, -⟩ | ⟨notEnd, reads⟩
    · rw [rejected] at failure
      obtain ⟨rfl, rfl⟩ : cause = error ∧ stream.advance = rest := by
        simpa [reject] using failure
      refine ⟨[], stream, rfl, rfl, inhabited, blames, ?_⟩
      intro other same
      show (second other.next).run other.advance = _
      rw [same, rejected]
      rfl
    · obtain ⟨tokens, fault, split, left, viable, blames, again⟩ := reads.rejects failure
      refine ⟨stream.next :: tokens, fault, ?_, left, viable, blames,
        fun other same => again other same⟩
      rw [TokenStream.eq_after_next notEnd, split]
      rfl

/-- Looking at one token and deciding on it. Every phrase must be among those of
the token that it starts with, or that comes after it if it is empty. -/
theorem ofPeek {second : Token -> Parser α} (back : Token.Kind -> Grammar τ)
    (each : forall token, (second token).Reads erase (back token.kind) follows)
    (decided : forall kind phrase tree next, back kind phrase tree -> follows tree next ->
      back (phrase.headD next) phrase tree) :
    (peek >>= second).Reads erase (fun phrase tree => ∃ kind, back kind phrase tree) follows where
  inhabited := by
    obtain ⟨phrase, tree, derived⟩ := (each ⟨.endOfInput, 0, 0⟩).inhabited
    exact ⟨phrase, tree, _, derived⟩
  closable := (each ⟨.endOfInput, 0, 0⟩).closable
  inside := by
    rintro phrase tree ⟨kind, derived⟩
    exact (each ⟨kind, 0, 0⟩).inside derived
  accepts := by
    intro stream value rest success
    obtain ⟨tokens, rfl, derived, again⟩ := (each stream.next).accepts success
    refine ⟨tokens, rfl, ⟨_, derived⟩, ?_⟩
    intro other same
    show (second (other.after tokens).next).run (other.after tokens) = _
    rw [TokenStream.next_after_congr same]
    exact again other same
  completes := by
    rintro tokens tree stream ⟨kind, derived⟩ fits
    have derived := decided _ _ _ _ derived fits
    rw [<- TokenStream.next_after_kind] at derived
    exact (each (stream.after tokens).next).completes derived fits
  rejects := by
    intro stream error rest failure
    obtain ⟨tokens, fault, rfl, left, ⟨others, tree, derived⟩, blames, again⟩ :=
      (each stream.next).rejects failure
    refine ⟨tokens, fault, rfl, left, ⟨others, tree, _, derived⟩, blames, ?_⟩
    intro other same
    show (second (other.after tokens).next).run (other.after tokens) = _
    rw [TokenStream.next_after_congr same]
    exact again other same

/-- The same parser with its values mapped. -/
theorem map (reads : parser.Reads erase grammar follows) (change : α -> β) {eraseResult : β -> σ}
    {tree : τ -> σ} (commutes : forall value, eraseResult (change value) = tree (erase value))
    {followsResult : σ -> Token.Kind -> Prop}
    (closable : forall result, ∃ kind, followsResult result kind)
    (included : forall each kind, followsResult (tree each) kind -> follows each kind) :
    (change <$> parser).Reads eraseResult
      (fun phrase result => ∃ each, grammar phrase each ∧ result = tree each) followsResult := by
  have reads : (parser >>= fun value => pure (change value)).Reads eraseResult
      (grammar.andThen fun each => Grammar.only (tree each)) followsResult := by
    refine reads.andThen (fun each => Grammar.only (tree each)) (fun value => ?_) ?_
    · rw [<- commutes]
      exact .pure _ closable
    · rintro each phrase result kind ⟨rfl, rfl⟩ fits
      exact included each kind fits
  refine reads.congr fun phrase result => ?_
  constructor
  · rintro ⟨front, back, each, rfl, derived, rfl, rfl⟩
    exact ⟨each, by simpa using derived, rfl⟩
  · rintro ⟨each, derived, rfl⟩
    exact ⟨phrase, [], each, by simp, derived, rfl, rfl⟩

end Reads

end Parser

end XdrPack
