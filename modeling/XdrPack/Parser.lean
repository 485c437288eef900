import XdrPack.Token.Lexing

/-!
# Parsers of token streams

A stream is what a parser still has to read: the tokens that remain, and the end
of the input, which follows them for ever.

A parser reads tokens from a stream and either gives a value or fails. In both
cases it says what is left of the stream, so that reading may go on after a
failure. No parser puts tokens back: this is part of the type, and it is why
repeating a parser that consumes something comes to an end.
-/

namespace XdrPack

/-- The tokens that remain to be read and the place where the input ends. -/
structure TokenStream where
  unread : List Token
  finish : Cursor
  deriving DecidableEq, Repr

namespace TokenStream

/-- The next token, which is the end of the input once no other is left. -/
def next (stream : TokenStream) : Token :=
  match stream.unread with
  | token :: _ => token
  | [] => ⟨.endOfInput, stream.finish.line, stream.finish.column⟩

/-- The stream behind the next token. The end of the input is never passed. -/
def advance (stream : TokenStream) : TokenStream :=
  { stream with unread := stream.unread.tail }

end TokenStream

/-- The tokens of a lexed text as a stream. -/
def Lexing.stream (lexing : Lexing) : TokenStream := ⟨lexing.tokens, lexing.finish⟩

/-- A kind of type that must be named before it can be used in a declaration,
given by the word that introduces it. -/
structure NamedOnly where
  text : String
  deriving DecidableEq, Repr

namespace NamedOnly

/-- Enumerations. -/
def enum : NamedOnly := ⟨"enum"⟩

/-- Structures. -/
def struct : NamedOnly := ⟨"struct"⟩

/-- Unions. -/
def union : NamedOnly := ⟨"union"⟩

end NamedOnly

/-- Why a token cannot stand where it does. The line is that of the token. -/
inductive SyntaxError where
  | unexpectedToken (expected found : String) (line : Int)
  | anonymousType (kind : NamedOnly) (line : Int)
  deriving DecidableEq, Repr

/-- The wording of a syntax error. -/
def SyntaxError.message : SyntaxError -> String
  | unexpectedToken expected found line =>
      atLine line ("syntax error, expected " ++ expected ++ " but found " ++ found)
  | anonymousType kind line =>
      atLine line ("anonymous " ++ kind.text ++ " types cannot be used in a declaration")

/-- The outcome of a parser, with what is left of the stream. -/
inductive Reply (α : Type) where
  | accepted (value : α) (rest : TokenStream)
  | rejected (error : SyntaxError) (rest : TokenStream)
  deriving DecidableEq, Repr

/-- What is left of the stream. -/
def Reply.rest {α : Type} : Reply α -> TokenStream
  | accepted _ rest => rest
  | rejected _ rest => rest

/-- A parser, which leaves at most the tokens that it was given. -/
structure Parser (α : Type) where
  run : TokenStream -> Reply α
  shrinks : forall stream, (run stream).rest.unread.length <= stream.unread.length

namespace Parser

variable {α β : Type}

/-- The parser that consumes nothing and gives a value. -/
protected def pure (value : α) : Parser α where
  run stream := .accepted value stream
  shrinks _ := Nat.le_refl _

/-- One parser after another, which may depend on the value of the first. -/
protected def bind (first : Parser α) (second : α -> Parser β) : Parser β where
  run stream :=
    match first.run stream with
    | .accepted value rest => (second value).run rest
    | .rejected error rest => .rejected error rest
  shrinks stream := by
    have bound := first.shrinks stream
    cases reply : first.run stream with
    | accepted value rest =>
        rw [reply] at bound
        exact Nat.le_trans ((second value).shrinks rest) bound
    | rejected error rest =>
        rw [reply] at bound
        exact bound

instance : Monad Parser where
  pure := Parser.pure
  bind := Parser.bind

@[simp]
theorem run_pure (value : α) (stream : TokenStream) :
    (pure value : Parser α).run stream = .accepted value stream := rfl

@[simp]
theorem run_bind (first : Parser α) (second : α -> Parser β) (stream : TokenStream) :
    (first >>= second).run stream =
      match first.run stream with
      | .accepted value rest => (second value).run rest
      | .rejected error rest => .rejected error rest := rfl

/-- The parser that consumes nothing and fails. -/
def reject (error : SyntaxError) : Parser α where
  run stream := .rejected error stream
  shrinks _ := Nat.le_refl _

/-- Looks at the next token. -/
def peek : Parser Token where
  run stream := .accepted stream.next stream
  shrinks _ := Nat.le_refl _

/-- Consumes the next token. -/
def take : Parser Token where
  run stream := .accepted stream.next stream.advance
  shrinks stream := by simp [Reply.rest, TokenStream.advance]

/-- Fails at a token that has been consumed. -/
def unexpected (expected : String) (token : Token) : Parser α :=
  reject (.unexpectedToken expected token.kind.describe token.line)

/-- Consumes a token of the given kind. -/
def expect (kind : Token.Kind) : Parser Token := do
  let token <- take
  if token.kind = kind then pure token else unexpected kind.describe token

/-- Consumes a keyword. -/
def keyword (word : Keyword) : Parser Token := expect (.keyword word)

/-- Consumes a punctuation mark. -/
def mark (sign : Mark) : Parser Token := expect (.mark sign)

/-- Whether the next token is of the given kind. -/
def sees (kind : Token.Kind) : Parser Bool := do
  let token <- peek
  pure (token.kind = kind)

/-- Consumes the next token if it is of the given kind, and says whether it was. -/
def accept (kind : Token.Kind) : Parser Bool := do
  if <- sees kind then do
    let _ <- take
    pure true
  else
    pure false

/-- Whether a list goes on, which it does until the mark that ends it. That mark
is consumed. -/
def untilMark (sign : Mark) : Parser Bool := do
  let ended <- accept (.mark sign)
  pure (!ended)

/-- A parser consumes if it never succeeds without reading a token. -/
def Consumes (parser : Parser α) : Prop :=
  forall stream value rest, parser.run stream = .accepted value rest ->
    rest.unread.length < stream.unread.length

/-- A sequence consumes if its first part does. -/
theorem Consumes.andThen {first : Parser α} (consumes : first.Consumes)
    (second : α -> Parser β) : (first >>= second).Consumes := by
  intro stream value rest success
  rw [run_bind] at success
  cases reply : first.run stream with
  | accepted middle remaining =>
      rw [reply] at success
      have bound := (second middle).shrinks remaining
      rw [show (second middle).run remaining = .accepted value rest from success] at bound
      exact Nat.lt_of_le_of_lt bound (consumes _ _ _ reply)
  | rejected error remaining =>
      rw [reply] at success
      exact nomatch success

/-- A sequence consumes if its second part does, whatever the first gives. -/
theorem Consumes.before (first : Parser α) {second : α -> Parser β}
    (consumes : forall value, (second value).Consumes) : (first >>= second).Consumes := by
  intro stream value rest success
  rw [run_bind] at success
  have bound := first.shrinks stream
  cases reply : first.run stream with
  | accepted middle remaining =>
      rw [reply] at success bound
      exact Nat.lt_of_lt_of_le (consumes middle _ _ _ success) bound
  | rejected error remaining =>
      rw [reply] at success
      exact nomatch success

/-- A parser that takes a token and fails at the end of the input consumes. -/
theorem Consumes.ofTake {second : Token -> Parser α}
    (fails : forall token stream value rest, token.kind = .endOfInput ->
      (second token).run stream ≠ .accepted value rest) : (take >>= second).Consumes := by
  intro stream value rest success
  rw [run_bind] at success
  have success : (second stream.next).run stream.advance = .accepted value rest := success
  have bound := (second stream.next).shrinks stream.advance
  rw [success] at bound
  cases unread : stream.unread with
  | nil =>
      refine absurd success (fails stream.next _ _ _ ?_)
      simp [TokenStream.next, unread]
  | cons token tokens =>
      simp only [Reply.rest, TokenStream.advance, unread, List.tail_cons] at bound
      exact Nat.lt_succ_of_le bound

/-- A token other than the end of the input is consumed. -/
theorem expect_consumes {kind : Token.Kind} (inside : kind ≠ .endOfInput) :
    (expect kind).Consumes := by
  refine Consumes.ofTake ?_
  intro token stream value rest atEnd
  have differs : token.kind ≠ kind := by
    rw [atEnd]
    exact inside.symm
  simp [differs, unexpected, reject]

/-- A keyword is consumed. -/
theorem keyword_consumes (word : Keyword) : (keyword word).Consumes :=
  expect_consumes (by simp)

/-- Reads an item, and further ones as long as `again` says so. -/
def readItems (item : Parser α) (again : Parser Bool) (consumes : item.Consumes)
    (stream : TokenStream) : Reply (α × List α) :=
  match _ : item.run stream with
  | .rejected error rest => .rejected error rest
  | .accepted first afterItem =>
      match _ : again.run afterItem with
      | .rejected error rest => .rejected error rest
      | .accepted false rest => .accepted (first, []) rest
      | .accepted true rest =>
          match readItems item again consumes rest with
          | .rejected error final => .rejected error final
          | .accepted (second, more) final => .accepted (first, second :: more) final
termination_by stream.unread.length
decreasing_by
  rename_i found decided
  have shorter := consumes _ _ _ found
  have bound := again.shrinks afterItem
  rw [decided] at bound
  exact Nat.lt_of_le_of_lt bound shorter

/-- Reading items leaves at most the tokens that were given. -/
theorem length_readItems (item : Parser α) (again : Parser Bool) (consumes : item.Consumes)
    (stream : TokenStream) :
    (readItems item again consumes stream).rest.unread.length <= stream.unread.length := by
  fun_induction readItems item again consumes stream with
  | case1 stream error rest found =>
      have bound := item.shrinks stream
      rw [found] at bound
      exact bound
  | case2 stream first afterItem found error rest decided =>
      have bound := again.shrinks afterItem
      rw [decided] at bound
      exact Nat.le_trans bound (Nat.le_of_lt (consumes _ _ _ found))
  | case3 stream first afterItem found rest decided =>
      have bound := again.shrinks afterItem
      rw [decided] at bound
      exact Nat.le_trans bound (Nat.le_of_lt (consumes _ _ _ found))
  | case4 stream first afterItem found rest decided error final reply inductionHypothesis =>
      have bound := again.shrinks afterItem
      rw [decided] at bound
      rw [reply] at inductionHypothesis
      exact Nat.le_trans (Nat.le_trans inductionHypothesis bound)
        (Nat.le_of_lt (consumes _ _ _ found))
  | case5 stream first afterItem found rest decided second more final reply inductionHypothesis =>
      have bound := again.shrinks afterItem
      rw [decided] at bound
      rw [reply] at inductionHypothesis
      exact Nat.le_trans (Nat.le_trans inductionHypothesis bound)
        (Nat.le_of_lt (consumes _ _ _ found))

/-- Reads an item, and further ones as long as `again` says so. The first item is
kept apart, as there always is one. -/
def oneOrMore (item : Parser α) (again : Parser Bool) (consumes : item.Consumes) :
    Parser (α × List α) where
  run := readItems item again consumes
  shrinks := length_readItems item again consumes

/-- Reads a list of at least one item. -/
def nonempty (item : Parser α) (again : Parser Bool) (consumes : item.Consumes) :
    Parser (List α) := do
  let (first, rest) <- oneOrMore item again consumes
  pure (first :: rest)

end Parser

end XdrPack
