import XdrPack.Proofs.TwoPhases

/-!
# Where constructs stand

A definition and the parts of it that can be at fault later carry lines. Each of these
constructs was written with tokens of its own, the first of which is on its line, and the parts
of a definition follow one another among the tokens of the definition. `Parser.Spells` is what a
parser guarantees about the tokens behind a value that it gives, and it is closed under the
combinators that parsers are built from.
-/

namespace XdrPack

open Grammar

/-! ## Constructs -/

/-- The line that a definition carries. A type definition has that of its declaration. -/
def Definition.line? : Definition -> Option Int
  | .constant _ _ line | .enum _ _ line | .struct _ _ line | .union _ _ _ line => some line
  | .typedef _ | .program _ => none

/-- A part of a source text that a name can be at fault in. -/
inductive Construct where
  | definition (definition : Definition)
  | member (member : EnumMember)
  | declaration (declaration : Declaration)
  /-- What selects a case, from its keyword to its colon. -/
  | selector (label : Value) (line : Int)
  deriving DecidableEq, Repr

namespace Construct

/-- The line that a construct carries. -/
def line? : Construct -> Option Int
  | definition whole => whole.line?
  | member each => some each.line
  | declaration declared => some declared.line
  | selector _ line => some line

/-- A phrase stands for a construct. -/
def Derives (phrase : Phrase) : Construct -> Prop
  | definition whole => DefinitionPhrase phrase whole.unlined
  | member each => MemberPhrase phrase each.unlined
  | declaration declared => DeclarationPhrase phrase declared.unlined
  | selector label _ => ∃ written, ValuePhrase written label ∧
      phrase = .keyword .caseOf :: written ++ [.mark .colon]

/-- Tokens spell a construct if they stand for it and the first is on its line. -/
structure SpelledBy (construct : Construct) (tokens : List Token) : Prop where
  derived : construct.Derives (tokens.map (·.kind))
  starts : forall line, construct.line? = some line ->
    ∃ first others, tokens = first :: others ∧ first.line = line

/-- Tokens that spell a construct stand among others. -/
def Within (construct : Construct) (tokens : List Token) : Prop :=
  ∃ before span after, tokens = before ++ span ++ after ∧ construct.SpelledBy span

end Construct

/-- Constructs are spelled one behind the other, with any tokens between them. -/
inductive Spread : List Token -> List Construct -> Prop where
  | done (tokens : List Token) : Spread tokens []
  | next (between : List Token) {span rest : List Token} {construct : Construct}
      {others : List Construct} (spelled : construct.SpelledBy span)
      (later : Spread rest others) :
      Spread (between ++ span ++ rest) (construct :: others)

namespace Spread

variable {front back tokens : List Token} {first second constructs : List Construct}

/-- A construct that tokens spell is spread over them. -/
theorem one {construct : Construct} (spelled : construct.SpelledBy tokens) :
    Spread tokens [construct] := by
  simpa using next [] spelled (done [])

/-- Tokens in front do not matter. -/
theorem prepend (before : List Token) (spread : Spread tokens constructs) :
    Spread (before ++ tokens) constructs := by
  cases spread with
  | done => exact done _
  | next between spelled later => simpa using next (before ++ between) spelled later

/-- What is spread over tokens and over those behind them is spread over all of them. -/
theorem append (before : Spread front first) (behind : Spread back second) :
    Spread (front ++ back) (first ++ second) := by
  induction before with
  | done tokens => exact behind.prepend tokens
  | next between spelled later inductionHypothesis =>
      simpa using next between spelled inductionHypothesis

/-- Every construct that is spread over tokens stands among them. -/
theorem within {construct : Construct} (spread : Spread tokens constructs)
    (listed : construct ∈ constructs) : construct.Within tokens := by
  induction spread with
  | done => cases listed
  | @next between span rest first others spelled later inductionHypothesis =>
      rcases List.mem_cons.mp listed with rfl | isLater
      · exact ⟨between, span, rest, rfl, spelled⟩
      · obtain ⟨before, inner, after, rfl, innerSpelled⟩ := inductionHypothesis isLater
        exact ⟨between ++ span ++ before, inner, after, by simp, innerSpelled⟩

end Spread

/-- The constructs of a case in order. A default has no selector. -/
def Case.constructs (each : Case) : List Construct :=
  (match each.label with
    | .value label => [.selector label each.line]
    | .default => [])
    ++ each.body.toList.map .declaration

/-- The constructs inside a definition in order. -/
def Definition.constructs : Definition -> List Construct
  | .constant _ _ _ | .program _ => []
  | .enum _ members _ => members.map .member
  | .typedef declaration => [.declaration declaration]
  | .struct _ fields _ => fields.map .declaration
  | .union _ discriminant switch _ =>
      .declaration discriminant
        :: (switch.cases ++ switch.fallback.toList).flatMap Case.constructs

/-- Tokens spell a definition and, in order, the constructs inside it. -/
structure Definition.SpelledBy (definition : Definition) (tokens : List Token) : Prop where
  whole : (Construct.definition definition).SpelledBy tokens
  spread : Spread tokens definition.constructs

/-! ## What parsers guarantee -/

namespace Parser

variable {α β : Type}

/-- Whatever the parser accepts, the tokens that it consumes spell it. -/
structure Spells (parser : Parser α) (spelled : List Token -> α -> Prop) : Prop where
  consumed : forall {stream rest : TokenStream} {value : α},
    parser.run stream = .accepted value rest ->
      ∃ tokens, stream = rest.after tokens ∧ spelled tokens value

/-- Whatever the parser accepts has a property. -/
structure Gives (parser : Parser α) (property : α -> Prop) : Prop where
  given : forall {stream rest : TokenStream} {value : α},
    parser.run stream = .accepted value rest -> property value

/-- A sequence is accepted if its parts are, one behind the other. -/
theorem accepted_of_bind {first : Parser α} {second : α -> Parser β} {stream rest : TokenStream}
    {result : β} (reply : (first >>= second).run stream = .accepted result rest) :
    ∃ value remaining, first.run stream = .accepted value remaining ∧
      (second value).run remaining = .accepted result rest := by
  rw [run_bind] at reply
  cases given : first.run stream with
  | rejected error remaining =>
      rw [given] at reply
      cases reply
  | accepted value remaining =>
      rw [given] at reply
      exact ⟨value, remaining, rfl, reply⟩

/-- What a sequence gives is given by its second part. -/
theorem Gives.behind {second : α -> Parser β} {property : β -> Prop} (first : Parser α)
    (later : forall value, (second value).Gives property) : (first >>= second).Gives property := by
  constructor
  intro stream rest result reply
  obtain ⟨value, remaining, -, replyLater⟩ := accepted_of_bind reply
  exact (later value).given replyLater

/-- A parser that consumes nothing gives its value. -/
theorem Gives.pure {property : α -> Prop} {value : α} (holds : property value) :
    (Pure.pure value : Parser α).Gives property := by
  constructor
  intro stream rest result reply
  cases reply
  exact holds

/-- What is given after a function was applied is known from what was given before. -/
theorem Gives.map {property : β -> Prop} {onValue : α -> β} {parser : Parser α}
    (gives : parser.Gives fun value => property (onValue value)) :
    (onValue <$> parser).Gives property := by
  constructor
  intro stream rest result reply
  obtain ⟨value, remaining, given, mapped⟩ := accepted_of_bind reply
  cases mapped
  exact gives.given given

/-- The tokens in front of a stream are determined. -/
theorem after_inj {rest : TokenStream} {tokens others : List Token}
    (same : rest.after tokens = rest.after others) : tokens = others :=
  List.append_cancel_right (congrArg TokenStream.unread same)

namespace Spells

variable {spelled other : List Token -> α -> Prop} {final : List Token -> β -> Prop}
  {parser : Parser α}

/-- A parser that reads a grammar consumes its phrases. -/
theorem of_reads {τ : Type} {erase : α -> τ} {grammar : Grammar τ}
    {follows : τ -> Token.Kind -> Prop} (reads : parser.Reads erase grammar follows) :
    parser.Spells fun tokens value => grammar (tokens.map (·.kind)) (erase value) := by
  constructor
  intro stream rest value reply
  obtain ⟨tokens, split, derived, -⟩ := reads.accepts reply
  exact ⟨tokens, split, derived⟩

/-- What a parser guarantees about tokens can be weakened. -/
theorem mono (spells : parser.Spells spelled)
    (weaker : forall tokens value, spelled tokens value -> other tokens value) :
    parser.Spells other := by
  constructor
  intro stream rest value reply
  obtain ⟨tokens, split, holds⟩ := spells.consumed reply
  exact ⟨tokens, split, weaker tokens value holds⟩

/-- A parser that consumes nothing guarantees what holds of no tokens. -/
theorem pure {value : α} (holds : spelled [] value) :
    (Pure.pure value : Parser α).Spells spelled := by
  constructor
  intro stream rest result reply
  cases reply
  exact ⟨[], rfl, holds⟩

/-- What is given without reading is spelled by nothing. -/
theorem only (value : α) :
    (Pure.pure value : Parser α).Spells fun tokens result => tokens = [] ∧ result = value :=
  pure ⟨rfl, rfl⟩

/-- The tokens of a sequence are those of its two parts. -/
theorem seq {second : α -> Parser β} {middle : α -> List Token -> β -> Prop}
    (first : parser.Spells spelled) (later : forall value, (second value).Spells (middle value)) :
    (parser >>= second).Spells fun tokens result => ∃ value front back, tokens = front ++ back ∧
      spelled front value ∧ middle value back result := by
  constructor
  intro stream rest result reply
  obtain ⟨value, remaining, given, replyLater⟩ := accepted_of_bind reply
  obtain ⟨front, rfl, holds⟩ := first.consumed given
  obtain ⟨back, rfl, holdsLater⟩ := (later value).consumed replyLater
  exact ⟨front ++ back, (TokenStream.after_append ..).symm, value, front, back, rfl, holds,
    holdsLater⟩

/-- Of two parsers, the tokens of the second follow those of the first. -/
theorem bind {second : α -> Parser β} {middle : α -> List Token -> β -> Prop}
    (first : parser.Spells spelled) (later : forall value, (second value).Spells (middle value))
    (joined : forall front back value result, spelled front value -> middle value back result ->
      final (front ++ back) result) :
    (parser >>= second).Spells final := by
  refine (first.seq later).mono ?_
  rintro tokens result ⟨value, front, back, rfl, holds, holdsLater⟩
  exact joined front back value result holds holdsLater

/-- A sequence that only makes something of what its first part gives. -/
theorem make {onValue : α -> β} (spells : parser.Spells fun tokens value =>
    final tokens (onValue value)) :
    (parser >>= fun value => Pure.pure (onValue value)).Spells final := by
  refine spells.bind (fun value => .only (onValue value)) ?_
  rintro front back value result holds ⟨rfl, rfl⟩
  simpa using holds

/-- Applying a function keeps the tokens behind a value. -/
theorem map {onValue : α -> β} (spells : parser.Spells fun tokens value =>
    final tokens (onValue value)) : (onValue <$> parser).Spells final :=
  spells.make

/-- What is given is spelled by what is consumed. -/
theorem giving {property : α -> Prop} (spells : parser.Spells spelled)
    (gives : parser.Gives property) :
    parser.Spells fun tokens value => spelled tokens value ∧ property value := by
  constructor
  intro stream rest value reply
  obtain ⟨tokens, split, holds⟩ := spells.consumed reply
  exact ⟨tokens, split, holds, gives.given reply⟩

/-- A token that is looked at is the first one that is consumed, so its line is the line of the
first token. -/
theorem ofPeek {second : Token -> Parser α} (line : α -> Int)
    (spells : (Parser.peek >>= second).Spells spelled)
    (filled : forall tokens value, spelled tokens value -> tokens ≠ [])
    (gives : forall token, (second token).Gives fun value => line value = token.line) :
    (Parser.peek >>= second).Spells fun tokens value => spelled tokens value ∧
      ∃ first others, tokens = first :: others ∧ first.line = line value := by
  constructor
  intro stream rest value reply
  obtain ⟨tokens, rfl, holds⟩ := spells.consumed reply
  obtain ⟨first, others, rfl⟩ := List.exists_cons_of_ne_nil (filled _ _ holds)
  exact ⟨_, rfl, holds, first, others, rfl, ((gives first).given reply).symm⟩

/-- Looking ahead consumes no tokens. -/
theorem peek : Parser.peek.Spells fun tokens _ => tokens = [] := by
  constructor
  intro stream rest token reply
  cases reply
  exact ⟨[], rfl, rfl⟩

/-- Looking for a kind of token consumes none. -/
theorem sees (kind : Token.Kind) : (Parser.sees kind).Spells fun tokens _ => tokens = [] := by
  constructor
  intro stream rest found reply
  cases reply
  exact ⟨[], rfl, rfl⟩

/-- A token that is expected is the one that is consumed. -/
theorem expect {kind : Token.Kind} (inside : kind ≠ .endOfInput) :
    (Parser.expect kind).Spells fun tokens token => tokens = [token] ∧ token.kind = kind := by
  constructor
  intro stream rest token reply
  have reply : (if stream.next.kind = kind then Pure.pure stream.next
      else unexpected kind.describe stream.next : Parser Token).run stream.advance =
        .accepted token rest := reply
  split at reply
  · next same =>
      cases reply
      exact ⟨[stream.next], TokenStream.eq_after_next (same ▸ inside), rfl, same⟩
  · cases reply

/-- A keyword is spelled by its token. -/
theorem keyword (word : Keyword) :
    (Parser.keyword word).Spells fun tokens token =>
      tokens = [token] ∧ token.kind = .keyword word :=
  expect (by simp)

/-- A mark is spelled by its token. -/
theorem mark (sign : Mark) :
    (Parser.mark sign).Spells fun tokens token => tokens = [token] ∧ token.kind = .mark sign :=
  expect (by simp)

end Spells

/-! ## Constructs in order -/

/-- The tokens that are consumed spell the constructs of the value in order. -/
def Spreads (parser : Parser α) (constructs : α -> List Construct) : Prop :=
  parser.Spells fun tokens value => Spread tokens (constructs value)

/-- The tokens that are consumed spell, in order, the constructs of the value that follow those
which have been read before. -/
def Continues (parser : Parser α) (before : List Construct) (constructs : α -> List Construct) :
    Prop :=
  parser.Spells fun tokens value => ∃ others, Spread tokens others ∧
    constructs value = before ++ others

namespace Continues

variable {parser : Parser α} {before : List Construct} {found : β -> List Construct}

/-- The end of what is read, if all constructs have been read. -/
theorem pure {value : β} (complete : found value = before) :
    (Pure.pure value : Parser β).Continues before found :=
  Spells.pure ⟨[], .done [], by simp [complete]⟩

/-- A part that has no constructs. -/
theorem skip {spelled : List Token -> α -> Prop} {second : α -> Parser β}
    (first : parser.Spells spelled) (later : forall value, (second value).Continues before found) :
    (parser >>= second).Continues before found := by
  refine first.bind later ?_
  rintro front back value result - ⟨others, spread, all⟩
  exact ⟨others, spread.prepend front, all⟩

/-- A part that has constructs. -/
theorem read {constructs : α -> List Construct} {second : α -> Parser β}
    (first : parser.Spreads constructs)
    (later : forall value, (second value).Continues (before ++ constructs value) found) :
    (parser >>= second).Continues before found := by
  refine first.bind later ?_
  rintro front back value result spread ⟨others, spreadLater, all⟩
  exact ⟨constructs value ++ others, spread.append spreadLater, by simp [all]⟩

/-- With nothing before, all constructs are read. -/
theorem spreads {whole : Parser β} (continues : whole.Continues [] found) :
    whole.Spreads found := by
  refine continues.mono ?_
  rintro tokens value ⟨others, spread, all⟩
  rw [all]
  exact spread

end Continues

namespace Spreads

variable {parser : Parser α} {constructs : α -> List Construct}

/-- The items of a list are spelled one behind the other. -/
theorem oneOrMore {item : Parser α} {again : Parser Bool} (consumes : item.Consumes)
    (spreads : item.Spreads constructs) {decided : List Token -> Bool -> Prop}
    (decides : again.Spells decided) :
    (oneOrMore item again consumes).Spreads fun read => (read.1 :: read.2).flatMap constructs := by
  constructor
  intro stream rest read reply
  change readItems item again consumes stream = .accepted read rest at reply
  fun_induction readItems item again consumes stream generalizing read rest with
  | case1 | case2 | case4 => cases reply
  | case3 stream first afterItem found remaining decision =>
      cases reply
      obtain ⟨front, rfl, spread⟩ := spreads.consumed found
      obtain ⟨back, rfl, -⟩ := decides.consumed decision
      refine ⟨front ++ back, (TokenStream.after_append ..).symm, ?_⟩
      simpa using spread.append (.done back)
  | case5 stream first afterItem found remaining decision second more final later
      inductionHypothesis =>
      cases reply
      obtain ⟨front, rfl, spread⟩ := spreads.consumed found
      obtain ⟨between, rfl, -⟩ := decides.consumed decision
      obtain ⟨back, rfl, spreadLater⟩ := inductionHypothesis later
      refine ⟨front ++ (between ++ back), ?_, ?_⟩
      · rw [TokenStream.after_append, TokenStream.after_append]
      · exact spread.append (spreadLater.prepend between)

/-- The constructs of a list with at least one item are spread over its tokens in order. -/
theorem nonempty {item : Parser α} {again : Parser Bool} (consumes : item.Consumes)
    (spreads : item.Spreads constructs) {decided : List Token -> Bool -> Prop}
    (decides : again.Spells decided) :
    (nonempty item again consumes).Spreads (·.flatMap constructs) :=
  Continues.spreads (.read (oneOrMore consumes spreads decides) fun _ => .pure rfl)

end Spreads

/-! ## Declarations and members -/

/-- A declaration carries the line that its parser is given. -/
theorem plainDeclaration_gives (line : Int) :
    (plainDeclaration line).Gives fun declared => declared.line = line := by
  refine .behind _ fun base => .behind _ fun starred => ?_
  split
  · exact .behind _ fun name => .pure rfl
  · exact .behind _ fun name => .behind _ fun shape => .pure rfl

/-- A declaration is spelled by the tokens that are consumed for it. -/
theorem declaration_spells :
    declaration.Spells fun tokens declared =>
      (Construct.declaration declared).SpelledBy tokens := by
  refine (Spells.ofPeek (·.line) (.of_reads declaration_reads) ?_ fun token => ?_).mono ?_
  · rintro tokens declared derived rfl
    obtain ⟨kind, rest, impossible, -⟩ := derived.starts
    cases impossible
  · split
    · exact .behind _ fun _ => .pure rfl
    · exact .behind _ fun _ => .behind _ fun name => .behind _ fun shape => .pure rfl
    · exact .behind _ fun _ => .behind _ fun name => .behind _ fun _ => .behind _ fun shape =>
        .pure rfl
    · exact plainDeclaration_gives token.line
  · rintro tokens declared ⟨derived, starts⟩
    refine ⟨derived, ?_⟩
    rintro line ⟨⟩
    exact starts

/-- A declaration is spread over its tokens. -/
theorem declaration_spreads : declaration.Spreads fun declared => [.declaration declared] :=
  declaration_spells.mono fun _ _ => .one

/-- A field is spread over its tokens. -/
theorem field_spreads : field.Spreads fun declared => [.declaration declared] :=
  Continues.spreads (.read declaration_spreads fun _ => .skip (.mark _) fun _ => .pure rfl)

/-- A member of an enumeration is spelled by the tokens that are consumed for it. -/
theorem enumMember_spreads : enumMember.Spreads fun each => [.member each] := by
  refine (Spells.ofPeek (·.line) (.of_reads enumMember_reads) ?_ fun token => ?_).mono ?_
  · rintro tokens each derived rfl
    generalize each.unlined = tree at derived
    cases derived
  · exact .behind _ fun name => .behind _ fun _ => .behind _ fun value => .pure rfl
  · rintro tokens each ⟨derived, starts⟩
    refine .one ⟨derived, ?_⟩
    rintro line ⟨⟩
    exact starts

/-! ## Cases -/

/-- The body of a case is spread over its tokens, if it has one. -/
theorem caseBody_spreads : caseBody.Spreads fun body => body.toList.map .declaration := by
  refine Continues.spreads (.skip .peek fun token => ?_)
  split
  · exact .pure rfl
  · exact .pure rfl
  · exact .pure rfl
  · exact .read field_spreads fun _ => .pure rfl

/-- A case is spelled by its selector, which ends at the colon, and its body. -/
theorem unionCase_spreads : unionCase.Spreads Case.constructs := by
  have bodied : forall (label : Value) (line : Int),
      (caseBody >>= fun body => Pure.pure (Case.mk (.value label) body line)).Spells
        fun tokens each => each.label = .value label ∧ each.line = line ∧
          Spread tokens (each.body.toList.map .declaration) :=
    fun _ _ => .make (caseBody_spreads.mono fun _ _ spread => ⟨rfl, rfl, spread⟩)
  refine ((Spells.keyword .caseOf).seq fun token => (Spells.of_reads value_reads).seq
    fun label => (Spells.mark .colon).seq fun _ => bodied label token.line).mono ?_
  rintro _ ⟨_, body, _⟩ ⟨token, _, _, rfl, ⟨rfl, isCase⟩, label, written, _, rfl, derived,
    sign, _, tokens, rfl, ⟨rfl, isColon⟩, rfl, rfl, spread⟩
  have selected : (Construct.selector label token.line).SpelledBy (token :: written ++ [sign]) := by
    refine ⟨⟨_, derived, by simp [isCase, isColon]⟩, ?_⟩
    rintro line ⟨⟩
    exact ⟨token, _, rfl, rfl⟩
  simpa [Case.constructs] using (Spread.one selected).append spread

/-- The default of a union is spread over its tokens, if there is one. -/
theorem unionDefault_spreads :
    unionDefault.Spreads fun fallback => fallback.toList.flatMap Case.constructs := by
  refine Continues.spreads (.skip (.sees _) fun present => ?_)
  split
  · exact .skip (.keyword _) fun token => .skip (.mark _) fun _ =>
      .read caseBody_spreads fun body => .pure (by simp [Case.constructs])
  · exact .pure rfl

/-! ## Definitions -/

/-- A constant has no constructs inside it. -/
theorem constant_spreads (line : Int) : (constant line).Spreads Definition.constructs :=
  Continues.spreads <| .skip (.of_reads identifier_reads) fun _ => .skip (.mark _) fun _ =>
    .skip (.of_reads number_reads) fun _ => .skip (.mark _) fun _ => .pure rfl

/-- The members of an enumeration are spread over its tokens. -/
theorem enumeration_spreads (line : Int) : (enumeration line).Spreads Definition.constructs :=
  Continues.spreads <| .skip (.of_reads identifier_reads) fun _ => .skip (.mark _) fun _ =>
    .read (.nonempty enumMember_consumes enumMember_spreads (.of_reads enumSeparator_reads))
      fun _ => .skip (.mark _) fun _ => .pure List.map_eq_flatMap

/-- The declaration of a type definition is spread over its tokens. -/
theorem typedef_spreads : typedef.Spreads Definition.constructs :=
  Continues.spreads (.read field_spreads fun _ => .pure rfl)

/-- The fields of a structure are spread over its tokens. -/
theorem struct_spreads (line : Int) : (struct line).Spreads Definition.constructs :=
  Continues.spreads <| .skip (.of_reads identifier_reads) fun _ => .skip (.mark _) fun _ =>
    .read (.nonempty field_consumes field_spreads (.of_reads (.untilMark _))) fun _ =>
      .skip (.mark _) fun _ => .pure List.map_eq_flatMap

/-- The discriminant and the cases of a union are spread over its tokens. -/
theorem union_spreads (line : Int) : (union line).Spreads Definition.constructs := by
  refine Continues.spreads <| .skip (.of_reads identifier_reads) fun _ =>
    .skip (.keyword _) fun _ => .skip (.mark _) fun _ => .read declaration_spreads fun _ =>
    .skip (.mark _) fun _ => .skip (.mark _) fun _ =>
    .read (.oneOrMore unionCase_consumes unionCase_spreads (.sees _)) fun _ =>
    .read unionDefault_spreads fun _ => .skip (.mark _) fun _ => .skip (.mark _) fun _ => .pure ?_
  simp [Definition.constructs, Switch.cases]

/-- A program has no constructs in it. -/
theorem program_spreads : program.Spreads Definition.constructs := by
  have bare : program.Gives fun definition => definition.constructs = [] :=
    .behind _ fun _ => .behind _ fun _ => .behind _ fun _ => .behind _ fun _ => .pure rfl
  refine ((Spells.of_reads program_reads).giving bare).mono ?_
  rintro tokens definition ⟨-, empty⟩
  rw [empty]
  exact .done tokens

/-- The constructs of a definition are spelled behind its first token. -/
theorem definitionFrom_spreads (token : Token) :
    (definitionFrom token).Spreads fun read => read.toList.flatMap Definition.constructs := by
  have given : forall {parser : Parser Definition}, parser.Spreads Definition.constructs ->
      (some <$> parser).Spreads fun read => read.toList.flatMap Definition.constructs :=
    fun spreads => Spells.map (spreads.mono fun _ _ spread => by simpa using spread)
  rw [definitionFrom.eq_def]
  split
  · exact Spells.pure (.done [])
  · exact given (constant_spreads token.line)
  · exact given (enumeration_spreads token.line)
  · exact given typedef_spreads
  · exact given (struct_spreads token.line)
  · exact given (union_spreads token.line)
  · exact given program_spreads
  · exact ⟨nofun⟩

/-- A definition carries no line but that of its first token. -/
theorem definitionFrom_gives (token : Token) :
    (definitionFrom token).Gives fun read => forall definition line,
      read = some definition -> definition.line? = some line -> token.line = line := by
  have given : forall {parser : Parser Definition},
      (parser.Gives fun definition => definition.line? = none ∨
        definition.line? = some token.line) ->
      (some <$> parser).Gives fun read => forall definition line,
        read = some definition -> definition.line? = some line -> token.line = line := by
    intro parser gives
    refine .map ⟨fun reply => ?_⟩
    rintro definition line ⟨⟩ carried
    rcases gives.given reply with isNone | isToken
    · rw [isNone] at carried
      cases carried
    · rw [isToken] at carried
      exact Option.some.inj carried
  rw [definitionFrom.eq_def]
  split
  · exact .pure (by simp)
  · exact given (.behind _ fun _ => .behind _ fun _ => .behind _ fun _ => .behind _ fun _ =>
      .pure (.inr rfl))
  · exact given (.behind _ fun _ => .behind _ fun _ => .behind _ fun _ => .behind _ fun _ =>
      .pure (.inr rfl))
  · exact given (.behind _ fun _ => .pure (.inl rfl))
  · exact given (.behind _ fun _ => .behind _ fun _ => .behind _ fun _ => .behind _ fun _ =>
      .pure (.inr rfl))
  · exact given (.behind _ fun _ => .behind _ fun _ => .behind _ fun _ => .behind _ fun _ =>
      .behind _ fun _ => .behind _ fun _ => .behind _ fun _ => .behind _ fun _ => .behind _ fun _ =>
      .behind _ fun _ => .pure (.inr rfl))
  · exact given (.behind _ fun _ => .behind _ fun _ => .behind _ fun _ => .behind _ fun _ =>
      .pure (.inl rfl))
  · exact ⟨nofun⟩

end Parser

namespace TokenStream

/-- The tokens that are consumed for a definition spell it and the constructs inside it. -/
theorem spelled_of_definition? {stream rest : TokenStream} {definition : Definition}
    (reply : Parser.definition?.run stream = .accepted (some definition) rest) :
    ∃ tokens, stream = rest.after tokens ∧ definition.SpelledBy tokens := by
  obtain ⟨tokens, rfl, ⟨_, derived, same⟩, -⟩ :=
    Parser.definition_reads.accepts (accepted_some_iff.mp reply)
  cases same
  obtain ⟨kind, others, starts, -⟩ := Parser.someDefinition_starts ⟨_, derived, rfl⟩
  obtain ⟨first, others, rfl, -, -⟩ := List.map_eq_cons_iff.mp starts
  -- The first token is taken, and the others are read as what it introduces.
  have behind : (Parser.definitionFrom first).run (rest.after others) =
    .accepted (some definition) rest := reply
  obtain ⟨consumed, split, spread⟩ := (Parser.definitionFrom_spreads first).consumed behind
  obtain rfl := Parser.after_inj split
  refine ⟨first :: others, rfl, ⟨derived, ?_⟩, ?_⟩
  · intro line carried
    exact ⟨first, others, rfl, (Parser.definitionFrom_gives first).given behind _ _ rfl carried⟩
  · simpa using spread.prepend [first]

/-- The tokens fall into those of one definition after the other, and what is behind the last. -/
theorem exists_spelling (stream : TokenStream) :
    ∃ pieces rest, stream.unread = pieces.flatten ++ rest ∧
      List.Forall₂ (fun tokens definition => Definition.SpelledBy definition tokens) pieces
        stream.parsing.definitions := by
  fun_induction parsing stream with
  | case1 stream | case2 stream => exact ⟨[], stream.unread, rfl, .nil⟩
  | case3 stream definition remaining reply later inductionHypothesis =>
      obtain ⟨tokens, rfl, spelled⟩ := spelled_of_definition? reply
      obtain ⟨pieces, rest, split, others⟩ := inductionHypothesis
      refine ⟨tokens :: pieces, rest, ?_, .cons spelled others⟩
      rw [List.flatten_cons, List.append_assoc, <- split]
      rfl

end TokenStream

end XdrPack
