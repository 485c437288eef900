import XdrPack.Definition.Parser
import XdrPack.Proofs.Reading.List

/-!
# Moving tokens

A relocation moves the tokens of a text to other lines and columns. What a parser
accepts or refuses does not depend on where tokens are, and every place in its reply
is that of some token. So a parser commutes with every relocation: it gives the moved
reply to the moved tokens. Moving all tokens down and forgetting all places are the
two relocations that matter.
-/

namespace XdrPack

/-- Where lines and columns are moved to. -/
structure Relocation where
  line : Int -> Int
  column : Int -> Int

namespace Relocation

/-- Everything is moved down by some lines. -/
def down (lines : Int) : Relocation := ⟨(· + lines), id⟩

/-- All places are forgotten. -/
def away : Relocation := ⟨fun _ => 0, fun _ => 0⟩

end Relocation

/-! ## What is moved -/

section

variable (move : Relocation)

/-- A moved place. -/
def Cursor.moved (cursor : Cursor) : Cursor := ⟨move.line cursor.line, move.column cursor.column⟩

/-- A moved token. -/
def Token.moved (token : Token) : Token :=
  { token with line := move.line token.line, column := move.column token.column }

/-- A stream of moved tokens. -/
def TokenStream.moved (stream : TokenStream) : TokenStream :=
  ⟨stream.unread.map (Token.moved move), stream.finish.moved move⟩

/-- A syntax error at the moved token. -/
def SyntaxError.moved : SyntaxError -> SyntaxError
  | unexpectedToken expected found line => unexpectedToken expected found (move.line line)
  | anonymousType kind line => anonymousType kind (move.line line)

/-- A declaration that was read from moved tokens. -/
def Declaration.moved (declaration : Declaration) : Declaration :=
  { declaration with line := move.line declaration.line }

/-- A member of an enumeration that was read from moved tokens. -/
def EnumMember.moved (member : EnumMember) : EnumMember :=
  { member with line := move.line member.line }

/-- A case that was read from moved tokens. -/
def Case.moved (each : Case) : Case :=
  { each with body := each.body.map (Declaration.moved move), line := move.line each.line }

/-- A switch that was read from moved tokens. -/
def Switch.moved (switch : Switch) : Switch :=
  { first := switch.first.moved move
    more := switch.more.map (Case.moved move)
    fallback := switch.fallback.map (Case.moved move) }

/-- A definition that was read from moved tokens. -/
def Definition.moved : Definition -> Definition
  | .constant name value line => .constant name value (move.line line)
  | .enum name members line => .enum name (members.map (EnumMember.moved move)) (move.line line)
  | .typedef declaration => .typedef (declaration.moved move)
  | .struct name fields line =>
      .struct name (fields.map (Declaration.moved move)) (move.line line)
  | .union name discriminant switch line =>
      .union name (discriminant.moved move) (switch.moved move) (move.line line)
  | .program remote => .program remote

/-- The reply to moved tokens, given what moving does to values. -/
def Reply.moved {α : Type} (onValue : α -> α) : Reply α -> Reply α
  | accepted value rest => accepted (onValue value) (rest.moved move)
  | rejected error rest => rejected (error.moved move) (rest.moved move)

@[simp]
theorem TokenStream.next_moved (stream : TokenStream) :
    (stream.moved move).next = stream.next.moved move := by
  obtain ⟨unread, finish⟩ := stream
  cases unread <;> rfl

@[simp]
theorem TokenStream.advance_moved (stream : TokenStream) :
    (stream.moved move).advance = stream.advance.moved move := by
  obtain ⟨unread, finish⟩ := stream
  cases unread <;> rfl

end

namespace Parser

variable {α β : Type} {move : Relocation}

/-! ## Parsers that commute with moving -/

/-- On moved tokens the second parser replies as the first one does on the tokens, but
for places. The two differ only if they have been given places themselves. -/
def MovesTo (move : Relocation) (onValue : α -> α) (parser other : Parser α) : Prop :=
  forall stream, other.run (stream.moved move) = (parser.run stream).moved move onValue

namespace MovesTo

variable {onValue : α -> α} {onResult : β -> β}

/-- A value that was moved is given without reading. -/
protected theorem pure {value other : α} (same : onValue value = other) :
    MovesTo move onValue (pure value) (pure other) := by
  subst same
  exact fun _ => rfl

/-- An error that is given without reading moves. -/
protected theorem reject (error : SyntaxError) :
    MovesTo move onValue (reject error) (reject (error.moved move)) :=
  fun _ => rfl

/-- A complaint about a token moves with the token. -/
protected theorem unexpected (expected : String) (token : Token) :
    MovesTo move onValue (unexpected expected token) (unexpected expected (token.moved move)) :=
  fun _ => rfl

/-- The next token moves. -/
protected theorem peek : MovesTo move (Token.moved move) peek peek := by
  intro stream
  simp [Parser.peek, Reply.moved]

/-- The token that is taken moves. -/
protected theorem take : MovesTo move (Token.moved move) take take := by
  intro stream
  simp [Parser.take, Reply.moved]

/-- One parser after another, which may depend on the value of the first. -/
theorem andThen {first other : Parser α} {second otherSecond : α -> Parser β}
    (moves : MovesTo move onValue first other)
    (continues : forall value, MovesTo move onResult (second value) (otherSecond (onValue value))) :
    MovesTo move onResult (first >>= second) (other >>= otherSecond) := by
  intro stream
  rw [run_bind, run_bind, moves stream]
  cases first.run stream with
  | accepted value rest => exact continues value rest
  | rejected error rest => rfl

/-- One parser after another, where the value of the first has no place. -/
theorem seq {first other : Parser α} {second otherSecond : α -> Parser β}
    (moves : MovesTo move id first other)
    (continues : forall value, MovesTo move onResult (second value) (otherSecond value)) :
    MovesTo move onResult (first >>= second) (other >>= otherSecond) :=
  moves.andThen continues

/-- A choice by a value that has no place. -/
protected theorem ite (found : Bool) {present otherPresent absent otherAbsent : Parser α}
    (whenPresent : MovesTo move onValue present otherPresent)
    (whenAbsent : MovesTo move onValue absent otherAbsent) :
    MovesTo move onValue (if found then present else absent)
      (if found then otherPresent else otherAbsent) := by
  cases found with
  | true => exact whenPresent
  | false => exact whenAbsent

/-- An expected token moves. -/
protected theorem expect (kind : Token.Kind) :
    MovesTo move (Token.moved move) (expect kind) (expect kind) := by
  refine MovesTo.take.andThen fun token => ?_
  show MovesTo move _ (if token.kind = kind then _ else _) (if token.kind = kind then _ else _)
  split
  · exact .pure rfl
  · exact .unexpected _ token

/-- A keyword moves. -/
protected theorem keyword (word : Keyword) :
    MovesTo move (Token.moved move) (keyword word) (keyword word) := .expect _

/-- A mark moves. -/
protected theorem mark (sign : Mark) :
    MovesTo move (Token.moved move) (mark sign) (mark sign) := .expect _

/-- Whether a kind of token comes next does not depend on places. -/
protected theorem sees (kind : Token.Kind) : MovesTo move id (sees kind) (sees kind) :=
  MovesTo.peek.andThen fun _ => .pure rfl

/-- Whether a kind of token is consumed does not depend on places. -/
protected theorem accept (kind : Token.Kind) : MovesTo move id (accept kind) (accept kind) :=
  (MovesTo.sees kind).seq fun found =>
    .ite found (MovesTo.take.andThen fun _ => .pure rfl) (.pure rfl)

/-- Whether a list goes on does not depend on places. -/
protected theorem untilMark (sign : Mark) :
    MovesTo move id (untilMark sign) (untilMark sign) :=
  (MovesTo.accept _).seq fun _ => .pure rfl

/-- Lists commute with moving if their items do. -/
theorem oneOrMore {item : Parser α} {again : Parser Bool} (consumes : item.Consumes)
    (itemMoves : MovesTo move onValue item item) (againMoves : MovesTo move id again again) :
    MovesTo move (Prod.map onValue (List.map onValue)) (oneOrMore item again consumes)
      (oneOrMore item again consumes) := by
  intro stream
  show readItems item again consumes (stream.moved move) =
    (readItems item again consumes stream).moved move _
  fun_induction readItems item again consumes stream with
  | case1 stream error rest found =>
      rw [readItems_eq, itemMoves, found]
      rfl
  | case2 stream first afterItem found error rest decided =>
      rw [readItems_eq, itemMoves, found]
      simp only [Reply.moved]
      rw [againMoves, decided]
      rfl
  | case3 stream first afterItem found rest decided =>
      rw [readItems_eq, itemMoves, found]
      simp only [Reply.moved]
      rw [againMoves, decided]
      rfl
  | case4 stream first afterItem found rest decided error final reply inductionHypothesis =>
      rw [readItems_eq, itemMoves, found]
      simp only [Reply.moved]
      rw [againMoves, decided]
      simp only [Reply.moved, id]
      rw [inductionHypothesis, reply]
      rfl
  | case5 stream first afterItem found rest decided second more final reply inductionHypothesis =>
      rw [readItems_eq, itemMoves, found]
      simp only [Reply.moved]
      rw [againMoves, decided]
      simp only [Reply.moved, id]
      rw [inductionHypothesis, reply]
      rfl

/-- A list with at least one item moves if its items do. -/
theorem nonempty {item : Parser α} {again : Parser Bool} (consumes : item.Consumes)
    (itemMoves : MovesTo move onValue item item) (againMoves : MovesTo move id again again) :
    MovesTo move (List.map onValue) (nonempty item again consumes)
      (nonempty item again consumes) :=
  (oneOrMore consumes itemMoves againMoves).andThen fun _ => .pure rfl

/-- The same parsers with their values mapped. -/
protected theorem map {parser other : Parser α} (moves : MovesTo move onValue parser other)
    (change : α -> β) (commutes : forall value, onResult (change value) = change (onValue value)) :
    MovesTo move onResult (change <$> parser) (change <$> other) := by
  have mapped : MovesTo move onResult (parser >>= fun value => pure (change value))
      (other >>= fun value => pure (change value)) :=
    moves.andThen fun value => .pure (commutes value)
  exact mapped

end MovesTo

/-! ## Types and declarations -/

/-- An identifier has no place. -/
theorem identifier_moves : MovesTo move id identifier identifier := by
  refine MovesTo.take.andThen fun token => ?_
  obtain ⟨kind, line, column⟩ := token
  cases kind with
  | identifier name => exact .pure rfl
  | _ => exact .unexpected _ ⟨_, line, column⟩

/-- A value has no place. -/
theorem value_moves : MovesTo move id value value := by
  refine MovesTo.take.andThen fun token => ?_
  obtain ⟨kind, line, column⟩ := token
  cases kind with
  | number text | identifier name => exact .pure rfl
  | _ => exact .unexpected _ ⟨_, line, column⟩

/-- A number has no place. -/
theorem number_moves : MovesTo move id number number := by
  refine MovesTo.take.andThen fun token => ?_
  obtain ⟨kind, line, column⟩ := token
  cases kind with
  | number text => exact .pure rfl
  | _ => exact .unexpected _ ⟨_, line, column⟩

/-- The name of a type has no place. -/
theorem typeName_moves : MovesTo move id typeName typeName := by
  refine MovesTo.take.andThen fun token => ?_
  obtain ⟨kind, line, column⟩ := token
  cases kind with
  | identifier name => exact .pure rfl
  | keyword word =>
      cases word with
      | unsigned =>
          exact (MovesTo.accept _).seq fun isInt => .ite isInt (.pure rfl) <|
            (MovesTo.accept _).seq fun isHyper => .ite isHyper (.pure rfl) (.pure rfl)
      | int | hyper | float | double | quadruple | bool => exact .pure rfl
      | enum | struct | union => exact .reject (.anonymousType _ line)
      | _ => exact .unexpected _ ⟨_, line, column⟩
  | _ => exact .unexpected _ ⟨_, line, column⟩

/-- A fixed length has no place. -/
theorem fixedLength_moves : MovesTo move id fixedLength fixedLength :=
  value_moves.seq fun _ => (MovesTo.mark _).andThen fun _ => .pure rfl

/-- A bound has no place. -/
theorem bound_moves : MovesTo move id bound bound :=
  (MovesTo.accept _).seq fun closed => .ite closed (.pure rfl) <|
    value_moves.seq fun _ => (MovesTo.mark _).andThen fun _ => .pure rfl

/-- A shape has no place. -/
theorem shape_moves : MovesTo move id shape shape :=
  (MovesTo.accept _).seq fun isFixed => .ite isFixed fixedLength_moves <|
    (MovesTo.accept _).seq fun isVarying => .ite isVarying bound_moves (.pure rfl)

/-- The shape of bytes has no place. -/
theorem bytesShape_moves : MovesTo move id bytesShape bytesShape := by
  refine MovesTo.take.andThen fun token => ?_
  obtain ⟨kind, line, column⟩ := token
  cases kind with
  | mark sign =>
      cases sign with
      | openBracket => exact fixedLength_moves
      | openAngle => exact bound_moves
      | _ => exact .unexpected _ ⟨_, line, column⟩
  | _ => exact .unexpected _ ⟨_, line, column⟩

/-- A declaration without a value moves with its line. -/
theorem voidDeclaration_moves (line : Int) :
    MovesTo move (Declaration.moved move) (voidDeclaration line)
      (voidDeclaration (move.line line)) :=
  (MovesTo.keyword _).andThen fun _ => .pure rfl

/-- A declaration of bytes moves with its line. -/
theorem bytesDeclaration_moves (line : Int) :
    MovesTo move (Declaration.moved move) (bytesDeclaration line)
      (bytesDeclaration (move.line line)) :=
  (MovesTo.keyword _).andThen fun _ => identifier_moves.seq fun _ =>
    bytesShape_moves.seq fun _ => .pure rfl

/-- A declaration of a string moves with its line. -/
theorem stringDeclaration_moves (line : Int) :
    MovesTo move (Declaration.moved move) (stringDeclaration line)
      (stringDeclaration (move.line line)) :=
  (MovesTo.keyword _).andThen fun _ => identifier_moves.seq fun _ =>
    (MovesTo.mark _).andThen fun _ => bound_moves.seq fun _ => .pure rfl

/-- A declaration that starts with a type moves with its line. -/
theorem plainDeclaration_moves (line : Int) :
    MovesTo move (Declaration.moved move) (plainDeclaration line)
      (plainDeclaration (move.line line)) :=
  typeName_moves.seq fun _ => (MovesTo.accept _).seq fun isOptional => .ite isOptional
    (identifier_moves.seq fun _ => .pure rfl)
    (identifier_moves.seq fun _ => shape_moves.seq fun _ => .pure rfl)

/-- A declaration moves with its first token. -/
theorem declaration_moves :
    MovesTo move (Declaration.moved move) declaration declaration := by
  refine MovesTo.peek.andThen fun token => ?_
  obtain ⟨kind, line, column⟩ := token
  cases kind with
  | keyword word =>
      cases word with
      | void => exact voidDeclaration_moves line
      | opaqueBytes => exact bytesDeclaration_moves line
      | string => exact stringDeclaration_moves line
      | _ => exact plainDeclaration_moves line
  | _ => exact plainDeclaration_moves line

/-- A field moves with its declaration. -/
theorem field_moves : MovesTo move (Declaration.moved move) field field :=
  declaration_moves.andThen fun _ => (MovesTo.mark _).andThen fun _ => .pure rfl

/-! ## Definitions -/

/-- The definition of a constant moves with its line. -/
theorem constant_moves (line : Int) :
    MovesTo move (Definition.moved move) (constant line) (constant (move.line line)) :=
  identifier_moves.seq fun _ => (MovesTo.mark _).andThen fun _ => number_moves.seq fun _ =>
    (MovesTo.mark _).andThen fun _ => .pure rfl

/-- A member of an enumeration moves. -/
theorem enumMember_moves : MovesTo move (EnumMember.moved move) enumMember enumMember :=
  MovesTo.peek.andThen fun _ => identifier_moves.seq fun _ => (MovesTo.mark _).andThen fun _ =>
    value_moves.seq fun _ => .pure rfl

/-- Whether another member comes does not depend on places. -/
theorem enumSeparator_moves : MovesTo move id enumSeparator enumSeparator := by
  refine MovesTo.take.andThen fun token => ?_
  obtain ⟨kind, line, column⟩ := token
  cases kind with
  | mark sign =>
      cases sign with
      | comma | closeBrace => exact .pure rfl
      | _ => exact .unexpected _ ⟨_, line, column⟩
  | _ => exact .unexpected _ ⟨_, line, column⟩

/-- The definition of an enumeration moves with its line. -/
theorem enumeration_moves (line : Int) :
    MovesTo move (Definition.moved move) (enumeration line) (enumeration (move.line line)) :=
  identifier_moves.seq fun _ => (MovesTo.mark _).andThen fun _ =>
    (MovesTo.nonempty enumMember_consumes enumMember_moves enumSeparator_moves).andThen fun _ =>
      (MovesTo.mark _).andThen fun _ => .pure rfl

/-- A type definition moves with its declaration. -/
theorem typedef_moves : MovesTo move (Definition.moved move) typedef typedef :=
  field_moves.andThen fun _ => .pure rfl

/-- The definition of a structure moves with its line. -/
theorem struct_moves (line : Int) :
    MovesTo move (Definition.moved move) (struct line) (struct (move.line line)) :=
  identifier_moves.seq fun _ => (MovesTo.mark _).andThen fun _ =>
    (MovesTo.nonempty field_consumes field_moves (.untilMark _)).andThen fun _ =>
      (MovesTo.mark _).andThen fun _ => .pure rfl

/-- The body of a case moves, if there is one. -/
theorem caseBody_moves :
    MovesTo move (Option.map (Declaration.moved move)) caseBody caseBody := by
  have declared : MovesTo move (Option.map (Declaration.moved move))
      (field >>= fun declared => pure (some declared))
      (field >>= fun declared => pure (some declared)) :=
    field_moves.andThen fun _ => .pure rfl
  refine MovesTo.peek.andThen fun token => ?_
  obtain ⟨kind, line, column⟩ := token
  cases kind with
  | keyword word =>
      cases word with
      | caseOf | default => exact .pure rfl
      | _ => exact declared
  | mark sign =>
      cases sign with
      | closeBrace => exact .pure rfl
      | _ => exact declared
  | _ => exact declared

/-- A case of a union moves. -/
theorem unionCase_moves : MovesTo move (Case.moved move) unionCase unionCase :=
  (MovesTo.keyword _).andThen fun _ => value_moves.seq fun _ => (MovesTo.mark _).andThen fun _ =>
    caseBody_moves.andThen fun _ => .pure rfl

/-- The default of a union moves, if there is one. -/
theorem unionDefault_moves :
    MovesTo move (Option.map (Case.moved move)) unionDefault unionDefault :=
  (MovesTo.sees _).seq fun present => .ite present
    ((MovesTo.keyword _).andThen fun _ => (MovesTo.mark _).andThen fun _ =>
      caseBody_moves.andThen fun _ => .pure rfl)
    (.pure rfl)

/-- The definition of a union moves with its line. -/
theorem union_moves (line : Int) :
    MovesTo move (Definition.moved move) (union line) (union (move.line line)) :=
  identifier_moves.seq fun _ => (MovesTo.keyword _).andThen fun _ =>
    (MovesTo.mark _).andThen fun _ => declaration_moves.andThen fun _ =>
    (MovesTo.mark _).andThen fun _ => (MovesTo.mark _).andThen fun _ =>
    (MovesTo.oneOrMore unionCase_consumes unionCase_moves (.sees _)).andThen fun _ =>
    unionDefault_moves.andThen fun _ => (MovesTo.mark _).andThen fun _ =>
    (MovesTo.mark _).andThen fun _ => .pure rfl

/-- The types in a call have no places. -/
theorem callType_moves : MovesTo move id callType callType :=
  (MovesTo.sees _).seq fun isVoid => .ite isVoid
    ((MovesTo.keyword _).andThen fun _ => .pure rfl)
    (typeName_moves.seq fun _ => .pure rfl)

/-- An assigned number has no place. -/
theorem assignedNumber_moves : MovesTo move id assignedNumber assignedNumber :=
  (MovesTo.mark _).andThen fun _ => number_moves.seq fun _ => (MovesTo.mark _).andThen fun _ =>
    .pure rfl

/-- A procedure has no place. -/
theorem procedure_moves : MovesTo move id procedure procedure := by
  have arguments : MovesTo move (List.map id) _ _ :=
    .nonempty callType_consumes callType_moves (.accept (.mark .comma))
  rw [List.map_id_fun] at arguments
  exact callType_moves.seq fun _ => identifier_moves.seq fun _ => (MovesTo.mark _).andThen fun _ =>
    arguments.seq fun _ => (MovesTo.mark _).andThen fun _ => assignedNumber_moves.seq fun _ =>
    .pure rfl

/-- A version has no place. -/
theorem version_moves : MovesTo move id version version := by
  have procedures : MovesTo move (List.map id) _ _ :=
    .nonempty procedure_consumes procedure_moves (.untilMark .closeBrace)
  rw [List.map_id_fun] at procedures
  exact (MovesTo.keyword _).andThen fun _ => identifier_moves.seq fun _ =>
    (MovesTo.mark _).andThen fun _ => procedures.seq fun _ => assignedNumber_moves.seq fun _ =>
    .pure rfl

/-- The definition of a remote program is found wherever it is. -/
theorem program_moves : MovesTo move (Definition.moved move) program program := by
  have versions : MovesTo move (List.map id) _ _ :=
    .nonempty version_consumes version_moves (.untilMark .closeBrace)
  rw [List.map_id_fun] at versions
  exact identifier_moves.seq fun _ => (MovesTo.mark _).andThen fun _ => versions.seq fun _ =>
    assignedNumber_moves.seq fun _ => .pure rfl

/-- Reading a definition commutes with moving. -/
theorem definition?_moves :
    MovesTo move (Option.map (Definition.moved move)) definition? definition? := by
  refine MovesTo.take.andThen fun token => ?_
  obtain ⟨kind, line, column⟩ := token
  cases kind with
  | endOfInput => exact .pure rfl
  | keyword word =>
      cases word with
      | const => exact (constant_moves line).map some fun _ => rfl
      | enum => exact (enumeration_moves line).map some fun _ => rfl
      | typedef => exact typedef_moves.map some fun _ => rfl
      | struct => exact (struct_moves line).map some fun _ => rfl
      | union => exact (union_moves line).map some fun _ => rfl
      | program => exact program_moves.map some fun _ => rfl
      | _ => exact .unexpected _ ⟨_, line, column⟩
  | _ => exact .unexpected _ ⟨_, line, column⟩

end Parser

end XdrPack
