import XdrPack.Definition
import XdrPack.Parser

/-!
# Parsing definitions

A recursive descent parser with one token of lookahead. It reads one definition
at a time and looks up no names.
-/

namespace XdrPack

namespace Parser

/-- An identifier. -/
def identifier : Parser String := do
  let token <- take
  match token.kind with
  | .identifier name => pure name
  | _ => unexpected "an identifier" token

/-- A number or the name of a constant. -/
def value : Parser Value := do
  let token <- take
  match token.kind with
  | .number text => pure (.number text)
  | .identifier name => pure (.constant name)
  | _ => unexpected "a number or constant name" token

/-- A number. -/
def number : Parser Value := do
  let token <- take
  match token.kind with
  | .number text => pure (.number text)
  | _ => unexpected "a number" token

/-- The name under which a type is known. Two of the built-in names are written
as two words. -/
def typeName : Parser String := do
  let token <- take
  match token.kind with
  | .keyword .unsigned =>
      if <- accept (.keyword .int) then pure "unsigned_int"
      else if <- accept (.keyword .hyper) then pure "unsigned_hyper"
      else pure "unsigned_int"
  | .keyword .int => pure "int"
  | .keyword .hyper => pure "hyper"
  | .keyword .float => pure "float"
  | .keyword .double => pure "double"
  | .keyword .quadruple => pure "quadruple"
  | .keyword .bool => pure "bool"
  | .identifier name => pure name
  | .keyword .enum => reject (.anonymousType .enum token.line)
  | .keyword .struct => reject (.anonymousType .struct token.line)
  | .keyword .union => reject (.anonymousType .union token.line)
  | _ => unexpected "a type" token

/-- A type name is consumed. -/
theorem typeName_consumes : typeName.Consumes := by
  refine Consumes.ofTake ?_
  intro token stream value rest atEnd
  simp [atEnd, unexpected, reject]

/-- An identifier is consumed. -/
theorem identifier_consumes : identifier.Consumes := by
  refine Consumes.ofTake ?_
  intro token stream value rest atEnd
  simp [atEnd, unexpected, reject]

/-- The length of a fixed array, after its opening bracket. -/
def fixedLength : Parser Shape := do
  let length <- value
  let _ <- mark .closeBracket
  pure (.fixed length)

/-- The bound of a counted array, after its opening bracket. -/
def bound : Parser Shape := do
  if <- accept (.mark .closeAngle) then
    pure (.varying none)
  else do
    let limit <- value
    let _ <- mark .closeAngle
    pure (.varying (some limit))

/-- The array shape after a declared name, if one is written. -/
def shape : Parser Shape := do
  if <- accept (.mark .openBracket) then fixedLength
  else if <- accept (.mark .openAngle) then bound
  else pure .scalar

/-- The array shape of a declaration of bytes, which must be written. -/
def bytesShape : Parser Shape := do
  let token <- take
  match token.kind with
  | .mark .openBracket => fixedLength
  | .mark .openAngle => bound
  | _ => unexpected "`[` or `<`" token

/-- The declaration of nothing. -/
def voidDeclaration (line : Int) : Parser Declaration := do
  let _ <- keyword .void
  pure (.void line)

/-- A declaration of bytes. -/
def bytesDeclaration (line : Int) : Parser Declaration := do
  let _ <- keyword .opaqueBytes
  let name <- identifier
  let shape <- bytesShape
  pure ⟨name, .shaped "opaque" shape, line⟩

/-- A declaration of a string. -/
def stringDeclaration (line : Int) : Parser Declaration := do
  let _ <- keyword .string
  let name <- identifier
  let _ <- mark .openAngle
  let shape <- bound
  pure ⟨name, .shaped "string" shape, line⟩

/-- A declaration that starts with a type name. A star before the declared name
stands for an array of at most one. -/
def plainDeclaration (line : Int) : Parser Declaration := do
  let base <- typeName
  if <- accept (.mark .star) then do
    let name <- identifier
    pure ⟨name, .shaped base (.varying (some (.number "1"))), line⟩
  else do
    let name <- identifier
    let shape <- shape
    pure ⟨name, .shaped base shape, line⟩

/-- A declaration. Its line is that of its first token. -/
def declaration : Parser Declaration := do
  let token <- peek
  match token.kind with
  | .keyword .void => voidDeclaration token.line
  | .keyword .opaqueBytes => bytesDeclaration token.line
  | .keyword .string => stringDeclaration token.line
  | _ => plainDeclaration token.line

/-- A declaration is consumed. -/
theorem declaration_consumes : declaration.Consumes := by
  refine Consumes.before peek ?_
  intro token
  split
  · exact (keyword_consumes .void).andThen _
  · exact (keyword_consumes .opaqueBytes).andThen _
  · exact (keyword_consumes .string).andThen _
  · exact typeName_consumes.andThen _

/-- A declaration and the semicolon after it. -/
def field : Parser Declaration := do
  let declared <- declaration
  let _ <- mark .semicolon
  pure declared

/-- A field is consumed. -/
theorem field_consumes : field.Consumes := declaration_consumes.andThen _

/-- A constant, after its keyword. -/
def constant (line : Int) : Parser Definition := do
  let name <- identifier
  let _ <- mark .equals
  let value <- number
  let _ <- mark .semicolon
  pure (.constant name value line)

/-- A member of an enumeration. Its line is that of its name. -/
def enumMember : Parser EnumMember := do
  let token <- peek
  let name <- identifier
  let _ <- mark .equals
  let value <- value
  pure ⟨name, value, token.line⟩

/-- A member of an enumeration is consumed. -/
theorem enumMember_consumes : enumMember.Consumes :=
  Consumes.before peek fun _ => identifier_consumes.andThen _

/-- What follows a member of an enumeration: a comma if there is another one. -/
def enumSeparator : Parser Bool := do
  let token <- take
  match token.kind with
  | .mark .comma => pure true
  | .mark .closeBrace => pure false
  | _ => unexpected "`,` or `\x7d`" token

/-- An enumeration, after its keyword. -/
def enumeration (line : Int) : Parser Definition := do
  let name <- identifier
  let _ <- mark .openBrace
  let members <- nonempty enumMember enumSeparator enumMember_consumes
  let _ <- mark .semicolon
  pure (.enum name members line)

/-- A type definition, after its keyword. -/
def typedef : Parser Definition := do
  let declared <- field
  pure (.typedef declared)

/-- A structure, after its keyword. -/
def struct (line : Int) : Parser Definition := do
  let name <- identifier
  let _ <- mark .openBrace
  let fields <- nonempty field (untilMark .closeBrace) field_consumes
  let _ <- mark .semicolon
  pure (.struct name fields line)

/-- The body of a case, which is missing if the next case, the default or the
end of the union follows. -/
def caseBody : Parser (Option Declaration) := do
  let token <- peek
  match token.kind with
  | .keyword .caseOf => pure none
  | .keyword .default => pure none
  | .mark .closeBrace => pure none
  | _ => do
      let declared <- field
      pure (some declared)

/-- A case of a union. Its line is that of its keyword. -/
def unionCase : Parser Case := do
  let token <- keyword .caseOf
  let label <- value
  let _ <- mark .colon
  let body <- caseBody
  pure ⟨.value label, body, token.line⟩

/-- A case of a union is consumed. -/
theorem unionCase_consumes : unionCase.Consumes := (keyword_consumes .caseOf).andThen _

/-- The default of a union, if it has one. -/
def unionDefault : Parser (Option Case) := do
  if <- sees (.keyword .default) then do
    let token <- keyword .default
    let _ <- mark .colon
    let body <- caseBody
    pure (some ⟨.default, body, token.line⟩)
  else
    pure none

/-- A union, after its keyword. -/
def union (line : Int) : Parser Definition := do
  let name <- identifier
  let _ <- keyword .switch
  let _ <- mark .openParen
  let discriminant <- declaration
  let _ <- mark .closeParen
  let _ <- mark .openBrace
  let (first, more) <- oneOrMore unionCase (sees (.keyword .caseOf)) unionCase_consumes
  let fallback <- unionDefault
  let _ <- mark .closeBrace
  let _ <- mark .semicolon
  pure (.union name discriminant ⟨first, more, fallback⟩ line)

/-- The type of a result or an argument. -/
def callType : Parser TypeRef := do
  if <- sees (.keyword .void) then do
    let _ <- keyword .void
    pure .void
  else do
    let name <- typeName
    pure (.named name)

/-- The type of a result or an argument is consumed. -/
theorem callType_consumes : callType.Consumes := by
  refine Consumes.before (sees _) ?_
  intro isVoid
  split
  · exact (keyword_consumes .void).andThen _
  · exact typeName_consumes.andThen _

/-- The number at the end of a program, a version or a procedure. -/
def assignedNumber : Parser Value := do
  let _ <- mark .equals
  let value <- number
  let _ <- mark .semicolon
  pure value

/-- A remote procedure. -/
def procedure : Parser Procedure := do
  let result <- callType
  let name <- identifier
  let _ <- mark .openParen
  let arguments <- nonempty callType (accept (.mark .comma)) callType_consumes
  let _ <- mark .closeParen
  let number <- assignedNumber
  pure ⟨name, result, arguments, number⟩

/-- A remote procedure is consumed. -/
theorem procedure_consumes : procedure.Consumes := callType_consumes.andThen _

/-- A version of a remote program. -/
def version : Parser Version := do
  let _ <- keyword .version
  let name <- identifier
  let _ <- mark .openBrace
  let procedures <- nonempty procedure (untilMark .closeBrace) procedure_consumes
  let number <- assignedNumber
  pure ⟨name, procedures, number⟩

/-- A version of a remote program is consumed. -/
theorem version_consumes : version.Consumes := (keyword_consumes .version).andThen _

/-- A remote program, after its keyword. -/
def program : Parser Definition := do
  let name <- identifier
  let _ <- mark .openBrace
  let versions <- nonempty version (untilMark .closeBrace) version_consumes
  let number <- assignedNumber
  pure (.program ⟨name, versions, number⟩)

/-- The rest of a definition, after its first token. There is none at the end of
the input. -/
def definitionFrom (token : Token) : Parser (Option Definition) :=
  match token.kind with
  | .endOfInput => pure none
  | .keyword .const => some <$> constant token.line
  | .keyword .enum => some <$> enumeration token.line
  | .keyword .typedef => some <$> typedef
  | .keyword .struct => some <$> struct token.line
  | .keyword .union => some <$> union token.line
  | .keyword .program => some <$> program
  | _ => unexpected "a definition" token

/-- The next definition, or nothing at the end of the input. -/
def definition? : Parser (Option Definition) := do
  let token <- take
  definitionFrom token

/-- A definition is consumed. -/
theorem length_definition? {stream rest : TokenStream} {definition : Definition}
    (success : definition?.run stream = .accepted (some definition) rest) :
    rest.unread.length < stream.unread.length := by
  have success : (definitionFrom stream.next).run stream.advance =
    .accepted (some definition) rest := success
  have bound := (definitionFrom stream.next).shrinks stream.advance
  rw [success] at bound
  cases unread : stream.unread with
  | nil =>
      have atEnd : stream.next.kind = .endOfInput := by simp [TokenStream.next, unread]
      simp [definitionFrom, atEnd] at success
  | cons token tokens =>
      simp only [Reply.rest, TokenStream.advance, unread, List.tail_cons] at bound
      exact Nat.lt_succ_of_le bound

end Parser

/-- The definitions of a stream up to its end. -/
def TokenStream.parse (stream : TokenStream) : Except SyntaxError (List Definition) :=
  match _ : Parser.definition?.run stream with
  | .rejected error _ => .error error
  | .accepted none _ => .ok []
  | .accepted (some first) rest =>
      match rest.parse with
      | .error error => .error error
      | .ok others => .ok (first :: others)
termination_by stream.unread.length
decreasing_by exact Parser.length_definition? (by assumption)

end XdrPack
