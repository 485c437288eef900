import XdrPack.Definition
import XdrPack.Token

/-!
# The grammar of the interface language

The grammar relates phrases, which are sequences of token kinds, to the trees
that they stand for. It is a relation with one constructor for each production
and contains no reader: nothing in it looks ahead, and nothing in it says which
production to try first. The trees carry no line numbers, as a phrase has none.
-/

namespace XdrPack

/-! ## Trees without line numbers -/

/-- A declaration without its line. -/
def Declaration.unlined (declaration : Declaration) : Declaration :=
  { declaration with line := 0 }

/-- A member of an enumeration without its line. -/
def EnumMember.unlined (member : EnumMember) : EnumMember := { member with line := 0 }

/-- A case without its line and that of its body. -/
def Case.unlined (each : Case) : Case :=
  { each with body := each.body.map Declaration.unlined, line := 0 }

/-- A switch without line numbers. -/
def Switch.unlined (switch : Switch) : Switch :=
  { first := switch.first.unlined
    more := switch.more.map Case.unlined
    fallback := switch.fallback.map Case.unlined }

/-- A definition without line numbers. -/
def Definition.unlined : Definition -> Definition
  | .constant name value _ => .constant name value 0
  | .enum name members _ => .enum name (members.map EnumMember.unlined) 0
  | .typedef declaration => .typedef declaration.unlined
  | .struct name fields _ => .struct name (fields.map Declaration.unlined) 0
  | .union name discriminant switch _ => .union name discriminant.unlined switch.unlined 0
  | .program remote => .program remote

/-! ## Phrases -/

/-- A sequence of token kinds. -/
abbrev Phrase := List Token.Kind

/-- A grammar says which phrases stand for which trees. -/
abbrev Grammar (τ : Type) := Phrase -> τ -> Prop

namespace Grammar

/-- One item or more, with a fixed phrase between each two of them. -/
inductive OneOrMore {τ : Type} (item : Grammar τ) (separator : Phrase) :
    Phrase -> List τ -> Prop where
  | one {phrase tree} (only : item phrase tree) : OneOrMore item separator phrase [tree]
  | more {phrase tree others trees} (first : item phrase tree)
      (rest : OneOrMore item separator others trees) :
      OneOrMore item separator (phrase ++ separator ++ others) (tree :: trees)

/-- A number or the name of a constant. -/
inductive ValuePhrase : Phrase -> Value -> Prop where
  | number (text : String) : ValuePhrase [.number text] (.number text)
  | constant (name : String) : ValuePhrase [.identifier name] (.constant name)

/-- A type, given by the name it is known under. -/
inductive TypePhrase : Phrase -> String -> Prop where
  | unsigned : TypePhrase [.keyword .unsigned] "unsigned_int"
  | unsignedInt : TypePhrase [.keyword .unsigned, .keyword .int] "unsigned_int"
  | unsignedHyper : TypePhrase [.keyword .unsigned, .keyword .hyper] "unsigned_hyper"
  | int : TypePhrase [.keyword .int] "int"
  | hyper : TypePhrase [.keyword .hyper] "hyper"
  | float : TypePhrase [.keyword .float] "float"
  | double : TypePhrase [.keyword .double] "double"
  | quadruple : TypePhrase [.keyword .quadruple] "quadruple"
  | bool : TypePhrase [.keyword .bool] "bool"
  | named (name : String) : TypePhrase [.identifier name] name

/-- The angle brackets of a counted array, with or without a bound. -/
inductive BoundPhrase : Phrase -> Shape -> Prop where
  | unbounded : BoundPhrase [.mark .openAngle, .mark .closeAngle] (.varying none)
  | bounded {phrase bound} (limit : ValuePhrase phrase bound) :
      BoundPhrase (.mark .openAngle :: phrase ++ [.mark .closeAngle]) (.varying (some bound))

/-- The brackets of an array. The length of a fixed array cannot be left out. -/
inductive ArrayPhrase : Phrase -> Shape -> Prop where
  | fixed {phrase length} (size : ValuePhrase phrase length) :
      ArrayPhrase (.mark .openBracket :: phrase ++ [.mark .closeBracket]) (.fixed length)
  | varying {phrase shape} (bound : BoundPhrase phrase shape) : ArrayPhrase phrase shape

/-- A declaration. A star stands for an array of at most one. -/
inductive DeclarationPhrase : Phrase -> Declaration -> Prop where
  | void : DeclarationPhrase [.keyword .void] (.void 0)
  | bytes (name : String) {brackets shape} (array : ArrayPhrase brackets shape) :
      DeclarationPhrase (.keyword .opaqueBytes :: .identifier name :: brackets)
        ⟨name, .shaped "opaque" shape, 0⟩
  | string (name : String) {brackets shape} (array : BoundPhrase brackets shape) :
      DeclarationPhrase (.keyword .string :: .identifier name :: brackets)
        ⟨name, .shaped "string" shape, 0⟩
  | single (name : String) {phrase base} (type : TypePhrase phrase base) :
      DeclarationPhrase (phrase ++ [.identifier name]) ⟨name, .shaped base .scalar, 0⟩
  | array (name : String) {phrase base brackets shape} (type : TypePhrase phrase base)
      (array : ArrayPhrase brackets shape) :
      DeclarationPhrase (phrase ++ .identifier name :: brackets) ⟨name, .shaped base shape, 0⟩
  | optional (name : String) {phrase base} (type : TypePhrase phrase base) :
      DeclarationPhrase (phrase ++ [.mark .star, .identifier name])
        ⟨name, .shaped base (.varying (some (.number "1"))), 0⟩

/-- A declaration and its semicolon. -/
inductive FieldPhrase : Phrase -> Declaration -> Prop where
  | field {phrase declaration} (declared : DeclarationPhrase phrase declaration) :
      FieldPhrase (phrase ++ [.mark .semicolon]) declaration

/-- A member of an enumeration. -/
inductive MemberPhrase : Phrase -> EnumMember -> Prop where
  | member (name : String) {phrase value} (assigned : ValuePhrase phrase value) :
      MemberPhrase (.identifier name :: .mark .equals :: phrase) ⟨name, value, 0⟩

/-- What follows the colon of a case: a field or nothing. -/
inductive BodyPhrase : Phrase -> Option Declaration -> Prop where
  | missing : BodyPhrase [] none
  | declared {phrase declaration} (field : FieldPhrase phrase declaration) :
      BodyPhrase phrase (some declaration)

/-- A case of a union. -/
inductive CasePhrase : Phrase -> Case -> Prop where
  | labelled {label value phrase body} (selects : ValuePhrase label value)
      (declared : BodyPhrase phrase body) :
      CasePhrase (.keyword .caseOf :: label ++ .mark .colon :: phrase) ⟨.value value, body, 0⟩

/-- The default of a union, which may be missing. -/
inductive DefaultPhrase : Phrase -> Option Case -> Prop where
  | missing : DefaultPhrase [] none
  | present {phrase body} (declared : BodyPhrase phrase body) :
      DefaultPhrase (.keyword .default :: .mark .colon :: phrase) (some ⟨.default, body, 0⟩)

/-- The type of a result or an argument. -/
inductive CallTypePhrase : Phrase -> TypeRef -> Prop where
  | void : CallTypePhrase [.keyword .void] .void
  | named {phrase name} (type : TypePhrase phrase name) : CallTypePhrase phrase (.named name)

/-- The number assigned at the end of a program, a version or a procedure. -/
inductive AssignedPhrase : Phrase -> Value -> Prop where
  | assigned (text : String) :
      AssignedPhrase [.mark .equals, .number text, .mark .semicolon] (.number text)

/-- A remote procedure. -/
inductive ProcedurePhrase : Phrase -> Procedure -> Prop where
  | procedure (name : String) {returned result given arguments assigned number}
      (resultType : CallTypePhrase returned result)
      (argumentTypes : OneOrMore CallTypePhrase [.mark .comma] given arguments)
      (numbered : AssignedPhrase assigned number) :
      ProcedurePhrase
        (returned ++ .identifier name :: .mark .openParen :: given ++ .mark .closeParen :: assigned)
        ⟨name, result, arguments, number⟩

/-- A version of a remote program. -/
inductive VersionPhrase : Phrase -> Version -> Prop where
  | version (name : String) {body procedures assigned number}
      (listed : OneOrMore ProcedurePhrase [] body procedures)
      (numbered : AssignedPhrase assigned number) :
      VersionPhrase
        (.keyword .version :: .identifier name :: .mark .openBrace :: body
          ++ .mark .closeBrace :: assigned)
        ⟨name, procedures, number⟩

/-- A definition. -/
inductive DefinitionPhrase : Phrase -> Definition -> Prop where
  | constant (name text : String) :
      DefinitionPhrase
        [.keyword .const, .identifier name, .mark .equals, .number text, .mark .semicolon]
        (.constant name (.number text) 0)
  | enum (name : String) {body members}
      (listed : OneOrMore MemberPhrase [.mark .comma] body members) :
      DefinitionPhrase
        (.keyword .enum :: .identifier name :: .mark .openBrace :: body
          ++ [.mark .closeBrace, .mark .semicolon])
        (.enum name members 0)
  | typedef {phrase declaration} (declared : FieldPhrase phrase declaration) :
      DefinitionPhrase (.keyword .typedef :: phrase) (.typedef declaration)
  | struct (name : String) {body fields} (listed : OneOrMore FieldPhrase [] body fields) :
      DefinitionPhrase
        (.keyword .struct :: .identifier name :: .mark .openBrace :: body
          ++ [.mark .closeBrace, .mark .semicolon])
        (.struct name fields 0)
  | union (name : String) {selector discriminant body first more otherwise fallback}
      (selects : DeclarationPhrase selector discriminant)
      (listed : OneOrMore CasePhrase [] body (first :: more))
      (defaulted : DefaultPhrase otherwise fallback) :
      DefinitionPhrase
        (.keyword .union :: .identifier name :: .keyword .switch :: .mark .openParen :: selector
          ++ .mark .closeParen :: .mark .openBrace :: body ++ otherwise
          ++ [.mark .closeBrace, .mark .semicolon])
        (.union name discriminant ⟨first, more, fallback⟩ 0)
  | program (name : String) {body versions assigned number}
      (listed : OneOrMore VersionPhrase [] body versions)
      (numbered : AssignedPhrase assigned number) :
      DefinitionPhrase
        (.keyword .program :: .identifier name :: .mark .openBrace :: body
          ++ .mark .closeBrace :: assigned)
        (.program ⟨name, versions, number⟩)

/-- An interface file: any number of definitions. -/
inductive FilePhrase : Phrase -> List Definition -> Prop where
  | empty : FilePhrase [] []
  | define {phrase definition others definitions}
      (first : DefinitionPhrase phrase definition) (rest : FilePhrase others definitions) :
      FilePhrase (phrase ++ others) (definition :: definitions)

end Grammar

end XdrPack
