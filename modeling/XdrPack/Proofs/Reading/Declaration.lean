import XdrPack.Definition.Parser
import XdrPack.Proofs.Reading.Token

/-!
# Reading declarations

Every parser up to that of a declaration reads the phrases of the grammar that
bear its name. A type may go on after `unsigned`, and a declaration after its
name, so these are the two places where the next token matters.
-/

namespace XdrPack

namespace Grammar

/-- An identifier. -/
def identifier : Grammar String := fun phrase name => phrase = [.identifier name]

/-- A number. -/
def number : Grammar Value := fun phrase value =>
  ∃ text, phrase = [.number text] ∧ value = .number text

/-- The brackets of an array, or nothing for a single value. -/
def shape : Grammar Shape := fun phrase shape =>
  (phrase = [] ∧ shape = .scalar) ∨ ArrayPhrase phrase shape

/-- The keyword that a declaration starts with, unless it starts with a type. -/
def leading : Token.Kind -> Option Keyword
  | .keyword .void => some .void
  | .keyword .opaqueBytes => some .opaqueBytes
  | .keyword .string => some .string
  | _ => none

/-- A declaration starts with one of three keywords, or with a type. -/
theorem leading_cases (kind : Token.Kind) :
    leading kind = some .void ∨ leading kind = some .opaqueBytes ∨ leading kind = some .string ∨
      leading kind = none := by
  unfold leading
  split <;> simp

/-- Whether a type starts with the token. -/
def StartsType : Token.Kind -> Prop
  | .identifier _ => True
  | .keyword word =>
      word ∈ [Keyword.unsigned, .int, .hyper, .float, .double, .quadruple, .bool]
  | _ => False

/-- A type starts with a name or one of its keywords. -/
theorem TypePhrase.starts {phrase : Phrase} {name : String} (derived : TypePhrase phrase name) :
    ∃ kind rest, phrase = kind :: rest ∧ StartsType kind := by
  cases derived <;> exact ⟨_, _, rfl, by simp [StartsType]⟩

/-- No type starts as one of the other declarations does. -/
theorem StartsType.leading_eq_none {kind : Token.Kind} (starts : StartsType kind) :
    leading kind = none := by
  cases kind with
  | keyword word => cases word <;> first | rfl | simp [StartsType] at starts
  | _ => rfl

/-- Whether a declaration starts with the token. -/
def StartsDeclaration (kind : Token.Kind) : Prop :=
  StartsType kind ∨ kind ∈ [.keyword .void, .keyword .opaqueBytes, .keyword .string]

/-- A declaration starts with a type or one of its keywords. -/
theorem DeclarationPhrase.starts {phrase : Phrase} {tree : Declaration}
    (derived : DeclarationPhrase phrase tree) :
    ∃ kind rest, phrase = kind :: rest ∧ StartsDeclaration kind := by
  cases derived with
  | void | bytes | string => exact ⟨_, _, rfl, by simp [StartsDeclaration]⟩
  | single name type | array name type | optional name type =>
      obtain ⟨kind, rest, rfl, starts⟩ := type.starts
      exact ⟨kind, _, rfl, .inl starts⟩

/-- A field starts as its declaration does. -/
theorem FieldPhrase.starts {phrase : Phrase} {tree : Declaration}
    (derived : FieldPhrase phrase tree) :
    ∃ kind rest, phrase = kind :: rest ∧ StartsDeclaration kind := by
  cases derived with
  | field declared =>
      obtain ⟨kind, rest, rfl, starts⟩ := declared.starts
      exact ⟨kind, _, rfl, starts⟩

/-- No declaration starts with punctuation. -/
theorem StartsDeclaration.ne_mark {kind : Token.Kind} (starts : StartsDeclaration kind)
    (sign : Mark) : kind ≠ .mark sign := by
  rintro rfl
  simp [StartsDeclaration, StartsType] at starts

/-- The declarations that start with a type. -/
def plain : Grammar Declaration :=
  andThen TypePhrase fun base phrase tree =>
    behind (.mark .star)
      (identifier.andThen fun name =>
        only ⟨name, .shaped base (.varying (some (.number "1"))), 0⟩) phrase tree ∨
    (identifier.andThen fun name => shape.andThen fun shape =>
      only ⟨name, .shaped base shape, 0⟩) phrase tree

/-- The declarations that start with a given keyword, or else with a type. -/
def declarationFrom : Option Keyword -> Grammar Declaration
  | some .void => behind (.keyword .void) (only (.void 0))
  | some .opaqueBytes =>
      behind (.keyword .opaqueBytes) (identifier.andThen fun name =>
        andThen ArrayPhrase fun shape => only ⟨name, .shaped "opaque" shape, 0⟩)
  | some .string =>
      behind (.keyword .string) (identifier.andThen fun name =>
        behind (.mark .openAngle) (andThen (startingWith BoundPhrase (.mark .openAngle))
          fun shape => only ⟨name, .shaped "string" shape, 0⟩))
  | _ => plain

/-- A declaration is one of those that start as its first token says. -/
theorem declarationFrom_headD {first : Token.Kind} {phrase : Phrase} {tree : Declaration}
    (derived : declarationFrom (leading first) phrase tree) (next : Token.Kind) :
    declarationFrom (leading (phrase.headD next)) phrase tree := by
  rcases leading_cases first with is | is | is | is <;> rw [is] at derived
  · obtain ⟨rest, rfl, derived⟩ := derived
    exact ⟨rest, rfl, derived⟩
  · obtain ⟨rest, rfl, derived⟩ := derived
    exact ⟨rest, rfl, derived⟩
  · obtain ⟨rest, rfl, derived⟩ := derived
    exact ⟨rest, rfl, derived⟩
  · have notLeading : leading (phrase.headD next) = none := by
      obtain ⟨front, back, base, rfl, type, -⟩ := derived
      obtain ⟨kind, rest, rfl, starts⟩ := type.starts
      exact starts.leading_eq_none
    rw [notLeading]
    exact derived

/-- The declarations are those of the grammar. -/
theorem exists_declarationFrom_iff (phrase : Phrase) (tree : Declaration) :
    (∃ kind, declarationFrom (leading kind) phrase tree) ↔ DeclarationPhrase phrase tree := by
  constructor
  · rintro ⟨kind, derived⟩
    rcases leading_cases kind with is | is | is | is <;> rw [is] at derived
    · obtain ⟨rest, rfl, rfl, rfl⟩ := derived
      exact .void
    · obtain ⟨rest, rfl, front, back, name, rfl, rfl, brackets, none, shape, rfl, array, rfl,
        rfl⟩ := derived
      simpa using DeclarationPhrase.bytes name array
    · obtain ⟨rest, rfl, front, back, name, rfl, rfl, others, rfl, brackets, none, shape, rfl,
        bound, rfl, rfl⟩ := derived
      simpa using DeclarationPhrase.string name bound
    · obtain ⟨front, back, base, rfl, type, starred | named⟩ := derived
      · obtain ⟨rest, rfl, name, none, written, rfl, rfl, rfl, rfl⟩ := starred
        exact .optional written type
      · obtain ⟨front, back, name, rfl, rfl, brackets, none, shape, rfl, array, rfl, rfl⟩ := named
        rcases array with ⟨rfl, rfl⟩ | array
        · exact .single name type
        · simpa using DeclarationPhrase.array name type array
  · intro derived
    cases derived with
    | void => exact ⟨.keyword .void, _, rfl, rfl, rfl⟩
    | bytes name array =>
        exact ⟨.keyword .opaqueBytes, _, rfl, _, _, name, rfl, rfl, _, [], _, by simp, array, rfl,
          rfl⟩
    | string name bound =>
        refine ⟨.keyword .string, _, rfl, [.identifier name], _, name, rfl, rfl, ?_⟩
        cases bound with
        | unbounded => exact ⟨_, rfl, _, [], _, by simp, .unbounded, rfl, rfl⟩
        | bounded limit => exact ⟨_, rfl, _, [], _, by simp, .bounded limit, rfl, rfl⟩
    | single name type =>
        exact ⟨.endOfInput, _, _, _, rfl, type, .inr ⟨_, _, name, rfl, rfl, _, [], _, rfl,
          .inl ⟨rfl, rfl⟩, rfl, rfl⟩⟩
    | array name type array =>
        exact ⟨.endOfInput, _, _, _, rfl, type, .inr ⟨[.identifier name], _, name, rfl, rfl, _, [],
          _, by simp, .inr array, rfl, rfl⟩⟩
    | optional name type =>
        exact ⟨.endOfInput, _, _, _, rfl, type, .inl ⟨_, rfl, _, [], name, rfl, rfl, rfl, rfl⟩⟩

end Grammar

namespace Parser

open Grammar

/-- What may follow a type. -/
def afterType {τ : Type} (_ : τ) (kind : Token.Kind) : Prop :=
  kind ≠ .keyword .int ∧ kind ≠ .keyword .hyper

/-- What may follow a declaration. -/
def afterShape {τ : Type} (_ : τ) (kind : Token.Kind) : Prop :=
  kind ≠ .mark .openBracket ∧ kind ≠ .mark .openAngle

/-- The end of the input may follow a type. -/
theorem afterType_closable {τ : Type} (tree : τ) : ∃ kind, afterType tree kind :=
  ⟨.endOfInput, by simp [afterType]⟩

/-- The end of the input may follow a declaration. -/
theorem afterShape_closable {τ : Type} (tree : τ) : ∃ kind, afterShape tree kind :=
  ⟨.endOfInput, by simp [afterShape]⟩

/-- The parser of identifiers reads one identifier. -/
theorem identifier_reads : identifier.Reads id Grammar.identifier anything := by
  refine Reads.ofTake ⟨_, "", rfl⟩ anything_closable (by simp [Grammar.identifier]) fun token => ?_
  obtain ⟨kind, line, column⟩ := token
  cases kind with
  | identifier name =>
      refine .inr ⟨by simp, .last anything_closable rfl fun phrase tree derived => ?_⟩
      obtain ⟨rfl, rfl⟩ : name = tree ∧ phrase = [] := by
        simpa [Grammar.identifier] using derived
      exact ⟨rfl, rfl⟩
  | _ => exact .inl ⟨_, rfl, ⟨rfl, rfl⟩, by simp [startingWith, Grammar.identifier]⟩

/-- The parser of numbers reads one number. -/
theorem number_reads : number.Reads id Grammar.number anything := by
  refine Reads.ofTake ⟨_, _, "", rfl, rfl⟩ anything_closable (by simp [Grammar.number])
    fun token => ?_
  obtain ⟨kind, line, column⟩ := token
  cases kind with
  | number text =>
      refine .inr ⟨by simp, .last anything_closable ⟨text, rfl, rfl⟩ fun phrase tree derived => ?_⟩
      obtain ⟨written, equal, rfl⟩ := derived
      obtain ⟨rfl, rfl⟩ : text = written ∧ phrase = [] := by simpa using equal
      exact ⟨rfl, rfl⟩
  | _ => exact .inl ⟨_, rfl, ⟨rfl, rfl⟩, by simp [startingWith, Grammar.number]⟩

/-- The parser of values reads numbers and the names of constants. -/
theorem value_reads : value.Reads id ValuePhrase anything := by
  refine Reads.ofTake ⟨_, _, .number ""⟩ anything_closable nofun fun token => ?_
  obtain ⟨kind, line, column⟩ := token
  cases kind with
  | number text =>
      refine .inr ⟨by simp, .last anything_closable (.number text) ?_⟩
      rintro phrase tree ⟨⟩
      exact ⟨rfl, rfl⟩
  | identifier name =>
      refine .inr ⟨by simp, .last anything_closable (.constant name) ?_⟩
      rintro phrase tree ⟨⟩
      exact ⟨rfl, rfl⟩
  | _ => exact .inl ⟨_, rfl, ⟨rfl, rfl⟩, nofun⟩

/-- What comes after the first word of an unsigned type. -/
theorem unsigned_reads :
    (do
      if <- accept (.keyword .int) then pure "unsigned_int"
      else if <- accept (.keyword .hyper) then pure "unsigned_hyper"
      else pure "unsigned_int" : Parser String).Reads id
      (startingWith TypePhrase (.keyword .unsigned)) afterType := by
  have bare : (pure "unsigned_int" : Parser String).Reads id (only "unsigned_int") afterType :=
    .pure _ afterType_closable
  have wide : (pure "unsigned_hyper" : Parser String).Reads id (only "unsigned_hyper") afterType :=
    .pure _ afterType_closable
  have notInt : Token.Kind.keyword .int ≠ .endOfInput := by simp
  have notHyper : Token.Kind.keyword .hyper ≠ .endOfInput := by simp
  refine (Reads.ofAccept notInt bare (Reads.ofAccept notHyper wide bare ?_) ?_).congr
    fun phrase tree => ?_
  · rintro phrase tree next ⟨rfl, -⟩ followed
    exact followed.2
  · rintro phrase tree next (⟨rest, rfl, -⟩ | ⟨rfl, -⟩) followed
    · simp
    · exact followed.1
  · constructor
    · rintro (⟨rest, rfl, rfl, rfl⟩ | ⟨rest, rfl, rfl, rfl⟩ | ⟨rfl, rfl⟩)
      · exact .unsignedInt
      · exact .unsignedHyper
      · exact .unsigned
    · rintro ⟨⟩
      · exact .inr (.inr ⟨rfl, rfl⟩)
      · exact .inl ⟨[], rfl, rfl, rfl⟩
      · exact .inr (.inl ⟨[], rfl, rfl, rfl⟩)

/-- The parser of types reads the names of types, some of which take two keywords. -/
theorem typeName_reads : typeName.Reads id TypePhrase afterType := by
  refine Reads.ofTake ⟨_, _, .int⟩ afterType_closable nofun fun token => ?_
  obtain ⟨kind, line, column⟩ := token
  -- The type is complete after any of the words and names but `unsigned`.
  have complete : forall {name : String}, TypePhrase [kind] name ->
      (forall phrase tree, TypePhrase (kind :: phrase) tree -> phrase = [] ∧ tree = name) ->
      (pure name : Parser String).Reads id (startingWith TypePhrase kind) afterType :=
    fun derived unique => .last afterType_closable derived unique
  cases kind with
  | identifier name =>
      refine .inr ⟨by simp, complete (.named name) ?_⟩
      rintro phrase tree ⟨⟩
      exact ⟨rfl, rfl⟩
  | keyword word =>
      cases word with
      | unsigned => exact .inr ⟨by simp, unsigned_reads⟩
      | int => exact .inr ⟨by simp, complete .int (by rintro _ _ ⟨⟩; exact ⟨rfl, rfl⟩)⟩
      | hyper => exact .inr ⟨by simp, complete .hyper (by rintro _ _ ⟨⟩; exact ⟨rfl, rfl⟩)⟩
      | float => exact .inr ⟨by simp, complete .float (by rintro _ _ ⟨⟩; exact ⟨rfl, rfl⟩)⟩
      | double => exact .inr ⟨by simp, complete .double (by rintro _ _ ⟨⟩; exact ⟨rfl, rfl⟩)⟩
      | quadruple =>
          exact .inr ⟨by simp, complete .quadruple (by rintro _ _ ⟨⟩; exact ⟨rfl, rfl⟩)⟩
      | bool => exact .inr ⟨by simp, complete .bool (by rintro _ _ ⟨⟩; exact ⟨rfl, rfl⟩)⟩
      | enum => exact .inl ⟨_, rfl, ⟨rfl, .enum, rfl, rfl, by simp⟩, nofun⟩
      | struct => exact .inl ⟨_, rfl, ⟨rfl, .struct, rfl, rfl, by simp⟩, nofun⟩
      | union => exact .inl ⟨_, rfl, ⟨rfl, .union, rfl, rfl, by simp⟩, nofun⟩
      | _ => exact .inl ⟨_, rfl, ⟨rfl, rfl⟩, nofun⟩
  | _ => exact .inl ⟨_, rfl, ⟨rfl, rfl⟩, nofun⟩

/-- The parser of fixed lengths reads a value in brackets. -/
theorem fixedLength_reads :
    fixedLength.Reads id (startingWith ArrayPhrase (.mark .openBracket)) anything := by
  refine (value_reads.seq fun length => .mark .closeBracket fun _ =>
    .pure (Shape.fixed length) anything_closable).congr fun phrase shape => ?_
  constructor
  · rintro ⟨front, back, length, rfl, size, rest, rfl, rfl, rfl⟩
    exact .fixed size
  · rintro (size | ⟨⟨⟩⟩)
    exact ⟨_, _, _, rfl, size, _, rfl, rfl, rfl⟩

/-- The parser of bounds reads angle brackets with or without a value. -/
theorem bound_reads : bound.Reads id (startingWith BoundPhrase (.mark .openAngle)) anything := by
  have notEnd : Token.Kind.mark .closeAngle ≠ .endOfInput := by simp
  refine (Reads.ofAccept notEnd (.pure (Shape.varying none) anything_closable)
    (value_reads.seq fun limit => .mark .closeAngle fun _ =>
      .pure (Shape.varying (some limit)) anything_closable) ?_).congr fun phrase shape => ?_
  · rintro phrase tree next ⟨front, back, limit, rfl, ⟨⟩, -⟩ - <;> simp
  · constructor
    · rintro (⟨rest, rfl, rfl, rfl⟩ | ⟨front, back, limit, rfl, value, rest, rfl, rfl, rfl⟩)
      · exact .unbounded
      · exact .bounded value
    · rintro (_ | value)
      · exact .inl ⟨[], rfl, rfl, rfl⟩
      · exact .inr ⟨_, _, _, rfl, value, _, rfl, rfl, rfl⟩

/-- The parser of shapes reads the brackets behind a name, if there are any. -/
theorem shape_reads : shape.Reads id Grammar.shape afterShape := by
  have notBracket : Token.Kind.mark .openBracket ≠ .endOfInput := by simp
  have notAngle : Token.Kind.mark .openAngle ≠ .endOfInput := by simp
  have fixed := fixedLength_reads.narrow afterShape_closable fun _ _ _ => trivial
  have varying := bound_reads.narrow afterShape_closable fun _ _ _ => trivial
  have single : (pure .scalar : Parser Shape).Reads id (only .scalar) afterShape :=
    .pure _ afterShape_closable
  refine (Reads.ofAccept notBracket fixed (Reads.ofAccept notAngle varying single ?_) ?_).congr
    fun phrase shape => ?_
  · rintro phrase tree next ⟨rfl, -⟩ followed
    exact followed.2
  · rintro phrase tree next (⟨rest, rfl, -⟩ | ⟨rfl, -⟩) followed
    · simp
    · exact followed.1
  · constructor
    · rintro (⟨rest, rfl, array⟩ | ⟨rest, rfl, array⟩ | none)
      · exact .inr array
      · exact .inr (.varying array)
      · exact .inl none
    · rintro (none | (size | bound))
      · exact .inr (.inr none)
      · exact .inl ⟨_, rfl, .fixed size⟩
      · refine .inr (.inl ?_)
        cases bound with
        | unbounded => exact ⟨_, rfl, .unbounded⟩
        | bounded limit => exact ⟨_, rfl, .bounded limit⟩

/-- The parser of the shapes of bytes insists on brackets. -/
theorem bytesShape_reads : bytesShape.Reads id ArrayPhrase anything := by
  refine Reads.ofTake ⟨_, _, .varying .unbounded⟩ anything_closable (by rintro _ (_ | ⟨⟨⟩⟩))
    fun token => ?_
  obtain ⟨kind, line, column⟩ := token
  have noArray : kind ≠ .mark .openBracket -> kind ≠ .mark .openAngle ->
      forall phrase tree, ¬ startingWith ArrayPhrase kind phrase tree := by
    rintro notBracket notAngle phrase tree (_ | ⟨_ | _⟩)
    · exact notBracket rfl
    · exact notAngle rfl
    · exact notAngle rfl
  cases kind with
  | mark sign =>
      cases sign with
      | openBracket => exact .inr ⟨by simp, fixedLength_reads⟩
      | openAngle =>
          refine .inr ⟨by simp, bound_reads.congr fun phrase shape => ⟨.varying, ?_⟩⟩
          rintro (_ | bound)
          exact bound
      | _ => exact .inl ⟨_, rfl, ⟨rfl, rfl⟩, noArray (by simp) (by simp)⟩
  | _ => exact .inl ⟨_, rfl, ⟨rfl, rfl⟩, noArray (by simp) (by simp)⟩

/-- A declaration without a value is its keyword alone. -/
theorem voidDeclaration_reads (line : Int) :
    (voidDeclaration line).Reads Declaration.unlined (declarationFrom (some .void)) afterShape :=
  .keyword .void fun _ => .pure (Declaration.void line) afterShape_closable

/-- A declaration of bytes has their keyword, a name and brackets. -/
theorem bytesDeclaration_reads (line : Int) :
    (bytesDeclaration line).Reads Declaration.unlined (declarationFrom (some .opaqueBytes))
      afterShape :=
  .keyword .opaqueBytes fun _ => identifier_reads.seq fun _ => bytesShape_reads.seq fun _ =>
    .pure _ afterShape_closable

/-- A declaration of a string has its keyword, a name and angle brackets. -/
theorem stringDeclaration_reads (line : Int) :
    (stringDeclaration line).Reads Declaration.unlined (declarationFrom (some .string))
      afterShape :=
  .keyword .string fun _ => identifier_reads.seq fun _ => .mark .openAngle fun _ =>
    bound_reads.seq fun _ => .pure _ afterShape_closable

/-- A declaration that starts with no keyword of its own starts with a type. -/
theorem plainDeclaration_reads (line : Int) :
    (plainDeclaration line).Reads Declaration.unlined plain afterShape := by
  refine typeName_reads.andThen _ (fun base => Reads.ofAccept (by simp)
    (identifier_reads.seq fun name => .pure _ afterShape_closable)
    (identifier_reads.seq fun name => shape_reads.andThen _
      (fun shape => .pure _ afterShape_closable) ?_) ?_) ?_
  · rintro shape phrase tree next ⟨rfl, -⟩ followed
    exact followed
  · rintro phrase tree next ⟨front, back, name, rfl, rfl, -⟩ -
    simp
  · rintro base phrase tree next (⟨rest, rfl, -⟩ | ⟨front, back, name, rfl, rfl, -⟩) -
    · simp [afterType]
    · simp [afterType]

/-- The parser of declarations reads them by their first token. -/
theorem declaration_reads : declaration.Reads Declaration.unlined DeclarationPhrase afterShape := by
  refine (Reads.ofPeek (fun kind => declarationFrom (leading kind)) (fun token => ?_)
    fun kind phrase tree next derived _ => declarationFrom_headD derived next).congr
    exists_declarationFrom_iff
  obtain ⟨kind, line, column⟩ := token
  cases kind with
  | keyword word =>
      cases word with
      | void => exact voidDeclaration_reads line
      | opaqueBytes => exact bytesDeclaration_reads line
      | string => exact stringDeclaration_reads line
      | _ => exact plainDeclaration_reads line
  | _ => exact plainDeclaration_reads line

/-- The parser of fields reads declarations up to a semicolon. -/
theorem field_reads : field.Reads Declaration.unlined FieldPhrase anything := by
  refine (declaration_reads.andThen (fun tree => behind (.mark .semicolon) (only tree))
    (fun declared => .mark .semicolon fun _ => .pure declared anything_closable) ?_).congr
    fun phrase tree => ?_
  · rintro tree phrase other next ⟨rest, rfl, -⟩ -
    simp [afterShape]
  · constructor
    · rintro ⟨front, back, declared, rfl, derived, rest, rfl, rfl, rfl⟩
      exact .field derived
    · rintro ⟨derived⟩
      exact ⟨_, _, _, rfl, derived, _, rfl, rfl, rfl⟩

end Parser

end XdrPack
