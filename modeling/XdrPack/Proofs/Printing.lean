import XdrPack.Proofs.Choice
import XdrPack.Proofs.Spelling

/-!
# Printed declarations

The text of a declaration that was parsed can be parsed again, and gives the same
declaration. Some types are printed under another name than the one they were written
with, and a star is printed as the array that it stands for, so the tokens of the text
may differ from those that the declaration was parsed from.
-/

namespace XdrPack

open Grammar

/-- The tree of a phrase whose tokens can be read back from their texts. -/
def Grammar.Lexed {τ : Type} (grammar : Grammar τ) (tree : τ) : Prop :=
  ∃ phrase, grammar phrase tree ∧ forall kind, kind ∈ phrase -> kind.isLexical = true

/-! ## Arrays -/

/-- A value is spelled by its text. -/
theorem spells_value {phrase : Phrase} {value : Value} (derived : ValuePhrase phrase value)
    (isLexical : forall kind, kind ∈ phrase -> kind.isLexical = true) :
    Spells EndsWord value.text phrase := by
  cases derived with
  | number text => exact .number (isLexical (.number text) (by simp))
  | constant name => exact .identifier (isLexical (.identifier name) (by simp))

/-- A value is spelled between two marks. -/
theorem spells_enclosed {phrase : Phrase} {text : String} (opening closing : Mark)
    (spelled : Spells EndsWord text phrase) (ends : Segment.isWordChar closing.char = false) :
    Spells AnyText (String.singleton opening.char ++ text ++ String.singleton closing.char)
      (.mark opening :: phrase ++ [.mark closing]) := by
  have opened := (Spells.mark opening).andThen spelled
  refine opened.append (Spells.mark closing) fun rest _ => ?_
  rw [String.toList_singleton]
  exact endsWord_cons ends rest

/-- The brackets of an array are spelled by its suffix. -/
theorem spells_suffix {brackets : Phrase} {shape : Shape} (derived : ArrayPhrase brackets shape)
    (isLexical : forall kind, kind ∈ brackets -> kind.isLexical = true) :
    Spells AnyText shape.suffix brackets := by
  cases derived with
  | fixed size =>
      exact spells_enclosed .openBracket .closeBracket
        (spells_value size fun kind listed => isLexical kind (by simp [listed])) rfl
  | varying bound =>
      cases bound with
      | unbounded => exact (Spells.mark .openAngle).andThen (.mark .closeAngle)
      | bounded limit =>
          exact spells_enclosed .openAngle .closeAngle
            (spells_value limit fun kind listed => isLexical kind (by simp [listed])) rfl

/-- A suffix does not continue the name before it. -/
theorem Shape.endsWord_suffix (shape : Shape) {rest : List Char} (ends : EndsWord rest) :
    EndsWord (shape.suffix.toList ++ rest) := by
  cases shape with
  | scalar => exact ends
  | fixed length =>
      rw [suffix, String.toList_append, String.toList_append, List.append_assoc]
      exact endsWord_cons rfl _
  | varying bound =>
      cases bound with
      | none => exact endsWord_cons rfl _
      | some limit =>
          rw [suffix, String.toList_append, String.toList_append, List.append_assoc]
          exact endsWord_cons rfl _

/-! ## Declarations -/

/-- The name of a type spells the type. -/
theorem spells_type {phrase : Phrase} {base : String} (derived : TypePhrase phrase base)
    (isLexical : forall kind, kind ∈ phrase -> kind.isLexical = true) :
    ∃ spelled, Spells EndsWord base spelled ∧ TypePhrase spelled base := by
  cases derived with
  | unsigned | unsignedInt => exact ⟨_, .identifier (by decide), .named "unsigned_int"⟩
  | unsignedHyper => exact ⟨_, .identifier (by decide), .named "unsigned_hyper"⟩
  | int => exact ⟨_, .keyword .int, .int⟩
  | hyper => exact ⟨_, .keyword .hyper, .hyper⟩
  | float => exact ⟨_, .keyword .float, .float⟩
  | double => exact ⟨_, .keyword .double, .double⟩
  | quadruple => exact ⟨_, .keyword .quadruple, .quadruple⟩
  | bool => exact ⟨_, .keyword .bool, .bool⟩
  | named name => exact ⟨_, .identifier (isLexical (.identifier base) (by simp)), .named base⟩

/-- A declaration is spelled by its type, its name and its suffix. -/
theorem spells_declared {base name : String} {front brackets : Phrase} (shape : Shape)
    (type : Spells EndsWord base front)
    (isName : (Token.Kind.identifier name).isLexical = true)
    (array : Spells EndsWord shape.suffix brackets) :
    Spells EndsWord (Declaration.text ⟨name, .shaped base shape, 0⟩)
      (front ++ .identifier name :: brackets) := by
  have separated : Spells AnyText (base ++ " ") (front ++ []) :=
    type.append .space fun rest _ => endsWord_cons rfl rest
  rw [List.append_nil] at separated
  have named := separated.andThen (Spells.identifier isName)
  have spelled := named.append array fun rest ends => shape.endsWord_suffix ends
  rwa [List.append_assoc] at spelled

/-- A declaration that can be read back from its text. -/
def Declaration.Readable (declaration : Declaration) : Prop :=
  ∃ phrase, Spells EndsWord declaration.text phrase ∧
    DeclarationPhrase phrase declaration.unlined

/-- A declaration that was read can be read back. -/
theorem Declaration.readable_of_lexed {declaration : Declaration}
    (lexed : Lexed DeclarationPhrase declaration.unlined) : declaration.Readable := by
  show declaration.unlined.Readable
  generalize declaration.unlined = tree at lexed ⊢
  obtain ⟨phrase, derived, isLexical⟩ := lexed
  cases derived with
  | void => exact ⟨_, .keyword .void, .void⟩
  | bytes name array =>
      have spelled := spells_suffix array fun kind listed => isLexical kind (by simp [listed])
      exact ⟨_, spells_declared _ (.keyword .opaqueBytes) (isLexical _ (by simp)) spelled.narrow,
        .bytes name array⟩
  | string name array =>
      have spelled := spells_suffix (.varying array) fun kind listed =>
        isLexical kind (by simp [listed])
      exact ⟨_, spells_declared _ (.keyword .string) (isLexical _ (by simp)) spelled.narrow,
        .string name array⟩
  | single name type =>
      obtain ⟨front, typed, again⟩ := spells_type type fun kind listed =>
        isLexical kind (by simp [listed])
      exact ⟨_, spells_declared .scalar typed (isLexical _ (by simp)) .empty, .single name again⟩
  | array name type array =>
      obtain ⟨front, typed, again⟩ := spells_type type fun kind listed =>
        isLexical kind (by simp [listed])
      have spelled := spells_suffix array fun kind listed => isLexical kind (by simp [listed])
      exact ⟨_, spells_declared _ typed (isLexical _ (by simp)) spelled.narrow,
        .array name again array⟩
  | optional name type =>
      obtain ⟨front, typed, again⟩ := spells_type type fun kind listed =>
        isLexical kind (by simp [listed])
      have atMostOne : ArrayPhrase [.mark .openAngle, .number "1", .mark .closeAngle]
          (.varying (some (.number "1"))) := .varying (.bounded (.number "1"))
      have spelled := spells_suffix atMostOne (by decide)
      exact ⟨_, spells_declared _ typed (isLexical _ (by simp)) spelled.narrow,
        .array name again atMostOne⟩

/-- The line of a declaration with its semicolon. -/
theorem Declaration.Readable.field {declaration : Declaration} (readable : declaration.Readable)
    {margin : String} (blank : Spells AnyText margin []) :
    ∃ phrase, Spells AnyText (margin ++ declaration.text ++ ";") phrase ∧
      FieldPhrase phrase declaration.unlined := by
  obtain ⟨phrase, spelled, derived⟩ := readable
  refine ⟨phrase ++ [.mark .semicolon], ?_, .field derived⟩
  exact (blank.andThen spelled).append (.mark .semicolon) fun rest _ => endsWord_cons rfl rest

/-! ## Completed declarations -/

/-- Completing a declaration does not change whether it declares anything. -/
theorem Declaration.Completes.isVoid_eq {registry : Registry} {declaration : Declaration}
    {field : Field} (completes : declaration.Completes registry field) :
    field.isVoid = declaration.isVoid := by
  obtain ⟨-, known, -⟩ := completes
  show field.declaration.type.isVoid = declaration.type.isVoid
  cases isVoid : declaration.type.isVoid with
  | true =>
      rw [Registry.complete?, if_pos isVoid, Option.some.injEq] at known
      rw [<- known, isVoid]
  | false =>
      obtain ⟨entry, -, result⟩ := Registry.complete?_eq_some isVoid known
      rw [result]
      split <;> exact isVoid

/-- Completing a declaration that was written does not change its text: a shape that
is taken over is not shown. -/
theorem Declaration.Completes.text_eq {registry : Registry} {declaration : Declaration}
    {field : Field} (completes : declaration.Completes registry field)
    (written : declaration.Written) : field.declaration.text = declaration.text := by
  obtain ⟨declared, known, -⟩ := completes
  have notInherited : declaration.type.inherited = false := written
  cases isVoid : declaration.type.isVoid with
  | true =>
      rw [Registry.complete?, if_pos isVoid, Option.some.injEq] at known
      rw [declared, <- known]
  | false =>
      obtain ⟨entry, -, result⟩ := Registry.complete?_eq_some isVoid known
      rw [declared, result]
      cases shape : declaration.type.shape with
      | scalar =>
          cases taken : entry.shape.isArray <;>
            simp [text, Declaration.isVoid, TypeRef.writtenSuffix, isVoid, shape, notInherited,
              Shape.suffix]
      | fixed | varying =>
          simp [text, Declaration.isVoid, TypeRef.writtenSuffix, isVoid, shape, notInherited]

/-! ## The parts of a definition -/

/-- The items of a list that was read were read. -/
theorem Grammar.Lexed.items {τ : Type} {item : Grammar τ} {separator : Phrase} {trees : List τ}
    (lexed : Lexed (OneOrMore item separator) trees) :
    forall tree, tree ∈ trees -> Lexed item tree := by
  obtain ⟨phrase, derived, isLexical⟩ := lexed
  induction derived with
  | one only => simpa using ⟨_, only, isLexical⟩
  | more first rest inductionHypothesis =>
      refine List.forall_mem_cons.mpr ⟨⟨_, first, ?_⟩, inductionHypothesis ?_⟩
      · exact fun kind listed => isLexical kind (by simp [listed])
      · exact fun kind listed => isLexical kind (by simp [listed])

/-- The definitions of a file that was read were read. -/
theorem Grammar.Lexed.definitions {trees : List Definition} (lexed : Lexed FilePhrase trees) :
    forall tree, tree ∈ trees -> Lexed DefinitionPhrase tree := by
  obtain ⟨phrase, derived, isLexical⟩ := lexed
  induction derived with
  | empty => simp
  | define first rest inductionHypothesis =>
      refine List.forall_mem_cons.mpr ⟨⟨_, first, ?_⟩, inductionHypothesis ?_⟩
      · exact fun kind listed => isLexical kind (by simp [listed])
      · exact fun kind listed => isLexical kind (by simp [listed])

/-- The definitions of a source text were read. -/
theorem Lexing.lexed_of_parse {source : String} {definitions : List Definition}
    (parsed : (Lexing.ofText source).stream.parse = .ok definitions) :
    forall definition, definition ∈ definitions -> Lexed DefinitionPhrase definition.unlined := by
  intro definition listed
  have derived := TokenStream.filePhrase_of_parse (stream_inside source) parsed
  refine Lexed.definitions ⟨_, derived, fun kind isKind => ?_⟩ _ (List.mem_map_of_mem listed)
  obtain ⟨token, isToken, rfl⟩ := List.mem_map.mp isKind
  exact isLexical_of_mem isToken

/-- A declaration with a semicolon that was read was read. -/
theorem Grammar.Lexed.declaration {tree : Declaration} (lexed : Lexed FieldPhrase tree) :
    Lexed DeclarationPhrase tree := by
  obtain ⟨phrase, ⟨derived⟩, isLexical⟩ := lexed
  exact ⟨_, derived, fun kind listed => isLexical kind (by simp [listed])⟩

/-- The name and the fields of a structure that was read. -/
theorem Grammar.Lexed.struct {name : String} {fields : List Declaration} {line : Int}
    (lexed : Lexed DefinitionPhrase (Definition.struct name fields line).unlined) :
    (Token.Kind.identifier name).isLexical = true ∧
      forall field, field ∈ fields -> Lexed DeclarationPhrase field.unlined := by
  obtain ⟨phrase, derived, isLexical⟩ := lexed
  cases derived with
  | struct name listed =>
      refine ⟨isLexical _ (by simp), fun field member => ?_⟩
      have lexedFields := Lexed.items
        ⟨_, listed, fun kind inBody => isLexical kind (by simp [inBody])⟩
      exact (lexedFields field.unlined (List.mem_map_of_mem member)).declaration

/-- The name and the value of a constant that was read. -/
theorem Grammar.Lexed.constant {name : String} {value : Value} {line : Int}
    (lexed : Lexed DefinitionPhrase (Definition.constant name value line).unlined) :
    (Token.Kind.identifier name).isLexical = true ∧ Lexed ValuePhrase value := by
  obtain ⟨phrase, derived, isLexical⟩ := lexed
  cases derived with
  | constant name text =>
      refine ⟨isLexical _ (by simp), _, .number text, ?_⟩
      exact List.forall_mem_singleton.mpr (isLexical (.number text) (by simp))

/-- The name and the members of an enumeration that was read. -/
theorem Grammar.Lexed.enum {name : String} {members : List EnumMember} {line : Int}
    (lexed : Lexed DefinitionPhrase (Definition.enum name members line).unlined) :
    (Token.Kind.identifier name).isLexical = true ∧
      forall member, member ∈ members ->
        (Token.Kind.identifier member.name).isLexical = true ∧
          Lexed ValuePhrase member.value := by
  obtain ⟨phrase, derived, isLexical⟩ := lexed
  cases derived with
  | enum name listed =>
      refine ⟨isLexical _ (by simp), fun member inBody => ?_⟩
      have lexedMembers := Lexed.items
        ⟨_, listed, fun kind inBody => isLexical kind (by simp [inBody])⟩
      obtain ⟨own, derivedMember, isLexicalMember⟩ :=
        lexedMembers member.unlined (List.mem_map_of_mem inBody)
      obtain ⟨memberName, value, line⟩ := member
      cases derivedMember with
      | member name assigned =>
          refine ⟨isLexicalMember _ (by simp), _, assigned, fun kind inValue => ?_⟩
          exact isLexicalMember kind (by simp [inValue])

/-- The declaration of a type definition that was read. -/
theorem Grammar.Lexed.typedef {declaration : Declaration}
    (lexed : Lexed DefinitionPhrase (Definition.typedef declaration).unlined) :
    Lexed DeclarationPhrase declaration.unlined := by
  obtain ⟨phrase, derived, isLexical⟩ := lexed
  cases derived with
  | typedef declared =>
      exact Lexed.declaration ⟨_, declared, fun kind listed => isLexical kind (by simp [listed])⟩

/-- A body that was read declares what was read. -/
theorem Grammar.Lexed.body {tree : Option Declaration} (lexed : Lexed BodyPhrase tree) :
    forall body, tree = some body -> Lexed DeclarationPhrase body := by
  rintro body rfl
  obtain ⟨phrase, ⟨⟩ | field, isLexical⟩ := lexed
  exact Lexed.declaration ⟨phrase, field, isLexical⟩

/-- The parts of a switch that was read. -/
structure Switch.Lexed (switch : Switch) : Prop where
  labels : forall each, each ∈ switch.cases ->
    ∃ value, each.label = .value value ∧ Grammar.Lexed ValuePhrase value
  bodies : forall each, each ∈ switch.cases -> forall body, each.body = some body ->
    Grammar.Lexed DeclarationPhrase body.unlined
  fallback : forall each, switch.fallback = some each -> forall body, each.body = some body ->
    Grammar.Lexed DeclarationPhrase body.unlined

/-- The name, the discriminant and the cases of a union that was read. -/
theorem Grammar.Lexed.union {name : String} {discriminant : Declaration} {switch : Switch}
    {line : Int}
    (lexed : Lexed DefinitionPhrase (Definition.union name discriminant switch line).unlined) :
    (Token.Kind.identifier name).isLexical = true ∧
      Lexed DeclarationPhrase discriminant.unlined ∧ switch.Lexed := by
  obtain ⟨phrase, derived, isLexical⟩ := lexed
  cases derived with
  | union name selects listed defaulted =>
      have lexedCases : forall each, each ∈ switch.cases -> Lexed CasePhrase each.unlined :=
        fun each member => Lexed.items
          ⟨_, listed, fun kind inBody => isLexical kind (by simp [inBody])⟩ each.unlined
          (List.mem_map_of_mem member)
      refine ⟨isLexical _ (by simp), ⟨_, selects, fun kind inSelector => ?_⟩, ?_, ?_, ?_⟩
      · exact isLexical kind (by simp [inSelector])
      · intro each member
        obtain ⟨labelled, derivedCase, isLexicalCase⟩ := lexedCases each member
        obtain ⟨label, body, line⟩ := each
        cases derivedCase with
        | labelled selected declared =>
            exact ⟨_, rfl, _, selected, fun kind inLabel => isLexicalCase kind (by simp [inLabel])⟩
      · intro each member
        obtain ⟨labelled, derivedCase, isLexicalCase⟩ := lexedCases each member
        obtain ⟨label, body, line⟩ := each
        rintro declaration rfl
        cases derivedCase with
        | labelled selected declared =>
            exact Lexed.body ⟨_, declared, fun kind inBody => isLexicalCase kind (by simp [inBody])⟩
              declaration.unlined rfl
      · rintro ⟨label, body, line⟩ present declaration rfl
        have fallback : switch.fallback.map Case.unlined =
            some (Case.unlined ⟨label, some declaration, line⟩) := by rw [present, Option.map_some]
        rw [fallback] at defaulted
        cases defaulted with
        | present declared =>
            exact Lexed.body ⟨_, declared, fun kind inBody => isLexical kind (by simp [inBody])⟩
              declaration.unlined rfl

end XdrPack
