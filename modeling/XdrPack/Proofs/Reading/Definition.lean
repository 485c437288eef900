import XdrPack.Proofs.Reading.Declaration
import XdrPack.Proofs.Reading.List

/-!
# Reading definitions

Every parser of a definition reads the phrases of the grammar that start with
its keyword. The next token matters in unions, where the body of a case and the
default may be missing, and in the arguments of a procedure.
-/

namespace XdrPack.Parser

open Grammar

/-! ## Constants and enumerations -/

/-- The parser of constants reads their definitions. -/
theorem constant_reads (line : Int) :
    (constant line).Reads Definition.unlined (startingWith DefinitionPhrase (.keyword .const))
      anything := by
  refine (identifier_reads.seq fun name => .mark .equals fun _ => number_reads.seq fun value =>
    .mark .semicolon fun _ => .pure (Definition.constant name value line) anything_closable).congr
    fun phrase tree => ?_
  constructor
  · rintro ⟨front, back, name, rfl, rfl, rest, rfl, others, more, value, rfl, ⟨text, rfl, rfl⟩,
      last, rfl, rfl, rfl⟩
    exact .constant name text
  · rintro ⟨⟩
    exact ⟨_, _, _, rfl, rfl, _, rfl, _, _, _, rfl, ⟨_, rfl, rfl⟩, _, rfl, rfl, rfl⟩

/-- The parser of members of an enumeration reads a name with its value. -/
theorem enumMember_reads : enumMember.Reads EnumMember.unlined MemberPhrase anything := by
  refine (Reads.ofPeek (fun _ => MemberPhrase) (fun token => ?_)
    fun _ _ _ _ derived _ => derived).congr fun phrase tree => ?_
  · refine (identifier_reads.seq fun name => .mark .equals fun _ => value_reads.seq fun value =>
      .pure (EnumMember.mk name value token.line) anything_closable).congr fun phrase tree => ?_
    constructor
    · rintro ⟨front, back, name, rfl, rfl, rest, rfl, written, none, value, rfl, assigned, rfl, rfl⟩
      simpa [EnumMember.unlined] using MemberPhrase.member name assigned
    · rintro ⟨name, assigned⟩
      exact ⟨[.identifier name], _, name, rfl, rfl, _, rfl, _, [], _, by simp, assigned, rfl, rfl⟩
  · exact ⟨fun ⟨_, derived⟩ => derived, fun derived => ⟨.endOfInput, derived⟩⟩

/-- Behind a member there is a comma or the closing brace. -/
theorem enumSeparator_reads :
    enumSeparator.Reads id (goesOn [.mark .comma] [.mark .closeBrace]) anything := by
  refine Reads.ofTake ⟨_, true, rfl⟩ anything_closable (by simp [goesOn]) fun token => ?_
  obtain ⟨kind, line, column⟩ := token
  have neither : kind ≠ .mark .comma -> kind ≠ .mark .closeBrace -> forall phrase tree,
      ¬ startingWith (goesOn [.mark .comma] [.mark .closeBrace]) kind phrase tree := by
    intro notComma notBrace phrase more
    cases more <;> simp [startingWith, goesOn, notComma, notBrace]
  have complete : forall {more : Bool},
      [kind] = (if more then [.mark .comma] else [.mark .closeBrace]) ->
      (pure more : Parser Bool).Reads id
        (startingWith (goesOn [.mark .comma] [.mark .closeBrace]) kind) anything := by
    intro more written
    refine .last anything_closable written fun phrase tree derived => ?_
    cases more <;> cases tree <;> simp_all [goesOn]
  cases kind with
  | mark sign =>
      cases sign with
      | comma => exact .inr ⟨by simp, complete rfl⟩
      | closeBrace => exact .inr ⟨by simp, complete rfl⟩
      | _ => exact .inl ⟨_, rfl, ⟨rfl, rfl⟩, neither (by simp) (by simp)⟩
  | _ => exact .inl ⟨_, rfl, ⟨rfl, rfl⟩, neither (by simp) (by simp)⟩

/-- The parser of enumerations reads their definitions. -/
theorem enumeration_reads (line : Int) :
    (enumeration line).Reads Definition.unlined (startingWith DefinitionPhrase (.keyword .enum))
      anything := by
  have members := Reads.nonempty enumMember_consumes enumMember_reads enumSeparator_reads
    (fun _ _ _ _ => trivial) (by
      rintro phrase tree ⟨name, assigned⟩
      exact ⟨_, _, rfl, trivial⟩)
  refine (identifier_reads.seq fun name => .mark .openBrace fun _ =>
    members.andThen
      (fun members => behind (.mark .semicolon) (only (Definition.enum name members 0)))
      (fun members => .mark .semicolon fun _ =>
        .pure (Definition.enum name members line) anything_closable)
      (fun _ _ _ _ _ _ => trivial)).congr fun phrase tree => ?_
  constructor
  · rintro ⟨front, back, name, rfl, rfl, rest, rfl, others, more, members, rfl,
      ⟨listed, rfl, derived⟩, last, rfl, rfl, rfl⟩
    simpa [startingWith] using DefinitionPhrase.enum name derived
  · intro derived
    cases derived with
    | enum name listed =>
        exact ⟨[.identifier name], _, name, rfl, rfl, _, rfl, _, [.mark .semicolon], _, by simp,
          ⟨_, rfl, listed⟩, _, rfl, rfl, rfl⟩

/-! ## Type definitions and structures -/

/-- The parser of type definitions reads them. -/
theorem typedef_reads :
    typedef.Reads Definition.unlined (startingWith DefinitionPhrase (.keyword .typedef))
      anything := by
  refine (field_reads.andThen (fun tree => only (Definition.typedef tree))
    (fun declared => .pure (Definition.typedef declared) anything_closable)
    (fun _ _ _ _ _ _ => trivial)).congr fun phrase tree => ?_
  constructor
  · rintro ⟨front, back, declared, rfl, derived, rfl, rfl⟩
    simpa [startingWith] using DefinitionPhrase.typedef derived
  · intro derived
    cases derived with
    | typedef derived => exact ⟨phrase, [], _, by simp, derived, rfl, rfl⟩

/-- The parser of structures reads their definitions. -/
theorem struct_reads (line : Int) :
    (struct line).Reads Definition.unlined (startingWith DefinitionPhrase (.keyword .struct))
      anything := by
  have fields := Reads.nonempty field_consumes field_reads (Reads.untilMark .closeBrace)
    (fun _ _ _ _ => trivial) (by
      intro phrase tree derived
      obtain ⟨kind, rest, rfl, starts⟩ := derived.starts
      exact ⟨kind, rest, rfl, fun _ => starts.ne_mark _⟩)
  refine (identifier_reads.seq fun name => .mark .openBrace fun _ =>
    fields.andThen
      (fun fields => behind (.mark .semicolon) (only (Definition.struct name fields 0)))
      (fun fields => .mark .semicolon fun _ =>
        .pure (Definition.struct name fields line) anything_closable)
      (fun _ _ _ _ _ _ => by simp)).congr fun phrase tree => ?_
  constructor
  · rintro ⟨front, back, name, rfl, rfl, rest, rfl, others, more, fields, rfl,
      ⟨listed, rfl, derived⟩, last, rfl, rfl, rfl⟩
    simpa [startingWith] using DefinitionPhrase.struct name derived
  · intro derived
    cases derived with
    | struct name listed =>
        exact ⟨[.identifier name], _, name, rfl, rfl, _, rfl, _, [.mark .semicolon], _, by simp,
          ⟨_, rfl, listed⟩, _, rfl, rfl, rfl⟩

/-! ## Unions -/

/-- What may follow the body of a case. -/
def afterBody {τ : Type} (_ : τ) (kind : Token.Kind) : Prop :=
  kind = .keyword .caseOf ∨ kind = .keyword .default ∨ kind = .mark .closeBrace

/-- What may follow the default of a union. -/
def afterDefault {τ : Type} (_ : τ) (kind : Token.Kind) : Prop := kind = .mark .closeBrace

/-- A closing brace may follow the body of a case. -/
theorem afterBody_closable {τ : Type} (tree : τ) : ∃ kind, afterBody tree kind :=
  ⟨.mark .closeBrace, by simp [afterBody]⟩

/-- A closing brace may follow a default. -/
theorem afterDefault_closable {τ : Type} (tree : τ) : ∃ kind, afterDefault tree kind :=
  ⟨.mark .closeBrace, rfl⟩

/-- The body of a case that comes before, or starts with, the given token. -/
def bodyBefore (kind : Token.Kind) : Grammar (Option Declaration) := fun phrase tree =>
  BodyPhrase phrase tree ∧ (phrase = [] ↔ afterBody tree kind)

/-- A body is missing only before a token that ends it. -/
theorem bodyBefore_headD {phrase : Phrase} {tree : Option Declaration} {next : Token.Kind}
    (derived : BodyPhrase phrase tree) (followed : afterBody tree next) :
    bodyBefore (phrase.headD next) phrase tree := by
  cases derived with
  | missing => exact ⟨.missing, by simpa using followed⟩
  | declared field =>
      obtain ⟨kind, rest, rfl, starts⟩ := field.starts
      refine ⟨.declared field, by simp, ?_⟩
      rintro (rfl | rfl | rfl) <;> simp [StartsDeclaration, StartsType] at starts

/-- Before a token that ends a case there is no body. -/
theorem missingBody_reads {kind : Token.Kind} (after : forall tree : Option Declaration,
    afterBody tree kind) :
    (pure none : Parser (Option Declaration)).Reads (Option.map Declaration.unlined)
      (bodyBefore kind) afterBody := by
  refine (Reads.pure none afterBody_closable).congr fun phrase tree => ?_
  constructor
  · rintro ⟨rfl, rfl⟩
    exact ⟨.missing, by simp [after]⟩
  · rintro ⟨derived, empty⟩
    obtain rfl := empty.mpr (after tree)
    cases derived with
    | missing => exact ⟨rfl, rfl⟩
    | declared field =>
        obtain ⟨first, rest, impossible, -⟩ := field.starts
        cases impossible

/-- Before any other token there is a field. -/
theorem declaredBody_reads {kind : Token.Kind} (notAfter : forall tree : Option Declaration,
    ¬ afterBody tree kind) :
    (do
      let declared <- field
      pure (some declared) : Parser (Option Declaration)).Reads (Option.map Declaration.unlined)
      (bodyBefore kind) afterBody := by
  refine (field_reads.andThen (fun declared => only (some declared))
    (fun declared => .pure (some declared) afterBody_closable)
    (fun _ _ _ _ _ _ => trivial)).congr fun phrase tree => ?_
  constructor
  · rintro ⟨front, back, declared, rfl, derived, rfl, rfl⟩
    obtain ⟨first, rest, rfl, -⟩ := derived.starts
    exact ⟨.declared (by simpa using derived), by simp [notAfter]⟩
  · rintro ⟨derived, empty⟩
    cases derived with
    | missing => exact absurd (empty.mp rfl) (notAfter _)
    | declared field => exact ⟨_, [], _, by simp, field, rfl, rfl⟩

/-- The parser of bodies reads a field, or nothing at the end of a case. -/
theorem caseBody_reads :
    caseBody.Reads (Option.map Declaration.unlined) BodyPhrase afterBody := by
  refine (Reads.ofPeek bodyBefore (fun token => ?_)
    fun kind phrase tree next derived => bodyBefore_headD derived.1).congr fun phrase tree => ?_
  · obtain ⟨kind, line, column⟩ := token
    cases kind with
    | keyword word =>
        cases word with
        | caseOf | default => exact missingBody_reads fun _ => by simp [afterBody]
        | _ => exact declaredBody_reads fun _ => by simp [afterBody]
    | mark sign =>
        cases sign with
        | closeBrace => exact missingBody_reads fun _ => by simp [afterBody]
        | _ => exact declaredBody_reads fun _ => by simp [afterBody]
    | _ => exact declaredBody_reads fun _ => by simp [afterBody]
  · constructor
    · rintro ⟨kind, derived, -⟩
      exact derived
    · intro derived
      obtain ⟨next, followed⟩ := afterBody_closable tree
      exact ⟨_, bodyBefore_headD derived followed⟩

/-- The parser of cases reads a label and the body behind it. -/
theorem unionCase_reads : unionCase.Reads Case.unlined CasePhrase afterBody := by
  refine (Reads.keyword .caseOf fun token => value_reads.seq fun label => .mark .colon fun _ =>
    caseBody_reads.andThen (fun body => only (Case.mk (.value label) body 0))
      (fun body => .pure (Case.mk (.value label) body token.line) afterBody_closable)
      ?_).congr fun phrase tree => ?_
  · rintro body phrase tree next ⟨rfl, -⟩ followed
    exact followed
  · constructor
    · rintro ⟨rest, rfl, label, others, value, rfl, selects, more, rfl, written, none, body, rfl,
        declared, rfl, rfl⟩
      simpa using CasePhrase.labelled selects declared
    · rintro ⟨selects, declared⟩
      exact ⟨_, rfl, _, _, _, rfl, selects, _, rfl, _, [], _, by simp, declared, rfl, rfl⟩

/-- The parser of defaults reads one or nothing. -/
theorem unionDefault_reads :
    unionDefault.Reads (Option.map Case.unlined) DefaultPhrase afterDefault := by
  have body := caseBody_reads.narrow afterDefault_closable
    fun _ _ followed => .inr (.inr followed)
  refine (Reads.ofSees (Reads.keyword .default fun token => .mark .colon fun _ =>
    body.andThen (fun body => only (some (Case.mk .default body 0)))
      (fun body => .pure (some (Case.mk .default body token.line)) afterDefault_closable) ?_)
    (.pure none afterDefault_closable) ?_).congr fun phrase tree => ?_
  · rintro body phrase tree next ⟨rfl, -⟩ followed
    exact followed
  · rintro phrase tree next ⟨rfl, -⟩ rfl
    simp
  · constructor
    · rintro (⟨rest, rfl, others, rfl, written, none, body, rfl, declared, rfl, rfl⟩ | ⟨rfl, rfl⟩)
      · simpa using DefaultPhrase.present declared
      · exact .missing
    · rintro (_ | declared)
      · exact .inr ⟨rfl, rfl⟩
      · exact .inl ⟨_, rfl, _, rfl, _, [], _, by simp, declared, rfl, rfl⟩

/-- What decides whether another case comes. -/
def afterCase (more : Bool) (kind : Token.Kind) : Prop :=
  if more then kind = .keyword .caseOf else kind = .keyword .default ∨ kind = .mark .closeBrace

/-- Cases are read for as long as another one starts. -/
theorem cases_reads :
    (oneOrMore unionCase (sees (.keyword .caseOf)) unionCase_consumes).Reads
      (fun read => (read.1 :: read.2).map Case.unlined) (terminated CasePhrase [] [])
      (fun _ => afterCase false) := by
  have again : (sees (.keyword .caseOf)).Reads id (goesOn [] []) afterCase := by
    refine (Reads.sees _).narrow (fun more => ?_) fun more kind followed => ?_
    · cases more with
      | true => exact ⟨_, rfl⟩
      | false => exact ⟨_, .inl rfl⟩
    · cases more with
      | true =>
          obtain rfl : kind = .keyword .caseOf := followed
          simp
      | false => rcases followed with rfl | rfl <;> simp
  refine Reads.oneOrMore unionCase_consumes unionCase_reads again ?_ ?_
  · intro tree more kind followed
    cases more with
    | true => exact .inl followed
    | false => exact .inr followed
  · rintro phrase tree ⟨selects, declared⟩
    exact ⟨_, _, rfl, rfl⟩

/-- What comes after the cases of a union, of which there is at least one. -/
def unionEnd (name : String) (discriminant : Declaration) : List Case -> Grammar Definition
  | [] => fun _ _ => False
  | first :: more => andThen DefaultPhrase fun fallback =>
      behind (.mark .closeBrace) (behind (.mark .semicolon)
        (only (.union name discriminant ⟨first, more, fallback⟩ 0)))

/-- No case comes after the last one. -/
theorem unionEnd_follows {name : String} {discriminant : Declaration} {cases : List Case}
    {phrase : Phrase} {tree : Definition} (derived : unionEnd name discriminant cases phrase tree)
    (next : Token.Kind) : afterCase false (phrase.headD next) := by
  cases cases with
  | nil => exact derived.elim
  | cons first more =>
      obtain ⟨otherwise, back, fallback, rfl, defaulted, rest, rfl, -⟩ := derived
      cases defaulted with
      | missing => exact .inr rfl
      | present declared => exact .inl rfl

/-- The parser of unions reads their definitions. -/
theorem union_reads (line : Int) :
    (union line).Reads Definition.unlined (startingWith DefinitionPhrase (.keyword .union))
      anything := by
  refine (identifier_reads.seq fun name => .keyword .switch fun _ => .mark .openParen fun _ =>
    declaration_reads.andThen (fun discriminant => behind (.mark .closeParen)
        (behind (.mark .openBrace)
          ((terminated CasePhrase [] []).andThen (unionEnd name discriminant))))
      (fun discriminant => .mark .closeParen fun _ => .mark .openBrace fun _ =>
        cases_reads.andThen (unionEnd name discriminant.unlined) (fun (first, more) => ?_)
          fun cases phrase tree kind derived _ => unionEnd_follows derived kind) ?_).congr
    fun phrase tree => ?_
  · refine unionDefault_reads.andThen _ (fun fallback => .mark .closeBrace fun _ =>
      .mark .semicolon fun _ =>
        .pure (Definition.union name discriminant ⟨first, more, fallback⟩ line)
          anything_closable) ?_
    rintro fallback phrase tree next ⟨rest, rfl, -⟩ -
    rfl
  · rintro discriminant phrase tree next ⟨rest, rfl, -⟩ -
    simp [afterShape]
  · constructor
    · rintro ⟨front, back, name, rfl, rfl, rest, rfl, others, rfl, selector, body, discriminant,
        rfl, selects, opened, rfl, inner, rfl, listed, ending, cases, rfl, ⟨written, rfl, derived⟩,
        ended⟩
      cases cases with
      | nil => exact ended.elim
      | cons first more =>
          obtain ⟨otherwise, closing, fallback, rfl, defaulted, last, rfl, final, rfl, rfl,
            rfl⟩ := ended
          simpa [startingWith] using DefinitionPhrase.union name selects derived defaulted
    · intro derived
      cases derived with
      | @union name selector discriminant body first more otherwise fallback selects listed
          defaulted =>
          let closing : Phrase := [.mark .closeBrace, .mark .semicolon]
          refine ⟨[.identifier name], _, name, rfl, rfl, _, rfl, _, rfl, selector,
            .mark .closeParen :: .mark .openBrace :: (body ++ (otherwise ++ closing)), discriminant,
            by simp [closing], selects, _, rfl, _, rfl, body, otherwise ++ closing, first :: more,
            rfl, ?_, ?_⟩
          · exact ⟨body, by simp, listed⟩
          · exact ⟨otherwise, closing, fallback, rfl, defaulted, _, rfl, _, rfl, rfl, rfl⟩

/-! ## Remote programs -/

/-- The parser of the types in a call reads the empty type and the names of types. -/
theorem callType_reads : callType.Reads id CallTypePhrase afterType := by
  refine (Reads.ofSees (Reads.keyword .void fun _ => .pure TypeRef.void afterType_closable)
    (typeName_reads.andThen (fun name => only (TypeRef.named name))
      (fun name => .pure (TypeRef.named name) afterType_closable) ?_) ?_).congr
    fun phrase tree => ?_
  · rintro name phrase tree next ⟨rfl, -⟩ followed
    exact followed
  · rintro phrase tree next ⟨front, back, name, rfl, type, -⟩ -
    obtain ⟨kind, rest, rfl, starts⟩ := type.starts
    rintro rfl
    simp [StartsType] at starts
  · constructor
    · rintro (⟨rest, rfl, rfl, rfl⟩ | ⟨front, back, name, rfl, type, rfl, rfl⟩)
      · exact .void
      · exact .named (by simpa using type)
    · rintro (_ | type)
      · exact .inl ⟨_, rfl, rfl, rfl⟩
      · exact .inr ⟨_, [], _, by simp, type, rfl, rfl⟩

/-- The parser of assigned numbers reads a number up to a semicolon. -/
theorem assignedNumber_reads : assignedNumber.Reads id AssignedPhrase anything := by
  refine (Reads.mark .equals fun _ => number_reads.seq fun value => .mark .semicolon fun _ =>
    .pure value anything_closable).congr fun phrase tree => ?_
  constructor
  · rintro ⟨rest, rfl, front, back, value, rfl, ⟨text, rfl, rfl⟩, last, rfl, rfl, rfl⟩
    exact .assigned text
  · rintro ⟨text⟩
    exact ⟨_, rfl, _, _, _, rfl, ⟨text, rfl, rfl⟩, _, rfl, rfl, rfl⟩

/-- What decides whether another argument comes. -/
def afterArgument (more : Bool) (kind : Token.Kind) : Prop :=
  more = false -> kind = .mark .closeParen

/-- Arguments are read for as long as a comma follows. -/
theorem arguments_reads :
    (nonempty callType (accept (.mark .comma)) callType_consumes).Reads id
      (terminated CallTypePhrase [.mark .comma] []) (fun _ => afterArgument false) := by
  have again : (accept (.mark .comma)).Reads id (goesOn [.mark .comma] []) afterArgument := by
    refine (Reads.accept (by simp)).narrow (fun _ => ⟨_, fun _ => rfl⟩) ?_
    intro found kind followed missing
    simp [followed missing]
  rw [<- List.map_id_fun]
  refine Reads.nonempty callType_consumes callType_reads again ?_ ?_
  · intro tree more kind followed
    cases more with
    | true => simp [afterType]
    | false => simp [followed rfl, afterType]
  · rintro phrase tree (_ | type)
    · exact ⟨_, _, rfl, by simp [afterArgument]⟩
    · obtain ⟨kind, rest, rfl, -⟩ := type.starts
      exact ⟨kind, rest, rfl, by simp [afterArgument]⟩

/-- The parser of procedures reads them. -/
theorem procedure_reads : procedure.Reads id ProcedurePhrase anything := by
  refine (callType_reads.keeping (fun result => identifier_reads.seq fun name =>
    .mark .openParen fun _ => arguments_reads.keeping (fun arguments => .mark .closeParen fun _ =>
      assignedNumber_reads.seq fun number =>
        .pure (Procedure.mk name result arguments number) anything_closable) ?_) ?_).congr
    fun phrase tree => ?_
  · rintro arguments phrase tree next ⟨rest, rfl, -⟩ - -
    rfl
  · rintro result phrase tree next ⟨front, back, name, rfl, rfl, -⟩ -
    simp [afterType]
  · constructor
    · rintro ⟨returned, back, result, rfl, resultType, front, others, name, rfl, rfl, rest, rfl,
        given, more, arguments, rfl, ⟨listed, rfl, argumentTypes⟩, final, rfl, assigned, none,
        number, rfl, numbered, rfl, rfl⟩
      simpa using ProcedurePhrase.procedure name resultType argumentTypes numbered
    · rintro (@⟨name, returned, result, given, arguments, assigned, number, resultType,
        argumentTypes, numbered⟩)
      exact ⟨_, _, _, by simp, resultType, [.identifier name], _, name, rfl, rfl, _, rfl, given,
        .mark .closeParen :: assigned, _, rfl, ⟨given, by simp, argumentTypes⟩, assigned, rfl,
        assigned, [], _, by simp, numbered, rfl, rfl⟩

/-- No procedure starts as the end of a version does. -/
theorem procedure_starts {phrase : Phrase} {tree : Procedure}
    (derived : ProcedurePhrase phrase tree) :
    ∃ kind rest, phrase = kind :: rest ∧ kind ≠ .mark .closeBrace := by
  obtain ⟨name, resultType, argumentTypes, numbered⟩ := derived
  cases resultType with
  | void => exact ⟨_, _, rfl, by simp⟩
  | named type =>
      obtain ⟨kind, rest, rfl, starts⟩ := type.starts
      refine ⟨kind, _, rfl, ?_⟩
      rintro rfl
      exact starts

/-- The parser of versions reads the procedures in their braces. -/
theorem version_reads : version.Reads id VersionPhrase anything := by
  have procedures := Reads.nonempty procedure_consumes procedure_reads (Reads.untilMark .closeBrace)
    (fun _ _ _ _ => trivial) (by
      intro phrase tree derived
      obtain ⟨kind, rest, rfl, differs⟩ := procedure_starts derived
      exact ⟨kind, rest, rfl, fun _ => differs⟩)
  rw [List.map_id_fun] at procedures
  refine (Reads.keyword .version fun _ => identifier_reads.seq fun name => .mark .openBrace fun _ =>
    procedures.keeping (fun procedures => assignedNumber_reads.seq fun number =>
      .pure (Version.mk name procedures number) anything_closable)
      (fun _ _ _ _ _ _ => by simp)).congr fun phrase tree => ?_
  constructor
  · rintro ⟨rest, rfl, front, back, name, rfl, rfl, others, rfl, body, more, procedures, rfl,
      ⟨inner, rfl, listed⟩, assigned, none, number, rfl, numbered, rfl, rfl⟩
    simpa using VersionPhrase.version name listed numbered
  · rintro (@⟨name, body, procedures, assigned, number, listed, numbered⟩)
    exact ⟨_, rfl, [.identifier name], _, name, rfl, rfl, _, rfl, body ++ [.mark .closeBrace],
      assigned, _, by simp, ⟨_, rfl, listed⟩, assigned, [], _, by simp, numbered, rfl, rfl⟩

/-- The parser of remote programs reads their definitions. -/
theorem program_reads :
    program.Reads Definition.unlined (startingWith DefinitionPhrase (.keyword .program))
      anything := by
  have versions := Reads.nonempty version_consumes version_reads (Reads.untilMark .closeBrace)
    (fun _ _ _ _ => trivial) (by
      rintro phrase tree ⟨name, listed, numbered⟩
      exact ⟨_, _, rfl, by simp⟩)
  rw [List.map_id_fun] at versions
  refine (identifier_reads.seq fun name => .mark .openBrace fun _ =>
    versions.keeping (fun versions => assignedNumber_reads.seq fun number =>
      .pure (Definition.program ⟨name, versions, number⟩) anything_closable)
      (fun _ _ _ _ _ _ => by simp)).congr fun phrase tree => ?_
  constructor
  · rintro ⟨front, back, name, rfl, rfl, others, rfl, body, more, versions, rfl,
      ⟨inner, rfl, listed⟩, assigned, none, number, rfl, numbered, rfl, rfl⟩
    simpa [startingWith, Definition.unlined] using DefinitionPhrase.program name listed numbered
  · intro derived
    cases derived with
    | @program name body versions assigned number listed numbered =>
        exact ⟨[.identifier name], _, name, rfl, rfl, _, rfl, body ++ [.mark .closeBrace],
          assigned, _, by simp, ⟨_, rfl, listed⟩, assigned, [], _, by simp, numbered, rfl, rfl⟩

/-! ## Definitions -/

/-- A definition where one must come: the end of the input is refused too. -/
def definition : Parser (Option Definition) := do
  let token <- take
  if token.kind = .endOfInput then unexpected "a definition" token else definitionFrom token

/-- A definition that is there. -/
def someDefinition : Grammar (Option Definition) := fun phrase tree =>
  ∃ definition, DefinitionPhrase phrase definition ∧ tree = some definition

/-- A definition comes unless the input is at its end. -/
theorem run_definition? (stream : TokenStream) :
    definition?.run stream =
      if stream.next.kind = .endOfInput then .accepted none stream.advance
      else definition.run stream := by
  show (definitionFrom stream.next).run stream.advance = _
  by_cases atEnd : stream.next.kind = .endOfInput
  · rw [if_pos atEnd]
    simp [definitionFrom, atEnd]
  · rw [if_neg atEnd]
    show _ = (if stream.next.kind = .endOfInput then _ else definitionFrom stream.next).run
      stream.advance
    rw [if_neg atEnd]

/-- A definition starts with the keyword of its kind. -/
theorem someDefinition_starts {phrase : Phrase} {tree : Option Definition}
    (derived : someDefinition phrase tree) : ∃ word rest, phrase = .keyword word :: rest ∧
      word ∈ [Keyword.const, .enum, .typedef, .struct, .union, .program] := by
  obtain ⟨definition, derived, -⟩ := derived
  cases derived <;> exact ⟨_, _, rfl, by simp⟩

/-- The parser of definitions reads those of every kind by their keyword. -/
theorem definition_reads :
    definition.Reads (Option.map Definition.unlined) someDefinition anything := by
  refine Reads.ofTake ⟨_, _, _, .constant "" "", rfl⟩ anything_closable ?_ fun token => ?_
  · intro tree derived
    obtain ⟨word, rest, impossible, -⟩ := someDefinition_starts derived
    cases impossible
  obtain ⟨kind, line, column⟩ := token
  have given : forall {parser : Parser Definition}, parser.Reads Definition.unlined
      (startingWith DefinitionPhrase kind) anything ->
      (some <$> parser).Reads (Option.map Definition.unlined) (startingWith someDefinition kind)
        anything :=
    fun reads => reads.map some (fun _ => rfl) anything_closable fun _ _ _ => trivial
  have refused : kind ∉ [Keyword.const, .enum, .typedef, .struct, .union, .program].map .keyword ->
      forall phrase tree, ¬ startingWith someDefinition kind phrase tree := by
    intro notStart phrase tree derived
    obtain ⟨word, rest, equal, starts⟩ := someDefinition_starts derived
    obtain ⟨rfl, rfl⟩ : kind = .keyword word ∧ phrase = rest := by simpa using equal
    exact notStart (List.mem_map_of_mem starts)
  cases kind with
  | keyword word =>
      cases word with
      | const => exact .inr ⟨by simp, given (constant_reads line)⟩
      | enum => exact .inr ⟨by simp, given (enumeration_reads line)⟩
      | typedef => exact .inr ⟨by simp, given typedef_reads⟩
      | struct => exact .inr ⟨by simp, given (struct_reads line)⟩
      | union => exact .inr ⟨by simp, given (union_reads line)⟩
      | program => exact .inr ⟨by simp, given program_reads⟩
      | _ => exact .inl ⟨_, rfl, ⟨rfl, rfl⟩, refused (by simp)⟩
  | _ => exact .inl ⟨_, rfl, ⟨rfl, rfl⟩, refused (by simp)⟩

end XdrPack.Parser
