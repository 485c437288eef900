import XdrPack.Proofs.Python.Definitions

/-!
# References to constants

A definition mentions values: for its constants, as the lengths of fixed arrays and as the
labels of cases. A value is a number or refers to a constant. What is emitted for an
accepted definition mentions the same values in the same order, and so does what is emitted
for a whole file. Only the labels are looked at for reserved names.
-/

namespace XdrPack

open Grammar

/-! ## Values that are mentioned -/

/-- What a value is mentioned for. -/
inductive ReferenceRole where
  /-- The value of a constant or of a member of an enumeration. -/
  | value
  /-- The length of a fixed array or of a fixed number of bytes. -/
  | length
  /-- The label of a case. -/
  | label
  deriving DecidableEq, Repr

/-- A value that is mentioned in a role. -/
structure Reference where
  role : ReferenceRole
  value : Value
  deriving DecidableEq, Repr

/-- The length in a shape, if it is fixed. -/
def Shape.length? : Shape -> Option Value
  | fixed length => some length
  | scalar | varying _ => none

/-- The length that a coding passes on, if there is one. -/
def Coding.length? : Coding -> Option Value
  | fixedBytes length => some length
  | array _ fixed | recordArray _ fixed => fixed
  | void | routine _ | record _ | text | bytes => none

/-- The lengths that a declaration mentions. -/
def Declaration.references (declaration : Declaration) : List Reference :=
  declaration.type.shape.length?.toList.map (⟨.length, ·⟩)

/-- The lengths that a completed declaration passes on. -/
def Field.references (field : Field) : List Reference :=
  field.coding.length?.toList.map (⟨.length, ·⟩)

/-- The labels of a group and the lengths in its body. -/
def CaseGroup.references (group : CaseGroup) : List Reference :=
  group.labels.map (⟨.label, ·⟩) ++ group.body.references

/-- The labels of an arm and the lengths in its body. -/
def UnionArm.references (arm : UnionArm) : List Reference :=
  arm.labels.map (⟨.label, ·⟩) ++ arm.body.references

/-- The values that a definition mentions in code, in order. The labels of a union are those
of its groups: a label that falls through to the default is in none. -/
def Definition.references : Definition -> List Reference
  | .constant _ value _ => [⟨.value, value⟩]
  | .enum _ members _ => members.map fun member => ⟨.value, member.value⟩
  | .typedef declaration => declaration.references
  | .struct _ fields _ => fields.flatMap Declaration.references
  | .union _ discriminant switch _ =>
      discriminant.references ++ switch.groups.flatMap CaseGroup.references
        ++ switch.defaultBody.toList.flatMap Declaration.references
  | .program _ => []

/-- The values that an emission mentions, in order. -/
def Emission.references : Emission -> List Reference
  | .primitive _ _ => []
  | .constant _ value => [⟨.value, value⟩]
  | .enum _ members => members.map fun member => ⟨.value, member.value⟩
  | .typedef _ target => target.references
  | .struct _ fields => fields.flatMap Field.references
  | .union _ layout =>
      layout.discriminant.references ++ layout.arms.flatMap UnionArm.references
        ++ layout.fallback.toList.flatMap Field.references

/-! ## Values that were read -/

/-- The declaration is not one of nothing or of a string, and the length was read. -/
structure Declaration.LexedLength (declaration : Declaration) (length : Value) : Prop where
  declares : declaration.isVoid = false
  notString : declaration.type.base ≠ "string"
  length : Lexed ValuePhrase length

/-- A fixed length that was read. -/
theorem Grammar.Lexed.fixed {declaration : Declaration} {length : Value}
    (lexed : Lexed DeclarationPhrase declaration.unlined)
    (fixed : declaration.type.shape = .fixed length) : declaration.LexedLength length := by
  suffices tree : declaration.unlined.LexedLength length from
    ⟨tree.declares, tree.notString, tree.length⟩
  replace fixed : declaration.unlined.type.shape = .fixed length := fixed
  generalize declaration.unlined = tree at lexed fixed ⊢
  obtain ⟨phrase, derived, isLexical⟩ := lexed
  cases derived with
  | void | single | optional => cases fixed
  | string name array => cases array <;> cases fixed
  | bytes name array =>
      cases array with
      | fixed size =>
          cases fixed
          refine ⟨rfl, by simp [TypeRef.shaped], _, size, fun kind listed => ?_⟩
          exact isLexical kind (by simp [listed])
      | varying bound => cases bound <;> cases fixed
  | @array name phrase base brackets shape type array =>
      -- The name of a type is an identifier, and the word for strings is a keyword.
      have notString : base ≠ "string" := by
        intro isString
        cases type with
        | named =>
            rw [isString] at isLexical
            exact absurd (isLexical (.identifier "string") (by simp)) (by decide)
        | _ => exact absurd isString (by decide)
      cases array with
      | fixed size =>
          cases fixed
          refine ⟨rfl, notString, _, size, fun kind listed => ?_⟩
          exact isLexical kind (by simp [listed])
      | varying bound => cases bound <;> cases fixed

/-- The lengths in a declaration that was read were read. -/
theorem lexed_declaration {declaration : Declaration}
    (lexed : Lexed DeclarationPhrase declaration.unlined) :
    forall reference, reference ∈ declaration.references -> Lexed ValuePhrase reference.value := by
  cases shape : declaration.type.shape with
  | scalar | varying => simp [Declaration.references, shape, Shape.length?]
  | fixed length =>
      have read := (lexed.fixed shape).length
      simpa [Declaration.references, shape, Shape.length?] using read

/-- The values that a definition mentions were read if the definition was. -/
theorem lexed_references {definition : Definition}
    (lexed : Lexed DefinitionPhrase definition.unlined) :
    forall reference, reference ∈ definition.references -> Lexed ValuePhrase reference.value := by
  cases definition with
  | constant name value line =>
      exact List.forall_mem_singleton.mpr (Lexed.constant lexed).2
  | enum name members line =>
      exact List.forall_mem_map.mpr fun member listed => ((Lexed.enum lexed).2 member listed).2
  | typedef declaration => exact lexed_declaration (Lexed.typedef lexed)
  | struct name fields line =>
      refine List.forall_mem_flatMap.mpr fun field listed => ?_
      exact lexed_declaration ((Lexed.struct lexed).2 field listed)
  | union name discriminant switch line =>
      obtain ⟨-, selects, cases⟩ := Lexed.union lexed
      refine List.forall_mem_append.mpr ⟨List.forall_mem_append.mpr ⟨?_, ?_⟩, ?_⟩
      · exact lexed_declaration selects
      · refine List.forall_mem_flatMap.mpr fun group listed => ?_
        refine List.forall_mem_append.mpr ⟨?_, lexed_declaration (cases.body_groups listed)⟩
        exact List.forall_mem_map.mpr (cases.labels_groups listed)
      · refine List.forall_mem_flatMap.mpr fun body present => ?_
        exact lexed_declaration (cases.defaultBody (Option.mem_toList.mp present))
  | program remote => exact nofun

/-! ## What is accepted -/

/-- A coding passes on the length of the shape that it was chosen for, unless it is for a
string. -/
theorem Chosen.length?_eq {base : String} {entry : TypeRef} {shape : Shape} {coding : Coding}
    (chosen : Chosen base entry shape coding)
    (notString : forall length, shape = .fixed length -> base ≠ "string") :
    coding.length? = shape.length? := by
  cases chosen with
  | @text shape isString bounded =>
      cases shape with
      | fixed length => exact absurd isString (notString length rfl)
      | scalar | varying => rfl
  | _ => rfl

/-- Lists of related items give the same if related items do. -/
theorem flatMap_eq_of_forall₂ {α β γ : Type} {related : α -> β -> Prop} {first : α -> List γ}
    {second : β -> List γ} {items : List α} {others : List β}
    (all : List.Forall₂ related items others)
    (same : forall item, item ∈ items -> forall other, related item other ->
      second other = first item) :
    others.flatMap second = items.flatMap first := by
  induction all with
  | nil => rfl
  | cons relation _ inductionHypothesis =>
      obtain ⟨own, rest⟩ := List.forall_mem_cons.mp same
      rw [List.flatMap_cons, List.flatMap_cons, own _ relation, inductionHypothesis rest]

section

variable {isReserved : String -> Bool} {registry : Registry}

/-- A completed declaration passes on the lengths that were written. -/
theorem Declaration.Completes.references_eq {declaration : Declaration} {field : Field}
    (completes : declaration.Completes registry field)
    (lexed : Lexed DeclarationPhrase declaration.unlined) (written : declaration.Written) :
    field.references = declaration.references := by
  rw [Field.references, Declaration.references]
  cases declares : declaration.isVoid with
  | true =>
      rw [completes.coding_of_void declares]
      cases shape : declaration.type.shape with
      | scalar | varying => rfl
      | fixed length =>
          rw [(lexed.fixed shape).declares] at declares
          cases declares
  | false =>
      obtain ⟨entry, -, chosen⟩ := completes.chosen written declares
      rw [chosen.length?_eq fun length fixed => (lexed.fixed fixed).notString]

/-- What is emitted for an accepted definition mentions what the definition does. -/
theorem Verdict.Accepted.references_eq {definition : Definition}
    {binding : Option (String × TypeRef)} {emission : Option Emission}
    (accepted : Accepted isReserved registry definition binding emission)
    (lexed : Lexed DefinitionPhrase definition.unlined) (written : definition.Written) :
    emission.toList.flatMap Emission.references = definition.references := by
  cases accepted with
  | constant | enum | program => simp [Emission.references, Definition.references]
  | typedef declares new completed =>
      simpa [Emission.references, Definition.references] using
        completed.references_eq (Lexed.typedef lexed) written
  | struct new completed =>
      obtain ⟨-, fields⟩ := Lexed.struct lexed
      rw [Option.toList_some, List.flatMap_singleton]
      refine flatMap_eq_of_forall₂ completed fun field listed member completes => ?_
      exact completes.toCompletes.references_eq (fields field listed) (written field listed)
  | @union name discriminant switch line layout new declares completed =>
      obtain ⟨-, selects, cases⟩ := Lexed.union lexed
      obtain ⟨selector, switchWritten⟩ := written
      have arms : layout.arms.flatMap UnionArm.references =
          switch.groups.flatMap CaseGroup.references := by
        refine flatMap_eq_of_forall₂ completed.arms fun group listed arm completes => ?_
        have bodyWritten : group.body.Written := by
          refine switchWritten.written_of_mem ?_
          rw [<- switchWritten.bodies_groups]
          exact List.mem_map_of_mem listed
        rw [UnionArm.references, CaseGroup.references, completes.labels,
          completes.body.toCompletes.references_eq (cases.body_groups listed) bodyWritten]
      have fallback : layout.fallback.toList.flatMap Field.references =
          switch.defaultBody.toList.flatMap Declaration.references := by
        refine flatMap_eq_of_forall₂ completed.fallback fun body present field completes => ?_
        exact completes.toCompletes.references_eq (cases.defaultBody (Option.mem_toList.mp present))
          (switchWritten.written_defaultBody present)
      rw [Option.toList_some, List.flatMap_singleton, Emission.references, Definition.references,
        arms, fallback, completed.selector.toCompletes.references_eq selects selector]

/-- The labels that are emitted for an accepted definition are not reserved. -/
theorem Verdict.Accepted.unreserved_labels {definition : Definition}
    {binding : Option (String × TypeRef)} {emission : Option Emission}
    (accepted : Accepted isReserved registry definition binding emission) {constant : String}
    (mentioned : ⟨.label, .constant constant⟩ ∈ definition.references) :
    isReserved constant = false := by
  have inDeclaration (declaration : Declaration) :
      ⟨.label, .constant constant⟩ ∉ declaration.references := by
    simp [Declaration.references]
  cases accepted with
  | constant | enum | program => simp [Definition.references] at mentioned
  | typedef => exact absurd mentioned (inDeclaration _)
  | struct =>
      obtain ⟨field, -, inField⟩ := List.mem_flatMap.mp mentioned
      exact absurd inField (inDeclaration field)
  | union new declares completed =>
      simp only [Definition.references, List.mem_append, List.mem_flatMap, inDeclaration,
        and_false, exists_false, or_false, false_or] at mentioned
      obtain ⟨group, listed, inGroup⟩ := mentioned
      obtain ⟨arm, -, completes⟩ := exists_of_forall₂ completed.arms.flip listed
      have isLabel : .constant constant ∈ group.labels := by
        simpa [CaseGroup.references, inDeclaration] using inGroup
      exact completes.allowed constant isLabel

/-- What a run emits mentions what the definitions do. -/
theorem Run.references_eq {final : Registry} {definitions : List Definition}
    {emissions : List Emission} (run : Run isReserved registry definitions final emissions)
    (lexed : forall definition, definition ∈ definitions ->
      Lexed DefinitionPhrase definition.unlined)
    (written : forall definition, definition ∈ definitions -> definition.Written) :
    emissions.flatMap Emission.references = definitions.flatMap Definition.references := by
  induction run with
  | done => rfl
  | step accepted rest inductionHypothesis =>
      obtain ⟨firstLexed, restLexed⟩ := List.forall_mem_cons.mp lexed
      obtain ⟨firstWritten, restWritten⟩ := List.forall_mem_cons.mp written
      rw [List.flatMap_append, List.flatMap_cons, accepted.references_eq firstLexed firstWritten,
        inductionHypothesis restLexed restWritten]

end

end XdrPack
