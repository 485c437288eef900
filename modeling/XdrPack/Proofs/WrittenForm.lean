import Mathlib.Data.List.Basic
import XdrPack.Proofs.Recognition
import XdrPack.Union

/-!
# The written form of definitions

The parser looks up no names, so no declaration that it gives has taken over a
shape from another type, and every case but the default is selected by a value.
This is read off the grammar.
-/

namespace XdrPack

open Grammar

/-- A declaration whose type is as it was written. -/
def Declaration.Written (declaration : Declaration) : Prop := declaration.type.inherited = false

/-- A case whose body is as it was written. -/
def Case.Written (each : Case) : Prop :=
  forall declaration, each.body = some declaration -> declaration.Written

/-- A switch as it was written. -/
structure Switch.Written (switch : Switch) : Prop where
  labelled : forall each, each ∈ switch.cases -> ∃ label, each.label = .value label
  bodies : forall each, each ∈ switch.cases -> each.Written
  fallback : forall each, switch.fallback = some each -> each.Written

/-- A definition as it was written. -/
def Definition.Written : Definition -> Prop
  | .typedef declaration => declaration.Written
  | .struct _ fields _ => forall declaration, declaration ∈ fields -> declaration.Written
  | .union _ discriminant switch _ => discriminant.Written ∧ switch.Written
  | _ => True

/-! ## The bodies of a union -/

/-- The bodies that are declared in the cases of a switch, in order. -/
def Switch.bodies (switch : Switch) : List Declaration := switch.cases.filterMap (·.body)

/-- Every body is that of one group, and the groups are in the order of their
bodies. -/
theorem bodies_groupsAndRest (pending cases : List LabelledCase) :
    (Switch.groupsAndRest pending cases).1.map (·.body) = cases.filterMap (·.body) := by
  induction cases generalizing pending with
  | nil => rfl
  | cons first rest inductionHypothesis =>
      cases body : first.body with
      | none => simp [Switch.groupsAndRest, body, inductionHypothesis]
      | some declaration => simp [Switch.groupsAndRest, body, inductionHypothesis]

/-- The bodies of the groups are those of the cases. -/
theorem Switch.Written.bodies_groups {switch : Switch} (written : switch.Written) :
    switch.groups.map (·.body) = switch.bodies := by
  rw [groups, bodies_groupsAndRest, Switch.labelled, List.filterMap_filterMap]
  refine List.filterMap_congr fun each listed => ?_
  obtain ⟨label, selected⟩ := written.labelled each listed
  simp [selected]

/-- Every body of a switch as written is as written. -/
theorem Switch.Written.written_of_mem {switch : Switch} (written : switch.Written)
    {declaration : Declaration} (listed : declaration ∈ switch.bodies) : declaration.Written := by
  obtain ⟨each, isCase, body⟩ := List.mem_filterMap.mp listed
  exact written.bodies each isCase declaration body

/-- The default body of a switch as written is as written. -/
theorem Switch.Written.written_defaultBody {switch : Switch} (written : switch.Written)
    {declaration : Declaration} (listed : declaration ∈ switch.defaultBody.toList) :
    declaration.Written := by
  obtain ⟨each, present, rfl⟩ := Option.map_eq_some_iff.mp (Option.mem_toList.mp listed)
  cases body : each.body with
  | none => rfl
  | some declared => exact written.fallback each present declared body

/-! ## Line numbers do not matter -/

/-- A case is as it was written with its lines exactly if it is so without them. -/
theorem Case.written_unlined {each : Case} : each.unlined.Written ↔ each.Written := by
  obtain ⟨label, body, line⟩ := each
  cases body with
  | none => simp [Case.Written, Case.unlined]
  | some declaration => simp [Case.Written, Case.unlined, Declaration.Written, Declaration.unlined]

/-- A definition is as it was written if it is so without its lines. -/
theorem Definition.written_of_unlined {definition : Definition}
    (written : definition.unlined.Written) : definition.Written := by
  cases definition with
  | constant | enum | program => trivial
  | typedef declaration => exact written
  | struct name fields line =>
      intro declaration listed
      exact written declaration.unlined (List.mem_map_of_mem listed)
  | union name discriminant switch line =>
      obtain ⟨selector, labelled, bodies, fallback⟩ := written
      have listed : forall each, each ∈ switch.cases -> each.unlined ∈ switch.unlined.cases :=
        fun each member => List.mem_map_of_mem member
      refine ⟨selector, fun each member => ?_, fun each member => ?_, fun each present => ?_⟩
      · exact labelled each.unlined (listed each member)
      · exact Case.written_unlined.mp (bodies _ (listed each member))
      · exact Case.written_unlined.mp (fallback _ (by simp [Switch.unlined, present]))

/-! ## The trees of the grammar -/

/-- What holds of every item holds of all trees of a list. -/
theorem Grammar.OneOrMore.forall_mem {τ : Type} {item : Grammar τ} {separator phrase : Phrase}
    {trees : List τ} {P : τ -> Prop} (derived : item.OneOrMore separator phrase trees)
    (each : forall phrase tree, item phrase tree -> P tree) :
    forall tree, tree ∈ trees -> P tree := by
  induction derived with
  | one only => simpa using each _ _ only
  | more first rest inductionHypothesis => simpa using ⟨each _ _ first, inductionHypothesis⟩

/-- A declaration of the grammar is as it was written. -/
theorem written_of_declarationPhrase {phrase : Phrase} {tree : Declaration}
    (derived : DeclarationPhrase phrase tree) : tree.Written := by
  cases derived <;> rfl

/-- A field of the grammar is as it was written. -/
theorem written_of_fieldPhrase {phrase : Phrase} {tree : Declaration}
    (derived : FieldPhrase phrase tree) : tree.Written := by
  obtain ⟨declared⟩ := derived
  exact written_of_declarationPhrase declared

/-- The body of a case of the grammar is as it was written. -/
theorem written_of_bodyPhrase {phrase : Phrase} {body : Option Declaration} {label : CaseLabel}
    (derived : BodyPhrase phrase body) : Case.Written ⟨label, body, 0⟩ := by
  rintro declaration ⟨⟩
  cases derived with
  | declared field => exact written_of_fieldPhrase field

/-- A definition of the grammar is as it was written. -/
theorem written_of_definitionPhrase {phrase : Phrase} {tree : Definition}
    (derived : DefinitionPhrase phrase tree) : tree.Written := by
  cases derived with
  | constant | enum | program => trivial
  | typedef declared => exact written_of_fieldPhrase declared
  | struct name listed => exact listed.forall_mem fun _ _ => written_of_fieldPhrase
  | union name selects listed defaulted =>
      refine ⟨written_of_declarationPhrase selects, ?_, ?_, ?_⟩
      · refine listed.forall_mem ?_
        rintro phrase tree ⟨labelled, declared⟩
        exact ⟨_, rfl⟩
      · refine listed.forall_mem ?_
        rintro phrase tree ⟨labelled, declared⟩
        exact written_of_bodyPhrase declared
      · rintro each ⟨⟩
        cases defaulted with
        | present declared => exact written_of_bodyPhrase declared

/-- Every parsed definition is as it was written. -/
theorem TokenStream.written_of_parse {stream : TokenStream} {definitions : List Definition}
    (success : stream.parse = .ok definitions) :
    forall definition, definition ∈ definitions -> definition.Written := by
  have written : forall {phrase : Phrase} {trees : List Definition}, FilePhrase phrase trees ->
      forall tree, tree ∈ trees -> tree.Written := by
    intro phrase trees derived
    induction derived with
    | empty => simp
    | define first rest inductionHypothesis =>
        simpa using ⟨written_of_definitionPhrase first, inductionHypothesis⟩
  obtain ⟨tokens, rest, -, -, derived⟩ := exists_filePhrase success
  intro definition listed
  exact definition.written_of_unlined (written derived _ (List.mem_map_of_mem listed))

end XdrPack
