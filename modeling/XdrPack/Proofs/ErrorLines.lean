import XdrPack.Proofs.Constructs
import XdrPack.Proofs.ReservedNames
import XdrPack.Proofs.WriteOnce

/-!
# The lines of refusals

A refusal is about a token of the source text: a name, a type, a label or a misplaced void. The
line that it shows is that on which the innermost construct with this token begins. There is one
exception: the line of a label that is reserved is that of the body which the label shares.
-/

namespace XdrPack

open Grammar

/-! ## What a refusal is about -/

namespace DefinitionError

/-- The line that a refusal shows. -/
def line : DefinitionError -> Int
  | reservedName _ _ line | undeclaredType _ line | redefinition _ line | danglingCase _ line
  | misplacedVoid _ line => line

/-- A refusal is about what a token stands for. -/
def About : DefinitionError -> Token.Kind -> Prop
  | reservedName name _ _, kind | undeclaredType name _, kind | redefinition name _, kind =>
      kind = .identifier name
  | danglingCase label _, kind => ∃ value, ValuePhrase [kind] value ∧ value.text = label
  | misplacedVoid _ _, kind => kind = .keyword .void

/-- A refusal of the name of a new type. -/
def RefusesType (name : String) : DefinitionError -> Prop
  | reservedName refused role _ => refused = name ∧ role = .type
  | redefinition refused _ => refused = name
  | _ => False

/-- A refusal of a label that is reserved. -/
def isReservedLabel : DefinitionError -> Bool
  | reservedName _ role _ => role = .caseLabel
  | _ => false

/-- A refusal of the name of a new type is about that name. -/
theorem RefusesType.about {error : DefinitionError} {name : String}
    (refused : error.RefusesType name) : error.About (.identifier name) := by
  cases error with
  | reservedName refusedName role line => exact congrArg _ refused.1.symm
  | redefinition refusedName line => exact congrArg _ refused.symm
  | _ => exact refused.elim

end DefinitionError

namespace Construct

/-- The tokens of a construct that are in none inside it. Those of a definition are its keyword
and its name. -/
def own : Construct -> List Token -> List Token
  | definition _, tokens => tokens.take 2
  | _, tokens => tokens

/-- Tokens spell a construct among others, and one that is in no construct inside it is what a
refusal is about. -/
def Holds (construct : Construct) (tokens : List Token) (error : DefinitionError) : Prop :=
  ∃ before span after, tokens = before ++ span ++ after ∧ construct.SpelledBy span ∧
    ∃ token, token ∈ construct.own span ∧ error.About token.kind

/-- Tokens spell a construct among others, and the first of them is on a line. -/
def BeginsOn (construct : Construct) (tokens : List Token) (line : Int) : Prop :=
  ∃ before first others after, tokens = before ++ (first :: others) ++ after ∧
    construct.SpelledBy (first :: others) ∧ first.line = line

end Construct

/-- A refusal is about something in a definition that belongs to a construct. Whatever line it
shows is left open. -/
inductive Definition.Blames : Definition -> DefinitionError -> Construct -> Prop where
  | constant {name value own line} :
      Blames (.constant name value own) (.reservedName name .constant line)
        (.definition (.constant name value own))
  | enum {name members own error} (refused : error.RefusesType name) :
      Blames (.enum name members own) error (.definition (.enum name members own))
  | struct {name fields own error} (refused : error.RefusesType name) :
      Blames (.struct name fields own) error (.definition (.struct name fields own))
  | union {name discriminant switch own error} (refused : error.RefusesType name) :
      Blames (.union name discriminant switch own) error
        (.definition (.union name discriminant switch own))
  | typedef {declaration error} (declares : declaration.isVoid = false)
      (refused : error.RefusesType declaration.name) :
      Blames (.typedef declaration) error (.declaration declaration)
  | enumMember {name members own line} {member : EnumMember} (listed : member ∈ members) :
      Blames (.enum name members own) (.reservedName member.name .enumMember line)
        (.member member)
  | field {definition declaration line}
      (listed : .declaration declaration ∈ definition.constructs)
      (declares : declaration.isVoid = false) :
      Blames definition (.reservedName declaration.name .field line) (.declaration declaration)
  | baseType {definition declaration line}
      (listed : .declaration declaration ∈ definition.constructs)
      (declares : declaration.isVoid = false)
      (declared : declaration.type.base ∉ Registry.primitives.map (·.1)) :
      Blames definition (.undeclaredType declaration.type.base line) (.declaration declaration)
  | typedefVoid {declaration line} (isVoid : declaration.isVoid = true) :
      Blames (.typedef declaration) (.misplacedVoid .typedef line) (.declaration declaration)
  | discriminantVoid {name discriminant switch own line} (isVoid : discriminant.isVoid = true) :
      Blames (.union name discriminant switch own) (.misplacedVoid .discriminant line)
        (.declaration discriminant)
  | label {name discriminant switch own each constant line} (listed : each ∈ switch.cases)
      (labelled : each.label = .value (.constant constant)) :
      Blames (.union name discriminant switch own) (.reservedName constant .caseLabel line)
        (.selector (.constant constant) each.line)
  | dangling {name discriminant switch own first rest label line}
      (noDefault : switch.fallback = none) (trailing : switch.trailing = first :: rest)
      (labelled : first.label = .value label) :
      Blames (.union name discriminant switch own) (.danglingCase label.text line)
        (.selector label first.line)

/-- The construct whose line is shown by a refusal that is about something in another one. They
are the same, unless a label is reserved: the body of the first case from there on that has one
takes its place. -/
inductive Definition.Shows : Definition -> DefinitionError -> Construct -> Construct -> Prop where
  | itself {definition error blamed} (other : error.isReservedLabel = false) :
      Shows definition error blamed blamed
  | body {name discriminant switch own constant line before each after declaration}
      (split : switch.cases = before ++ each :: after)
      (labelled : each.label = .value (.constant constant))
      (reached : (each :: after).findSome? (·.body) = some declaration) :
      Shows (.union name discriminant switch own) (.reservedName constant .caseLabel line)
        (.selector (.constant constant) each.line) (.declaration declaration)

/-! ## Tokens -/

/-- The type of a declaration that is not built in is written as a name. -/
theorem Grammar.TypePhrase.named_mem {phrase : Phrase} {base : String}
    (derived : TypePhrase phrase base) (declared : base ∉ Registry.primitives.map (·.1)) :
    .identifier base ∈ phrase := by
  cases derived with
  | named name => exact List.mem_singleton_self _
  | _ => exact absurd (by decide) declared

/-- A value is written with a single token. -/
theorem Grammar.ValuePhrase.single {phrase : Phrase} {value : Value}
    (derived : ValuePhrase phrase value) : ∃ kind, phrase = [kind] := by
  cases derived <;> exact ⟨_, rfl⟩

/-- The name of a member of an enumeration is among its tokens. -/
theorem Grammar.MemberPhrase.name_mem {phrase : Phrase} {tree : EnumMember}
    (derived : MemberPhrase phrase tree) : .identifier tree.name ∈ phrase := by
  cases derived with
  | member name assigned => exact List.mem_cons_self

namespace Grammar.DeclarationPhrase

variable {phrase : Phrase} {tree : Declaration}

/-- The name that a declaration introduces is among its tokens. -/
theorem name_mem (derived : DeclarationPhrase phrase tree) (declares : tree.isVoid = false) :
    .identifier tree.name ∈ phrase := by
  cases derived with
  | void => cases declares
  | _ => simp

/-- The type of a declaration is among its tokens, unless it is a built-in one. -/
theorem base_mem (derived : DeclarationPhrase phrase tree) (declares : tree.isVoid = false)
    (declared : tree.type.base ∉ Registry.primitives.map (·.1)) :
    .identifier tree.type.base ∈ phrase := by
  cases derived with
  | void => cases declares
  | bytes => exact absurd (show "opaque" ∈ Registry.primitives.map (·.1) by decide) declared
  | string => exact absurd (show "string" ∈ Registry.primitives.map (·.1) by decide) declared
  | single name type | array name type | optional name type =>
      exact List.mem_append_left _ (type.named_mem declared)

/-- A declaration without a value is written with the keyword for it. -/
theorem void_mem (derived : DeclarationPhrase phrase tree) (isVoid : tree.isVoid = true) :
    .keyword .void ∈ phrase := by
  cases derived with
  | void => exact List.mem_singleton_self _
  | _ => cases isVoid

end Grammar.DeclarationPhrase

/-- The name that is written behind the keyword of a definition. A type definition has a
declaration there, and the name of a program is never refused. -/
def Definition.ownName : Definition -> Option String
  | .constant name _ _ | .enum name _ _ | .struct name _ _ | .union name _ _ _ => some name
  | .typedef _ | .program _ => none

/-- A definition starts with a keyword and its name. -/
theorem Grammar.DefinitionPhrase.named {phrase : Phrase} {tree : Definition} {name : String}
    (derived : DefinitionPhrase phrase tree) (named : tree.ownName = some name) :
    ∃ word rest, phrase = .keyword word :: .identifier name :: rest := by
  cases derived with
  | typedef | program => cases named
  | _ =>
      cases named
      exact ⟨_, _, rfl⟩

/-! ## Parts of a union -/

section

variable {name : String} {discriminant : Declaration} {switch : Switch} {own : Int} {each : Case}

/-- What is inside a case of a union is inside the union. -/
theorem Definition.mem_constructs_of_case {construct : Construct}
    (listed : each ∈ switch.cases ++ switch.fallback.toList)
    (inside : construct ∈ each.constructs) :
    construct ∈ (Definition.union name discriminant switch own).constructs :=
  List.mem_cons_of_mem _ (List.mem_flatMap.mpr ⟨each, listed, inside⟩)

/-- The selector of a case is inside the union. -/
theorem Definition.selector_mem_constructs {label : Value} (listed : each ∈ switch.cases)
    (labelled : each.label = .value label) :
    .selector label each.line ∈ (Definition.union name discriminant switch own).constructs := by
  refine mem_constructs_of_case (List.mem_append_left _ listed) ?_
  simp [Case.constructs, labelled]

/-- The body of a case is inside the union. -/
theorem Definition.body_mem_constructs {declaration : Declaration}
    (listed : each ∈ switch.cases ++ switch.fallback.toList)
    (declared : each.body = some declaration) :
    .declaration declaration ∈ (Definition.union name discriminant switch own).constructs := by
  refine mem_constructs_of_case listed ?_
  simp [Case.constructs, declared]

/-- The first case without a body at the end is one of the cases. -/
theorem Switch.mem_of_trailing {rest : List Case} (trailing : switch.trailing = each :: rest) :
    each ∈ switch.cases := by
  have ending : switch.trailing <:+ switch.cases := List.rtakeWhile_suffix ..
  exact ending.subset (trailing ▸ List.mem_cons_self)

end

/-- A label that is grouped belongs to a case from which the body of the group is reached. Cases
that wait for a body come first. -/
theorem Switch.exists_split_of_group {pending cases : List LabelledCase} {group : CaseGroup}
    {label : Value} (waiting : forall each, each ∈ pending -> each.body = none)
    (listed : group ∈ (groupsAndRest pending cases).1) (labelled : label ∈ group.labels) :
    ∃ before each after, pending ++ cases = before ++ each :: after ∧ each.label = label ∧
      (each :: after).findSome? (·.body) = some group.body := by
  induction cases generalizing pending with
  | nil => cases listed
  | cons next rest inductionHypothesis =>
      cases declared : next.body with
      | none =>
          have stillWaiting : forall other, other ∈ pending ++ [next] -> other.body = none :=
            List.forall_mem_append.mpr ⟨waiting, by simpa using declared⟩
          simp only [groupsAndRest, declared] at listed
          simpa using inductionHypothesis stillWaiting listed
      | some body =>
          simp only [groupsAndRest, declared, List.mem_cons] at listed
          rcases listed with rfl | later
          · obtain ⟨each, isGrouped, rfl⟩ := List.mem_map.mp labelled
            obtain ⟨before, after, split⟩ := List.append_of_mem isGrouped
            refine ⟨before, each, after ++ rest, ?_, rfl, ?_⟩
            · rw [List.append_cons, split]
              simp
            · have reached := findSome?_suffix_group waiting declared ⟨before, split.symm⟩
                (List.cons_ne_nil each after)
              rw [<- List.cons_append, List.findSome?_append, reached]
              rfl
          · obtain ⟨before, each, after, split, same, reached⟩ :=
              inductionHypothesis (List.forall_mem_nil _) later
            rw [List.nil_append] at split
            exact ⟨pending ++ next :: before, each, after, by simp [split], same, reached⟩

/-- A label of a group is that of a case from which the body of the group is reached. -/
theorem Switch.exists_split_of_label {switch : Switch} {group : CaseGroup} {label : Value}
    (written : switch.Written) (listed : group ∈ switch.groups)
    (labelled : label ∈ group.labels) :
    ∃ before each after, switch.cases = before ++ each :: after ∧ each.label = .value label ∧
      (each :: after).findSome? (·.body) = some group.body := by
  obtain ⟨before, each, after, split, rfl, reached⟩ :=
    exists_split_of_group (List.forall_mem_nil _) listed labelled
  refine ⟨before.map LabelledCase.toCase, each.toCase, after.map LabelledCase.toCase, ?_, rfl, ?_⟩
  · rw [cases_eq_map_labelled written.labelled, <- List.nil_append switch.labelled, split]
    simp
  · rw [<- List.map_cons, List.findSome?_map]
    exact reached

/-! ## Where constructs begin -/

namespace Construct

variable {construct : Construct} {tokens : List Token}

/-- The tokens of a construct that carries a line begin on it. -/
theorem Within.beginsOn {line : Int} (within : construct.Within tokens)
    (carried : construct.line? = some line) : construct.BeginsOn tokens line := by
  obtain ⟨before, span, after, split, spelled⟩ := within
  obtain ⟨first, others, rfl, onLine⟩ := spelled.starts line carried
  exact ⟨before, first, others, after, split, spelled, onLine⟩

end Construct

namespace Definition

variable {definition : Definition} {tokens : List Token} {error : DefinitionError}
  {blamed shown : Construct}

/-- A construct inside a definition holds whatever its phrase contains. -/
theorem SpelledBy.holds_inside (spelled : definition.SpelledBy tokens)
    (listed : blamed ∈ definition.constructs) (whole : forall span, blamed.own span = span)
    (contained : forall phrase, blamed.Derives phrase -> ∃ kind, kind ∈ phrase ∧
      error.About kind) : blamed.Holds tokens error := by
  obtain ⟨before, span, after, split, isSpelled⟩ := spelled.spread.within listed
  obtain ⟨kind, isKind, about⟩ := contained _ isSpelled.derived
  obtain ⟨token, isToken, rfl⟩ := List.mem_map.mp isKind
  refine ⟨before, span, after, split, isSpelled, token, ?_, about⟩
  rw [whole]
  exact isToken

/-- The name of a definition is held by the definition itself. -/
theorem SpelledBy.holds_name {name : String} (spelled : definition.SpelledBy tokens)
    (named : definition.ownName = some name) (about : error.About (.identifier name)) :
    (Construct.definition definition).Holds tokens error := by
  have unlinedNamed : definition.unlined.ownName = some name := by
    cases definition <;> exact named
  obtain ⟨word, rest, phrase⟩ := spelled.whole.derived.named unlinedNamed
  obtain ⟨first, others, rfl, -, behind⟩ := List.map_eq_cons_iff.mp phrase
  obtain ⟨second, others, rfl, isName, -⟩ := List.map_eq_cons_iff.mp behind
  refine ⟨[], _, [], by simp, spelled.whole, second, ?_, isName ▸ about⟩
  simp [Construct.own]

/-- What a refusal is about is held by the construct that it belongs to. -/
theorem Blames.holds (blames : definition.Blames error blamed)
    (spelled : definition.SpelledBy tokens) : blamed.Holds tokens error := by
  cases blames with
  | constant => exact spelled.holds_name rfl rfl
  | enum refused => exact spelled.holds_name rfl refused.about
  | struct refused => exact spelled.holds_name rfl refused.about
  | union refused => exact spelled.holds_name rfl refused.about
  | typedef declares refused =>
      refine spelled.holds_inside (List.mem_singleton_self _) (fun _ => rfl) ?_
      intro phrase derived
      exact ⟨_, derived.name_mem declares, refused.about⟩
  | enumMember listed =>
      refine spelled.holds_inside (List.mem_map_of_mem listed) (fun _ => rfl) ?_
      rintro phrase (derived : MemberPhrase phrase _)
      exact ⟨_, derived.name_mem, rfl⟩
  | field listed declares =>
      refine spelled.holds_inside listed (fun _ => rfl) ?_
      intro phrase derived
      exact ⟨_, derived.name_mem declares, rfl⟩
  | baseType listed declares declared =>
      refine spelled.holds_inside listed (fun _ => rfl) ?_
      intro phrase derived
      exact ⟨_, derived.base_mem declares declared, rfl⟩
  | typedefVoid isVoid =>
      refine spelled.holds_inside (List.mem_singleton_self _) (fun _ => rfl) ?_
      intro phrase derived
      exact ⟨_, derived.void_mem isVoid, rfl⟩
  | discriminantVoid isVoid =>
      refine spelled.holds_inside List.mem_cons_self (fun _ => rfl) ?_
      intro phrase derived
      exact ⟨_, derived.void_mem isVoid, rfl⟩
  | label listed labelled =>
      refine spelled.holds_inside (selector_mem_constructs listed labelled) (fun _ => rfl) ?_
      rintro phrase ⟨written, ⟨⟩, rfl⟩
      exact ⟨.identifier _, by simp, rfl⟩
  | dangling noDefault trailing labelled =>
      have listed := Switch.mem_of_trailing trailing
      refine spelled.holds_inside (selector_mem_constructs listed labelled) (fun _ => rfl) ?_
      rintro phrase ⟨written, derived, rfl⟩
      obtain ⟨kind, rfl⟩ := derived.single
      exact ⟨kind, by simp, _, derived, rfl⟩

/-- A refusal of a reserved label is about what selects a case. -/
theorem Blames.selector_of_label {name : String} {discriminant : Declaration} {switch : Switch}
    {own : Int} (blames : (Definition.union name discriminant switch own).Blames error blamed)
    (isLabel : error.isReservedLabel = true) :
    ∃ each label, each ∈ switch.cases ∧ each.label = .value label ∧
      blamed = .selector label each.line := by
  cases blames with
  | union refused =>
      cases error with
      | reservedName refusedName role line =>
          rw [refused.2] at isLabel
          cases isLabel
      | _ => cases isLabel
  | label listed labelled => exact ⟨_, _, listed, labelled, rfl⟩
  | _ => cases isLabel

/-- The construct whose line is shown is among the tokens of the definition. -/
theorem Shows.within (displays : definition.Shows error blamed shown)
    (holds : blamed.Holds tokens error) (spelled : definition.SpelledBy tokens) :
    shown.Within tokens := by
  cases displays with
  | itself other =>
      obtain ⟨before, span, after, split, isSpelled, -⟩ := holds
      exact ⟨before, span, after, split, isSpelled⟩
  | @body name discriminant switch own constant line before each after declaration split labelled
      reached =>
      obtain ⟨last, listed, declared⟩ := List.exists_of_findSome?_eq_some reached
      refine spelled.spread.within (body_mem_constructs (List.mem_append_left _ ?_) declared)
      rw [split]
      exact List.mem_append_right _ listed

end Definition

/-! ## Grounds -/

section

variable {isReserved : String -> Bool} {registry : Registry} {error : DefinitionError}

/-- The built-in types are known. -/
def Registry.KnowsPrimitives (registry : Registry) : Prop :=
  forall name, name ∈ primitives.map (·.1) -> registry.lookup name ≠ none

/-- Adding a type keeps the built-in ones. -/
theorem Registry.KnowsPrimitives.insert (known : registry.KnowsPrimitives) (name : String)
    (type : TypeRef) : (registry.insert name type).KnowsPrimitives := by
  intro other isPrimitive
  rw [lookup_insert]
  split
  · simp
  · exact known other isPrimitive

/-- A refusal is about something in a definition, and it shows the line of a construct there. -/
def Definition.Locates (definition : Definition) (error : DefinitionError) : Prop :=
  ∃ blamed shown, definition.Blames error blamed ∧ definition.Shows error blamed shown ∧
    shown.line? = some error.line

/-- A refusal that shows the line of the construct that it is about. -/
theorem Definition.Blames.locates {definition : Definition} {blamed : Construct}
    (blames : definition.Blames error blamed) (other : error.isReservedLabel = false)
    (carried : blamed.line? = some error.line) : definition.Locates error :=
  ⟨blamed, blamed, blames, .itself other, carried⟩

/-- The refusal of a name is one of a new type, on the line of the definition. -/
theorem RefusedName.refusesType {name : String} {line : Int}
    (refused : RefusedName isReserved registry name line error) :
    error.RefusesType name ∧ error.isReservedLabel = false ∧ error.line = line := by
  cases refused with
  | reserved => exact ⟨⟨rfl, rfl⟩, rfl, rfl⟩
  | taken => exact ⟨rfl, rfl, rfl⟩

/-- Only a declaration with a value is refused as a member. -/
theorem Declaration.RefusedMember.declares {declaration : Declaration}
    (refused : declaration.RefusedMember isReserved registry error) :
    declaration.isVoid = false := by
  cases refused with
  | reserved declares => exact declares
  | undeclared declares => exact declares

/-- A declaration inside a record that is refused is on the line that is shown. -/
theorem Declaration.RefusedMember.locates {declaration : Declaration} {definition : Definition}
    (refused : declaration.RefusedMember isReserved registry error)
    (known : registry.KnowsPrimitives)
    (listed : .declaration declaration ∈ definition.constructs) : definition.Locates error := by
  cases refused with
  | reserved declares reserved => exact Definition.Blames.locates (.field listed declares) rfl rfl
  | undeclared declares unknown =>
      exact Definition.Blames.locates
        (.baseType listed declares fun isPrimitive => known _ isPrimitive unknown) rfl rfl

/-- A refused union contains what the refusal is about, and a construct on the line that it
shows. -/
theorem UnionLayout.Refused.locates {name : String} {discriminant : Declaration} {switch : Switch}
    {own : Int} (refused : UnionLayout.Refused isReserved registry discriminant switch error)
    (written : switch.Written) (known : registry.KnowsPrimitives) :
    (Definition.union name discriminant switch own).Locates error := by
  cases refused with
  | discriminant refused => exact refused.locates known List.mem_cons_self
  | dangling collapsed =>
      obtain ⟨noDefault, first, rest, dangling, rfl⟩ := Switch.collapse_eq_error.mp collapsed
      have trailing := Switch.dangling_eq_trailing written.labelled
      rw [dangling, List.map_cons] at trailing
      exact Definition.Blames.locates (.dangling noDefault trailing.symm rfl) rfl rfl
  | @label group constant listed labelled reserved =>
      obtain ⟨before, each, after, split, selected, reached⟩ :=
        Switch.exists_split_of_label written listed labelled
      have isCase : each ∈ switch.cases := by
        rw [split]
        exact List.mem_append_right _ List.mem_cons_self
      exact ⟨_, _, .label isCase selected, .body split selected reached, rfl⟩
  | body listed refused =>
      obtain ⟨each, label, isCase, selected, declared⟩ :=
        Switch.mem_bodies_groups.mp (List.mem_map_of_mem listed)
      exact refused.locates known
        (Definition.body_mem_constructs (List.mem_append_left _ isCase) declared)
  | default present refused =>
      obtain ⟨each, isFallback, declared⟩ :=
        Switch.exists_default_of_body present refused.declares
      refine refused.locates known (Definition.body_mem_constructs ?_ declared)
      exact List.mem_append_right _ (Option.mem_toList.mpr isFallback)

/-- On whatever grounds a definition is refused, the line that is shown is that of a construct
in it. -/
theorem Verdict.Refused.locates {definition : Definition}
    (refused : Refused isReserved registry definition error) (written : definition.Written)
    (known : registry.KnowsPrimitives) : definition.Locates error := by
  cases refused with
  | constant => exact Definition.Blames.locates .constant rfl rfl
  | enumName refused =>
      obtain ⟨refuses, other, same⟩ := refused.refusesType
      exact Definition.Blames.locates (.enum refuses) other (congrArg some same.symm)
  | enumMember listed => exact Definition.Blames.locates (.enumMember listed) rfl rfl
  | enumType unknown => exact absurd unknown (known "enum" (by decide))
  | typedefVoid isVoid => exact Definition.Blames.locates (.typedefVoid isVoid) rfl rfl
  | typedefName declares refused =>
      obtain ⟨refuses, other, same⟩ := refused.refusesType
      exact Definition.Blames.locates (.typedef declares refuses) other (congrArg some same.symm)
  | typedefType declares unknown =>
      have undeclared : Declaration.RefusedMember isReserved registry _ _ :=
        .undeclared declares unknown
      exact undeclared.locates known (List.mem_singleton_self _)
  | structName refused =>
      obtain ⟨refuses, other, same⟩ := refused.refusesType
      exact Definition.Blames.locates (.struct refuses) other (congrArg some same.symm)
  | structField listed refused =>
      exact refused.locates (known.insert _ _) (List.mem_map_of_mem listed)
  | unionName refused =>
      obtain ⟨refuses, other, same⟩ := refused.refusesType
      exact Definition.Blames.locates (.union refuses) other (congrArg some same.symm)
  | unionVoid isVoid => exact Definition.Blames.locates (.discriminantVoid isVoid) rfl rfl
  | unionPart declares refused => exact refused.locates written.2 (known.insert _ _)

end

/-! ## Source texts -/

/-- A definition that tokens spell is as it was written. -/
theorem Definition.SpelledBy.written {definition : Definition} {tokens : List Token}
    (spelled : definition.SpelledBy tokens) : definition.Written :=
  written_of_unlined (written_of_definitionPhrase spelled.whole.derived)

/-- A definition at a place is spelled by the piece at that place. -/
theorem exists_piece {pieces : List (List Token)} {definitions : List Definition}
    (spelled : List.Forall₂ (fun tokens definition => Definition.SpelledBy definition tokens) pieces
      definitions) {place : Nat} {definition : Definition}
    (found : definitions[place]? = some definition) :
    ∃ tokens, pieces[place]? = some tokens ∧ definition.SpelledBy tokens := by
  obtain ⟨bound, rfl⟩ := List.getElem?_eq_some_iff.mp found
  have isPlace : place < pieces.length := spelled.length_eq ▸ bound
  exact ⟨pieces[place], List.getElem?_eq_getElem isPlace, spelled.get isPlace bound⟩

namespace Compiler

/-- The built-in types are known after any definitions. -/
theorem knowsPrimitives_submit (isReserved : Reservation) (definitions : List Definition) :
    (start.submit isReserved definitions).registry.KnowsPrimitives := by
  intro name isPrimitive
  obtain ⟨each, listed, rfl⟩ := List.mem_map.mp isPrimitive
  rw [lookup_submit (Registry.lookup_builtin each listed) definitions]
  simp

/-- Whatever has been submitted and whatever source text is compiled after it, with any back end:
the tokens fall into those of the definitions that are parsed, one after the other, and what is
behind the last. If the compilation fails because a definition is refused, and not because the
back end cannot finish, then what the refusal is about is a token of that definition. The line
that is shown is the line of the first token of the innermost construct around it, or, if the
refusal is about a reserved label, of the body that the label shares. -/
theorem refusals_on_line (backend : Backend) (earlier : List Definition) (source : String)
    (failure : Failure) (error : DefinitionError) :
    let compiler := start.submit backend.isReserved earlier
    let stream := (Lexing.ofText source).stream
    (compiler.compile backend source).1 = .error failure -> failure.root = .refused error ->
    backend.finish (compiler.submit backend.isReserved stream.parsing.definitions).emissions ≠
        .error failure ->
      ∃ pieces rest place definition tokens blamed shown,
        stream.unread = pieces.flatten ++ rest ∧
        List.Forall₂ (fun spelling parsed => Definition.SpelledBy parsed spelling) pieces
          stream.parsing.definitions ∧
        compiler.FirstRefusal backend.isReserved stream.parsing.definitions place error ∧
        stream.parsing.definitions[place]? = some definition ∧ pieces[place]? = some tokens ∧
        definition.Blames error blamed ∧ blamed.Holds tokens error ∧
        definition.Shows error blamed shown ∧ shown.BeginsOn tokens error.line := by
  intro compiler stream failed isRoot finishes
  obtain ⟨pieces, rest, split, spelled⟩ := stream.exists_spelling
  obtain ⟨root, remaining, fault, reply⟩ | ⟨-, -, reply⟩ := compiler.compile_reply backend source
  · obtain rfl : root.after _ = failure := Except.error.inj (reply.symm.trans failed)
    rw [Failure.root_after] at isRoot
    cases fault with
    | syntactic accepted ended => cases isRoot
    | @refused place _ _ _ refusal there =>
        cases isRoot
        obtain ⟨definition, found, refused⟩ := Option.map_eq_some_iff.mp refusal.refused
        obtain ⟨tokens, isPiece, isSpelled⟩ := exists_piece spelled found
        have known := knowsPrimitives_submit backend.isReserved
          (earlier ++ stream.parsing.definitions.take place)
        rw [submit_append] at known
        obtain ⟨blamed, shown, blames, displays, carried⟩ :=
          (refused_of_define refused).locates isSpelled.written known
        have holds := blames.holds isSpelled
        exact ⟨pieces, rest, place, definition, tokens, blamed, shown, split, spelled, refusal,
          found, isPiece, blames, holds, displays,
          (displays.within holds isSpelled).beginsOn carried⟩
  · rw [reply, map_eq_error] at failed
    exact absurd failed finishes

/-- A field with a reserved name is refused on the line of its type, which is neither that of the
name nor that of the structure. -/
theorem refusals_on_line_of_field :
    let backend := Backend.silent ["class"]
    let source := "const A = 1;\nstruct s \x7b\n  int x;\n  unsigned\n  hyper\n  class;\n\x7d;"
    let error := DefinitionError.reservedName "class" .field 4
    (start.compile backend source).1 = .error (.refused error) ∧
    ∃ definition tokens blamed shown, Definition.Blames definition error blamed ∧
      blamed.Holds tokens error ∧ definition.Shows error blamed shown ∧
      shown.BeginsOn tokens 4 := by
  intro backend source error
  have failed : (start.compile backend source).1 = .error (.refused error) := by decide +kernel
  obtain ⟨-, -, -, definition, tokens, blamed, shown, -, -, -, -, -, blames, holds, displays,
    begins⟩ := refusals_on_line backend [] source (.refused error) error failed rfl
      (by simp [backend, Backend.silent])
  exact ⟨failed, definition, tokens, blamed, shown, blames, holds, displays, begins⟩

/-- The line of a reserved label is not that of its case. -/
theorem reservedLabel_off_line :
    let backend := Backend.silent ["class"]
    let source := "union u switch (int k) \x7b\ncase class:\n  int x;\n\x7d;"
    let error := DefinitionError.reservedName "class" .caseLabel 3
    (start.compile backend source).1 = .error (.refused error) ∧
    ∃ definition, (Lexing.ofText source).stream.parsing.definitions = [definition] ∧
      definition.Blames error (.selector (.constant "class") 2) ∧
      forall blamed, definition.Blames error blamed -> blamed.line? ≠ some error.line := by
  intro backend source error
  refine ⟨by decide +kernel, .union "u" ⟨"k", .named "int", 1⟩
    ⟨⟨.value (.constant "class"), some ⟨"x", .named "int", 3⟩, 2⟩, [], none⟩ 1,
    by decide +kernel, .label List.mem_cons_self rfl, ?_⟩
  intro blamed blames carried
  obtain ⟨each, label, listed, -, rfl⟩ := blames.selector_of_label rfl
  cases List.mem_singleton.mp listed
  cases carried

end Compiler

end XdrPack
