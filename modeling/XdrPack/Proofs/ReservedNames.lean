import XdrPack.Proofs.Grounds
import XdrPack.Proofs.HookCalls

/-!
# Reserved names

A definition uses names in several roles: for what it declares, for its members and fields,
and for the constants that label the cases of a union. No name that is emitted in such a
role is reserved, whatever was submitted before and whether or not it was refused. A
definition that is refused for a reserved name uses that name in the role that the error
says.
-/

namespace XdrPack

/-! ## Names and their roles -/

/-- The definition uses the name in the role. A declaration of nothing has no name. -/
inductive Definition.Names : Definition -> NameRole -> String -> Prop where
  | constant {name value line} : Names (.constant name value line) .constant name
  | enum {name members line} : Names (.enum name members line) .type name
  | enumMember {name members line} {member : EnumMember} (listed : member ∈ members) :
      Names (.enum name members line) .enumMember member.name
  | typedef {declaration} : Names (.typedef declaration) .type declaration.name
  | struct {name fields line} : Names (.struct name fields line) .type name
  | structField {name fields line field} (listed : field ∈ fields)
      (declares : field.isVoid = false) : Names (.struct name fields line) .field field.name
  | union {name discriminant switch line} :
      Names (.union name discriminant switch line) .type name
  | discriminant {name discriminant switch line} (declares : discriminant.isVoid = false) :
      Names (.union name discriminant switch line) .field discriminant.name
  | caseLabel {name discriminant switch line each constant} (listed : each ∈ switch.cases)
      (labelled : each.label = .value (.constant constant)) :
      Names (.union name discriminant switch line) .caseLabel constant
  | body {name discriminant switch line each label field} (listed : each ∈ switch.cases)
      (labelled : each.label = .value label) (declared : each.body = some field)
      (declares : field.isVoid = false) :
      Names (.union name discriminant switch line) .field field.name
  | default {name discriminant switch line each field} (present : switch.fallback = some each)
      (declared : each.body = some field) (declares : field.isVoid = false) :
      Names (.union name discriminant switch line) .field field.name

/-- The emission carries the name in the role. -/
inductive Emission.Names : Emission -> NameRole -> String -> Prop where
  | constant {name value} : Names (.constant name value) .constant name
  | enum {name members} : Names (.enum name members) .type name
  | enumMember {name members} {member : EnumMember} (listed : member ∈ members) :
      Names (.enum name members) .enumMember member.name
  | typedef {name target} : Names (.typedef name target) .type name
  | struct {name fields} : Names (.struct name fields) .type name
  | structField {name fields field} (listed : field ∈ fields) (declares : field.isVoid = false) :
      Names (.struct name fields) .field field.name
  | union {name layout} : Names (.union name layout) .type name
  | discriminant {name layout} : Names (.union name layout) .field layout.discriminant.name
  | caseLabel {name layout arm constant} (listed : arm ∈ layout.arms)
      (labelled : .constant constant ∈ arm.labels) :
      Names (.union name layout) .caseLabel constant
  | body {name layout field} (listed : field ∈ layout.bodies) (declares : field.isVoid = false) :
      Names (.union name layout) .field field.name

/-- The emission carries no reserved name. -/
def Emission.Unreserved (isReserved : String -> Bool) (emission : Emission) : Prop :=
  forall role name, emission.Names role name -> isReserved name = false

/-! ## Cases and groups -/

namespace Switch

variable {switch : Switch} {group : CaseGroup}

/-- The labelled cases of a switch are its cases with a value for a label. -/
theorem mem_labelled {selected : LabelledCase} :
    selected ∈ switch.labelled ↔
      ∃ each, each ∈ switch.cases ∧ each.label = .value selected.label ∧
        each.body = selected.body ∧ each.line = selected.line := by
  rw [labelled, List.mem_filterMap]
  apply exists_congr
  intro each
  apply and_congr_right
  intro _
  cases selected with
  | mk label body line => cases each.label <;> simp

/-- The labels of a group are labels of cases. -/
theorem exists_case_of_label (listed : group ∈ switch.groups) {label : Value}
    (labelled : label ∈ group.labels) :
    ∃ each, each ∈ switch.cases ∧ each.label = .value label := by
  have inGroups : label ∈ switch.groups.flatMap CaseGroup.labels :=
    List.mem_flatMap.mpr ⟨group, listed, labelled⟩
  have all := labels_groupsAndRest [] switch.labelled
  rw [List.nil_append] at all
  have inCases : label ∈ switch.labelled.map LabelledCase.label := by
    rw [<- all]
    exact List.mem_append_left _ inGroups
  obtain ⟨selected, isLabelled, rfl⟩ := List.mem_map.mp inCases
  obtain ⟨each, isCase, isLabel, -⟩ := mem_labelled.mp isLabelled
  exact ⟨each, isCase, isLabel⟩

/-- A declaration is the body of a group if it is the body of a labelled case. -/
theorem mem_bodies_groups {declaration : Declaration} :
    declaration ∈ switch.groups.map (·.body) ↔
      ∃ each label, each ∈ switch.cases ∧ each.label = .value label ∧
        each.body = some declaration := by
  rw [groups, bodies_groupsAndRest, List.mem_filterMap]
  constructor
  · rintro ⟨selected, isLabelled, declared⟩
    obtain ⟨each, isCase, isLabel, isBody, -⟩ := mem_labelled.mp isLabelled
    exact ⟨each, selected.label, isCase, isLabel, isBody.trans declared⟩
  · rintro ⟨each, label, isCase, isLabel, declared⟩
    exact ⟨⟨label, each.body, each.line⟩, mem_labelled.mpr ⟨each, isCase, isLabel, rfl, rfl⟩,
      declared⟩

/-- A default body that declares something was written. -/
theorem exists_default_of_body {declaration : Declaration}
    (present : switch.defaultBody = some declaration) (declares : declaration.isVoid = false) :
    ∃ each, switch.fallback = some each ∧ each.body = some declaration := by
  obtain ⟨each, isFallback, body⟩ := Option.map_eq_some_iff.mp present
  refine ⟨each, isFallback, ?_⟩
  cases written : each.body with
  | none =>
      rw [written, Option.getD_none] at body
      subst body
      cases declares
  | some declared =>
      rw [written, Option.getD_some] at body
      rw [body]

end Switch

/-! ## What is accepted -/

section

variable {isReserved : String -> Bool} {registry : Registry}

/-- The name of a completed field is not reserved. -/
theorem Declaration.CompletesMember.unreserved {declaration : Declaration} {field : Field}
    (completes : declaration.CompletesMember isReserved registry field)
    (declares : field.isVoid = false) : isReserved field.name = false := by
  have carried := completes.carriedBy
  have written : declaration.isVoid = false := carried.isVoid.symm.trans declares
  rw [Field.name, carried.name]
  exact completes.allowed written

/-- The names of completed fields are not reserved. -/
theorem unreserved_members {declarations : List Declaration} {fields : List Field}
    (completed : List.Forall₂ (Declaration.CompletesMember isReserved registry) declarations fields)
    {field : Field} (listed : field ∈ fields) (declares : field.isVoid = false) :
    isReserved field.name = false := by
  obtain ⟨declaration, -, completes⟩ := exists_of_forall₂ completed listed
  exact completes.unreserved declares

/-- The names of the bodies of a completed union are not reserved. -/
theorem UnionLayout.Completes.unreserved {discriminant : Declaration} {switch : Switch}
    {layout : UnionLayout} (completed : layout.Completes isReserved registry discriminant switch)
    {field : Field} (listed : field ∈ layout.bodies) (declares : field.isVoid = false) :
    isReserved field.name = false := by
  rcases List.mem_append.mp listed with inArms | inDefault
  · obtain ⟨arm, isArm, rfl⟩ := List.mem_map.mp inArms
    obtain ⟨group, -, completes⟩ := exists_of_forall₂ completed.arms isArm
    exact completes.body.unreserved declares
  · exact unreserved_members completed.fallback inDefault declares

/-- What is emitted for an accepted definition carries no reserved name. -/
theorem Verdict.Accepted.unreserved {definition : Definition}
    {binding : Option (String × TypeRef)} {emission : Emission}
    (accepted : Accepted isReserved registry definition binding (some emission)) :
    emission.Unreserved isReserved := by
  intro role name used
  cases accepted with
  | constant allowed =>
      cases used
      exact allowed
  | enum new allowed =>
      cases used with
      | enum => exact new.allowed
      | enumMember listed => exact allowed _ listed
  | typedef declares new =>
      cases used
      exact new.allowed
  | struct new completed =>
      cases used with
      | struct => exact new.allowed
      | structField listed declares => exact unreserved_members completed listed declares
  | @union _ discriminant _ _ layout new declares completed =>
      cases used with
      | union => exact new.allowed
      | discriminant =>
          have declared : layout.discriminant.isVoid = false :=
            completed.selector.carriedBy.isVoid.trans declares
          exact completed.selector.unreserved declared
      | caseLabel listed labelled =>
          obtain ⟨group, -, completes⟩ := exists_of_forall₂ completed.arms listed
          rw [completes.labels] at labelled
          exact completes.allowed _ labelled
      | body listed declared => exact completed.unreserved listed declared

/-- An accepted definition declares no reserved name. Only a label that falls through to
the default is not looked at. -/
theorem Verdict.Accepted.declares_unreserved {definition : Definition}
    {binding : Option (String × TypeRef)} {emission : Option Emission}
    (accepted : Accepted isReserved registry definition binding emission) {role : NameRole}
    {name : String} (names : definition.Names role name) (declared : role ≠ .caseLabel) :
    isReserved name = false := by
  cases accepted with
  | constant allowed =>
      cases names
      exact allowed
  | enum new allowed =>
      cases names with
      | enum => exact new.allowed
      | enumMember listed => exact allowed _ listed
  | typedef declares new =>
      cases names
      exact new.allowed
  | struct new completed =>
      cases names with
      | struct => exact new.allowed
      | structField listed declares =>
          obtain ⟨field, -, completes⟩ := exists_of_forall₂ completed.flip listed
          exact completes.allowed declares
  | @union _ _ switch _ _ new declares completed =>
      cases names with
      | union => exact new.allowed
      | discriminant declares => exact completed.selector.allowed declares
      | caseLabel => exact absurd rfl declared
      | body listed selected written declares =>
          obtain ⟨group, isGroup, rfl⟩ :=
            List.mem_map.mp (Switch.mem_bodies_groups.mpr ⟨_, _, listed, selected, written⟩)
          obtain ⟨arm, -, completes⟩ := exists_of_forall₂ completed.arms.flip isGroup
          exact completes.body.allowed declares
      | @default _ _ _ _ _ declaration present written declares =>
          have isDefault : switch.defaultBody = some declaration := by
            rw [Switch.defaultBody, present, Option.map_some, written, Option.getD_some]
          obtain ⟨field, -, completes⟩ :=
            exists_of_forall₂ completed.fallback.flip (Option.mem_toList.mpr isDefault)
          exact completes.allowed declares
  | program => cases names

end

namespace Compiler

variable {isReserved : Reservation}

/-- Nothing that the compiler has emitted carries a name that was reserved then. -/
def Unreserved (isReserved : Reservation) (compiler : Compiler) : Prop :=
  forall earlier emission later, compiler.emissions = earlier ++ emission :: later ->
    emission.Unreserved (isReserved earlier)

/-- The built-in types are emitted without any name of the source text. -/
theorem unreserved_start : start.Unreserved isReserved := by
  intro earlier emission later split role name used
  have listed : emission ∈ start.emissions := split ▸ by simp
  rw [emissions_start] at listed
  obtain ⟨⟨primitive, routine⟩, -, rfl⟩ := List.mem_map.mp listed
  cases used

/-- Submitting a definition emits no reserved name. -/
theorem Unreserved.define {compiler : Compiler} (unreserved : compiler.Unreserved isReserved)
    (definition : Definition) :
    (compiler.define isReserved definition).2.Unreserved isReserved := by
  have submits := compiler.define_submits isReserved definition
  intro earlier emission later split
  generalize (compiler.define isReserved definition).2 = next at submits split
  generalize (compiler.define isReserved definition).1 = outcome at submits
  cases submits with
  | @accepted binding emitted accepted registry emissions =>
      rw [emissions] at split
      cases emitted with
      | none => exact unreserved earlier emission later (by simpa using split)
      | some last =>
          -- It is the last emission, or an earlier one with the last one behind it.
          rcases List.eq_nil_or_concat' later with rfl | ⟨between, ending, rfl⟩
          · obtain ⟨rfl, same⟩ := List.append_inj' split rfl
            cases same
            exact accepted.unreserved
          · have split : compiler.emissions ++ [last] =
                (earlier ++ emission :: between) ++ [ending] := by simpa using split
            exact unreserved earlier emission between (List.append_inj' split rfl).1
  | refused registry emissions | refusedRecord named new registry emissions =>
      rw [emissions] at split
      exact unreserved earlier emission later split

end Compiler

/-! ## Why a name is refused -/

section

variable {isReserved : String -> Bool} {registry : Registry} {name : String} {role : NameRole}
  {line : Int}

/-- A declaration inside a record that is refused for a reserved name is a field of that
name. -/
theorem Declaration.RefusedMember.of_reserved {declaration : Declaration}
    (refused : declaration.RefusedMember isReserved registry (.reservedName name role line)) :
    declaration.isVoid = false ∧ isReserved name = true ∧ role = .field ∧
      name = declaration.name := by
  cases refused with
  | reserved declares reserved => exact ⟨declares, reserved, rfl, rfl⟩

/-- A definition that is refused for a reserved name uses it in the role of the error. -/
theorem Verdict.Refused.of_reserved {definition : Definition}
    (refused : Refused isReserved registry definition (.reservedName name role line)) :
    isReserved name = true ∧ definition.Names role name := by
  cases refused with
  | constant reserved => exact ⟨reserved, .constant⟩
  | enumName refused =>
      cases refused with
      | reserved reserved => exact ⟨reserved, .enum⟩
  | enumMember listed reserved => exact ⟨reserved, .enumMember listed⟩
  | typedefName declares refused =>
      cases refused with
      | reserved reserved => exact ⟨reserved, .typedef⟩
  | structName refused =>
      cases refused with
      | reserved reserved => exact ⟨reserved, .struct⟩
  | structField listed refused =>
      obtain ⟨declares, reserved, rfl, rfl⟩ := refused.of_reserved
      exact ⟨reserved, .structField listed declares⟩
  | unionName refused =>
      cases refused with
      | reserved reserved => exact ⟨reserved, .union⟩
  | unionPart declares refused =>
      cases refused with
      | discriminant refused =>
          obtain ⟨declares, reserved, rfl, rfl⟩ := refused.of_reserved
          exact ⟨reserved, .discriminant declares⟩
      | dangling collapsed =>
          obtain ⟨-, first, rest, -, impossible⟩ := Switch.collapse_eq_error.mp collapsed
          cases impossible
      | label listed labelled reserved =>
          obtain ⟨each, isCase, selected⟩ := Switch.exists_case_of_label listed labelled
          exact ⟨reserved, .caseLabel isCase selected⟩
      | body listed refused =>
          obtain ⟨declares, reserved, rfl, rfl⟩ := refused.of_reserved
          obtain ⟨each, label, isCase, selected, declared⟩ :=
            Switch.mem_bodies_groups.mp (List.mem_map_of_mem listed)
          exact ⟨reserved, .body isCase selected declared declares⟩
      | default present refused =>
          obtain ⟨declares, reserved, rfl, rfl⟩ := refused.of_reserved
          obtain ⟨each, isFallback, declared⟩ := Switch.exists_default_of_body present declares
          exact ⟨reserved, .default isFallback declared declares⟩

end

namespace Compiler

/-- A definition of a list that is refused for a reserved name uses it in the role of the
error. -/
theorem names_of_replyAt {compiler : Compiler} {isReserved : Reservation}
    {definitions : List Definition} {place : Nat} {name : String} {role : NameRole} {line : Int}
    (refused : compiler.replyAt isReserved definitions place =
      some (.error (.reservedName name role line))) :
    isReserved (compiler.submit isReserved (definitions.take place)).emissions name = true ∧
      ∃ definition, definitions[place]? = some definition ∧ definition.Names role name := by
  obtain ⟨definition, found, reply⟩ := Option.map_eq_some_iff.mp refused
  obtain ⟨reserved, names⟩ := (refused_of_define reply).of_reserved
  exact ⟨reserved, definition, found, names⟩

/-- A definition of a list that is accepted declares no reserved name. -/
theorem unreserved_of_replyAt {compiler : Compiler} {isReserved : Reservation}
    {definitions : List Definition} {place : Nat} {definition : Definition}
    (found : definitions[place]? = some definition)
    (accepted : compiler.replyAt isReserved definitions place = some (.ok ())) {role : NameRole}
    {name : String} (names : definition.Names role name) (declared : role ≠ .caseLabel) :
    isReserved (compiler.submit isReserved (definitions.take place)).emissions name = false := by
  rw [replyAt, found, Option.map_some, Option.some.injEq] at accepted
  obtain ⟨binding, emission, verdict, -⟩ := define_eq_ok (Prod.ext accepted rfl)
  exact verdict.declares_unreserved names declared

/-- Whatever has been submitted and whatever source text is compiled after it, with any
back end: no name that is emitted is reserved at that time, and no name that an accepted
definition declares. Where a definition is refused for a reserved name, alone or as the first
fault of the source text, the name is reserved and the definition uses it in the role of the
error, unless the error is one of the back end itself, which was asked to finish. -/
theorem reserved_names_refused (backend : Backend) (earlier : List Definition) (source : String) :
    let isReserved := backend.isReserved
    let compiler := start.submit isReserved earlier
    let parsing := (Lexing.ofText source).stream.parsing
    compiler.Unreserved isReserved ∧
    (compiler.compile backend source).2.Unreserved isReserved ∧
    (forall place definition role name, earlier[place]? = some definition ->
      start.replyAt isReserved earlier place = some (.ok ()) -> definition.Names role name ->
        role ≠ .caseLabel ->
          isReserved (start.submit isReserved (earlier.take place)).emissions name = false) ∧
    (forall place name role line,
      start.replyAt isReserved earlier place = some (.error (.reservedName name role line)) ->
        isReserved (start.submit isReserved (earlier.take place)).emissions name = true ∧
          ∃ definition, earlier[place]? = some definition ∧ definition.Names role name) ∧
    forall failure name role line, (compiler.compile backend source).1 = .error failure ->
      failure.root = .refused (.reservedName name role line) ->
      backend.finish (compiler.submit isReserved parsing.definitions).emissions ≠ .error failure ->
        ∃ place definition,
          isReserved (compiler.submit isReserved (parsing.definitions.take place)).emissions name =
            true ∧
          compiler.FirstRefusal isReserved parsing.definitions place
            (.reservedName name role line) ∧
          parsing.definitions[place]? = some definition ∧ definition.Names role name := by
  intro isReserved compiler parsing
  have kept (state : Compiler) (definition : Definition)
      (unreserved : state.Unreserved isReserved) :
      (state.define isReserved definition).2.Unreserved isReserved :=
    unreserved.define definition
  have unreserved : compiler.Unreserved isReserved :=
    submit_invariant kept unreserved_start earlier
  have finished (state : Compiler) (unreserved : state.Unreserved isReserved) :
      (state.finish backend).2.Unreserved isReserved := by
    rwa [Unreserved, emissions_finish]
  refine ⟨unreserved, compile_invariant kept unreserved backend rfl finished source, ?_, ?_, ?_⟩
  · intro place definition role name found accepted names declared
    exact unreserved_of_replyAt found accepted names declared
  · intro place name role line refused
    exact names_of_replyAt refused
  · intro failure name role line failed isRoot finishes
    obtain ⟨root, rest, fault, reply⟩ | ⟨-, -, reply⟩ := compiler.compile_reply backend source
    · obtain rfl : root.after _ = failure := Except.error.inj (reply.symm.trans failed)
      rw [Failure.root_after] at isRoot
      cases fault with
      | syntactic accepted ended => cases isRoot
      | refused refusal there =>
          cases isRoot
          obtain ⟨reserved, definition, found, names⟩ := names_of_replyAt refusal.refused
          exact ⟨_, definition, reserved, refusal, found, names⟩
    · rw [reply, map_eq_error] at failed
      exact absurd failed finishes

/-- A reserved field is refused when it is submitted, and a reserved label in the source
text after it. The enumeration before them is accepted. -/
theorem reserved_names_refused_field_and_label :
    let backend := Backend.silent ["class", "arm"]
    let earlier : List Definition :=
      [.enum "color" [⟨"RED", .number "1", 1⟩] 1,
        .struct "pair" [⟨"class", .named "int", 2⟩] 2]
    let source := "union u switch (int k) \x7b case 1: case arm: int x; \x7d;"
    backend.isReserved start.emissions "RED" = false ∧
    (∃ definition, earlier[1]? = some definition ∧ definition.Names .field "class") ∧
    ∃ (place : Nat) (definition : Definition),
      (Lexing.ofText source).stream.parsing.definitions[place]? = some definition ∧
        definition.Names .caseLabel "arm" := by
  intro backend earlier source
  obtain ⟨-, -, accepted, submitted, compiled⟩ := reserved_names_refused backend earlier source
  obtain ⟨-, definition, found, names⟩ := submitted 1 "class" .field 2 (by decide +kernel)
  obtain ⟨place, refused, -, -, listed, labels⟩ :=
    compiled (.refused (.reservedName "arm" .caseLabel 1)) "arm" .caseLabel 1
      (by decide +kernel) rfl (by simp [backend, Backend.silent])
  exact ⟨accepted 0 _ .enumMember "RED" rfl (by decide +kernel) (.enumMember List.mem_cons_self)
    nofun, ⟨definition, found, names⟩, place, refused, listed, labels⟩

end Compiler

end XdrPack
