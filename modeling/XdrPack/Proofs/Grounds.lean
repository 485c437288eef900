import XdrPack.Proofs.Fallthrough

/-!
# Grounds of refusal

`Verdict.Refused` says once on what grounds a definition can be refused, just as
`Verdict.Accepted` says what it takes to be accepted. Every ground is a part of the
definition that is at fault, and the error carries the line of that part.
-/

namespace XdrPack

/-! ## Failure in sequence -/

/-- A computation after another fails if one of the two does. -/
theorem bind_eq_error {ε α β : Type} {first : Except ε α} {second : α -> Except ε β} {error : ε} :
    first >>= second = .error error ↔
      first = .error error ∨ ∃ value, first = .ok value ∧ second value = .error error := by
  cases first with
  | error cause => simp [bind, Except.bind]
  | ok value => simp [bind, Except.bind]

/-- Where mapping the items of a list fails, it fails for one of them. -/
theorem mapM_eq_error {ε α β : Type} {change : α -> Except ε β} {items : List α} {error : ε}
    (failure : items.mapM change = .error error) :
    ∃ item, item ∈ items ∧ change item = .error error := by
  induction items with
  | nil => cases failure
  | cons item rest inductionHypothesis =>
      rw [List.mapM_cons] at failure
      rcases bind_eq_error.mp failure with here | ⟨result, -, later⟩
      · exact ⟨item, List.mem_cons_self, here⟩
      · rcases bind_eq_error.mp later with failed | ⟨results, -, impossible⟩
        · obtain ⟨other, listed, fails⟩ := inductionHypothesis failed
          exact ⟨other, List.mem_cons_of_mem _ listed, fails⟩
        · cases impossible

/-- Where checking the items of a list fails, it fails for one of them. -/
theorem forM_eq_error {ε α : Type} {check : α -> Except ε Unit} {items : List α} {error : ε}
    (failure : items.forM check = .error error) :
    ∃ item, item ∈ items ∧ check item = .error error := by
  induction items with
  | nil => cases failure
  | cons item rest inductionHypothesis =>
      have failure : (check item >>= fun _ => rest.forM check) = .error error := failure
      rcases bind_eq_error.mp failure with here | ⟨_, -, later⟩
      · exact ⟨item, List.mem_cons_self, here⟩
      · obtain ⟨other, listed, fails⟩ := inductionHypothesis later
        exact ⟨other, List.mem_cons_of_mem _ listed, fails⟩

/-! ## Names and declarations -/

section

variable {isReserved : String -> Bool} {registry : Registry}

/-- The check of a name refuses exactly reserved names, with the role and the line of the name.
-/
theorem checkName_eq_error {name : String} {role : NameRole} {line : Int}
    {error : DefinitionError} :
    checkName isReserved name role line = .error error ↔
      isReserved name = true ∧ error = .reservedName name role line := by
  unfold checkName
  by_cases reserved : isReserved name = true
  · rw [if_pos reserved, Except.error.injEq]
    exact ⟨fun same => ⟨reserved, same.symm⟩, fun both => both.2.symm⟩
  · rw [if_neg reserved]
    exact ⟨nofun, fun both => absurd both.1 reserved⟩

/-- Why the name of a new type is refused. -/
inductive RefusedName (isReserved : String -> Bool) (registry : Registry) (name : String)
    (line : Int) : DefinitionError -> Prop where
  | reserved (reserved : isReserved name = true) :
      RefusedName isReserved registry name line (.reservedName name .type line)
  | taken (known : registry.contains name = true) :
      RefusedName isReserved registry name line (.redefinition name line)

/-- A name of a type that is refused is reserved or taken. -/
theorem checkTypeName_eq_error {name : String} {line : Int} {error : DefinitionError}
    (failure : checkTypeName isReserved registry name line = .error error) :
    RefusedName isReserved registry name line error := by
  rcases bind_eq_error.mp failure with failed | ⟨_, -, failed⟩
  · obtain ⟨reserved, rfl⟩ := checkName_eq_error.mp failed
    exact .reserved reserved
  · split at failed
    · next known =>
        cases failed
        exact .taken known
    · cases failed

/-- A declaration cannot be completed only if it names an unknown type. -/
theorem complete_eq_error {declaration : Declaration} {error : DefinitionError}
    (failure : declaration.complete registry = .error error) :
    declaration.isVoid = false ∧ registry.lookup declaration.type.base = none ∧
      error = .undeclaredType declaration.type.base declaration.line := by
  unfold Declaration.complete at failure
  split at failure
  · next unknown =>
      cases failure
      unfold Registry.complete? at unknown
      split at unknown
      · cases unknown
      · next declares =>
          refine ⟨by simpa [Declaration.isVoid] using declares, ?_, rfl⟩
          simpa [Registry.inherited?] using unknown
  · cases failure

/-- Why a declaration inside a record is refused. -/
inductive Declaration.RefusedMember (isReserved : String -> Bool) (registry : Registry)
    (declaration : Declaration) : DefinitionError -> Prop where
  | reserved (declares : declaration.isVoid = false)
      (reserved : isReserved declaration.name = true) :
      RefusedMember isReserved registry declaration
        (.reservedName declaration.name .field declaration.line)
  | undeclared (declares : declaration.isVoid = false)
      (unknown : registry.lookup declaration.type.base = none) :
      RefusedMember isReserved registry declaration
        (.undeclaredType declaration.type.base declaration.line)

/-- A member that is refused has a reserved name or a type that is not declared. -/
theorem completeMember_eq_error {declaration : Declaration} {error : DefinitionError}
    (failure : declaration.completeMember isReserved registry = .error error) :
    declaration.RefusedMember isReserved registry error := by
  have ofComplete (failed : declaration.complete registry = .error error) :
      declaration.RefusedMember isReserved registry error := by
    obtain ⟨declares, unknown, rfl⟩ := complete_eq_error failed
    exact .undeclared declares unknown
  unfold Declaration.completeMember at failure
  split at failure
  · exact ofComplete failure
  · next declares =>
      rcases bind_eq_error.mp failure with failed | ⟨_, -, failed⟩
      · obtain ⟨reserved, rfl⟩ := checkName_eq_error.mp failed
        exact .reserved (by simpa using declares) reserved
      · exact ofComplete failed

/-! ## Unions -/

/-- Why the parts of a union are refused. -/
inductive UnionLayout.Refused (isReserved : String -> Bool) (registry : Registry)
    (discriminant : Declaration) (switch : Switch) : DefinitionError -> Prop where
  | discriminant {error} (refused : discriminant.RefusedMember isReserved registry error) :
      Refused isReserved registry discriminant switch error
  | dangling {error} (collapsed : switch.collapse = .error error) :
      Refused isReserved registry discriminant switch error
  /-- The line is that of the body that the label shares. -/
  | label {group name} (listed : group ∈ switch.groups)
      (labelled : .constant name ∈ group.labels) (reserved : isReserved name = true) :
      Refused isReserved registry discriminant switch
        (.reservedName name .caseLabel group.body.line)
  | body {group error} (listed : group ∈ switch.groups)
      (refused : group.body.RefusedMember isReserved registry error) :
      Refused isReserved registry discriminant switch error
  | default {declaration error} (present : switch.defaultBody = some declaration)
      (refused : declaration.RefusedMember isReserved registry error) :
      Refused isReserved registry discriminant switch error

/-- A group of labels cannot be completed if a label is reserved or its body is refused. -/
theorem completeGroup_eq_error {group : CaseGroup} {error : DefinitionError}
    (failure : group.complete isReserved registry = .error error) :
    (∃ name, .constant name ∈ group.labels ∧ isReserved name = true ∧
        error = .reservedName name .caseLabel group.body.line) ∨
      group.body.RefusedMember isReserved registry error := by
  rcases bind_eq_error.mp failure with failed | ⟨_, -, failed⟩
  · left
    obtain ⟨label, listed, fails⟩ := forM_eq_error failed
    cases label with
    | number text => cases fails
    | constant name =>
        obtain ⟨reserved, rfl⟩ := checkName_eq_error.mp fails
        exact ⟨name, listed, reserved, rfl⟩
  · right
    rcases bind_eq_error.mp failed with failed | ⟨_, -, impossible⟩
    · exact completeMember_eq_error failed
    · cases impossible

/-- A default that is refused has a body, which is refused as a member. -/
theorem completeDefault_eq_error {body : Option Declaration} {error : DefinitionError}
    (failure : completeDefault isReserved registry body = .error error) :
    ∃ declaration, body = some declaration ∧
      declaration.RefusedMember isReserved registry error := by
  cases body with
  | none => cases failure
  | some declaration =>
      rw [completeDefault, map_eq_pure_bind] at failure
      rcases bind_eq_error.mp failure with failed | ⟨_, -, impossible⟩
      · exact ⟨declaration, rfl, completeMember_eq_error failed⟩
      · cases impossible

/-- The layout of a union is refused on one of the grounds for it. -/
theorem build_eq_error {discriminant : Declaration} {switch : Switch} {error : DefinitionError}
    (failure : UnionLayout.build isReserved registry discriminant switch = .error error) :
    UnionLayout.Refused isReserved registry discriminant switch error := by
  rcases bind_eq_error.mp failure with failed | ⟨selector, -, failed⟩
  · exact .discriminant (completeMember_eq_error failed)
  rcases bind_eq_error.mp failed with failed | ⟨⟨groups, fallback⟩, collapsed, failed⟩
  · exact .dangling failed
  obtain ⟨rfl, rfl, -⟩ := collapse_eq_ok collapsed
  rcases bind_eq_error.mp failed with failed | ⟨arms, -, failed⟩
  · obtain ⟨group, listed, fails⟩ := mapM_eq_error failed
    rcases completeGroup_eq_error fails with ⟨name, labelled, reserved, rfl⟩ | refused
    · exact .label listed labelled reserved
    · exact .body listed refused
  rcases bind_eq_error.mp failed with failed | ⟨_, -, impossible⟩
  · obtain ⟨declaration, present, refused⟩ := completeDefault_eq_error failed
    exact .default present refused
  · cases impossible

end

/-! ## Verdicts -/

namespace Verdict

/-- A definition is refused, with the error that says why. The fields of a record may refer
to the record itself. -/
inductive Refused (isReserved : String -> Bool) (registry : Registry) :
    Definition -> DefinitionError -> Prop where
  | constant {name value line} (reserved : isReserved name = true) :
      Refused isReserved registry (.constant name value line) (.reservedName name .constant line)
  | enumName {name members line error} (refused : RefusedName isReserved registry name line error) :
      Refused isReserved registry (.enum name members line) error
  | enumMember {name members line} {member : EnumMember} (listed : member ∈ members)
      (reserved : isReserved member.name = true) :
      Refused isReserved registry (.enum name members line)
        (.reservedName member.name .enumMember member.line)
  | enumType {name members line} (unknown : registry.lookup "enum" = none) :
      Refused isReserved registry (.enum name members line) (.undeclaredType "enum" line)
  | typedefVoid {declaration} (isVoid : declaration.isVoid = true) :
      Refused isReserved registry (.typedef declaration) (.misplacedVoid .typedef declaration.line)
  | typedefName {declaration error} (declares : declaration.isVoid = false)
      (refused : RefusedName isReserved registry declaration.name declaration.line error) :
      Refused isReserved registry (.typedef declaration) error
  | typedefType {declaration} (declares : declaration.isVoid = false)
      (unknown : registry.lookup declaration.type.base = none) :
      Refused isReserved registry (.typedef declaration)
        (.undeclaredType declaration.type.base declaration.line)
  | structName {name fields line error}
      (refused : RefusedName isReserved registry name line error) :
      Refused isReserved registry (.struct name fields line) error
  | structField {name fields line field error} (listed : field ∈ fields)
      (refused : field.RefusedMember isReserved (registry.insert name (.record name)) error) :
      Refused isReserved registry (.struct name fields line) error
  | unionName {name discriminant switch line error}
      (refused : RefusedName isReserved registry name line error) :
      Refused isReserved registry (.union name discriminant switch line) error
  | unionVoid {name discriminant switch line} (isVoid : discriminant.isVoid = true) :
      Refused isReserved registry (.union name discriminant switch line)
        (.misplacedVoid .discriminant discriminant.line)
  | unionPart {name discriminant switch line error} (declares : discriminant.isVoid = false)
      (refused : UnionLayout.Refused isReserved (registry.insert name (.record name)) discriminant
        switch error) :
      Refused isReserved registry (.union name discriminant switch line) error

/-- Whatever is refused is refused on one of these grounds. -/
theorem refused_of_judge {isReserved : String -> Bool} {registry : Registry}
    {definition : Definition} {error : DefinitionError}
    (failure : (judge isReserved registry definition).result = .error error) :
    Refused isReserved registry definition error := by
  cases definition with
  | constant name value line =>
      rcases bind_eq_error.mp failure with failed | ⟨_, -, impossible⟩
      · obtain ⟨reserved, rfl⟩ := checkName_eq_error.mp failed
        exact .constant reserved
      · cases impossible
  | enum name members line =>
      simp only [judge, onEnum] at failure
      split at failure
      · next failed =>
          cases failure
          rcases bind_eq_error.mp failed with failed | ⟨_, -, failed⟩
          · exact .enumName (checkTypeName_eq_error failed)
          rcases bind_eq_error.mp failed with failed | ⟨_, -, failed⟩
          · obtain ⟨member, listed, fails⟩ := forM_eq_error failed
            obtain ⟨reserved, rfl⟩ := checkName_eq_error.mp fails
            exact .enumMember listed reserved
          · obtain ⟨-, unknown, rfl⟩ := complete_eq_error failed
            exact .enumType unknown
      · cases failure
  | typedef declaration =>
      simp only [judge, onTypedef] at failure
      split at failure
      · next isVoid =>
          cases failure
          exact .typedefVoid isVoid
      · next declares =>
          have declares : declaration.isVoid = false := by simpa using declares
          split at failure
          · next failed =>
              cases failure
              exact .typedefName declares (checkTypeName_eq_error failed)
          · split at failure
            · next failed =>
                cases failure
                obtain ⟨-, unknown, rfl⟩ := complete_eq_error failed
                exact .typedefType declares unknown
            · cases failure
  | struct name fields line =>
      simp only [judge, onStruct] at failure
      split at failure
      · next failed =>
          cases failure
          exact .structName (checkTypeName_eq_error failed)
      · rcases bind_eq_error.mp failure with failed | ⟨_, -, impossible⟩
        · obtain ⟨field, listed, fails⟩ := mapM_eq_error failed
          exact .structField listed (completeMember_eq_error fails)
        · cases impossible
  | union name discriminant switch line =>
      simp only [judge, onUnion] at failure
      split at failure
      · next failed =>
          cases failure
          exact .unionName (checkTypeName_eq_error failed)
      · split at failure
        · next isVoid =>
            cases failure
            exact .unionVoid isVoid
        · next declares =>
            rcases bind_eq_error.mp failure with failed | ⟨_, -, impossible⟩
            · exact .unionPart (by simpa using declares) (build_eq_error failed)
            · cases impossible
  | program remote => cases failure

end Verdict

/-- A refused definition is refused on one of these grounds. -/
theorem Compiler.refused_of_define {compiler : Compiler} {isReserved : Reservation}
    {definition : Definition} {error : DefinitionError}
    (refused : (compiler.define isReserved definition).1 = .error error) :
    Verdict.Refused (isReserved compiler.emissions) compiler.registry definition error := by
  cases result :
    (Verdict.judge (isReserved compiler.emissions) compiler.registry definition).result with
  | ok emission => simp [define, result, Except.map] at refused
  | error cause =>
      obtain rfl : cause = error := by simpa [define, result, Except.map] using refused
      exact Verdict.refused_of_judge result

end XdrPack
