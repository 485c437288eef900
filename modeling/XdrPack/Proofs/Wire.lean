import XdrPack.Proofs.TypeNames

/-!
# What goes on the wire

The form of a value on the wire is found in two ways. `Expands` follows the
definitions of an interface file from a declaration down to built-in types and
records. `Coding.Means` follows only what was emitted, from a coding through the
routines and classes that it names. Neither looks at the registry of the
compiler, and neither depends on the order of definitions. Where no type name is
bound twice, each of them finds at most one form.
-/

namespace XdrPack

/-- The form of a value on the wire. Records are known by their name. -/
inductive Wire where
  | void
  /-- What a routine of the runtime codes. -/
  | primitive (routine : String)
  | fixedBytes (length : Value)
  | bytes
  | fixedArray (length : Value) (element : Wire)
  | array (element : Wire)
  | record (name : String)
  deriving DecidableEq, Repr

/-! ## Following definitions -/

/-- What values of a named type are on the wire if they are declared with a
shape. Only the definitions and the built-in types are looked at. -/
inductive Expands (definitions : List Definition) : String -> Shape -> Wire -> Prop where
  | primitive {name routine} (builtin : (name, routine) ∈ Registry.primitives) :
      Expands definitions name .scalar (.primitive routine)
  | enum {name members line} (defined : .enum name members line ∈ definitions) :
      Expands definitions name .scalar (.primitive "enum")
  | struct {name fields line} (defined : .struct name fields line ∈ definitions) :
      Expands definitions name .scalar (.record name)
  | union {name discriminant switch line}
      (defined : .union name discriminant switch line ∈ definitions) :
      Expands definitions name .scalar (.record name)
  | typedef {name declaration wire} (defined : .typedef declaration ∈ definitions)
      (named : declaration.name = name)
      (expands : Expands definitions declaration.type.base declaration.type.shape wire) :
      Expands definitions name .scalar wire
  /-- A string has no element type, whatever its bound. -/
  | string {base shape} (isString : base = "string") (bounded : shape.isArray) :
      Expands definitions base shape (.primitive "string")
  | fixedBytes {base length} (isOpaque : base = "opaque") :
      Expands definitions base (.fixed length) (.fixedBytes length)
  | bytes {base bound} (isOpaque : base = "opaque") :
      Expands definitions base (.varying bound) .bytes
  | fixedArray {base length element} (notString : base ≠ "string") (notOpaque : base ≠ "opaque")
      (expands : Expands definitions base .scalar element) :
      Expands definitions base (.fixed length) (.fixedArray length element)
  | array {base bound element} (notString : base ≠ "string") (notOpaque : base ≠ "opaque")
      (expands : Expands definitions base .scalar element) :
      Expands definitions base (.varying bound) (.array element)

/-- What a declared value is on the wire. -/
def Declaration.Expands (definitions : List Definition) (declaration : Declaration)
    (wire : Wire) : Prop :=
  if declaration.isVoid then wire = .void
  else XdrPack.Expands definitions declaration.type.base declaration.type.shape wire

namespace Expands

variable {definitions : List Definition}

/-- What a definition says about the type that it introduces. -/
def Introduces (definitions : List Definition) : Definition -> Wire -> Prop
  | .enum _ _ _, wire => wire = .primitive "enum"
  | .struct name _ _, wire => wire = .record name
  | .union name _ _ _, wire => wire = .record name
  | .typedef declaration, wire =>
      Expands definitions declaration.type.base declaration.type.shape wire
  | .constant _ _ _, _ | .program _, _ => False

/-- A bare name is that of a built-in type or of a definition. -/
theorem scalar_cases {name : String} {wire : Wire}
    (expands : Expands definitions name .scalar wire) :
    (∃ routine, (name, routine) ∈ Registry.primitives ∧ wire = .primitive routine) ∨
      ∃ definition, definition ∈ definitions ∧ definition.typeName = some name ∧
        Introduces definitions definition wire := by
  cases expands with
  | primitive builtin => exact .inl ⟨_, builtin, rfl⟩
  | enum defined => exact .inr ⟨_, defined, rfl, rfl⟩
  | struct defined => exact .inr ⟨_, defined, rfl, rfl⟩
  | union defined => exact .inr ⟨_, defined, rfl, rfl⟩
  | typedef defined named expands => exact .inr ⟨_, defined, congrArg some named, expands⟩
  | string _ bounded => cases bounded

variable (distinct : (Registry.primitives.map (·.1)
  ++ definitions.filterMap Definition.typeName).Nodup)

include distinct

/-- No definition introduces a built-in type again. -/
theorem not_builtin {definition : Definition} (defined : definition ∈ definitions)
    {name routine : String} (named : definition.typeName = some name)
    (builtin : (name, routine) ∈ Registry.primitives) : False := by
  obtain ⟨-, -, apart⟩ := List.nodup_append.mp distinct
  have introduced : name ∈ definitions.filterMap Definition.typeName :=
    List.mem_filterMap.mpr ⟨definition, defined, named⟩
  exact apart name (List.mem_map_of_mem builtin) name introduced rfl

/-- What a bare name is follows from the definition that introduces it. -/
theorem introduces_of_defined {definition : Definition} (defined : definition ∈ definitions)
    {name : String} (named : definition.typeName = some name) {wire : Wire}
    (expands : Expands definitions name .scalar wire) : Introduces definitions definition wire := by
  obtain ⟨-, once, -⟩ := List.nodup_append.mp distinct
  rcases expands.scalar_cases with
    ⟨routine, builtin, -⟩ | ⟨other, otherDefined, otherNamed, introduces⟩
  · exact (not_builtin distinct defined named builtin).elim
  · obtain rfl := eq_of_same_name once defined otherDefined named otherNamed
    exact introduces

/-- A type has one form on the wire. -/
theorem unique {base : String} {shape : Shape} {left right : Wire}
    (expandsLeft : Expands definitions base shape left)
    (expandsRight : Expands definitions base shape right) : left = right := by
  induction expandsLeft generalizing right with
  | @primitive name routine builtin =>
      rcases expandsRight.scalar_cases with ⟨other, again, rfl⟩ | ⟨definition, defined, named, -⟩
      · obtain ⟨once, -, -⟩ := List.nodup_append.mp distinct
        cases List.inj_on_of_nodup_map once builtin again rfl
        rfl
      · exact (not_builtin distinct defined named builtin).elim
  | enum defined => exact (introduces_of_defined distinct defined rfl expandsRight).symm
  | struct defined => exact (introduces_of_defined distinct defined rfl expandsRight).symm
  | union defined => exact (introduces_of_defined distinct defined rfl expandsRight).symm
  | typedef defined named _ inductionHypothesis =>
      exact inductionHypothesis
        (introduces_of_defined distinct defined (congrArg some named) expandsRight)
  | string isString bounded =>
      cases expandsRight with
      | string => rfl
      | fixedBytes isOpaque | bytes isOpaque => simp [isString] at isOpaque
      | fixedArray notString | array notString => exact absurd isString notString
      | _ => cases bounded
  | fixedBytes isOpaque =>
      cases expandsRight with
      | string isString => simp [isOpaque] at isString
      | fixedBytes => rfl
      | fixedArray _ notOpaque => exact absurd isOpaque notOpaque
  | bytes isOpaque =>
      cases expandsRight with
      | string isString => simp [isOpaque] at isString
      | bytes => rfl
      | array _ notOpaque => exact absurd isOpaque notOpaque
  | fixedArray notString notOpaque _ inductionHypothesis =>
      cases expandsRight with
      | string isString => exact absurd isString notString
      | fixedBytes isOpaque => exact absurd isOpaque notOpaque
      | fixedArray _ _ expands => rw [inductionHypothesis expands]
  | array notString notOpaque _ inductionHypothesis =>
      cases expandsRight with
      | string isString => exact absurd isString notString
      | bytes isOpaque => exact absurd isOpaque notOpaque
      | array _ _ expands => rw [inductionHypothesis expands]

end Expands

/-! ## Following emissions -/

/-- The record that a class stands for, where a type definition may have given a
class another name. -/
inductive Reaches (emissions : List Emission) : String -> String -> Prop where
  | struct {name fields} (emitted : .struct name fields ∈ emissions) : Reaches emissions name name
  | union {name layout} (emitted : .union name layout ∈ emissions) : Reaches emissions name name
  | renamed {name target other record} (emitted : .typedef name target ∈ emissions)
      (coded : target.coding = .record other) (reaches : Reaches emissions other record) :
      Reaches emissions name record

/-- What a coding puts on the wire. Only what was emitted is looked at. -/
inductive Coding.Means (emissions : List Emission) : Coding -> Wire -> Prop where
  | void : Means emissions .void .void
  | primitive {name routine} (emitted : .primitive name routine ∈ emissions) :
      Means emissions (.routine name) (.primitive routine)
  | enum {name members} (emitted : .enum name members ∈ emissions) :
      Means emissions (.routine name) (.primitive "enum")
  | typedef {name target wire} (emitted : .typedef name target ∈ emissions)
      (means : Means emissions target.coding wire) : Means emissions (.routine name) wire
  | record {name record} (reaches : Reaches emissions name record) :
      Means emissions (.record name) (.record record)
  | text : Means emissions .text (.primitive "string")
  | fixedBytes {length} : Means emissions (.fixedBytes length) (.fixedBytes length)
  | bytes : Means emissions .bytes .bytes
  | array {element wire} (means : Means emissions (.routine element) wire) :
      Means emissions (.array element none) (.array wire)
  | fixedArray {element length wire} (means : Means emissions (.routine element) wire) :
      Means emissions (.array element (some length)) (.fixedArray length wire)
  | recordArray {name record} (reaches : Reaches emissions name record) :
      Means emissions (.recordArray name none) (.array (.record record))
  | fixedRecordArray {name length record} (reaches : Reaches emissions name record) :
      Means emissions (.recordArray name (some length)) (.fixedArray length (.record record))

section

variable {emissions : List Emission} (distinct : (emissions.filterMap Emission.typeName).Nodup)

include distinct

/-- A class stands for one record. -/
theorem Reaches.unique {name left right : String} (reachesLeft : Reaches emissions name left)
    (reachesRight : Reaches emissions name right) : left = right := by
  induction reachesLeft generalizing right with
  | struct emitted =>
      cases reachesRight with
      | struct _ => rfl
      | union _ => rfl
      | renamed other _ _ => cases eq_of_same_name distinct emitted other rfl rfl
  | union emitted =>
      cases reachesRight with
      | struct _ => rfl
      | union _ => rfl
      | renamed other _ _ => cases eq_of_same_name distinct emitted other rfl rfl
  | renamed emitted coded _ inductionHypothesis =>
      cases reachesRight with
      | struct other => cases eq_of_same_name distinct emitted other rfl rfl
      | union other => cases eq_of_same_name distinct emitted other rfl rfl
      | renamed other otherCoded reaches =>
          cases eq_of_same_name distinct emitted other rfl rfl
          cases coded.symm.trans otherCoded
          exact inductionHypothesis reaches

/-- A coding has one form on the wire. -/
theorem Coding.Means.unique {coding : Coding} {left right : Wire}
    (meansLeft : coding.Means emissions left) (meansRight : coding.Means emissions right) :
    left = right := by
  induction meansLeft generalizing right with
  | void | text | fixedBytes | bytes =>
      cases meansRight
      rfl
  | primitive emitted =>
      cases meansRight with
      | primitive other =>
          cases eq_of_same_name distinct emitted other rfl rfl
          rfl
      | enum other => cases eq_of_same_name distinct emitted other rfl rfl
      | typedef other _ => cases eq_of_same_name distinct emitted other rfl rfl
  | enum emitted =>
      cases meansRight with
      | primitive other => cases eq_of_same_name distinct emitted other rfl rfl
      | enum _ => rfl
      | typedef other _ => cases eq_of_same_name distinct emitted other rfl rfl
  | typedef emitted _ inductionHypothesis =>
      cases meansRight with
      | primitive other => cases eq_of_same_name distinct emitted other rfl rfl
      | enum other => cases eq_of_same_name distinct emitted other rfl rfl
      | typedef other means =>
          cases eq_of_same_name distinct emitted other rfl rfl
          exact inductionHypothesis means
  | record reaches =>
      cases meansRight with
      | record again => rw [reaches.unique distinct again]
  | recordArray reaches =>
      cases meansRight with
      | recordArray again => rw [reaches.unique distinct again]
  | fixedRecordArray reaches =>
      cases meansRight with
      | fixedRecordArray again => rw [reaches.unique distinct again]
  | array _ inductionHypothesis =>
      cases meansRight with
      | array means => rw [inductionHypothesis means]
  | fixedArray _ inductionHypothesis =>
      cases meansRight with
      | fixedArray means => rw [inductionHypothesis means]

end

end XdrPack
