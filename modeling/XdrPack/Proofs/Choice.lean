import XdrPack.Proofs.Acceptance
import XdrPack.Proofs.WrittenForm

/-!
# The choice of a coding

Which coding a declaration gets depends on the shape that was written and on the
type that its name is bound to. `Chosen` lists the outcomes. A shape that is taken
over does not show: a bare name of an array type is coded by the routines of that
type, as any other bare name without a record class is.
-/

namespace XdrPack

namespace Shape

@[simp]
theorem isArray_scalar : isArray .scalar = false := rfl

@[simp]
theorem isArray_fixed (length : Value) : isArray (.fixed length) = true := rfl

@[simp]
theorem isArray_varying (bound : Option Value) : isArray (.varying bound) = true := rfl

end Shape

/-- Whether a name that is bound to the type is the name of a record class. -/
def TypeRef.namesRecord (entry : TypeRef) : Bool := entry.isRecord && !entry.shape.isArray

@[simp]
theorem TypeRef.namesRecord_record (name : String) : (record name).namesRecord = true := rfl

/-- The coding of a declaration that names a type, by the shape that was written
and the type that is bound to the name. -/
inductive Chosen (base : String) (entry : TypeRef) : Shape -> Coding -> Prop where
  | routine (routines : entry.namesRecord = false) : Chosen base entry .scalar (.routine base)
  | record (isRecord : entry.namesRecord = true) : Chosen base entry .scalar (.record base)
  | text {shape} (isString : base = "string") (bounded : shape.isArray) :
      Chosen base entry shape .text
  | fixedBytes {length} (isOpaque : base = "opaque") :
      Chosen base entry (.fixed length) (.fixedBytes length)
  | bytes {bound} (isOpaque : base = "opaque") : Chosen base entry (.varying bound) .bytes
  | array {bound} (notString : base ≠ "string") (notOpaque : base ≠ "opaque")
      (routines : entry.namesRecord = false) : Chosen base entry (.varying bound) (.array base none)
  | fixedArray {length} (notString : base ≠ "string") (notOpaque : base ≠ "opaque")
      (routines : entry.namesRecord = false) :
      Chosen base entry (.fixed length) (.array base (some length))
  | recordArray {bound} (notString : base ≠ "string") (notOpaque : base ≠ "opaque")
      (isRecord : entry.namesRecord = true) :
      Chosen base entry (.varying bound) (.recordArray base none)
  | fixedRecordArray {length} (notString : base ≠ "string") (notOpaque : base ≠ "opaque")
      (isRecord : entry.namesRecord = true) :
      Chosen base entry (.fixed length) (.recordArray base (some length))

/-- The bare name of a record is coded by the class of that name. -/
theorem Chosen.eq_record {base : String} {entry : TypeRef} {shape : Shape} {coding : Coding}
    (chosen : Chosen base entry shape coding) (bare : shape.isArray = false)
    (isRecord : entry.namesRecord = true) : coding = .record base := by
  cases chosen with
  | record => rfl
  | routine routines =>
      rw [isRecord] at routines
      cases routines
  | text _ bounded =>
      rw [bare] at bounded
      cases bounded
  | _ => cases bare

/-- A reference takes over the routine of the type that it names, and the shape of
that type if it is a bare name of an array. -/
theorem Registry.complete?_eq_some {registry : Registry} {type result : TypeRef}
    (notVoid : type.isVoid = false) (completed : registry.complete? type = some result) :
    ∃ entry, registry.lookup type.base = some entry ∧
      result = if !type.shape.isArray && entry.shape.isArray then
          { type with routine := entry.routine, shape := entry.shape, inherited := true }
        else { type with routine := entry.routine } := by
  simp only [complete?, notVoid, Bool.false_eq_true, if_false, inherited?, Option.map_map,
    Option.map_eq_some_iff] at completed
  obtain ⟨entry, known, rfl⟩ := completed
  exact ⟨entry, known, by simp [notVoid]⟩

/-- The coding of an array, which is counted unless its length is fixed. -/
theorem chosen_array (base : String) (entry : TypeRef) (bound fixed : Option Value) :
    Chosen base entry (fixed.elim (.varying bound) .fixed)
      (Coding.ofArray base entry.namesRecord fixed) := by
  unfold Coding.ofArray
  split
  · next isString => exact .text isString (by cases fixed <;> rfl)
  · next notString =>
      split
      · next isOpaque =>
          cases fixed with
          | none => exact .bytes isOpaque
          | some length => exact .fixedBytes isOpaque
      · next notOpaque =>
          split
          · next isRecord =>
              cases fixed with
              | none => exact .recordArray notString notOpaque isRecord
              | some length => exact .fixedRecordArray notString notOpaque isRecord
          · next routines =>
              have routines : entry.namesRecord = false := by simpa using routines
              cases fixed with
              | none => exact .array notString notOpaque routines
              | some length => exact .fixedArray notString notOpaque routines

namespace Declaration.Completes

variable {registry : Registry} {declaration : Declaration} {field : Field}

/-- Nothing is coded if nothing is declared. -/
theorem coding_of_void (completes : declaration.Completes registry field)
    (isVoid : declaration.isVoid = true) : field.coding = .void := by
  have isVoid : declaration.type.isVoid = true := isVoid
  have known := completes.known
  simp only [Registry.complete?, isVoid, if_true, Option.some.injEq] at known
  simp [completes.coded, Coding.choose, <- known, isVoid]

/-- A completed declaration of the bare name of a record names a record as well,
and no other does. -/
theorem namesRecord (completes : declaration.Completes registry field)
    (declares : declaration.isVoid = false) {entry : TypeRef}
    (found : registry.lookup declaration.type.base = some entry)
    (entryNotVoid : entry.isVoid = false) :
    field.declaration.type.isVoid = false ∧
      field.declaration.type.namesRecord =
        (!declaration.type.shape.isArray && entry.namesRecord) := by
  have isVoid : declaration.type.isVoid = false := declares
  obtain ⟨other, sameFound, result⟩ := Registry.complete?_eq_some declares completes.known
  obtain rfl : entry = other := Option.some.inj (found.symm.trans sameFound)
  rw [result]
  cases declared : declaration.type.shape.isArray <;>
    cases inherited : entry.shape.isArray <;>
    simp [TypeRef.namesRecord, TypeRef.isRecord, isVoid, entryNotVoid, declared, inherited]

/-- The coding that a declaration as written is completed with is one of the
outcomes. -/
theorem chosen (completes : declaration.Completes registry field) (written : declaration.Written)
    (declares : declaration.isVoid = false) :
    ∃ entry, registry.lookup declaration.type.base = some entry ∧
      Chosen declaration.type.base entry declaration.type.shape field.coding := by
  obtain ⟨-, known, coded⟩ := completes
  obtain ⟨entry, found, result⟩ := Registry.complete?_eq_some declares known
  have element : forall type : TypeRef, type.base = declaration.type.base ->
      Coding.elementIsRecord registry type = entry.namesRecord := by
    intro type same
    simp [Coding.elementIsRecord, same, found, TypeRef.namesRecord]
  have isVoid : declaration.type.isVoid = false := declares
  have notInherited : declaration.type.inherited = false := written
  refine ⟨entry, found, ?_⟩
  rw [coded, result]
  cases shape : declaration.type.shape with
  | scalar =>
      cases array : entry.shape.isArray with
      | true =>
          have routines : entry.namesRecord = false := by simp [TypeRef.namesRecord, array]
          simpa [Coding.choose, isVoid, array] using Chosen.routine routines
      | false =>
          cases record : entry.namesRecord with
          | true => simpa [Coding.choose, isVoid, notInherited, shape, element, record, array]
              using Chosen.record record
          | false => simpa [Coding.choose, isVoid, notInherited, shape, element, record, array]
              using Chosen.routine record
  | fixed length =>
      simpa [Coding.choose, isVoid, notInherited, shape, element]
        using chosen_array _ entry none (some length)
  | varying bound =>
      simpa [Coding.choose, isVoid, notInherited, shape, element]
        using chosen_array _ entry bound none

/-- Only the bare name of a record is coded by a record class. -/
theorem of_record {name : String} (completes : declaration.Completes registry field)
    (isRecord : field.coding = .record name) (declares : declaration.isVoid = false) :
    declaration.type.shape = .scalar ∧
      ∃ entry, registry.lookup declaration.type.base = some entry ∧ entry.namesRecord = true := by
  have notVoid : declaration.type.isVoid = false := declares
  have array : forall (base : String) (element : Bool) (fixed : Option Value),
      Coding.ofArray base element fixed ≠ .record name := by
    intro base element fixed
    unfold Coding.ofArray
    split
    · simp
    split
    · cases fixed <;> simp
    split <;> simp
  obtain ⟨entry, found, result⟩ := Registry.complete?_eq_some declares completes.known
  have chosen := completes.coded.symm.trans isRecord
  rw [result] at chosen
  split at chosen
  · simp [Coding.choose, notVoid] at chosen
  · simp only [Coding.choose, notVoid, Bool.false_eq_true, if_false] at chosen
    split at chosen
    · cases chosen
    · split at chosen
      · next scalar =>
          refine ⟨scalar, entry, found, ?_⟩
          simp only [Coding.elementIsRecord, found] at chosen
          split at chosen
          · assumption
          · cases chosen
      · exact absurd chosen (array _ _ _)
      · exact absurd chosen (array _ _ _)

end Declaration.Completes

/-- The bodies of the cases are completed to those of the arms. -/
theorem UnionLayout.Completes.bodies {isReserved : String -> Bool} {registry : Registry}
    {discriminant : Declaration} {switch : Switch} {layout : UnionLayout}
    (completed : layout.Completes isReserved registry discriminant switch)
    (written : switch.Written) :
    List.Forall₂ (Declaration.CompletesMember isReserved registry) switch.bodies
      (layout.arms.map (·.body)) := by
  rw [<- written.bodies_groups, List.forall₂_map_left_iff, List.forall₂_map_right_iff]
  exact completed.arms.imp fun _ _ completes => completes.body

end XdrPack
