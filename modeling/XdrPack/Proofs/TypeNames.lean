import Mathlib.Data.List.Nodup
import XdrPack.Proofs.Acceptance

/-!
# Type names

Every definition but a constant and a program introduces a type, and the
definition is accepted only if no type of that name is known. So no type name is
bound twice in a run, neither by the definitions nor by what is emitted.
-/

namespace XdrPack

/-- The name of the type that a definition introduces. -/
def Definition.typeName : Definition -> Option String
  | .enum name _ _ => some name
  | .typedef declaration => some declaration.name
  | .struct name _ _ => some name
  | .union name _ _ _ => some name
  | .constant _ _ _ | .program _ => none

/-- The name of the type that an emission is for. -/
def Emission.typeName : Emission -> Option String
  | .primitive name _ => some name
  | .enum name _ => some name
  | .typedef name _ => some name
  | .struct name _ => some name
  | .union name _ => some name
  | .constant _ _ => none

/-- Of items with different names, only one has a given name. -/
theorem eq_of_same_name {α : Type} {nameOf : α -> Option String} {items : List α}
    (distinct : (items.filterMap nameOf).Nodup) {left right : α} (inLeft : left ∈ items)
    (inRight : right ∈ items) {name : String} (leftNamed : nameOf left = some name)
    (rightNamed : nameOf right = some name) : left = right := by
  induction items with
  | nil => cases inLeft
  | cons first rest inductionHypothesis =>
      have listed : forall item, item ∈ rest -> nameOf item = some name ->
          name ∈ rest.filterMap nameOf :=
        fun item member named => List.mem_filterMap.mpr ⟨item, member, named⟩
      rcases List.mem_cons.mp inLeft with rfl | leftLater <;>
        rcases List.mem_cons.mp inRight with rfl | rightLater
      · rfl
      · rw [List.filterMap_cons_some leftNamed] at distinct
        exact absurd (listed _ rightLater rightNamed) distinct.notMem
      · rw [List.filterMap_cons_some rightNamed] at distinct
        exact absurd (listed _ leftLater leftNamed) distinct.notMem
      · refine inductionHypothesis ?_ leftLater rightLater
        cases named : nameOf first with
        | none => rwa [List.filterMap_cons_none named] at distinct
        | some other =>
            rw [List.filterMap_cons_some named] at distinct
            exact distinct.of_cons

/-! ## The built-in types -/

namespace Registry

/-- What binding built-in types does to the type of a name. -/
theorem lookup_foldl_insert (types : List (String × String)) (registry : Registry) (name : String) :
    let bound := types.foldl (fun known (each, routine) =>
      known.insert each (.primitive each routine)) registry
    (∃ routine, (name, routine) ∈ types ∧ bound.lookup name = some (.primitive name routine)) ∨
      name ∉ types.map (·.1) ∧ bound.lookup name = registry.lookup name := by
  induction types generalizing registry with
  | nil => exact .inr ⟨by simp, rfl⟩
  | cons first rest inductionHypothesis =>
      obtain ⟨other, source⟩ := first
      rcases inductionHypothesis (registry.insert other (.primitive other source)) with
        ⟨routine, listed, found⟩ | ⟨notListed, found⟩
      · exact .inl ⟨routine, List.mem_cons_of_mem _ listed, found⟩
      · by_cases same : name = other
        · subst same
          exact .inl ⟨source, by simp, by simpa using found⟩
        · exact .inr ⟨by simpa [same] using notListed, by simpa [same] using found⟩

/-- A name is bound at the start exactly if it is that of a built-in type. -/
theorem builtin_cases (name : String) :
    (∃ routine, (name, routine) ∈ primitives ∧
      builtin.lookup name = some (.primitive name routine)) ∨
      name ∉ primitives.map (·.1) ∧ builtin.lookup name = none :=
  lookup_foldl_insert primitives empty name

/-- A further type leaves the other names as they were. -/
theorem lookup_extend_ne {registry : Registry} {binding : Option (String × TypeRef)} {name : String}
    (differs : forall type, binding ≠ some (name, type)) :
    (registry.extend binding).lookup name = registry.lookup name := by
  cases binding with
  | none => rfl
  | some bound =>
      obtain ⟨other, type⟩ := bound
      have apart : name ≠ other := by
        rintro rfl
        exact differs type rfl
      simp [extend, apart]

end Registry

/-! ## Runs -/

namespace Verdict.Accepted

variable {isReserved : String -> Bool} {registry : Registry} {definition : Definition}
  {binding : Option (String × TypeRef)} {emission : Option Emission}

/-- What becomes known is the type that the definition introduces. -/
theorem bound_name (accepted : Accepted isReserved registry definition binding emission) :
    binding.map (·.1) = definition.typeName := by
  cases accepted <;> rfl

/-- What is emitted is for the type that the definition introduces. -/
theorem emitted_name (accepted : Accepted isReserved registry definition binding emission) :
    emission.toList.filterMap Emission.typeName = definition.typeName.toList := by
  cases accepted <;> rfl

/-- The name of the type is new. -/
theorem fresh_name (accepted : Accepted isReserved registry definition binding emission)
    {name : String} (named : definition.typeName = some name) : registry.lookup name = none := by
  cases accepted with
  | constant | program => cases named
  | enum new | typedef _ new | struct new | union new =>
      cases named
      exact new.fresh

/-- The name of the type is known afterwards. -/
theorem known_name (accepted : Accepted isReserved registry definition binding emission)
    {name : String} (named : definition.typeName = some name) :
    (registry.extend binding).lookup name ≠ none := by
  have bound := accepted.bound_name
  rw [named] at bound
  obtain ⟨⟨other, type⟩, rfl, rfl⟩ := Option.map_eq_some_iff.mp bound
  simp [Registry.extend]

/-- The names of other types are as they were. -/
theorem lookup_other (accepted : Accepted isReserved registry definition binding emission)
    {name : String} (other : definition.typeName ≠ some name) :
    (registry.extend binding).lookup name = registry.lookup name := by
  refine Registry.lookup_extend_ne ?_
  rintro type rfl
  exact other accepted.bound_name.symm

/-- What is not known afterwards was not known before. -/
theorem lookup_of_extend (accepted : Accepted isReserved registry definition binding emission)
    {name : String} (unknown : (registry.extend binding).lookup name = none) :
    registry.lookup name = none := by
  by_cases named : definition.typeName = some name
  · exact absurd unknown (accepted.known_name named)
  · rwa [accepted.lookup_other named] at unknown

/-- What was known before is known afterwards. -/
theorem lookup_extend (accepted : Accepted isReserved registry definition binding emission)
    {name : String} {entry : TypeRef} (found : registry.lookup name = some entry) :
    (registry.extend binding).lookup name = some entry := by
  rwa [accepted.lookup_other]
  intro named
  rw [accepted.fresh_name named] at found
  cases found

end Verdict.Accepted

namespace Run

variable {isReserved : String -> Bool} {registry final : Registry}
  {definitions : List Definition} {emissions : List Emission}

/-- What is known stays known. -/
theorem lookup_final (run : Run isReserved registry definitions final emissions)
    {name : String} {entry : TypeRef} (found : registry.lookup name = some entry) :
    final.lookup name = some entry := by
  induction run with
  | done => exact found
  | step accepted rest inductionHypothesis =>
      exact inductionHypothesis (accepted.lookup_extend found)

/-- The types that are emitted are those that are defined, in the same order. -/
theorem emitted_names (run : Run isReserved registry definitions final emissions) :
    emissions.filterMap Emission.typeName = definitions.filterMap Definition.typeName := by
  induction run with
  | done => rfl
  | @step registry definition binding emission definitions final emissions accepted rest
      inductionHypothesis =>
      rw [List.filterMap_append, accepted.emitted_name, inductionHypothesis]
      cases named : definition.typeName with
      | none => simp [List.filterMap_cons_none named]
      | some name => simp [List.filterMap_cons_some named]

/-- None of the types that are defined is known before. -/
theorem fresh_names (run : Run isReserved registry definitions final emissions) :
    forall name, name ∈ definitions.filterMap Definition.typeName ->
      registry.lookup name = none := by
  induction run with
  | done => simp
  | step accepted rest inductionHypothesis =>
      intro name introduced
      obtain ⟨definition, listed, named⟩ := List.mem_filterMap.mp introduced
      rcases List.mem_cons.mp listed with rfl | later
      · exact accepted.fresh_name named
      · exact accepted.lookup_of_extend
          (inductionHypothesis name (List.mem_filterMap.mpr ⟨definition, later, named⟩))

/-- No type is defined twice. -/
theorem nodup_names (run : Run isReserved registry definitions final emissions) :
    (definitions.filterMap Definition.typeName).Nodup := by
  induction run with
  | done => exact List.nodup_nil
  | @step registry definition binding emission definitions final emissions accepted rest
      inductionHypothesis =>
      cases named : definition.typeName with
      | none => rwa [List.filterMap_cons_none named]
      | some name =>
          rw [List.filterMap_cons_some named, List.nodup_cons]
          refine ⟨fun again => ?_, inductionHypothesis⟩
          exact accepted.known_name named (rest.fresh_names name again)

/-- No type is defined twice, the built-in types included. -/
theorem nodup_all_names (run : Run isReserved .builtin definitions final emissions) :
    (Registry.primitives.map (·.1) ++ definitions.filterMap Definition.typeName).Nodup := by
  refine List.nodup_append.mpr ⟨by decide, run.nodup_names, ?_⟩
  rintro name builtin other introduced rfl
  rcases Registry.builtin_cases name with ⟨routine, -, known⟩ | ⟨notBuiltin, -⟩
  · rw [run.fresh_names name introduced] at known
    cases known
  · exact notBuiltin builtin

end Run

end XdrPack
