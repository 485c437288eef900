import Mathlib.Data.List.Basic
import XdrPack.Union

/-!
# Members of unions

Bodies of a union may share names with each other and with the discriminant. A record holds one
field for each name of a body: the first one that declares it, unless the discriminant has that
name already.
-/

namespace XdrPack.UnionLayout

/-- Whether a field holds a value under a name. -/
def holds (name : String) (field : Field) : Bool := !field.isVoid && field.name == name

/-- What is kept for each name is among the fields. -/
theorem mem_of_mem_firstOfEachName {seen : List String} {fields : List Field} {field : Field}
    (listed : field ∈ firstOfEachName seen fields) : field ∈ fields := by
  fun_induction firstOfEachName seen fields with
  | case1 => exact listed
  | case2 seen first rest _ inductionHypothesis =>
      exact List.mem_cons_of_mem _ (inductionHypothesis listed)
  | case3 seen first rest _ inductionHypothesis =>
      rcases List.mem_cons.mp listed with rfl | later
      · exact List.mem_cons_self
      · exact List.mem_cons_of_mem _ (inductionHypothesis later)

/-- The fields that are kept for their names declare something under a new name. -/
theorem new_of_mem_firstOfEachName {seen : List String} {fields : List Field} {field : Field}
    (listed : field ∈ firstOfEachName seen fields) :
    field.isVoid = false ∧ field.name ∉ seen := by
  fun_induction firstOfEachName seen fields with
  | case1 => cases listed
  | case2 seen first rest _ inductionHypothesis => exact inductionHypothesis listed
  | case3 seen first rest isNew inductionHypothesis =>
      rcases List.mem_cons.mp listed with rfl | later
      · simpa using isNew
      · obtain ⟨declares, absent⟩ := inductionHypothesis later
        exact ⟨declares, fun isSeen => absent (List.mem_cons_of_mem _ isSeen)⟩

/-- Every name is kept with the first field that has it. -/
theorem mem_firstOfEachName (seen : List String) (fields : List Field) (each : String) :
    each ∈ seen ∨ each ∈ (firstOfEachName seen fields).map (·.name) ↔
      each ∈ seen ∨ each ∈ (fields.filter fun field => !field.isVoid).map (·.name) := by
  fun_induction firstOfEachName seen fields with
  | case1 => simp
  | case2 seen field rest skipped inductionHypothesis =>
      rw [inductionHypothesis, List.filter_cons]
      split
      · next declares =>
          -- The name of the field has been seen before.
          have isSeen : field.name ∈ seen := by simp_all
          rw [List.map_cons, List.mem_cons]
          constructor
          · exact Or.imp_right .inr
          · rintro (before | rfl | later)
            · exact .inl before
            · exact .inl isSeen
            · exact .inr later
      · rfl
  | case3 seen field rest isNew inductionHypothesis =>
      have declares : field.isVoid = false := by simp_all
      rw [List.filter_cons, if_pos (by simp [declares]), List.map_cons, List.map_cons,
        List.mem_cons, List.mem_cons, <- or_assoc, <- or_assoc, @or_comm (each ∈ seen),
        <- List.mem_cons, inductionHypothesis]

end XdrPack.UnionLayout
