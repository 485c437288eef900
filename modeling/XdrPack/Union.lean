import XdrPack.Coding

/-!
# Unions

A case without a body shares the body of the next case that has one. Collapsing
a switch collects the labels that share a body. A union whose bodies have been
completed is laid out as arms and an optional default.
-/

namespace XdrPack

/-- The labels that share a body. -/
structure CaseGroup where
  labels : List Value
  body : Declaration
  deriving DecidableEq, Repr

/-- A case that is selected by a value. -/
structure LabelledCase where
  label : Value
  body : Option Declaration
  line : Int
  deriving DecidableEq, Repr

namespace Switch

/-- The cases of a switch that a value selects, in order. -/
def labelled (switch : Switch) : List LabelledCase :=
  switch.cases.filterMap fun each =>
    match each.label with
    | .value label => some ⟨label, each.body, each.line⟩
    | .default => none

/-- The groups of a list of cases, and the cases at its end that no body
follows. The cases that wait for a body are given in `pending`. -/
def groupsAndRest (pending : List LabelledCase) :
    List LabelledCase -> List CaseGroup × List LabelledCase
  | [] => ([], pending)
  | each :: rest =>
      match each.body with
      | none => groupsAndRest (pending ++ [each]) rest
      | some body =>
          let (groups, dangling) := groupsAndRest [] rest
          (⟨(pending ++ [each]).map (·.label), body⟩ :: groups, dangling)

/-- The groups of a switch in order. -/
def groups (switch : Switch) : List CaseGroup :=
  (groupsAndRest [] switch.labelled).1

/-- The cases at the end of a switch that no body follows. -/
def dangling (switch : Switch) : List LabelledCase :=
  (groupsAndRest [] switch.labelled).2

/-- The body of the default. A default without a body declares nothing. -/
def defaultBody (switch : Switch) : Option Declaration :=
  switch.fallback.map fun fallback => fallback.body.getD (.void fallback.line)

end Switch

/-- A group of labels with a completed body. -/
structure UnionArm where
  labels : List Value
  body : Field
  deriving DecidableEq, Repr

/-- A union with completed declarations. -/
structure UnionLayout where
  discriminant : Field
  arms : List UnionArm
  fallback : Option Field
  deriving DecidableEq, Repr

namespace UnionLayout

/-- The bodies of the arms and of the default, in order. -/
def bodies (layout : UnionLayout) : List Field :=
  layout.arms.map (·.body) ++ layout.fallback.toList

/-- The first field of each name, in order of appearance. The names in `seen`
have appeared before. -/
def firstOfEachName (seen : List String) : List Field -> List Field
  | [] => []
  | field :: rest =>
      if field.isVoid || seen.contains field.name then
        firstOfEachName seen rest
      else
        field :: firstOfEachName (field.name :: seen) rest

/-- The fields that a record of the union holds beside the discriminant: one for
each name that is declared in a body. -/
def members (layout : UnionLayout) : List Field :=
  firstOfEachName [layout.discriminant.name] layout.bodies

end UnionLayout

end XdrPack
