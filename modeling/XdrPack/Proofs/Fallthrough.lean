import Mathlib.Data.List.DropRight
import XdrPack.Proofs.Acceptance
import XdrPack.Python.Record

/-!
# Falling through to a body

A value of the discriminant selects the first case with an equal label, and the
body of that case is the next one that is declared from it on. The generated code
does not fall through: it tries the groups of labels in order and takes the body
of the first group with an equal label. Both find the same body, whichever labels
are equal to the discriminant.
-/

namespace XdrPack

/-! ## Two ways to choose a body -/

/-- Whether a case is selected, if `equals` says which labels are equal to the
discriminant. -/
def Case.selected (equals : Value -> Bool) (each : Case) : Bool :=
  match each.label with
  | .value label => equals label
  | .default => false

/-- The body that is reached by falling through from the first selected case, or
else that of the default. Without a default there may be none. -/
def Switch.fallthrough (equals : Value -> Bool) (switch : Switch) : Option Declaration :=
  match (switch.cases.dropWhile (!·.selected equals)).findSome? (·.body) with
  | some body => some body
  | none => switch.fallback.map fun each => each.body.getD (.void each.line)

/-- The cases at the end of a switch that have no body. -/
def Switch.trailing (switch : Switch) : List Case := switch.cases.rtakeWhile (·.body.isNone)

/-- The body of the first group with a label that is equal to the discriminant, or
else that of the default. -/
def CaseGroup.choose (equals : Value -> Bool) (groups : List CaseGroup)
    (fallback : Option Declaration) : Option Declaration :=
  match groups.find? (·.labels.any equals) with
  | some group => some group.body
  | none => fallback

/-- The body of the first arm with a label that is equal to the discriminant, or else
that of the default. -/
def UnionLayout.chosen (equals : Value -> Bool) (layout : UnionLayout) : Option Field :=
  match layout.arms.find? (·.labels.any equals) with
  | some arm => some arm.body
  | none => layout.fallback

/-- The actions of the first branch with a label that is equal to the discriminant,
or else the other actions. -/
def Python.Choice.taken (equals : Value -> Bool) (choice : Python.Choice) : List Python.Action :=
  match choice.branches.find? (·.labels.any equals) with
  | some branch => branch.actions
  | none => choice.otherwise

/-! ## Cases with labels -/

/-- A labelled case as one of the cases of a switch. -/
def LabelledCase.toCase (each : LabelledCase) : Case := ⟨.value each.label, each.body, each.line⟩

/-- Where every case is selected by a value, none is left out. -/
theorem Switch.cases_eq_map_labelled {switch : Switch}
    (labelled : forall each, each ∈ switch.cases -> ∃ label, each.label = .value label) :
    switch.cases = switch.labelled.map LabelledCase.toCase := by
  rw [Switch.labelled, List.map_filterMap]
  symm
  refine (List.filterMap_congr fun each listed => ?_).trans List.filterMap_some
  obtain ⟨label, selects⟩ := labelled each listed
  obtain ⟨_, body, line⟩ := each
  cases selects
  rfl

namespace Switch

variable {pending : List LabelledCase}

/-- The body of a group is reached from each of its cases. -/
theorem findSome?_suffix_group {each : LabelledCase} {body : Declaration}
    {ending : List LabelledCase} (waiting : forall other, other ∈ pending -> other.body = none)
    (declared : each.body = some body) (isSuffix : ending <:+ pending ++ [each])
    (present : ending ≠ []) : ending.findSome? (·.body) = some body := by
  rcases List.suffix_concat_iff.mp isSuffix with empty | ⟨skipped, split, within⟩
  · exact absurd empty present
  · have none_skipped : skipped.findSome? (·.body) = none :=
      List.findSome?_eq_none_iff.mpr fun other listed => waiting other (within.subset listed)
    rw [split, List.findSome?_append, none_skipped]
    simp [declared]

/-- The first group with an equal label has the body that is reached by falling
through. Cases that wait for a body come first. -/
theorem find?_groupsAndRest (equals : Value -> Bool) (cases : List LabelledCase)
    (waiting : forall each, each ∈ pending -> each.body = none) :
    ((groupsAndRest pending cases).1.find? (·.labels.any equals)).map (·.body) =
      ((pending ++ cases).dropWhile (!equals ·.label)).findSome? (·.body) := by
  induction cases generalizing pending with
  | nil =>
      symm
      refine List.findSome?_eq_none_iff.mpr fun each listed => waiting each ?_
      rw [List.append_nil] at listed
      exact (List.dropWhile_suffix _).subset listed
  | cons each rest inductionHypothesis =>
      cases declared : each.body with
      | none =>
          have stillWaiting : forall other, other ∈ pending ++ [each] -> other.body = none :=
            List.forall_mem_append.mpr ⟨waiting, by simpa using declared⟩
          simpa [groupsAndRest, declared] using inductionHypothesis stillWaiting
      | some body =>
          have later := inductionHypothesis (List.forall_mem_nil _)
          rw [List.nil_append] at later
          have equalLabel : ((pending ++ [each]).map (·.label)).any equals = false ↔
              (pending ++ [each]).dropWhile (!equals ·.label) = [] := by
            rw [List.dropWhile_eq_nil_iff, List.any_map, List.any_eq_false]
            simp
          rw [List.append_cons, List.dropWhile_append]
          simp only [groupsAndRest, declared, List.find?_cons]
          split
          · next equal =>
              have selected : (pending ++ [each]).dropWhile (!equals ·.label) ≠ [] := by
                intro empty
                rw [equalLabel.mpr empty] at equal
                cases equal
              have reached :=
                findSome?_suffix_group waiting declared (List.dropWhile_suffix _) selected
              rw [if_neg (by simpa using selected), List.findSome?_append, reached]
              rfl
          · next different =>
              rw [if_pos (by simpa using equalLabel.mp different)]
              exact later

/-- The labels of the groups and of the cases behind them are all labels, in order. -/
theorem labels_groupsAndRest (pending cases : List LabelledCase) :
    (groupsAndRest pending cases).1.flatMap (·.labels)
        ++ (groupsAndRest pending cases).2.map (·.label) =
      (pending ++ cases).map (·.label) := by
  induction cases generalizing pending with
  | nil => simp [groupsAndRest]
  | cons each rest inductionHypothesis =>
      cases declared : each.body with
      | none => simpa [groupsAndRest, declared] using inductionHypothesis (pending ++ [each])
      | some body => simpa [groupsAndRest, declared] using inductionHypothesis []

/-- Every group has a label. -/
theorem labels_ne_nil_of_mem {pending cases : List LabelledCase} {group : CaseGroup}
    (listed : group ∈ (groupsAndRest pending cases).1) : group.labels ≠ [] := by
  induction cases generalizing pending with
  | nil => cases listed
  | cons each rest inductionHypothesis =>
      cases declared : each.body with
      | none =>
          simp only [groupsAndRest, declared] at listed
          exact inductionHypothesis listed
      | some body =>
          simp only [groupsAndRest, declared, List.mem_cons] at listed
          rcases listed with rfl | later
          · simp
          · exact inductionHypothesis later

/-- What does not satisfy the predicate ends what is taken from the end. -/
theorem rtakeWhile_append_cons {α : Type} {p : α -> Bool} {item : α} (fails : p item = false)
    (before after : List α) : (before ++ item :: after).rtakeWhile p = after.rtakeWhile p := by
  induction after using List.reverseRecOn with
  | nil => simp [List.rtakeWhile_concat_neg, fails]
  | append_singleton others last inductionHypothesis =>
      rw [<- List.cons_append, <- List.append_assoc, List.rtakeWhile_concat,
        List.rtakeWhile_concat, inductionHypothesis]

/-- The cases that no group takes up are those at the end without a body. -/
theorem snd_groupsAndRest (cases : List LabelledCase)
    (waiting : forall each, each ∈ pending -> each.body = none) :
    (groupsAndRest pending cases).2 = (pending ++ cases).rtakeWhile (·.body.isNone) := by
  induction cases generalizing pending with
  | nil =>
      rw [List.append_nil]
      symm
      exact List.rtakeWhile_eq_self_iff.mpr fun each listed => by simp [waiting each listed]
  | cons each rest inductionHypothesis =>
      cases declared : each.body with
      | none =>
          have stillWaiting : forall other, other ∈ pending ++ [each] -> other.body = none :=
            List.forall_mem_append.mpr ⟨waiting, by simpa using declared⟩
          simpa [groupsAndRest, declared] using inductionHypothesis stillWaiting
      | some body =>
          rw [rtakeWhile_append_cons (by simp [declared])]
          simpa [groupsAndRest, declared] using inductionHypothesis (List.forall_mem_nil _)

/-- The dangling cases of a switch are the last ones without a body. -/
theorem dangling_eq_trailing {switch : Switch}
    (labelled : forall each, each ∈ switch.cases -> ∃ label, each.label = .value label) :
    switch.dangling.map LabelledCase.toCase = switch.trailing := by
  rw [dangling, snd_groupsAndRest _ (by simp), List.nil_append, trailing,
    cases_eq_map_labelled labelled, List.rtakeWhile, List.rtakeWhile, <- List.map_reverse,
    List.takeWhile_map, List.map_reverse]
  rfl

/-- A switch is refused if it has dangling cases and no default. -/
theorem collapse_eq_error {switch : Switch} {error : DefinitionError} :
    switch.collapse = .error error ↔ switch.fallback = none ∧
      ∃ first rest, switch.dangling = first :: rest ∧
        error = .danglingCase first.label.text first.line := by
  have noDefault : switch.defaultBody = none ↔ switch.fallback = none := by
    simp [defaultBody]
  rw [<- noDefault]
  unfold collapse
  split
  · next first rest dangling absent =>
      constructor
      · rintro ⟨⟩
        exact ⟨absent, first, rest, dangling, rfl⟩
      · rintro ⟨-, other, others, same, rfl⟩
        cases dangling.symm.trans same
        rfl
  · next accepted =>
      refine ⟨nofun, ?_⟩
      rintro ⟨absent, first, rest, dangling, -⟩
      exact absurd absent (accepted first rest dangling)

/-- There are such cases if the very last case is one. -/
theorem trailing_ne_nil_iff {switch : Switch} :
    switch.trailing ≠ [] ↔ ∃ last, switch.cases.getLast? = some last ∧ last.body = none := by
  have nonempty : switch.cases ≠ [] := by simp [cases]
  rw [trailing, ne_eq, List.rtakeWhile_eq_nil_iff, List.getLast?_eq_some_getLast nonempty]
  simp [nonempty]

end Switch

/-! ## Generated code -/

/-- The arm that is found for a group is the one that the group is completed to. -/
theorem find?_arms {isReserved : String -> Bool} {registry : Registry} {groups : List CaseGroup}
    {arms : List UnionArm} (equals : Value -> Bool)
    (completed : List.Forall₂ (CaseGroup.Completes isReserved registry) groups arms) :
    Option.Rel (CaseGroup.Completes isReserved registry) (groups.find? (·.labels.any equals))
      (arms.find? (·.labels.any equals)) := by
  induction completed with
  | nil => exact .none
  | cons completes _ inductionHypothesis =>
      simp only [List.find?_cons, completes.labels]
      split
      · exact .some completes
      · exact inductionHypothesis

/-- A generated choice takes the actions of the body that is chosen among the arms, and
refuses the discriminant if there is none. -/
theorem Python.Union.taken_choice (body : Field -> List Python.Action) (layout : UnionLayout)
    (equals : Value -> Bool) :
    (choice body layout).taken equals =
      match layout.chosen equals with
      | some field => body field
      | none => [.refuse layout.discriminant.name] := by
  have branch : (choice body layout).branches.find? (·.labels.any equals) =
      (layout.arms.find? (·.labels.any equals)).map fun arm => ⟨arm.labels, body arm.body⟩ := by
    rw [choice, List.find?_map]
    rfl
  simp only [Python.Choice.taken, branch, UnionLayout.chosen]
  cases layout.arms.find? (·.labels.any equals) with
  | some arm => rfl
  | none => rfl

/-- The generated choice takes the actions of the body that is chosen among the
groups, and refuses the discriminant if there is none. -/
theorem taken_choice {isReserved : String -> Bool} {registry : Registry}
    {discriminant : Declaration} {switch : Switch} {layout : UnionLayout}
    (completed : layout.Completes isReserved registry discriminant switch)
    (body : Field -> List Python.Action) (equals : Value -> Bool) :
    match CaseGroup.choose equals switch.groups switch.defaultBody with
    | some declaration => ∃ field, declaration.CompletesMember isReserved registry field ∧
        (Python.Union.choice body layout).taken equals = body field
    | none => (Python.Union.choice body layout).taken equals =
        [.refuse layout.discriminant.name] := by
  have found := find?_arms equals completed.arms
  have fallback := rel_of_forall₂_toList completed.fallback
  simp only [CaseGroup.choose, Python.Union.taken_choice, UnionLayout.chosen]
  generalize switch.groups.find? (·.labels.any equals) = group at found ⊢
  generalize layout.arms.find? (·.labels.any equals) = arm at found ⊢
  cases found with
  | some completes => exact ⟨_, completes.body, rfl⟩
  | none =>
      generalize switch.defaultBody = declared at fallback ⊢
      generalize layout.fallback = field at fallback ⊢
      cases fallback with
      | some completes => exact ⟨_, completes, rfl⟩
      | none => rfl

/-! ## Collapsed switches -/

/-- A switch is collapsed as falling through prescribes. -/
structure Switch.FallsThrough (switch : Switch) : Prop where
  /-- The first group with an equal label has the body that is reached. -/
  reached : forall groups fallback, switch.collapse = .ok (groups, fallback) ->
    forall equals, CaseGroup.choose equals groups fallback = switch.fallthrough equals
  /-- The generated choice takes the actions of the body that is reached, and refuses
  the discriminant if there is none. -/
  generated : forall isReserved registry discriminant layout,
    UnionLayout.build isReserved registry discriminant switch = .ok layout ->
    forall (body : Field -> List Python.Action) equals,
      match switch.fallthrough equals with
      | some declaration => ∃ field, declaration.completeMember isReserved registry = .ok field ∧
          (Python.Union.choice body layout).taken equals = body field
      | none => (Python.Union.choice body layout).taken equals =
          [.refuse layout.discriminant.name]
  /-- Every group has a label. -/
  inhabited : forall groups fallback, switch.collapse = .ok (groups, fallback) ->
    forall group, group ∈ groups -> group.labels ≠ []
  /-- No label is lost, and none changes its place. -/
  complete : forall groups fallback, switch.collapse = .ok (groups, fallback) ->
    (groups.flatMap (·.labels)).map CaseLabel.value ++ switch.trailing.map (·.label) =
      switch.cases.map (·.label)
  /-- A switch is refused if it has no default and its last case has no body. -/
  refused : (∃ error, switch.collapse = .error error) ↔
    switch.fallback = none ∧ ∃ last, switch.cases.getLast? = some last ∧ last.body = none
  /-- The first of the last cases without a body is shown then. -/
  blamed : forall error, switch.collapse = .error error ->
    ∃ first rest label, switch.trailing = first :: rest ∧ first.label = .value label ∧
      error = .danglingCase label.text first.line

/-- The body that is chosen among the groups is the one that is reached by falling
through. -/
theorem Switch.choose_groups {switch : Switch}
    (labelled : forall each, each ∈ switch.cases -> ∃ label, each.label = .value label)
    (equals : Value -> Bool) :
    CaseGroup.choose equals switch.groups switch.defaultBody = switch.fallthrough equals := by
  have cases : (switch.cases.dropWhile (!·.selected equals)).findSome? (·.body) =
      (switch.labelled.dropWhile (!equals ·.label)).findSome? (·.body) := by
    rw [cases_eq_map_labelled labelled, List.dropWhile_map, List.findSome?_map]
    rfl
  have found := find?_groupsAndRest equals switch.labelled (List.forall_mem_nil _)
  rw [List.nil_append, <- cases] at found
  rw [fallthrough, <- found, CaseGroup.choose, groups]
  cases (groupsAndRest [] switch.labelled).1.find? (·.labels.any equals) with
  | none => rfl
  | some group => rfl

/-- Every switch whose cases are selected by values is collapsed as falling through
prescribes. -/
theorem Switch.fallsThrough (switch : Switch)
    (labelled : forall each, each ∈ switch.cases -> ∃ label, each.label = .value label) :
    switch.FallsThrough where
  reached := by
    intro groups fallback success equals
    obtain ⟨rfl, rfl, -⟩ := collapse_eq_ok success
    exact choose_groups labelled equals
  generated := by
    intro isReserved registry discriminant layout success body equals
    have taken := taken_choice (build_eq_ok success) body equals
    rw [choose_groups labelled equals] at taken
    cases reached : switch.fallthrough equals with
    | none => simpa only [reached] using taken
    | some declaration => simpa only [reached, completeMember_eq_ok] using taken
  inhabited := by
    intro groups fallback success group listed
    obtain ⟨rfl, -, -⟩ := collapse_eq_ok success
    exact labels_ne_nil_of_mem listed
  complete := by
    intro groups fallback success
    obtain ⟨rfl, -, -⟩ := collapse_eq_ok success
    have labels := congrArg (List.map CaseLabel.value) (labels_groupsAndRest [] switch.labelled)
    rw [<- dangling_eq_trailing labelled, cases_eq_map_labelled labelled]
    simpa [Switch.groups, Switch.dangling, LabelledCase.toCase, Function.comp_def] using labels
  refused := by
    rw [<- trailing_ne_nil_iff, <- dangling_eq_trailing labelled]
    simp only [collapse_eq_error, ne_eq, List.map_eq_nil_iff]
    constructor
    · rintro ⟨error, noDefault, first, rest, dangling, -⟩
      exact ⟨noDefault, by simp [dangling]⟩
    · rintro ⟨noDefault, present⟩
      obtain ⟨first, rest, dangling⟩ := List.exists_cons_of_ne_nil present
      exact ⟨_, noDefault, first, rest, dangling, rfl⟩
  blamed := by
    intro error failure
    obtain ⟨-, first, rest, dangling, rfl⟩ := collapse_eq_error.mp failure
    refine ⟨first.toCase, rest.map LabelledCase.toCase, first.label, ?_, rfl, rfl⟩
    rw [<- dangling_eq_trailing labelled, dangling, List.map_cons]

/-- The first of two equal labels shares the body of the case after it, and the last
label belongs to the default. -/
theorem Switch.fallsThrough_repeated :
    let shared : Declaration := ⟨"x", .named "int", 2⟩
    let switch : Switch :=
      { first := ⟨.value (.number "1"), none, 1⟩
        more := [⟨.value (.constant "TWO"), some shared, 2⟩,
          ⟨.value (.number "1"), some (.void 3), 3⟩, ⟨.value (.number "4"), none, 4⟩]
        fallback := some ⟨.default, none, 5⟩ }
    (forall each, each ∈ switch.cases -> ∃ label, each.label = .value label) ∧
      ∃ groups fallback, switch.collapse = .ok (groups, fallback) ∧
        CaseGroup.choose (· = .number "1") groups fallback = some shared ∧
        CaseGroup.choose (· = .number "4") groups fallback = some (.void 5) := by
  intro shared switch
  have labelled : forall each, each ∈ switch.cases -> ∃ label, each.label = .value label := by
    simp [switch, Switch.cases]
  have falls := switch.fallsThrough labelled
  refine ⟨labelled, _, _, rfl, ?_, ?_⟩
  · rw [falls.reached _ _ rfl]
    decide
  · rw [falls.reached _ _ rfl]
    decide

end XdrPack
