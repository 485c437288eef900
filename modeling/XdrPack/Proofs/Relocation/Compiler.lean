import XdrPack.Compiler
import XdrPack.Proofs.Relocation

/-!
# Compiling moved definitions

The verdict on a definition does not depend on its lines. A refusal shows a line of the
definition, and what is emitted carries lines along, but nothing looks at them. So
compilers that know the same types and have emitted the same but for lines go on to do
so when one of them reads the tokens of a text and the other one the moved tokens.
-/

namespace XdrPack

section

variable (move : Relocation)

/-- A refusal at the moved line. -/
def DefinitionError.moved : DefinitionError -> DefinitionError
  | reservedName name role line => reservedName name role (move.line line)
  | undeclaredType name line => undeclaredType name (move.line line)
  | redefinition name line => redefinition name (move.line line)
  | danglingCase label line => danglingCase label (move.line line)
  | misplacedVoid site line => misplacedVoid site (move.line line)

/-- A lexical error at the moved line. -/
def LexicalError.moved : LexicalError -> LexicalError
  | illegalCharacter c line => illegalCharacter c (move.line line)
  | malformedNumber text line => malformedNumber text (move.line line)
  | unclosedComment line => unclosedComment (move.line line)

/-- A failure with all its lines moved. -/
def Failure.moved : Failure -> Failure
  | syntactic error => syntactic (error.moved move)
  | refused error => refused (error.moved move)
  | file path error => file path error
  | afterErrors cause errors => afterErrors cause.moved (errors.map (LexicalError.moved move))

/-- A labelled case that was read from moved tokens. -/
def LabelledCase.moved (each : LabelledCase) : LabelledCase :=
  { each with body := each.body.map (Declaration.moved move), line := move.line each.line }

/-- A group of labels that was read from moved tokens. -/
def CaseGroup.moved (group : CaseGroup) : CaseGroup :=
  { group with body := group.body.moved move }

/-- A field whose declaration was read from moved tokens. -/
def Field.moved (field : Field) : Field :=
  { field with declaration := field.declaration.moved move }

/-- An arm whose body was read from moved tokens. -/
def UnionArm.moved (arm : UnionArm) : UnionArm := { arm with body := arm.body.moved move }

/-- A union that was read from moved tokens. -/
def UnionLayout.moved (layout : UnionLayout) : UnionLayout :=
  { discriminant := layout.discriminant.moved move
    arms := layout.arms.map (UnionArm.moved move)
    fallback := layout.fallback.map (Field.moved move) }

/-- What is emitted for a definition that was read from moved tokens. -/
def Emission.moved : Emission -> Emission
  | .enum name members => .enum name (members.map (EnumMember.moved move))
  | .typedef name target => .typedef name (target.moved move)
  | .struct name fields => .struct name (fields.map (Field.moved move))
  | .union name layout => .union name (layout.moved move)
  | .primitive name routine => .primitive name routine
  | .constant name value => .constant name value

/-- The result for moved tokens, given what moving does to values. -/
def movedResult {α : Type} (onValue : α -> α) :
    Except DefinitionError α -> Except DefinitionError α
  | .ok value => .ok (onValue value)
  | .error error => .error (error.moved move)

/-- The verdict on a definition that was read from moved tokens. -/
def Verdict.moved (verdict : Verdict) : Verdict :=
  { verdict with result := movedResult move (Option.map (Emission.moved move)) verdict.result }

end

/-! ## Verdicts -/

variable {α β : Type} {move : Relocation} {isReserved : String -> Bool} {registry : Registry}

/-- Computations in sequence commute with moving if both parts do. -/
theorem movedResult_bind {onValue : α -> α} {onResult : β -> β}
    (first : Except DefinitionError α) {second other : α -> Except DefinitionError β}
    (commutes : forall value, other (onValue value) = movedResult move onResult (second value)) :
    (movedResult move onValue first >>= other) = movedResult move onResult (first >>= second) := by
  cases first with
  | ok value => exact commutes value
  | error error => rfl

/-- Mapping a list commutes with moving if each step does. -/
theorem movedResult_mapM {change other : α -> Except DefinitionError β} {onItem : α -> α}
    {onResult : β -> β} (items : List α)
    (commutes : forall item, other (onItem item) = movedResult move onResult (change item)) :
    (items.map onItem).mapM other = movedResult move (List.map onResult) (items.mapM change) := by
  induction items with
  | nil => rfl
  | cons item rest inductionHypothesis =>
      rw [List.map_cons, List.mapM_cons, List.mapM_cons, commutes]
      refine movedResult_bind _ fun result => ?_
      rw [inductionHypothesis]
      exact movedResult_bind _ fun results => rfl

/-- Checking a list commutes with moving if each check does. -/
theorem movedResult_forM {check other : α -> Except DefinitionError Unit} {onItem : α -> α}
    (items : List α)
    (commutes : forall item, other (onItem item) = movedResult move id (check item)) :
    (items.map onItem).forM other = movedResult move id (items.forM check) := by
  induction items with
  | nil => rfl
  | cons item rest inductionHypothesis =>
      show (other (onItem item) >>= fun _ => (rest.map onItem).forM other) = _
      rw [commutes]
      exact movedResult_bind _ fun _ => inductionHypothesis

/-- The check of a name refuses it on the line that it moved to. -/
theorem checkName_moved (name : String) (role : NameRole) (line : Int) :
    checkName isReserved name role (move.line line) =
      movedResult move id (checkName isReserved name role line) := by
  unfold checkName
  split <;> rfl

/-- The check of the name of a type refuses it on the line that it moved to. -/
theorem checkTypeName_moved (name : String) (line : Int) :
    checkTypeName isReserved registry name (move.line line) =
      movedResult move id (checkTypeName isReserved registry name line) := by
  unfold checkTypeName
  rw [checkName_moved]
  refine movedResult_bind _ fun _ => ?_
  split <;> rfl

/-- A declaration that moved is completed to the field that moved, or refused where it is. -/
theorem Declaration.complete_moved (declaration : Declaration) :
    (declaration.moved move).complete registry =
      movedResult move (Field.moved move) (declaration.complete registry) := by
  have type : (declaration.moved move).type = declaration.type := rfl
  unfold complete
  rw [type]
  cases registry.complete? declaration.type <;> rfl

/-- A member that moved is completed to the field that moved, or refused where it is. -/
theorem Declaration.completeMember_moved (declaration : Declaration) :
    (declaration.moved move).completeMember isReserved registry =
      movedResult move (Field.moved move) (declaration.completeMember isReserved registry) := by
  unfold completeMember
  show (if declaration.isVoid then _ else _) = _
  split
  · exact declaration.complete_moved
  · show (checkName isReserved declaration.name .field (move.line declaration.line) >>= _) = _
    rw [checkName_moved]
    exact movedResult_bind _ fun _ => declaration.complete_moved

namespace Switch

/-- The labelled cases of a switch move with it. -/
theorem labelled_moved (switch : Switch) :
    (switch.moved move).labelled = switch.labelled.map (LabelledCase.moved move) := by
  have cases : (switch.moved move).cases = switch.cases.map (Case.moved move) := rfl
  rw [labelled, cases, List.filterMap_map, labelled, List.map_filterMap]
  congr 1
  funext each
  obtain ⟨label, body, line⟩ := each
  cases label <;> rfl

/-- Cases fall into the same groups wherever they are. -/
theorem groupsAndRest_moved (pending cases : List LabelledCase) :
    groupsAndRest (pending.map (LabelledCase.moved move)) (cases.map (LabelledCase.moved move)) =
      ((groupsAndRest pending cases).1.map (CaseGroup.moved move),
        (groupsAndRest pending cases).2.map (LabelledCase.moved move)) := by
  induction cases generalizing pending with
  | nil => rfl
  | cons each rest inductionHypothesis =>
      have waiting : pending.map (LabelledCase.moved move) ++ [each.moved move] =
          (pending ++ [each]).map (LabelledCase.moved move) := by simp
      have labels : ((pending ++ [each]).map (LabelledCase.moved move)).map (·.label) =
          (pending ++ [each]).map (·.label) := by simp [LabelledCase.moved, Function.comp_def]
      have bodyMoved : (each.moved move).body = each.body.map (Declaration.moved move) := rfl
      have later := inductionHypothesis []
      rw [List.map_nil] at later
      rw [List.map_cons, groupsAndRest, groupsAndRest, waiting, labels, bodyMoved, later]
      cases each.body with
      | none => exact inductionHypothesis (pending ++ [each])
      | some body => rfl

/-- A switch collapses in the same way wherever it is. -/
theorem collapse_moved (switch : Switch) :
    (switch.moved move).collapse =
      movedResult move (Prod.map (List.map (CaseGroup.moved move))
        (Option.map (Declaration.moved move))) switch.collapse := by
  have split : groupsAndRest [] (switch.labelled.map (LabelledCase.moved move)) = _ :=
    groupsAndRest_moved [] switch.labelled
  rw [<- labelled_moved] at split
  have groups : (switch.moved move).groups = switch.groups.map (CaseGroup.moved move) :=
    congrArg Prod.fst split
  have dangling : (switch.moved move).dangling = switch.dangling.map (LabelledCase.moved move) :=
    congrArg Prod.snd split
  have defaultBody : (switch.moved move).defaultBody =
      switch.defaultBody.map (Declaration.moved move) := by
    obtain ⟨first, more, fallback⟩ := switch
    cases fallback with
    | none => rfl
    | some each =>
        obtain ⟨label, body, line⟩ := each
        cases body <;> rfl
  rw [collapse, collapse, groups, dangling, defaultBody]
  cases switch.dangling with
  | nil => rfl
  | cons first rest =>
      cases switch.defaultBody with
      | none => rfl
      | some declaration => rfl

end Switch

/-- The check of a label refuses it on the line that it moved to. -/
theorem checkLabel_moved (line : Int) (label : Value) :
    checkLabel isReserved (move.line line) label =
      movedResult move id (checkLabel isReserved line label) := by
  cases label with
  | number text => rfl
  | constant name => exact checkName_moved name .caseLabel line

/-- A group that moved is completed to the arm that moved, or refused where it is. -/
theorem CaseGroup.complete_moved (group : CaseGroup) :
    (group.moved move).complete isReserved registry =
      movedResult move (UnionArm.moved move) (group.complete isReserved registry) := by
  have labels : (group.labels.map id).forM (checkLabel isReserved (move.line group.body.line)) =
      movedResult move id (group.labels.forM (checkLabel isReserved group.body.line)) :=
    movedResult_forM group.labels (checkLabel_moved group.body.line)
  rw [List.map_id] at labels
  show (group.labels.forM (checkLabel isReserved (move.line group.body.line)) >>= _) = _
  rw [labels]
  refine movedResult_bind _ fun _ => ?_
  show ((group.body.moved move).completeMember isReserved registry >>= _) = _
  rw [Declaration.completeMember_moved]
  exact movedResult_bind _ fun _ => rfl

/-- A default that moved is completed to the field that moved, or refused where it is. -/
theorem completeDefault_moved (body : Option Declaration) :
    completeDefault isReserved registry (body.map (Declaration.moved move)) =
      movedResult move (Option.map (Field.moved move))
        (completeDefault isReserved registry body) := by
  cases body with
  | none => rfl
  | some declaration =>
      rw [Option.map_some, completeDefault, completeDefault, declaration.completeMember_moved]
      cases declaration.completeMember isReserved registry <;> rfl

/-- What is built from a union that moved is the layout that moved, or a refusal where it is. -/
theorem UnionLayout.build_moved (discriminant : Declaration) (switch : Switch) :
    build isReserved registry (discriminant.moved move) (switch.moved move) =
      movedResult move (UnionLayout.moved move)
        (build isReserved registry discriminant switch) := by
  unfold build
  rw [discriminant.completeMember_moved, switch.collapse_moved]
  refine movedResult_bind _ fun selector => ?_
  refine movedResult_bind _ fun (groups, fallback) => ?_
  show ((groups.map (CaseGroup.moved move)).mapM _ >>= _) = _
  rw [movedResult_mapM groups CaseGroup.complete_moved]
  refine movedResult_bind _ fun arms => ?_
  show (completeDefault isReserved registry (fallback.map (Declaration.moved move)) >>= _) = _
  rw [completeDefault_moved]
  exact movedResult_bind _ fun _ => rfl

namespace Verdict

/-- The verdict about a constant moves with it. -/
theorem onConstant_moved (name : String) (value : Value) (line : Int) :
    onConstant isReserved name value (move.line line) =
      (onConstant isReserved name value line).moved move := by
  unfold onConstant
  rw [checkName_moved]
  cases checkName isReserved name .constant line <;> rfl

/-- The verdict about an enumeration moves with it. -/
theorem onEnum_moved (name : String) (members : List EnumMember) (line : Int) :
    onEnum isReserved registry name (members.map (EnumMember.moved move)) (move.line line) =
      (onEnum isReserved registry name members line).moved move := by
  have names : (members.map (EnumMember.moved move)).forM
      (fun member => checkName isReserved member.name .enumMember member.line) =
      movedResult move id (members.forM fun member =>
        checkName isReserved member.name .enumMember member.line) :=
    movedResult_forM members fun member => checkName_moved member.name .enumMember member.line
  have field : Declaration.complete registry ⟨name, .named "enum", move.line line⟩ =
      movedResult move (Field.moved move)
        (Declaration.complete registry ⟨name, .named "enum", line⟩) :=
    Declaration.complete_moved ⟨name, .named "enum", line⟩
  unfold onEnum
  rw [checkTypeName_moved, names, field]
  cases checkTypeName isReserved registry name line with
  | error error => rfl
  | ok =>
      cases members.forM fun member => checkName isReserved member.name .enumMember member.line with
      | error error => rfl
      | ok => cases Declaration.complete registry ⟨name, .named "enum", line⟩ <;> rfl

/-- The verdict about a type definition moves with it. -/
theorem onTypedef_moved (declaration : Declaration) :
    onTypedef isReserved registry (declaration.moved move) =
      (onTypedef isReserved registry declaration).moved move := by
  have name : checkTypeName isReserved registry (declaration.moved move).name
      (declaration.moved move).line =
      movedResult move id
        (checkTypeName isReserved registry declaration.name declaration.line) :=
    checkTypeName_moved declaration.name declaration.line
  have void : (declaration.moved move).isVoid = declaration.isVoid := rfl
  unfold onTypedef
  rw [void, name, declaration.complete_moved]
  cases declaration.isVoid with
  | true => rfl
  | false =>
      cases checkTypeName isReserved registry declaration.name declaration.line with
      | error error => rfl
      | ok => cases declaration.complete registry <;> rfl

/-- The verdict about a structure moves with it. -/
theorem onStruct_moved (name : String) (fields : List Declaration) (line : Int) :
    onStruct isReserved registry name (fields.map (Declaration.moved move)) (move.line line) =
      (onStruct isReserved registry name fields line).moved move := by
  unfold onStruct
  rw [checkTypeName_moved]
  cases checkTypeName isReserved registry name line with
  | error error => rfl
  | ok =>
      simp only [movedResult, movedResult_mapM fields Declaration.completeMember_moved]
      cases fields.mapM (·.completeMember isReserved (registry.insert name (.record name))) <;> rfl

/-- The verdict about a union moves with it. -/
theorem onUnion_moved (name : String) (discriminant : Declaration) (switch : Switch)
    (line : Int) :
    onUnion isReserved registry name (discriminant.moved move) (switch.moved move)
        (move.line line) =
      (onUnion isReserved registry name discriminant switch line).moved move := by
  have void : (discriminant.moved move).isVoid = discriminant.isVoid := rfl
  unfold onUnion
  rw [checkTypeName_moved, void]
  cases checkTypeName isReserved registry name line with
  | error error => rfl
  | ok =>
      cases discriminant.isVoid with
      | true => rfl
      | false =>
          simp only [movedResult, UnionLayout.build_moved]
          cases UnionLayout.build isReserved (registry.insert name (.record name)) discriminant
            switch <;> rfl

/-- The verdict on a moved definition is the moved verdict on the definition. -/
theorem judge_moved (definition : Definition) :
    judge isReserved registry (definition.moved move) =
      (judge isReserved registry definition).moved move := by
  cases definition with
  | constant name value line => exact onConstant_moved name value line
  | enum name members line => exact onEnum_moved name members line
  | typedef declaration => exact onTypedef_moved declaration
  | struct name fields line => exact onStruct_moved name fields line
  | union name discriminant switch line => exact onUnion_moved name discriminant switch line
  | program remote => rfl

end Verdict

/-! ## Runs -/

/-- Places that are forgotten in the end may as well be moved before. -/
theorem Emission.away_moved (emission : Emission) :
    (emission.moved move).moved .away = emission.moved .away := by
  cases emission with
  | enum name members =>
      simp only [moved, List.map_map]
      rfl
  | struct name fields =>
      simp only [moved, List.map_map]
      rfl
  | union name layout =>
      simp only [moved, UnionLayout.moved, List.map_map, Option.map_map]
      rfl
  | typedef | primitive | constant => rfl

/-- Which names are reserved does not depend on lines. -/
def Reservation.IgnoresLines (isReserved : Reservation) : Prop :=
  forall emissions, isReserved (emissions.map (Emission.moved .away)) = isReserved emissions

/-- Names that are reserved in any case do not depend on lines. -/
theorem Reservation.ignoresLines_fixed (isReserved : String -> Bool) :
    (Reservation.fixed isReserved).IgnoresLines := fun _ => rfl

namespace Compiler

/-- Submitting the definitions of a stream in one equation, one definition at a time. -/
theorem defineAll_eq (compiler : Compiler) (isReserved : Reservation) (stream : TokenStream) :
    compiler.defineAll isReserved stream =
      match Parser.definition?.run stream with
      | .rejected error rest => (.error (.syntactic error), compiler, rest)
      | .accepted none rest => (.ok (), compiler, rest)
      | .accepted (some definition) rest =>
          match compiler.define isReserved definition with
          | (.error error, next) => (.error (.refused error), next, rest)
          | (.ok (), next) => next.defineAll isReserved rest := by
  rw [defineAll]
  split
  · next reply => simp only [reply]
  · next reply => simp only [reply]
  · next definition rest reply =>
      rcases answer : compiler.define isReserved definition with ⟨error | accepted, next⟩ <;>
        simp only [reply, answer]

/-- Two compilers know the same types and have emitted the same but for lines. -/
structure Similar (left right : Compiler) : Prop where
  registry : left.registry = right.registry
  emissions : left.emissions.map (Emission.moved .away) =
    right.emissions.map (Emission.moved .away)

variable {left right : Compiler}

/-- A compiler is similar to itself. -/
protected theorem Similar.refl (compiler : Compiler) : compiler.Similar compiler := ⟨rfl, rfl⟩

/-- The step: submitted to similar compilers, a definition and the same one moved are
answered alike, and the compilers remain similar. -/
theorem Similar.define (similar : left.Similar right) {isReserved : Reservation}
    (ignores : isReserved.IgnoresLines) (move : Relocation) (definition : Definition) :
    (right.define isReserved (definition.moved move)).1 =
        movedResult move id (left.define isReserved definition).1 ∧
      (left.define isReserved definition).2.Similar
        (right.define isReserved (definition.moved move)).2 := by
  obtain ⟨registry, emissions⟩ := similar
  have sameNames : isReserved right.emissions = isReserved left.emissions := by
    rw [<- ignores right.emissions, <- emissions, ignores]
  simp only [Compiler.define, <- registry, sameNames, Verdict.judge_moved]
  generalize Verdict.judge (isReserved left.emissions) left.registry definition = verdict
  obtain ⟨binding, note, result⟩ := verdict
  refine ⟨?_, ?_, ?_⟩
  · cases result <;> rfl
  · simp only [apply, Verdict.moved, registry]
  · rw [emissions_apply, emissions_apply]
    rcases result with error | emission | emission <;>
      simp [Verdict.moved, movedResult, emissions, Emission.away_moved]

/-- What a run over moved tokens comes to, given what the run over the tokens does: the
outcome and the rest are the same but for places, and the compilers are similar. -/
def MovedRun (move : Relocation) (run moved : Except Failure Unit × Compiler × TokenStream) :
    Prop :=
  moved.1 = run.1.mapError (Failure.moved move) ∧ run.2.1.Similar moved.2.1 ∧
    moved.2.2 = run.2.2.moved move

/-- The run: similar compilers that read the tokens of a text and the moved tokens come to
the same. -/
theorem Similar.defineAll (similar : left.Similar right) {isReserved : Reservation}
    (ignores : isReserved.IgnoresLines) (move : Relocation) (stream : TokenStream) :
    MovedRun move (left.defineAll isReserved stream)
      (right.defineAll isReserved (stream.moved move)) := by
  have moves : forall stream, Parser.definition?.run (TokenStream.moved move stream) = _ :=
    Parser.definition?_moves
  fun_induction Compiler.defineAll left isReserved stream generalizing right with
  | case1 left stream error rest reply =>
      rw [right.defineAll_eq, moves, reply]
      exact ⟨rfl, similar, rfl⟩
  | case2 left stream rest reply =>
      rw [right.defineAll_eq, moves, reply]
      exact ⟨rfl, similar, rfl⟩
  | case3 left stream definition rest reply error next refused =>
      obtain ⟨answer, remain⟩ := similar.define ignores move definition
      rw [right.defineAll_eq, moves, reply]
      simp only [Reply.moved, Option.map_some]
      generalize right.define isReserved (definition.moved move) = replied at answer remain ⊢
      rw [refused] at answer remain
      obtain ⟨_, other⟩ := replied
      subst answer
      exact ⟨rfl, remain, rfl⟩
  | case4 left stream definition rest reply next accepted inductionHypothesis =>
      obtain ⟨answer, remain⟩ := similar.define ignores move definition
      rw [right.defineAll_eq, moves, reply]
      simp only [Reply.moved, Option.map_some]
      generalize right.define isReserved (definition.moved move) = replied at answer remain ⊢
      rw [accepted] at answer remain
      obtain ⟨_, other⟩ := replied
      subst answer
      exact inductionHypothesis remain

end Compiler

end XdrPack
