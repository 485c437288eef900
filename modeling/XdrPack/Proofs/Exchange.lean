import XdrPack.Proofs.Python.Pieces
import XdrPack.Proofs.Python.References
import XdrPack.Proofs.WriteOnce

/-!
# Exchanging definitions

The verdict on a definition depends on the types of a few names only: its own and those
that its declarations refer to. So a definition may come before the one in front of it
unless it refers to the type that this one introduces. The same is accepted, the same
types are known in the end, and what the two write into the generated modules changes
places.
-/

namespace XdrPack

/-! ## What a verdict depends on -/

/-- The name of the type that a declaration refers to, unless nothing is declared. -/
def Declaration.bases (declaration : Declaration) : List String :=
  if declaration.isVoid then [] else [declaration.type.base]

/-- The declarations that a definition consists of. -/
def Definition.declarations : Definition -> List Declaration
  | .typedef declaration => [declaration]
  | .struct _ fields _ => fields
  | .union _ discriminant switch _ =>
      discriminant :: switch.groups.map (·.body) ++ switch.defaultBody.toList
  | .constant _ _ _ | .enum _ _ _ | .program _ => []

/-- The names of the types that a definition refers to. -/
def Definition.bases (definition : Definition) : List String :=
  definition.declarations.flatMap Declaration.bases

/-- The names whose types matter for the verdict on a definition. All enumerations are
coded like the built-in one. -/
def Definition.consulted (definition : Definition) : List String :=
  "enum" :: definition.typeName.toList ++ definition.bases

/-- The names that a definition looks up are that of enumerations, its own and its base types.
-/
theorem Definition.mem_consulted {definition : Definition} {name : String} :
    name ∈ definition.consulted ↔
      name = "enum" ∨ definition.typeName = some name ∨ name ∈ definition.bases := by
  simp [consulted]

section

variable {isReserved : String -> Bool} {left right : Registry}

/-- Completing a declaration looks up nothing but its base type. -/
theorem Declaration.complete_congr {declaration : Declaration}
    (same : forall name, name ∈ declaration.bases -> left.lookup name = right.lookup name) :
    declaration.complete left = declaration.complete right := by
  by_cases isVoid : declaration.type.isVoid = true
  · simp [complete, Registry.complete?, isVoid, Coding.choose]
  · have bound : left.lookup declaration.type.base = right.lookup declaration.type.base := by
      refine same _ ?_
      simp [bases, Declaration.isVoid, isVoid]
    have completed : left.complete? declaration.type = right.complete? declaration.type := by
      simp only [Registry.complete?, Registry.inherited?, bound]
    unfold complete
    rw [completed]
    cases known : right.complete? declaration.type with
    | none => rfl
    | some type =>
        have base : type.base = declaration.type.base := by
          obtain ⟨entry, -, rfl⟩ :=
            Registry.complete?_eq_some (Bool.eq_false_iff.mpr isVoid) known
          split <;> rfl
        have element : Coding.elementIsRecord left type = Coding.elementIsRecord right type := by
          simp only [Coding.elementIsRecord, base, bound]
        simp only [Coding.choose, element]

/-- Completing a member looks up nothing but its base type. -/
theorem Declaration.completeMember_congr {declaration : Declaration}
    (same : forall name, name ∈ declaration.bases -> left.lookup name = right.lookup name) :
    declaration.completeMember isReserved left = declaration.completeMember isReserved right := by
  simp only [completeMember, complete_congr same]

/-- A list is mapped alike if each of its items is. -/
theorem mapM_congr {ε α β : Type} {one other : α -> Except ε β} {items : List α}
    (same : forall item, item ∈ items -> one item = other item) :
    items.mapM one = items.mapM other := by
  induction items with
  | nil => rfl
  | cons item rest inductionHypothesis =>
      obtain ⟨first, others⟩ := List.forall_mem_cons.mp same
      rw [List.mapM_cons, List.mapM_cons, first, inductionHypothesis others]

/-- Building a layout looks up nothing but the base types of its declarations. -/
theorem UnionLayout.build_congr {discriminant : Declaration} {switch : Switch}
    (same : forall name, name ∈ (discriminant :: switch.groups.map (·.body)
      ++ switch.defaultBody.toList).flatMap Declaration.bases ->
        left.lookup name = right.lookup name) :
    build isReserved left discriminant switch = build isReserved right discriminant switch := by
  have members : forall declaration, declaration ∈ discriminant :: switch.groups.map (·.body)
      ++ switch.defaultBody.toList ->
      declaration.completeMember isReserved left = declaration.completeMember isReserved right := by
    intro declaration listed
    exact Declaration.completeMember_congr fun name base =>
      same name (List.mem_flatMap.mpr ⟨declaration, listed, base⟩)
  unfold build
  rw [members discriminant (by simp)]
  cases collapsed : switch.collapse with
  | error error => rfl
  | ok parts =>
      obtain ⟨groups, fallback⟩ := parts
      obtain ⟨rfl, rfl, -⟩ := collapse_eq_ok collapsed
      have arms : switch.groups.mapM (·.complete isReserved left) =
          switch.groups.mapM (·.complete isReserved right) := by
        refine mapM_congr fun group listed => ?_
        have body := members group.body
          (List.mem_append_left _ (List.mem_cons_of_mem _ (List.mem_map_of_mem listed)))
        simp only [CaseGroup.complete, body]
      have default : completeDefault isReserved left switch.defaultBody =
          completeDefault isReserved right switch.defaultBody := by
        cases present : switch.defaultBody with
        | none => rfl
        | some declaration => simp only [completeDefault, members declaration (by simp [present])]
      refine congrArg (_ >>= ·) (funext fun selector => ?_)
      show (switch.groups.mapM _ >>= fun _ => completeDefault _ _ switch.defaultBody >>= _) = _
      rw [arms, default]
      rfl

/-- Registries that agree on a name agree on it after the same type was added. -/
theorem lookup_insert_congr {name : String} {type : TypeRef} {other : String}
    (same : left.lookup other = right.lookup other) :
    (left.insert name type).lookup other = (right.insert name type).lookup other := by
  rw [Registry.lookup_insert, Registry.lookup_insert, same]

/-- Checking the name of a type looks up nothing but this name. -/
theorem checkTypeName_congr {name : String} {line : Int}
    (same : left.lookup name = right.lookup name) :
    checkTypeName isReserved left name line = checkTypeName isReserved right name line := by
  unfold checkTypeName Registry.contains
  rw [same]

/-- The verdict is the same where the names that matter for it have the same types. -/
theorem Verdict.judge_congr {definition : Definition}
    (same : forall name, name ∈ definition.consulted -> left.lookup name = right.lookup name) :
    judge isReserved left definition = judge isReserved right definition := by
  have bases : forall name, name ∈ definition.bases -> left.lookup name = right.lookup name :=
    fun name base => same name (Definition.mem_consulted.mpr (.inr (.inr base)))
  have named : forall {name line}, definition.typeName = some name ->
      checkTypeName isReserved left name line = checkTypeName isReserved right name line :=
    fun isName => checkTypeName_congr (same _ (Definition.mem_consulted.mpr (.inr (.inl isName))))
  cases definition with
  | constant | program => rfl
  | enum name members line =>
      have builtin : Declaration.complete left ⟨name, .named "enum", line⟩ =
          Declaration.complete right ⟨name, .named "enum", line⟩ := by
        refine Declaration.complete_congr ?_
        simpa [Declaration.bases, Declaration.isVoid, TypeRef.named, TypeRef.shaped]
          using same "enum" (Definition.mem_consulted.mpr (.inl rfl))
      simp only [judge, onEnum, named rfl, builtin]
  | typedef declaration =>
      have completed : declaration.complete left = declaration.complete right :=
        Declaration.complete_congr fun name base =>
          bases name (List.mem_flatMap.mpr ⟨declaration, List.mem_singleton_self _, base⟩)
      simp only [judge, onTypedef, named rfl, completed]
  | struct name fields line =>
      have members : fields.mapM (·.completeMember isReserved (left.insert name (.record name))) =
          fields.mapM (·.completeMember isReserved (right.insert name (.record name))) := by
        refine mapM_congr fun field listed => ?_
        refine Declaration.completeMember_congr fun base isBase => lookup_insert_congr ?_
        exact bases base (List.mem_flatMap.mpr ⟨field, listed, isBase⟩)
      simp only [judge, onStruct, named rfl, members]
  | union name discriminant switch line =>
      have layout : UnionLayout.build isReserved (left.insert name (.record name)) discriminant
          switch = UnionLayout.build isReserved (right.insert name (.record name)) discriminant
          switch :=
        UnionLayout.build_congr fun base isBase => lookup_insert_congr (bases base isBase)
      simp only [judge, onUnion, named rfl, layout]

end

/-! ## What is known where a definition is accepted -/

/-- A declaration is completed only if the type that it refers to is known. -/
theorem Declaration.Completes.known_base {registry : Registry} {declaration : Declaration}
    {field : Field} (completes : declaration.Completes registry field) {name : String}
    (isBase : name ∈ declaration.bases) : registry.lookup name ≠ none := by
  unfold Declaration.bases at isBase
  split at isBase
  · cases isBase
  · next declares =>
      obtain rfl := List.mem_singleton.mp isBase
      obtain ⟨entry, found, -⟩ :=
        Registry.complete?_eq_some (Bool.eq_false_iff.mpr declares) completes.known
      simp [found]

/-- Of related lists, every item of the first is related to one of the second. -/
theorem exists_related {α β : Type} {related : α -> β -> Prop} {lefts : List α} {rights : List β}
    (all : List.Forall₂ related lefts rights) {left : α} (listed : left ∈ lefts) :
    ∃ right, related left right := by
  induction all with
  | nil => cases listed
  | @cons _ right _ _ first _ inductionHypothesis =>
      obtain rfl | later := List.mem_cons.mp listed
      · exact ⟨right, first⟩
      · exact inductionHypothesis later

/-- A definition is accepted only if it refers to known types, or to its own. -/
theorem Verdict.Accepted.known_base {isReserved : String -> Bool} {registry : Registry}
    {definition : Definition} {binding : Option (String × TypeRef)} {emission : Option Emission}
    (accepted : Accepted isReserved registry definition binding emission) {name : String}
    (used : name ∈ definition.bases) :
    registry.lookup name ≠ none ∨ definition.typeName = some name := by
  have orOwn : forall {own : String}, (registry.insert own (.record own)).lookup name ≠ none ->
      registry.lookup name ≠ none ∨ some own = some name := by
    intro own known
    rw [Registry.lookup_insert] at known
    split at known
    · next same => exact .inr (congrArg some same.symm)
    · exact .inl known
  obtain ⟨declaration, listed, isBase⟩ := List.mem_flatMap.mp used
  cases accepted with
  | constant | enum | program => cases listed
  | typedef _ _ completed =>
      obtain rfl := List.mem_singleton.mp listed
      exact .inl (completed.known_base isBase)
  | struct _ completed =>
      obtain ⟨member, completes⟩ := exists_related completed listed
      exact orOwn (completes.known_base isBase)
  | union _ _ completed =>
      refine orOwn ?_
      simp only [Definition.declarations, List.mem_append, List.mem_cons, List.mem_map] at listed
      rcases listed with (rfl | ⟨group, grouped, rfl⟩) | isDefault
      · exact completed.selector.known_base isBase
      · obtain ⟨arm, completes⟩ := exists_related completed.arms grouped
        exact completes.body.known_base isBase
      · obtain ⟨field, completes⟩ := exists_related completed.fallback isDefault
        exact completes.known_base isBase

/-- Types of different names may become known in either order. -/
theorem Registry.lookup_extend_comm {registry : Registry} {one two : Option (String × TypeRef)}
    (apart : forall name, two.map (·.1) = some name -> one.map (·.1) ≠ some name) (name : String) :
    ((registry.extend one).extend two).lookup name =
      ((registry.extend two).extend one).lookup name := by
  rcases one with _ | ⟨left, leftType⟩
  · rfl
  rcases two with _ | ⟨right, rightType⟩
  · rfl
  have differ : left ≠ right := fun same => apart right rfl (congrArg some same)
  simp only [extend, lookup_insert]
  split
  · next isRight => rw [if_neg (isRight ▸ differ.symm)]
  · rfl

/-! ## Compilers that know the same types -/

namespace Compiler

variable {isReserved : String -> Bool} {compiler left right : Compiler}

/-- What a compiler emits for a definition. -/
def emitted (compiler : Compiler) (isReserved : String -> Bool) (definition : Definition) :
    List Emission :=
  match (Verdict.judge isReserved compiler.registry definition).result with
  | .ok emission => emission.toList
  | .error _ => []

/-- Submitting a definition adds what is emitted for it. -/
theorem emissions_define (compiler : Compiler) (isReserved : String -> Bool)
    (definition : Definition) :
    (compiler.define (.fixed isReserved) definition).2.emissions =
      compiler.emissions ++ compiler.emitted isReserved definition := by
  simp only [define, emissions_apply, emitted]
  rcases (Verdict.judge isReserved compiler.registry definition).result with
    error | emission | emission <;> simp

/-- Submitting a definition adds what becomes known by it. -/
theorem registry_define (compiler : Compiler) (isReserved : String -> Bool)
    (definition : Definition) :
    (compiler.define (.fixed isReserved) definition).2.registry =
      compiler.registry.extend (Verdict.judge isReserved compiler.registry definition).binding := by
  simp only [define, apply]
  rcases (Verdict.judge isReserved compiler.registry definition).binding with _ | ⟨name, type⟩
  · rfl
  · rfl

/-- An accepted definition, with what becomes known and what is emitted. -/
theorem accepted_of_define {definition : Definition}
    (accepted : (compiler.define (.fixed isReserved) definition).1 = .ok ()) :
    ∃ emission, compiler.emitted isReserved definition = emission.toList ∧
      Verdict.Accepted isReserved compiler.registry definition
        (Verdict.judge isReserved compiler.registry definition).binding emission := by
  cases result : (Verdict.judge isReserved compiler.registry definition).result with
  | error error => simp [define, result, Except.map] at accepted
  | ok emission => exact ⟨emission, by simp [emitted, result], Verdict.accepted_of_judge result⟩

@[simp]
theorem submit_cons (first : Definition) (later : List Definition) :
    compiler.submit (.fixed isReserved) (first :: later) =
      (compiler.define (.fixed isReserved) first).2.submit (.fixed isReserved) later := rfl

/-- Definitions are accepted if the first one is, and then the others after it. -/
theorem acceptsAll_cons {first : Definition} {later : List Definition} :
    compiler.AcceptsAll (.fixed isReserved) (first :: later) ↔
      (compiler.define (.fixed isReserved) first).1 = .ok () ∧
        (compiler.define (.fixed isReserved) first).2.AcceptsAll (.fixed isReserved) later :=
  ⟨fun accepts => ⟨accepts 0 _ rfl, fun place reply found => accepts (place + 1) reply found⟩,
    fun ⟨accepted, others⟩ => others.cons accepted⟩

/-- Definitions are accepted one list after the other. -/
theorem acceptsAll_append {first second : List Definition} :
    compiler.AcceptsAll (.fixed isReserved) (first ++ second) ↔
      compiler.AcceptsAll (.fixed isReserved) first ∧
        (compiler.submit (.fixed isReserved) first).AcceptsAll (.fixed isReserved) second := by
  induction first generalizing compiler with
  | nil => exact ⟨fun accepts => ⟨acceptsAll_nil, accepts⟩, fun both => both.2⟩
  | cons definition rest inductionHypothesis =>
      rw [List.cons_append, acceptsAll_cons, acceptsAll_cons, inductionHypothesis, submit_cons,
        and_assoc]

/-- Two compilers know the same types. What they have emitted may differ. -/
def Agree (left right : Compiler) : Prop :=
  forall name, left.registry.lookup name = right.registry.lookup name

/-- The step: compilers that know the same types reply alike, emit the same and know the
same types afterwards. -/
theorem Agree.define (agree : left.Agree right) (isReserved : String -> Bool)
    (definition : Definition) :
    (left.define (.fixed isReserved) definition).1 =
        (right.define (.fixed isReserved) definition).1 ∧
      left.emitted isReserved definition = right.emitted isReserved definition ∧
      (left.define (.fixed isReserved) definition).2.Agree
        (right.define (.fixed isReserved) definition).2 := by
  have same : Verdict.judge isReserved left.registry definition =
      Verdict.judge isReserved right.registry definition :=
    Verdict.judge_congr fun name _ => agree name
  refine ⟨by simp only [Compiler.define, same], by simp only [emitted, same], fun name => ?_⟩
  rw [registry_define, registry_define, same]
  rcases (Verdict.judge isReserved right.registry definition).binding with _ | ⟨bound, type⟩
  · exact agree name
  · exact lookup_insert_congr (agree name)

/-- The run: compilers that know the same types go on to accept the same, emit the same and
know the same types. -/
theorem Agree.submit (agree : left.Agree right) {definitions : List Definition}
    (accepted : left.AcceptsAll (.fixed isReserved) definitions) :
    right.AcceptsAll (.fixed isReserved) definitions ∧
      (left.submit (.fixed isReserved) definitions).Agree
        (right.submit (.fixed isReserved) definitions) ∧
      ∃ added,
        (left.submit (.fixed isReserved) definitions).emissions = left.emissions ++ added ∧
        (right.submit (.fixed isReserved) definitions).emissions =
          right.emissions ++ added := by
  induction definitions generalizing left right with
  | nil => exact ⟨acceptsAll_nil, agree, [], by simp [Compiler.submit], by simp [Compiler.submit]⟩
  | cons first later inductionHypothesis =>
      obtain ⟨acceptedFirst, acceptedLater⟩ := acceptsAll_cons.mp accepted
      obtain ⟨reply, emits, agreeNext⟩ := agree.define isReserved first
      obtain ⟨accepts, agreeLast, added, leftAdds, rightAdds⟩ :=
        inductionHypothesis agreeNext acceptedLater
      refine ⟨accepts.cons (reply ▸ acceptedFirst), agreeLast,
        left.emitted isReserved first ++ added, ?_, ?_⟩
      · rw [submit_cons, leftAdds, emissions_define, List.append_assoc]
      · rw [submit_cons, rightAdds, emissions_define, emits, List.append_assoc]

/-! ## Two definitions -/

/-- The verdict on a definition is the same before and after another one that introduces
none of the names that matter for it. -/
theorem judge_after {first : Definition} (second : Definition)
    (accepted : (compiler.define (.fixed isReserved) first).1 = .ok ())
    (apart : forall name, first.typeName = some name -> name ∉ second.consulted) :
    Verdict.judge isReserved (compiler.define (.fixed isReserved) first).2.registry second =
      Verdict.judge isReserved compiler.registry second := by
  obtain ⟨emission, -, verdict⟩ := accepted_of_define accepted
  refine Verdict.judge_congr fun name consulted => ?_
  rw [registry_define]
  exact verdict.lookup_other fun named => apart name named consulted

/-- Two definitions, the second of which does not refer to the type of the first one, are
accepted in the other order, too, and then as much is emitted for each of them and the
same types are known. -/
theorem exchange {first second : Definition} (enums : compiler.registry.lookup "enum" ≠ none)
    (acceptedFirst : (compiler.define (.fixed isReserved) first).1 = .ok ())
    (acceptedSecond : ((compiler.define (.fixed isReserved) first).2.define
      (.fixed isReserved) second).1 = .ok ())
    (independent : forall name, first.typeName = some name -> name ∉ second.bases) :
    (compiler.define (.fixed isReserved) second).1 = .ok () ∧
      ((compiler.define (.fixed isReserved) second).2.define (.fixed isReserved) first).1 = .ok () ∧
      compiler.emitted isReserved second =
        (compiler.define (.fixed isReserved) first).2.emitted isReserved second ∧
      (compiler.define (.fixed isReserved) second).2.emitted isReserved first =
        compiler.emitted isReserved first ∧
      (((compiler.define (.fixed isReserved) first).2.define (.fixed isReserved) second).2).Agree
        ((compiler.define (.fixed isReserved) second).2.define (.fixed isReserved) first).2 := by
  obtain ⟨_, -, verdictFirst⟩ := accepted_of_define acceptedFirst
  obtain ⟨_, -, verdictSecond⟩ := accepted_of_define acceptedSecond
  have fresh : forall name, second.typeName = some name ->
      compiler.registry.lookup name = none ∧ first.typeName ≠ some name := by
    intro name named
    have unknown := verdictSecond.fresh_name named
    rw [registry_define] at unknown
    exact ⟨verdictFirst.lookup_of_extend unknown,
      fun same => verdictFirst.known_name same unknown⟩
  -- The second definition consults nothing that the first one introduces.
  have sameSecond := judge_after second acceptedFirst (by
    intro name named consulted
    rcases Definition.mem_consulted.mp consulted with rfl | own | base
    · exact enums (verdictFirst.fresh_name named)
    · exact (fresh name own).2 named
    · exact independent name named base)
  have acceptedEarlier : (compiler.define (.fixed isReserved) second).1 = .ok () := by
    rw [<- acceptedSecond]
    simp only [define, <- sameSecond]
  -- And the first one was accepted when the type of the second was not known yet.
  have sameFirst := judge_after first acceptedEarlier (by
    intro name named consulted
    obtain ⟨unknown, apart⟩ := fresh name named
    rcases Definition.mem_consulted.mp consulted with rfl | own | base
    · exact enums unknown
    · exact apart own
    · rcases verdictFirst.known_base base with known | own
      · exact known unknown
      · exact apart own)
  refine ⟨acceptedEarlier, ?_, ?_, ?_, fun name => ?_⟩
  · rw [<- acceptedFirst]
    simp only [define, <- sameFirst]
  · simp only [emitted, sameSecond]
  · simp only [emitted, sameFirst]
  · rw [registry_define, sameSecond, registry_define, registry_define, sameFirst, registry_define]
    refine Registry.lookup_extend_comm ?_ name
    have boundSecond := verdictSecond.bound_name
    rw [sameSecond] at boundSecond
    rw [verdictFirst.bound_name, boundSecond]
    exact fun name named => (fresh name named).2

/-- In a list of accepted definitions, two neighbours of which the second does not refer to
the type of the first may change places: the list is accepted still, the same types are
known in the end, and what the two emit changes places. -/
theorem submit_exchange {earlier later : List Definition} {first second : Definition}
    (accepted : start.AcceptsAll (.fixed isReserved) (earlier ++ [first, second] ++ later))
    (independent : forall name, first.typeName = some name -> name ∉ second.bases) :
    let before := start.submit (.fixed isReserved) earlier
    start.AcceptsAll (.fixed isReserved) (earlier ++ [second, first] ++ later) ∧
      (start.submit (.fixed isReserved) (earlier ++ [first, second] ++ later)).Agree
        (start.submit (.fixed isReserved) (earlier ++ [second, first] ++ later)) ∧
      before.emitted isReserved second =
        (before.define (.fixed isReserved) first).2.emitted isReserved second ∧
      ∃ added,
        (start.submit (.fixed isReserved) (earlier ++ [first, second] ++ later)).emissions =
          before.emissions ++ before.emitted isReserved first
            ++ (before.define (.fixed isReserved) first).2.emitted isReserved second ++ added ∧
        (start.submit (.fixed isReserved) (earlier ++ [second, first] ++ later)).emissions =
          before.emissions ++ (before.define (.fixed isReserved) first).2.emitted isReserved second
            ++ before.emitted isReserved first ++ added := by
  intro before
  simp only [acceptsAll_append, acceptsAll_cons, submit_append] at accepted ⊢
  obtain ⟨⟨acceptedEarlier, acceptedFirst, acceptedSecond, -⟩, acceptedLater⟩ := accepted
  have enums : before.registry.lookup "enum" ≠ none := by
    rw [lookup_submit (Registry.lookup_builtin ("enum", "enum") (by decide)) earlier]
    simp
  obtain ⟨earlierSecond, laterFirst, emitsSecond, emitsFirst, agree⟩ :=
    exchange enums acceptedFirst acceptedSecond independent
  obtain ⟨accepts, agreeLast, added, wholeAdds, otherAdds⟩ := agree.submit acceptedLater
  refine ⟨⟨⟨acceptedEarlier, earlierSecond, laterFirst, acceptsAll_nil⟩, accepts⟩, agreeLast,
    emitsSecond, added, ?_, ?_⟩
  · refine wholeAdds.trans ?_
    rw [emissions_define, emissions_define]
  · refine otherAdds.trans ?_
    rw [emissions_define, emissions_define, emitsSecond, emitsFirst]

end Compiler

/-! ## What is written for a definition -/

/-- Two neighbouring pieces of a text have changed places. -/
def Swapped (first second whole other : String) : Prop :=
  ∃ before after, whole = before ++ first ++ second ++ after ∧
    other = before ++ second ++ first ++ after

/-- Nothing has changed where one of the pieces is empty. -/
theorem Swapped.eq_of_empty {first second whole other : String}
    (swapped : Swapped first second whole other) (empty : first = "" ∨ second = "") :
    other = whole := by
  obtain ⟨before, after, rfl, rfl⟩ := swapped
  rcases empty with rfl | rfl <;> simp

namespace Definition

/-- The definitions that bind constants. -/
def bindsConstants : Definition -> Bool
  | .constant _ _ _ | .enum _ _ _ => true
  | .typedef _ | .struct _ _ _ | .union _ _ _ _ | .program _ => false

/-- The definitions of records: structures, unions, and further names for them. -/
def DefinesRecord (registry : Registry) : Definition -> Prop
  | .struct _ _ _ | .union _ _ _ _ => True
  | .typedef declaration => declaration.type.shape = .scalar ∧
      ∃ entry, registry.lookup declaration.type.base = some entry ∧ entry.namesRecord = true
  | .constant _ _ _ | .enum _ _ _ | .program _ => False

end Definition

section

variable {compiler : Compiler} {isReserved : String -> Bool} {definition : Definition}

/-- Nothing is written to the constants for a definition that binds none. -/
theorem Compiler.constants_eq_empty
    (accepted : (compiler.define (.fixed isReserved) definition).1 = .ok ())
    (unbound : definition.bindsConstants = false) :
    (Python.pieces (compiler.emitted isReserved definition)).constants = "" := by
  obtain ⟨emission, emits, verdict⟩ := accepted_of_define accepted
  rw [emits]
  generalize (Verdict.judge isReserved compiler.registry definition).binding = binding at verdict
  cases verdict with
  | constant | enum => cases unbound
  | typedef | struct | union | program => rfl

/-- Nothing is written to the record classes for a definition of no record. -/
theorem Compiler.types_eq_empty
    (accepted : (compiler.define (.fixed isReserved) definition).1 = .ok ())
    (noRecord : ¬ definition.DefinesRecord compiler.registry) :
    (Python.pieces (compiler.emitted isReserved definition)).types = "" := by
  obtain ⟨emission, emits, verdict⟩ := accepted_of_define accepted
  rw [emits]
  generalize (Verdict.judge isReserved compiler.registry definition).binding = binding at verdict
  cases verdict with
  | struct | union => exact absurd trivial noRecord
  | constant | enum | program => rfl
  | @typedef declaration target declares new completed =>
      obtain ⟨completedDeclaration, coding⟩ := target
      cases coding with
      | record name => exact absurd (completed.of_record rfl declares) noRecord
      | _ => rfl

/-- Nothing is written to the routines for a definition without a routine. -/
theorem Compiler.routines_eq_empty
    (accepted : (compiler.define (.fixed isReserved) definition).1 = .ok ())
    (noRoutine : definition.routineName = none) :
    (Python.pieces (compiler.emitted isReserved definition)).packer = "" ∧
      (Python.pieces (compiler.emitted isReserved definition)).unpacker = "" := by
  obtain ⟨emission, emits, verdict⟩ := accepted_of_define accepted
  rw [emits]
  generalize (Verdict.judge isReserved compiler.registry definition).binding = binding at verdict
  cases verdict with
  | enum | typedef => cases noRoutine
  | constant | struct | union | program => exact ⟨rfl, rfl⟩

end

/-- The generated modules when two pieces in each of them have changed places. In the module
of routines they do so within each of the two classes. -/
structure Python.Neighbours (naming : Naming) (one two : Pieces) (texts others : Artifacts) :
    Prop where
  constants : Swapped one.constants two.constants texts.constants others.constants
  types : Swapped one.types two.types texts.types others.types
  packer : ∃ packer unpacker otherPacker otherUnpacker,
    texts.packer = packerStart naming ++ packer ++ unpackerStart naming ++ unpacker ∧
    others.packer =
      packerStart naming ++ otherPacker ++ unpackerStart naming ++ otherUnpacker ∧
    Swapped one.packer two.packer packer otherPacker ∧
    Swapped one.unpacker two.unpacker unpacker otherUnpacker

/-- Where neighbouring emissions change places, their pieces do so in every module. -/
theorem Python.neighbours_artifacts (naming : Naming) (before first second after : List Emission) :
    Neighbours naming (pieces first) (pieces second)
      (artifacts naming (before ++ first ++ second ++ after))
      (artifacts naming (before ++ second ++ first ++ after)) := by
  rw [artifacts_eq, artifacts_eq]
  simp only [pieces_append]
  refine ⟨⟨_, _, rfl, rfl⟩, ?_, ⟨_, _, _, _, rfl, rfl, ⟨_, _, rfl, rfl⟩, ⟨_, _, rfl, rfl⟩⟩⟩
  refine ⟨Text.unlines (typesPreamble naming) ++ (pieces before).types, (pieces after).types,
    ?_, ?_⟩
  · simp only [String.append_assoc]
  · simp only [String.append_assoc]

/-- The module of routines is the same if one of two neighbours writes no routines. -/
theorem Python.Neighbours.packer_eq {naming : Naming} {one two : Pieces} {texts others : Artifacts}
    (neighbours : Neighbours naming one two texts others)
    (empty : (one.packer = "" ∧ one.unpacker = "") ∨ (two.packer = "" ∧ two.unpacker = "")) :
    others.packer = texts.packer := by
  obtain ⟨packer, unpacker, otherPacker, otherUnpacker, isText, isOther, packers, unpackers⟩ :=
    neighbours.packer
  rw [isText, isOther, packers.eq_of_empty (empty.imp And.left And.left),
    unpackers.eq_of_empty (empty.imp And.right And.right)]

/-- In a list of accepted definitions, let two neighbours change places, the second of which
does not refer to the type of the first. The list is accepted still, and the same types are
known in the end. In each generated module the pieces written for the two change places, in
the module of routines within each class. The constants remain the same text unless both
definitions bind constants, the record classes unless both define records, and the
routines unless both are enumerations or type definitions. -/
theorem Compiler.submit_neighbours (isReserved : String -> Bool) (naming : Naming)
    (earlier later : List Definition) (first second : Definition)
    (accepted : start.AcceptsAll (.fixed isReserved) (earlier ++ [first, second] ++ later))
    (independent : forall name, first.typeName = some name -> name ∉ second.bases) :
    let before := start.submit (.fixed isReserved) earlier
    let whole := start.submit (.fixed isReserved) (earlier ++ [first, second] ++ later)
    let other := start.submit (.fixed isReserved) (earlier ++ [second, first] ++ later)
    let one := Python.pieces (before.emitted isReserved first)
    let two := Python.pieces ((before.define (.fixed isReserved) first).2.emitted isReserved second)
    let texts := Python.artifacts naming whole.emissions
    let others := Python.artifacts naming other.emissions
    start.AcceptsAll (.fixed isReserved) (earlier ++ [second, first] ++ later) ∧
    (forall name, other.registry.lookup name = whole.registry.lookup name) ∧
    Python.Neighbours naming one two texts others ∧
    (others.constants = texts.constants ∨
      first.bindsConstants = true ∧ second.bindsConstants = true) ∧
    (others.types = texts.types ∨
      first.DefinesRecord before.registry ∧ second.DefinesRecord before.registry) ∧
    (others.packer = texts.packer ∨
      first.routineName.isSome = true ∧ second.routineName.isSome = true) := by
  intro before whole other one two texts others
  obtain ⟨acceptedOther, agree, emitsSecond, added, emitsWhole, emitsOther⟩ :=
    submit_exchange accepted independent
  have neighbours : Python.Neighbours naming one two texts others := by
    simp only [texts, others, whole, other, emitsWhole, emitsOther]
    exact Python.neighbours_artifacts naming _ _ _ added
  -- Both definitions are accepted right behind the earlier ones, each in one of the orders.
  have acceptedFirst : (before.define (.fixed isReserved) first).1 = .ok () :=
    (acceptsAll_cons.mp (acceptsAll_append.mp (acceptsAll_append.mp accepted).1).2).1
  have acceptedSecond : (before.define (.fixed isReserved) second).1 = .ok () :=
    (acceptsAll_cons.mp (acceptsAll_append.mp (acceptsAll_append.mp acceptedOther).1).2).1
  have isTwo : two = Python.pieces (before.emitted isReserved second) :=
    congrArg Python.pieces emitsSecond.symm
  refine ⟨acceptedOther, fun name => (agree name).symm, neighbours, ?_, ?_, ?_⟩
  · by_cases both : first.bindsConstants = true ∧ second.bindsConstants = true
    · exact .inr both
    · refine .inl (neighbours.constants.eq_of_empty ?_)
      rw [isTwo]
      rcases not_and_or.mp both with unbound | unbound
      · exact .inl (constants_eq_empty acceptedFirst (Bool.eq_false_iff.mpr unbound))
      · exact .inr (constants_eq_empty acceptedSecond (Bool.eq_false_iff.mpr unbound))
  · by_cases both : first.DefinesRecord before.registry ∧ second.DefinesRecord before.registry
    · exact .inr both
    · refine .inl (neighbours.types.eq_of_empty ?_)
      rw [isTwo]
      exact (not_and_or.mp both).imp (types_eq_empty acceptedFirst) (types_eq_empty acceptedSecond)
  · by_cases both : first.routineName.isSome = true ∧ second.routineName.isSome = true
    · exact .inr both
    · refine .inl (neighbours.packer_eq ?_)
      rw [isTwo]
      rcases not_and_or.mp both with unnamed | unnamed
      · exact .inl (routines_eq_empty acceptedFirst (by simpa using unnamed))
      · exact .inr (routines_eq_empty acceptedSecond (by simpa using unnamed))

/-- An enumeration and a type definition in front of a structure that uses both: their
routines change places, and nothing else does. -/
theorem Compiler.submit_neighbours_color :
    let isReserved := Python.isReserved
    let first := Definition.enum "color" [⟨"RED", .number "0", 1⟩] 1
    let integer : Declaration := ⟨"id", .named "int", 2⟩
    let second := Definition.typedef integer
    let later := [Definition.struct "p" [⟨"c", .named "color", 3⟩, ⟨"i", .named "id", 3⟩] 3]
    let texts := Python.artifacts .standard
      (start.submit (.fixed isReserved) ([] ++ [first, second] ++ later)).emissions
    let others := Python.artifacts .standard
      (start.submit (.fixed isReserved) ([] ++ [second, first] ++ later)).emissions
    start.AcceptsAll (.fixed isReserved) ([] ++ [first, second] ++ later) ∧
    "color" ∉ second.bases ∧
    start.AcceptsAll (.fixed isReserved) ([] ++ [second, first] ++ later) ∧
    Python.Neighbours .standard
      ⟨"RED = 0\n", "", "    pack_color = pack_enum\n", "    unpack_color = unpack_enum\n"⟩
      ⟨"", "", "    pack_id = pack_int\n", "    unpack_id = unpack_int\n"⟩ texts others ∧
    others.constants = texts.constants ∧ others.types = texts.types := by
  intro isReserved first integer second later texts others
  have accepted : start.AcceptsAll (.fixed isReserved) ([] ++ [first, second] ++ later) :=
    .cons (by decide +kernel) (.cons (by decide +kernel) (.cons (by decide +kernel)
      acceptsAll_nil))
  have independent : forall name, first.typeName = some name -> name ∉ second.bases := by
    rintro name ⟨⟩
    decide
  have one : Python.pieces ((start.submit (.fixed isReserved) []).emitted isReserved first) =
      ⟨"RED = 0\n", "", "    pack_color = pack_enum\n", "    unpack_color = unpack_enum\n"⟩ := by
    decide +kernel
  have two : Python.pieces
      (((start.submit (.fixed isReserved) []).define (.fixed isReserved) first).2.emitted
        isReserved second) =
      ⟨"", "", "    pack_id = pack_int\n", "    unpack_id = unpack_int\n"⟩ := by
    decide +kernel
  obtain ⟨acceptedOther, -, neighbours, constants, types, -⟩ :=
    submit_neighbours isReserved .standard [] later first second accepted independent
  rw [one, two] at neighbours
  refine ⟨accepted, by decide, acceptedOther, neighbours, ?_, ?_⟩
  · exact constants.resolve_right fun both => absurd both.2 (by decide)
  · exact types.resolve_right fun both => both.1

end XdrPack
