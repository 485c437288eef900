import Mathlib.Data.List.Forall2
import XdrPack.Compiler
import XdrPack.Proofs.Recognition

/-!
# Accepted definitions

`Verdict.Accepted` says once what it takes for a definition to be accepted: the
names that must not be reserved, the types that must be known, what becomes known
and what is emitted. A successful compilation is a run of accepted definitions,
which are those that the parser finds in the source text.
-/

namespace XdrPack

/-! ## Success in sequence -/

/-- A computation after another succeeds if both do. -/
theorem bind_eq_ok {ε α β : Type} {first : Except ε α} {second : α -> Except ε β} {result : β} :
    first >>= second = .ok result ↔ ∃ value, first = .ok value ∧ second value = .ok result := by
  cases first with
  | error cause => simp [bind, Except.bind]
  | ok value => simp [bind, Except.bind]

/-- A computation after a check succeeds if both do. -/
theorem check_eq_ok {ε β : Type} {check : Except ε Unit} {second : Except ε β} {result : β} :
    (check >>= fun _ => second) = .ok result ↔ check = .ok () ∧ second = .ok result := by
  rw [bind_eq_ok]
  exact ⟨fun ⟨_, passed, success⟩ => ⟨passed, success⟩,
    fun ⟨passed, success⟩ => ⟨(), passed, success⟩⟩

/-- A changed result fails as the result does. -/
theorem map_eq_error {ε α β : Type} {result : Except ε α} {change : α -> β} {error : ε} :
    result.map change = .error error ↔ result = .error error := by
  cases result <;> simp [Except.map]

/-- All items of a list are mapped if each of them is. -/
theorem mapM_eq_ok {ε α β : Type} {change : α -> Except ε β} {items : List α} {results : List β} :
    items.mapM change = .ok results ↔
      List.Forall₂ (fun item result => change item = .ok result) items results := by
  induction items generalizing results with
  | nil => cases results <;> simp [pure, Except.pure]
  | cons item rest inductionHypothesis =>
      simp only [List.mapM_cons, bind_eq_ok, inductionHypothesis]
      constructor
      · rintro ⟨result, mapped, others, mappedOthers, equal⟩
        obtain rfl : result :: others = results := by simpa [pure, Except.pure] using equal
        exact .cons mapped mappedOthers
      · rintro (_ | ⟨mapped, mappedOthers⟩)
        exact ⟨_, mapped, _, mappedOthers, rfl⟩

/-- All items of a list pass a check if each of them does. -/
theorem forM_eq_ok {ε α : Type} {check : α -> Except ε Unit} {items : List α} :
    items.forM check = .ok () ↔ forall item, item ∈ items -> check item = .ok () := by
  induction items with
  | nil => simp [pure, Except.pure]
  | cons item rest inductionHypothesis =>
      show (check item >>= fun _ => rest.forM check) = _ ↔ _
      rw [check_eq_ok, inductionHypothesis, List.forall_mem_cons]

/-- What is on the right of related lists is related to something on the left. -/
theorem exists_of_forall₂ {α β : Type} {related : α -> β -> Prop} {lefts : List α}
    {rights : List β} (all : List.Forall₂ related lefts rights) {right : β}
    (listed : right ∈ rights) : ∃ left, left ∈ lefts ∧ related left right := by
  induction all with
  | nil => cases listed
  | @cons left other lefts others first rest inductionHypothesis =>
      rcases List.mem_cons.mp listed with rfl | later
      · exact ⟨left, List.mem_cons_self, first⟩
      · obtain ⟨found, isLeft, relates⟩ := inductionHypothesis later
        exact ⟨found, List.mem_cons_of_mem _ isLeft, relates⟩

/-- Values that may be missing are related if their lists are. -/
theorem rel_of_forall₂_toList {α β : Type} {R : α -> β -> Prop} {left : Option α}
    {right : Option β} (related : List.Forall₂ R left.toList right.toList) :
    Option.Rel R left right := by
  cases left with
  | none =>
      cases right with
      | none => exact .none
      | some value => cases related
  | some value =>
      cases right with
      | none => cases related
      | some other =>
          obtain ⟨related, -⟩ := List.forall₂_cons.mp related
          exact .some related

/-! ## Names and declarations -/

/-- The check of a name passes exactly names that are not reserved. -/
theorem checkName_eq_ok {isReserved : String -> Bool} {name : String} {role : NameRole}
    {line : Int} : checkName isReserved name role line = .ok () ↔ isReserved name = false := by
  unfold checkName
  split <;> simp_all

/-- The name of a new type is neither reserved nor taken. -/
structure NewName (isReserved : String -> Bool) (registry : Registry) (name : String) : Prop where
  allowed : isReserved name = false
  fresh : registry.lookup name = none

/-- The check of the name of a type passes exactly new names. -/
theorem checkTypeName_eq_ok {isReserved : String -> Bool} {registry : Registry} {name : String}
    {line : Int} :
    checkTypeName isReserved registry name line = .ok () ↔ NewName isReserved registry name := by
  have taken : registry.contains name = false ↔ registry.lookup name = none := by
    simp [Registry.contains]
  simp only [checkTypeName, check_eq_ok, checkName_eq_ok]
  constructor
  · rintro ⟨allowed, notTaken⟩
    refine ⟨allowed, taken.mp ?_⟩
    by_contra contained
    simp [contained] at notTaken
  · rintro ⟨allowed, fresh⟩
    exact ⟨allowed, by simp [taken.mpr fresh]⟩

/-- The field that a declaration is completed to. -/
structure Declaration.Completes (registry : Registry) (declaration : Declaration)
    (field : Field) : Prop where
  declared : field.declaration = { declaration with type := field.declaration.type }
  known : registry.complete? declaration.type = some field.declaration.type
  coded : field.coding = Coding.choose registry field.declaration.type

/-- Completing a declaration gives the field that completes it and no other. -/
theorem complete_eq_ok {registry : Registry} {declaration : Declaration} {field : Field} :
    declaration.complete registry = .ok field ↔ declaration.Completes registry field := by
  unfold Declaration.complete
  constructor
  · intro success
    split at success
    · cases success
    · next known =>
        cases success
        exact ⟨rfl, known, rfl⟩
  · rintro ⟨declared, known, coded⟩
    simp only [known, <- coded, <- declared]

/-- The field that a declaration inside a record is completed to. -/
structure Declaration.CompletesMember (isReserved : String -> Bool) (registry : Registry)
    (declaration : Declaration) (field : Field) : Prop
    extends declaration.Completes registry field where
  allowed : declaration.isVoid = false -> isReserved declaration.name = false

/-- Completing a member gives the field that completes it and no other. -/
theorem completeMember_eq_ok {isReserved : String -> Bool} {registry : Registry}
    {declaration : Declaration} {field : Field} :
    declaration.completeMember isReserved registry = .ok field ↔
      declaration.CompletesMember isReserved registry field := by
  unfold Declaration.completeMember
  cases isVoid : declaration.isVoid with
  | true =>
      simp only [if_true, complete_eq_ok]
      exact ⟨fun completes => ⟨completes, by simp [isVoid]⟩, fun member => member.toCompletes⟩
  | false =>
      simp only [Bool.false_eq_true, if_false, check_eq_ok, checkName_eq_ok, complete_eq_ok]
      constructor
      · rintro ⟨allowed, completes⟩
        exact ⟨completes, fun _ => allowed⟩
      · rintro ⟨completes, allowed⟩
        exact ⟨allowed isVoid, completes⟩

/-! ## Unions -/

/-- The arm that a group of labels is completed to. -/
structure CaseGroup.Completes (isReserved : String -> Bool) (registry : Registry)
    (group : CaseGroup) (arm : UnionArm) : Prop where
  labels : arm.labels = group.labels
  allowed : forall name, .constant name ∈ group.labels -> isReserved name = false
  body : group.body.CompletesMember isReserved registry arm.body

/-- A group of cases that is completed gives the arm that completes it. -/
theorem completeGroup_eq_ok {isReserved : String -> Bool} {registry : Registry}
    {group : CaseGroup} {arm : UnionArm} (success : group.complete isReserved registry = .ok arm) :
    group.Completes isReserved registry arm := by
  obtain ⟨checked, success⟩ := check_eq_ok.mp success
  obtain ⟨body, completed, equal⟩ := bind_eq_ok.mp success
  cases equal
  refine ⟨rfl, fun name labelled => ?_, completeMember_eq_ok.mp completed⟩
  exact checkName_eq_ok.mp (forM_eq_ok.mp checked _ labelled)

/-- The layout that the parts of a union are completed to. -/
structure UnionLayout.Completes (isReserved : String -> Bool) (registry : Registry)
    (discriminant : Declaration) (switch : Switch) (layout : UnionLayout) : Prop where
  selector : discriminant.CompletesMember isReserved registry layout.discriminant
  arms : List.Forall₂ (CaseGroup.Completes isReserved registry) switch.groups layout.arms
  fallback : List.Forall₂ (Declaration.CompletesMember isReserved registry)
    switch.defaultBody.toList layout.fallback.toList
  closed : switch.dangling = [] ∨ switch.defaultBody.isSome

/-- Collapsing a switch gives its groups and its default, and no labels are left over unless
there is a default. -/
theorem collapse_eq_ok {switch : Switch} {groups : List CaseGroup} {fallback : Option Declaration}
    (success : switch.collapse = .ok (groups, fallback)) :
    groups = switch.groups ∧ fallback = switch.defaultBody ∧
      (switch.dangling = [] ∨ switch.defaultBody.isSome) := by
  unfold Switch.collapse at success
  split at success
  · cases success
  · next refused =>
      cases success
      refine ⟨rfl, rfl, ?_⟩
      cases dangling : switch.dangling with
      | nil => exact .inl rfl
      | cons first rest =>
          right
          cases body : switch.defaultBody with
          | none => exact absurd body (refused first rest dangling)
          | some declaration => rfl

/-- A switch collapses if no case is left over or there is a default. -/
theorem Switch.collapse_of_closed {switch : Switch}
    (closed : switch.dangling = [] ∨ switch.defaultBody.isSome = true) :
    switch.collapse = .ok (switch.groups, switch.defaultBody) := by
  unfold collapse
  split
  · next dangling noDefault =>
      rw [dangling, noDefault] at closed
      simp at closed
  · rfl

/-- A default that is completed keeps whether there is a body, which is completed as a member.
-/
theorem completeDefault_eq_ok {isReserved : String -> Bool} {registry : Registry}
    {body : Option Declaration} {fallback : Option Field}
    (success : completeDefault isReserved registry body = .ok fallback) :
    List.Forall₂ (Declaration.CompletesMember isReserved registry) body.toList fallback.toList := by
  cases body with
  | none =>
      cases success
      exact .nil
  | some declaration =>
      simp only [completeDefault, map_eq_pure_bind, bind_eq_ok, completeMember_eq_ok] at success
      obtain ⟨field, completes, equal⟩ := success
      cases equal
      exact .cons completes .nil

/-- A layout that is built completes the discriminant and the switch. -/
theorem build_eq_ok {isReserved : String -> Bool} {registry : Registry}
    {discriminant : Declaration} {switch : Switch} {layout : UnionLayout}
    (success : UnionLayout.build isReserved registry discriminant switch = .ok layout) :
    layout.Completes isReserved registry discriminant switch := by
  simp only [UnionLayout.build, bind_eq_ok, completeMember_eq_ok, mapM_eq_ok] at success
  obtain ⟨selector, selects, ⟨groups, body⟩, collapsed, arms, completed, fallback, defaulted,
    equal⟩ :=
    success
  cases equal
  obtain ⟨rfl, rfl, closed⟩ := collapse_eq_ok collapsed
  exact ⟨selects, completed.imp fun _ _ => completeGroup_eq_ok, completeDefault_eq_ok defaulted,
    closed⟩

/-! ## Verdicts -/

/-- The registry with a further type, if there is one. -/
def Registry.extend (registry : Registry) : Option (String × TypeRef) -> Registry
  | none => registry
  | some (name, type) => registry.insert name type

namespace Verdict

/-- A definition is accepted, with the type that becomes known and what is
emitted. The fields of a record may refer to the record itself. -/
inductive Accepted (isReserved : String -> Bool) (registry : Registry) :
    Definition -> Option (String × TypeRef) -> Option Emission -> Prop where
  | constant {name value line} (allowed : isReserved name = false) :
      Accepted isReserved registry (.constant name value line) none (some (.constant name value))
  | enum {name members line target} (new : NewName isReserved registry name)
      (allowed : forall member : EnumMember, member ∈ members -> isReserved member.name = false)
      (completed : Declaration.Completes registry ⟨name, .named "enum", line⟩ target) :
      Accepted isReserved registry (.enum name members line)
        (some (name, target.declaration.type)) (some (.enum name members))
  | typedef {declaration target} (declares : declaration.isVoid = false)
      (new : NewName isReserved registry declaration.name)
      (completed : declaration.Completes registry target) :
      Accepted isReserved registry (.typedef declaration)
        (some (declaration.name, target.declaration.type))
        (some (.typedef declaration.name target))
  | struct {name fields line members} (new : NewName isReserved registry name)
      (completed : List.Forall₂
        (Declaration.CompletesMember isReserved (registry.insert name (.record name)))
        fields members) :
      Accepted isReserved registry (.struct name fields line) (some (name, .record name))
        (some (.struct name members))
  | union {name discriminant switch line layout} (new : NewName isReserved registry name)
      (declares : discriminant.isVoid = false)
      (completed : UnionLayout.Completes isReserved (registry.insert name (.record name))
        discriminant switch layout) :
      Accepted isReserved registry (.union name discriminant switch line)
        (some (name, .record name)) (some (.union name layout))
  | program {remote} : Accepted isReserved registry (.program remote) none none

/-- A definition that is judged without an error is accepted. -/
theorem accepted_of_judge {isReserved : String -> Bool} {registry : Registry}
    {definition : Definition} {emission : Option Emission}
    (success : (judge isReserved registry definition).result = .ok emission) :
    Accepted isReserved registry definition (judge isReserved registry definition).binding
      emission := by
  cases definition with
  | constant name value line =>
      obtain ⟨allowed, equal⟩ := check_eq_ok.mp success
      cases equal
      exact .constant (checkName_eq_ok.mp allowed)
  | enum name members line =>
      simp only [judge, onEnum] at success ⊢
      split at success
      · cases success
      · next checked =>
          cases success
          obtain ⟨new, checked⟩ := check_eq_ok.mp checked
          obtain ⟨allowed, completed⟩ := check_eq_ok.mp checked
          refine .enum (checkTypeName_eq_ok.mp new) (fun member listed => ?_)
            (complete_eq_ok.mp completed)
          exact checkName_eq_ok.mp (forM_eq_ok.mp allowed _ listed)
  | typedef declaration =>
      simp only [judge, onTypedef] at success ⊢
      split at success
      · cases success
      · next declares =>
          split at success
          · cases success
          · next new =>
              split at success
              · cases success
              · next completed =>
                  cases success
                  rw [if_neg declares]
                  exact .typedef (by simpa using declares) (checkTypeName_eq_ok.mp new)
                    (complete_eq_ok.mp completed)
  | struct name fields line =>
      simp only [judge, onStruct] at success ⊢
      split at success
      · cases success
      · next new =>
          obtain ⟨members, completed, equal⟩ := bind_eq_ok.mp success
          cases equal
          exact .struct (checkTypeName_eq_ok.mp new)
            ((mapM_eq_ok.mp completed).imp fun _ _ => completeMember_eq_ok.mp)
  | union name discriminant switch line =>
      simp only [judge, onUnion] at success ⊢
      split at success
      · cases success
      · next new =>
          split at success
          · cases success
          · next declares =>
              obtain ⟨layout, completed, equal⟩ := bind_eq_ok.mp success
              cases equal
              rw [if_neg declares]
              exact .union (checkTypeName_eq_ok.mp new) (by simpa using declares)
                (build_eq_ok completed)
  | program remote =>
      cases success
      exact .program

/-- What is accepted is accepted as well where fewer names are reserved. -/
theorem Accepted.weaken {isReserved fewer : String -> Bool} {registry : Registry}
    {definition : Definition} {binding : Option (String × TypeRef)} {emission : Option Emission}
    (accepted : Accepted isReserved registry definition binding emission)
    (weaker : forall name, isReserved name = false -> fewer name = false) :
    Accepted fewer registry definition binding emission := by
  have member : forall (known : Registry) declaration field,
      Declaration.CompletesMember isReserved known declaration field ->
        declaration.CompletesMember fewer known field :=
    fun _ _ _ completes => ⟨completes.toCompletes, fun declares =>
      weaker _ (completes.allowed declares)⟩
  have newName : forall name, NewName isReserved registry name -> NewName fewer registry name :=
    fun name new => ⟨weaker name new.allowed, new.fresh⟩
  cases accepted with
  | constant allowed => exact .constant (weaker _ allowed)
  | enum new allowed completed =>
      exact .enum (newName _ new) (fun each listed => weaker _ (allowed each listed)) completed
  | typedef declares new completed => exact .typedef declares (newName _ new) completed
  | struct new completed => exact .struct (newName _ new) (completed.imp (member _))
  | union new declares completed =>
      refine .union (newName _ new) declares ⟨member _ _ _ completed.selector, ?_,
        completed.fallback.imp (member _), completed.closed⟩
      exact completed.arms.imp fun group arm completes => ⟨completes.labels,
        fun name labelled => weaker _ (completes.allowed name labelled),
        member _ _ _ completes.body⟩
  | program => exact .program

end Verdict

/-- The names are reserved whatever has been emitted. -/
def Reservation.Includes (isReserved : Reservation) (always : String -> Bool) : Prop :=
  forall emissions name, isReserved emissions name = false -> always name = false

/-- Names that are reserved in any case are reserved whatever has been emitted. -/
theorem Reservation.includes_fixed (isReserved : String -> Bool) :
    (Reservation.fixed isReserved).Includes isReserved := fun _ _ => id

/-- No name need be reserved. -/
theorem Reservation.includes_none (isReserved : Reservation) :
    isReserved.Includes fun _ => false := fun _ _ _ => rfl

/-! ## Runs -/

/-- A run of accepted definitions, with the registry at its end and everything
that is emitted on the way. -/
inductive Run (isReserved : String -> Bool) :
    Registry -> List Definition -> Registry -> List Emission -> Prop where
  | done {registry} : Run isReserved registry [] registry []
  | step {registry definition binding emission definitions final emissions}
      (accepted : Verdict.Accepted isReserved registry definition binding emission)
      (rest : Run isReserved (registry.extend binding) definitions final emissions) :
      Run isReserved registry (definition :: definitions) final (emission.toList ++ emissions)

namespace Compiler

/-- What taking in an accepted definition does to the compiler. -/
theorem define_eq_ok {compiler next : Compiler} {isReserved : Reservation}
    {definition : Definition} (success : compiler.define isReserved definition = (.ok (), next)) :
    ∃ binding emission,
      Verdict.Accepted (isReserved compiler.emissions) compiler.registry definition binding
        emission ∧
      next.registry = compiler.registry.extend binding ∧
      next.emissions = compiler.emissions ++ emission.toList := by
  simp only [define, Prod.mk.injEq] at success
  obtain ⟨passed, rfl⟩ := success
  cases result :
    (Verdict.judge (isReserved compiler.emissions) compiler.registry definition).result with
  | error cause => simp [result, Except.map] at passed
  | ok emission =>
      refine ⟨_, emission, Verdict.accepted_of_judge result, ?_, ?_⟩
      · simp only [apply]
        split <;> next binding => rw [binding]; rfl
      · rw [emissions_apply, result]
        cases emission <;> simp

/-- Submitting the definitions of a stream succeeds only if the parser accepts the
stream and every definition is accepted. -/
theorem defineAll_eq_ok {compiler final : Compiler} {isReserved : Reservation}
    {always : String -> Bool} (includes : isReserved.Includes always)
    {stream rest : TokenStream}
    (success : compiler.defineAll isReserved stream = (.ok (), final, rest)) :
    ∃ definitions emissions, stream.parse = .ok definitions ∧
      Run always compiler.registry definitions final.registry emissions ∧
      final.emissions = compiler.emissions ++ emissions := by
  fun_induction defineAll compiler isReserved stream with
  | case1 compiler stream error remaining reply => cases success
  | case2 compiler stream remaining reply =>
      cases success
      exact ⟨[], [], by rw [TokenStream.parse_eq, reply], .done, by simp⟩
  | case3 compiler stream definition remaining reply error next refused => cases success
  | case4 compiler stream definition remaining reply next accepted inductionHypothesis =>
      obtain ⟨binding, emission, step, registry, emitted⟩ := define_eq_ok accepted
      obtain ⟨definitions, emissions, parsed, run, emittedMore⟩ := inductionHypothesis success
      rw [registry] at run
      refine ⟨definition :: definitions, emission.toList ++ emissions, ?_,
        .step (step.weaken (includes _)) run, ?_⟩
      · rw [TokenStream.parse_eq, reply]
        simp only [parsed]
      · rw [emittedMore, emitted, List.append_assoc]

/-- What a back end makes out of the emissions is the result, if it makes anything. -/
theorem compile_of_defineAll {compiler final : Compiler} {backend : Backend} {source : String}
    {rest : TokenStream}
    (submitted : compiler.defineAll backend.isReserved (Lexing.ofText source).stream =
      (.ok (), final, rest)) :
    compiler.compile backend source =
      ((backend.finish final.emissions).map
        (⟨·, (Lexing.ofText source).errorsSeen rest.unread.length⟩), (final.finish backend).2) := by
  simp only [compile, submitted]
  rfl

/-- A source text is compiled only if the parser accepts it and every definition
is accepted, and then the back end makes the result out of everything emitted. -/
theorem compile_eq_ok {compiler final : Compiler} {backend : Backend} {always : String -> Bool}
    (includes : backend.isReserved.Includes always) {source : String} {compilation : Compilation}
    (success : compiler.compile backend source = (.ok compilation, final)) :
    ∃ definitions emissions, (Lexing.ofText source).stream.parse = .ok definitions ∧
      Run always compiler.registry definitions final.registry emissions ∧
      final.emissions = compiler.emissions ++ emissions ∧
      backend.finish final.emissions = .ok compilation.artifacts := by
  rcases submitted : compiler.defineAll backend.isReserved (Lexing.ofText source).stream with
    ⟨failure | done, state, rest⟩
  · simp [compile, submitted] at success
  · rw [compile_of_defineAll submitted, Prod.mk.injEq] at success
    obtain ⟨finished, rfl⟩ := success
    obtain ⟨definitions, emissions, parsed, run, emitted⟩ := defineAll_eq_ok includes submitted
    refine ⟨definitions, emissions, parsed, run, by rw [emissions_finish, emitted], ?_⟩
    rw [emissions_finish]
    cases made : backend.finish state.emissions with
    | error failure => simp [made, Except.map] at finished
    | ok artifacts =>
        rw [made] at finished
        cases finished
        rfl

/-- A compilation without a failure has a result. -/
theorem exists_of_isOk {compiler : Compiler} {backend : Backend} {source : String}
    (accepted : (compiler.compile backend source).1.isOk = true) :
    ∃ compilation final, compiler.compile backend source = (.ok compilation, final) := by
  generalize compiler.compile backend source = reply at accepted ⊢
  obtain ⟨outcome, final⟩ := reply
  cases outcome with
  | error failure => cases accepted
  | ok compilation => exact ⟨compilation, final, rfl⟩

end Compiler

end XdrPack
