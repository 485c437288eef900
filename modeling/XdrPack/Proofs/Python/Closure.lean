import XdrPack.Proofs.Choice
import XdrPack.Proofs.Python.Statements

/-!
# References between emissions

What is emitted for a definition refers to routines and record classes by name. A
coding is chosen by what the registry knows of a name, so it is enough that the
registry knows of no name for which neither a class nor routines are bound. One
step keeps this, and so all that is emitted in a run refers back only.
-/

namespace XdrPack

/-- The codings of the values that an emission declares. -/
def Emission.codings : Emission -> List Coding
  | .typedef _ target => [target.coding]
  | .struct _ fields => fields.map (·.coding)
  | .union _ layout => (layout.discriminant :: layout.bodies).map (·.coding)
  | .primitive _ _ | .constant _ _ | .enum _ _ => []

/-- The record that an emission is for. -/
def Emission.recordName : Emission -> Option String
  | .struct name _ => some name
  | .union name _ => some name
  | .primitive _ _ | .constant _ _ | .enum _ _ | .typedef _ _ => none

/-- The routines that a coding uses by name. -/
def Coding.routineName : Coding -> Option String
  | .routine name => some name
  | .array element _ => some element
  | _ => none

/-- The class that a coding uses by name. -/
def Coding.className : Coding -> Option String
  | .record name => some name
  | .recordArray name _ => some name
  | _ => none

namespace Python

/-- The routines that are bound for emissions, in order. -/
def boundRoutines (emissions : List Emission) : List String :=
  (emissions.flatMap routines).map (·.name)

/-- The classes that are bound for emissions, in order. -/
def boundClasses (emissions : List Emission) : List String :=
  (emissions.flatMap classes).map (·.name)

@[simp]
theorem boundRoutines_append (first second : List Emission) :
    boundRoutines (first ++ second) = boundRoutines first ++ boundRoutines second := by
  simp [boundRoutines]

@[simp]
theorem boundClasses_append (first second : List Emission) :
    boundClasses (first ++ second) = boundClasses first ++ boundClasses second := by
  simp [boundClasses]

/-- What a coding uses by name is bound before, but for the record whose own name is
given. -/
structure Resolved (before : List Emission) (own : Option String) (coding : Coding) : Prop where
  routines : forall name, coding.routineName = some name -> name ∈ boundRoutines before
  classes : forall name, coding.className = some name ->
    name ∈ boundClasses before ∨ own = some name

/-- What an emission refers to is bound before it. A record may refer to itself. -/
structure Closed (before : List Emission) (emission : Emission) : Prop where
  codings : forall coding, coding ∈ emission.codings -> Resolved before emission.recordName coding
  aliases : forall routine, routine ∈ Python.routines emission -> forall target,
    routine.bound.target = some target -> target ∈ boundRoutines before

/-- Every name in the registry is that of a class or of routines bound before, but
for the record whose own name is given. Enumerations rely on routines for them. -/
structure Known (before : List Emission) (own : Option String) (registry : Registry) : Prop where
  notVoid : forall {name entry}, registry.lookup name = some entry -> entry.isVoid = false
  classes : forall {name entry}, registry.lookup name = some entry -> entry.namesRecord = true ->
    name ∈ boundClasses before ∨ own = some name
  routines : forall {name entry}, registry.lookup name = some entry -> entry.namesRecord = false ->
    name ∈ boundRoutines before
  enum : ∃ entry, registry.lookup "enum" = some entry ∧ entry.namesRecord = false

namespace Known

variable {before : List Emission} {own : Option String} {registry : Registry}

/-- A further type keeps the registry known if its name is new and is bound as the
type says. -/
theorem insert (known : Known before own registry) {after : List Emission} {other : Option String}
    {name : String} {type : TypeRef} (fresh : registry.lookup name = none)
    (grows : forall each, each ∈ boundRoutines before -> each ∈ boundRoutines after)
    (growsClasses : forall each, each ∈ boundClasses before ∨ own = some each ->
      each ∈ boundClasses after ∨ other = some each)
    (notVoid : type.isVoid = false)
    (isClass : type.namesRecord = true -> name ∈ boundClasses after ∨ other = some name)
    (isRoutine : type.namesRecord = false -> name ∈ boundRoutines after) :
    Known after other (registry.insert name type) := by
  refine ⟨?_, ?_, ?_, ?_⟩
  · intro each entry found
    rw [Registry.lookup_insert] at found
    split at found
    · cases found
      exact notVoid
    · exact known.notVoid found
  · intro each entry found record
    rw [Registry.lookup_insert] at found
    split at found
    · next same =>
        cases found
        exact same ▸ isClass record
    · exact growsClasses each (known.classes found record)
  · intro each entry found notRecord
    rw [Registry.lookup_insert] at found
    split at found
    · next same =>
        cases found
        exact same ▸ isRoutine notRecord
    · exact grows each (known.routines found notRecord)
  · obtain ⟨entry, found, notRecord⟩ := known.enum
    refine ⟨entry, ?_, notRecord⟩
    have differs : "enum" ≠ name := by
      rintro rfl
      rw [fresh] at found
      cases found
    rwa [Registry.lookup_insert, if_neg differs]

/-- What a chosen coding refers to is bound before. -/
theorem of_chosen (known : Known before own registry) {base : String} {entry : TypeRef}
    (found : registry.lookup base = some entry) {shape : Shape} {coding : Coding}
    (chosen : Chosen base entry shape coding) : Resolved before own coding := by
  cases chosen with
  | routine routines | array _ _ routines | fixedArray _ _ routines =>
      refine ⟨fun name used => ?_, nofun⟩
      cases used
      exact known.routines found routines
  | record isRecord | recordArray _ _ isRecord | fixedRecordArray _ _ isRecord =>
      refine ⟨nofun, fun name used => ?_⟩
      cases used
      exact known.classes found isRecord
  | text | fixedBytes | bytes => exact ⟨nofun, nofun⟩

/-- What the coding of a completed declaration refers to is bound before. -/
theorem of_completes (known : Known before own registry) {declaration : Declaration}
    {field : Field} (written : declaration.Written)
    (completes : declaration.Completes registry field) : Resolved before own field.coding := by
  cases isVoid : declaration.isVoid with
  | true =>
      rw [completes.coding_of_void isVoid]
      exact ⟨nofun, nofun⟩
  | false =>
      obtain ⟨entry, found, chosen⟩ := completes.chosen written isVoid
      exact known.of_chosen found chosen

/-- The same for each of several declarations inside a record. -/
theorem of_members (known : Known before own registry) {isReserved : String -> Bool}
    {declarations : List Declaration} {fields : List Field}
    (written : forall declaration, declaration ∈ declarations -> declaration.Written)
    (completed : List.Forall₂ (Declaration.CompletesMember isReserved registry) declarations
      fields) {coding : Coding} (used : coding ∈ fields.map (·.coding)) :
    Resolved before own coding := by
  induction completed with
  | nil => cases used
  | cons completes _ inductionHypothesis =>
      obtain ⟨firstWritten, restWritten⟩ := List.forall_mem_cons.mp written
      rcases List.mem_cons.mp used with rfl | later
      · exact known.of_completes firstWritten completes.toCompletes
      · exact inductionHypothesis restWritten later

/-- The name of a record is known inside it. -/
theorem insert_own (known : Known before none registry) {name : String}
    (fresh : registry.lookup name = none) :
    Known before (some name) (registry.insert name (.record name)) := by
  refine known.insert fresh (fun _ bound => bound) ?_ rfl (fun _ => .inr rfl) (by simp)
  rintro each (bound | impossible)
  · exact .inl bound
  · cases impossible

/-- The name of a type is known after its emission if it is bound there. -/
theorem insert_emitted (known : Known before none registry) {name : String} {type : TypeRef}
    {emission : Emission} (fresh : registry.lookup name = none) (notVoid : type.isVoid = false)
    (isClass : type.namesRecord = true -> name ∈ boundClasses [emission])
    (isRoutine : type.namesRecord = false -> name ∈ boundRoutines [emission]) :
    Known (before ++ [emission]) none (registry.insert name type) := by
  refine known.insert fresh ?_ ?_ notVoid ?_ ?_
  · intro each bound
    simp [bound]
  · rintro each (bound | impossible)
    · exact .inl (by simp [bound])
    · cases impossible
  · exact fun record => .inl (by simp [isClass record])
  · exact fun notRecord => by simp [isRoutine notRecord]

/-- What was known stays known after further emissions. -/
theorem append (known : Known before none registry) (emissions : List Emission) :
    Known (before ++ emissions) none registry where
  notVoid := known.notVoid
  classes found record := by
    rcases known.classes found record with bound | impossible
    · exact .inl (by simp [bound])
    · cases impossible
  routines found notRecord := by simp [known.routines found notRecord]
  enum := known.enum

end Known

@[simp]
theorem Routine.ofCoding_name (name : String) (coding : Coding) :
    (Routine.ofCoding name coding).name = name := by
  cases coding <;> rfl

/-- What an accepted definition makes known is bound by what is emitted for it. -/
theorem Known.of_accepted {before : List Emission} {registry : Registry}
    {isReserved : String -> Bool} {definition : Definition} {binding : Option (String × TypeRef)}
    {emission : Option Emission} (known : Known before none registry)
    (accepted : Verdict.Accepted isReserved registry definition binding emission)
    (written : definition.Written) :
    Known (before ++ emission.toList) none (registry.extend binding) := by
  cases accepted with
  | constant => exact known.append _
  | program => simpa [Registry.extend] using known
  | enum new allowed completed =>
      obtain ⟨entry, found, notRecord⟩ := known.enum
      obtain ⟨notVoid, names⟩ := completed.namesRecord rfl found (known.notVoid found)
      rw [notRecord, Bool.and_false] at names
      refine known.insert_emitted new.fresh notVoid (fun record => ?_) fun _ => ?_
      · rw [names] at record
        cases record
      · simp [boundRoutines, Python.routines]
  | @typedef declaration target declares new completed =>
      obtain ⟨entry, found, chosen⟩ := completed.chosen written declares
      obtain ⟨notVoid, names⟩ := completed.namesRecord declares found (known.notVoid found)
      refine known.insert_emitted new.fresh notVoid (fun record => ?_) fun _ => ?_
      · -- Another name for a record is bound to the class of that record.
        obtain ⟨bare, isRecord⟩ : declaration.type.shape.isArray = false ∧
            entry.namesRecord = true := by simpa [record] using names.symm
        simp [boundClasses, Python.classes, chosen.eq_record bare isRecord, ClassBinding.name]
      · simp [boundRoutines, Python.routines]
  | struct new =>
      exact known.insert_emitted new.fresh rfl (fun _ => List.mem_singleton_self _) (by simp)
  | union new =>
      exact known.insert_emitted new.fresh rfl (fun _ => List.mem_singleton_self _) (by simp)

/-- What an accepted definition refers to is bound before it. -/
theorem closed_of_accepted {before : List Emission} {registry : Registry}
    {isReserved : String -> Bool} {definition : Definition} {binding : Option (String × TypeRef)}
    {emission : Emission} (known : Known before none registry)
    (accepted : Verdict.Accepted isReserved registry definition binding (some emission))
    (written : definition.Written) : Closed before emission := by
  cases accepted with
  | constant => exact ⟨by simp [Emission.codings], by simp [Python.routines]⟩
  | enum new allowed completed =>
      refine ⟨by simp [Emission.codings], ?_⟩
      intro routine listed target forwards
      cases List.mem_singleton.mp listed
      cases forwards
      obtain ⟨entry, found, notRecord⟩ := known.enum
      exact known.routines found notRecord
  | @typedef declaration target declares new completed =>
      have resolved : Resolved before none target.coding := known.of_completes written completed
      refine ⟨?_, ?_⟩
      · intro coding listed
        cases List.mem_singleton.mp listed
        exact resolved
      · intro routine listed other forwards
        cases List.mem_singleton.mp listed
        -- Only routines that are coded by other routines are aliases.
        cases coding : target.coding with
        | routine name =>
            obtain rfl : name = other := by
              simpa [coding, Routine.ofCoding, Routine.bound] using forwards
            exact resolved.routines name (by simp [coding, Coding.routineName])
        | _ => simp [coding, Routine.ofCoding, Routine.bound] at forwards
  | struct new completed =>
      have own := known.insert_own new.fresh
      exact ⟨fun coding used => own.of_members written completed used, by simp [Python.routines]⟩
  | @union name discriminant switch line layout new declares completed =>
      have own := known.insert_own new.fresh
      obtain ⟨selectorWritten, switchWritten⟩ := written
      have declaredWritten : forall declaration,
          declaration ∈ discriminant :: (switch.bodies ++ switch.defaultBody.toList) ->
            declaration.Written := by
        intro declaration declared
        rcases List.mem_cons.mp declared with rfl | inSwitch
        · exact selectorWritten
        · rcases List.mem_append.mp inSwitch with inCase | inDefault
          · exact switchWritten.written_of_mem inCase
          · exact switchWritten.written_defaultBody inDefault
      have members := List.Forall₂.cons completed.selector
        (List.rel_append (completed.bodies switchWritten) completed.fallback)
      exact ⟨fun coding used => own.of_members declaredWritten members used,
        by simp [Python.routines]⟩

/-- Of emissions in sequence, each refers back only. -/
def ClosedFrom (before : List Emission) : List Emission -> Prop
  | [] => True
  | emission :: rest => Closed before emission ∧ ClosedFrom (before ++ [emission]) rest

/-- Emissions in sequence refer back only if both parts do. -/
theorem closedFrom_append {before first second : List Emission} :
    ClosedFrom before (first ++ second) ↔
      ClosedFrom before first ∧ ClosedFrom (before ++ first) second := by
  induction first generalizing before with
  | nil => simp [ClosedFrom]
  | cons emission rest inductionHypothesis => simp [ClosedFrom, inductionHypothesis, and_assoc]

/-- All that is emitted in a run refers back only. -/
theorem closedFrom_of_run {isReserved : String -> Bool} {registry final : Registry}
    {definitions : List Definition} {emissions : List Emission}
    (run : Run isReserved registry definitions final emissions) {before : List Emission}
    (known : Known before none registry)
    (written : forall definition, definition ∈ definitions -> definition.Written) :
    ClosedFrom before emissions := by
  induction run generalizing before with
  | done => trivial
  | @step registry definition binding emission definitions final emissions accepted rest
      inductionHypothesis =>
      obtain ⟨firstWritten, restWritten⟩ := List.forall_mem_cons.mp written
      have closedRest := inductionHypothesis (known.of_accepted accepted firstWritten) restWritten
      refine closedFrom_append.mpr ⟨?_, closedRest⟩
      cases emission with
      | none => trivial
      | some emission => exact ⟨closed_of_accepted known accepted firstWritten, trivial⟩

/-! ## The built-in types -/

/-- The routines of the built-in types are bound at the start. -/
theorem boundRoutines_start :
    boundRoutines Compiler.start.emissions = Registry.primitives.map (·.1) := rfl

/-- The routines of the built-in types are all that the registry knows of at the
start. -/
theorem Known.builtin : Known Compiler.start.emissions none .builtin := by
  have bound : forall {name entry}, Registry.builtin.lookup name = some entry ->
      name ∈ Registry.primitives.map (·.1) ∧ ∃ routine, entry = .primitive name routine := by
    intro name entry found
    rcases Registry.builtin_cases name with ⟨routine, listed, same⟩ | ⟨-, unknown⟩
    · exact ⟨List.mem_map_of_mem listed, routine, Option.some.inj (found.symm.trans same)⟩
    · rw [found] at unknown
      cases unknown
  refine ⟨?_, ?_, ?_, ?_⟩
  · intro name entry found
    obtain ⟨-, routine, rfl⟩ := bound found
    rfl
  · intro name entry found record
    obtain ⟨-, routine, rfl⟩ := bound found
    cases record
  · intro name entry found _
    exact (bound found).1
  · exact ⟨.primitive "enum" "enum", by decide, rfl⟩

/-- The routines of the built-in types refer to nothing in the generated code. -/
theorem closedFrom_start : ClosedFrom [] Compiler.start.emissions := by
  have closed : forall before name routine, Closed before (.primitive name routine) := by
    intro before name routine
    refine ⟨nofun, ?_⟩
    intro each listed target forwards
    cases List.mem_singleton.mp listed
    cases forwards
  simp [Compiler.emissions_start, Registry.primitives, ClosedFrom, closed]

end Python

/-- The modules of a source text that is accepted are made out of everything that is emitted. -/
theorem Compiler.compile_modules {compiler final : Compiler} {naming : Naming} {source : String}
    {compilation : Compilation}
    (success : compiler.compile (Python.backend naming) source = (.ok compilation, final)) :
    ∃ definitions emissions, (Lexing.ofText source).stream.parse = .ok definitions ∧
      Run Python.isReserved compiler.registry definitions final.registry emissions ∧
      final.emissions = compiler.emissions ++ emissions ∧
      compilation.artifacts = Python.artifacts naming final.emissions := by
  obtain ⟨definitions, emissions, parsed, run, emitted, finished⟩ :=
    compile_eq_ok (Reservation.includes_fixed Python.isReserved) success
  exact ⟨definitions, emissions, parsed, run, emitted, (Except.ok.inj finished).symm⟩

end XdrPack
