import Mathlib.Data.List.Flatten
import XdrPack.Proofs.Python.Closure
import XdrPack.Proofs.TypeNames

/-!
# References in generated code

The names that the generated classes of routines and the generated module of
record classes bind are read off their statements. The two classes of routines bind
the same names in the same order, an alias refers back, and every routine and
record class that generated code uses by name is bound. No name is bound twice.
-/

namespace XdrPack

/-- The routines that a definition introduces. -/
def Definition.routineName : Definition -> Option String
  | .enum name _ _ => some name
  | .typedef declaration => some declaration.name
  | .struct _ _ _ | .union _ _ _ _ | .constant _ _ _ | .program _ => none

namespace Python

/-- The routines that a file introduces: those of the built-in types and those of
its enumerations and type definitions. -/
def routineNames (definitions : List Definition) : List String :=
  Registry.primitives.map (·.1) ++ definitions.filterMap Definition.routineName

/-- Every alias refers to a routine that is known or bound before it. -/
def RefersBack (known : List String) : List BoundRoutine -> Prop
  | [] => True
  | routine :: rest =>
      (forall target, routine.target = some target -> target ∈ known) ∧
        RefersBack (known ++ [routine.name]) rest

/-- Statements bind routines with the given names, one after the other. Aliases refer
back. -/
def StatementsBind (statements : List String) (stem : String) (names : List String) : Prop :=
  ∃ bound, statements.map (BoundRoutine.read? stem) = bound.map some ∧
    bound.map (·.name) = names ∧ RefersBack [] bound

/-- The class with the given header consists of statements that bind routines with
the given names. -/
def BindsRoutines (code : Code) (header stem : String) (names : List String) : Prop :=
  ∃ body, code.body? header = some body ∧ StatementsBind body.statements stem names

/-- The statements of the module of record classes that an emission adds. -/
def classStatements (emission : Emission) : List String :=
  (classes emission).flatMap (·.code.statements)

/-- The classes that the statements of emissions bind, in order. -/
def classNamesRead (emissions : List Emission) : List String :=
  (emissions.flatMap classStatements).filterMap boundClass?

/-- The references in the generated code of a file. -/
structure ReferencesBound (naming : Naming) (definitions : List Definition)
    (emissions : List Emission) : Prop where
  /-- The emissions are in the order of the definitions. -/
  ordered : emissions.filterMap Emission.typeName =
    Registry.primitives.map (·.1) ++ definitions.filterMap Definition.typeName
  packer : BindsRoutines (packerCode naming emissions)
    ("class " ++ naming.classPrefix ++ "Packer(rpc.Packer):") "pack_" (routineNames definitions)
  unpacker : BindsRoutines (packerCode naming emissions)
    ("class " ++ naming.classPrefix ++ "Unpacker(rpc.Unpacker):") "unpack_"
    (routineNames definitions)
  distinctRoutines : (routineNames definitions).Nodup
  /-- Every routine that a coding uses is bound. -/
  routines : forall emission, emission ∈ emissions -> forall coding, coding ∈ emission.codings ->
    forall name, coding.routineName = some name -> name ∈ routineNames definitions
  types : (typesCode naming emissions).statements =
    typesPreamble naming ++ emissions.flatMap classStatements
  /-- Every class that a coding uses is bound for an earlier definition, or is the
  record itself. -/
  classes : forall before emission after, emissions = before ++ emission :: after ->
    forall coding, coding ∈ emission.codings -> forall name, coding.className = some name ->
      name ∈ classNamesRead before ∨ emission.recordName = some name
  distinctClasses : (classNamesRead emissions).Nodup

/-! ## The names that are bound -/

/-- The routines that are bound in a run are those that the definitions introduce. -/
theorem boundRoutines_of_run {isReserved : String -> Bool} {registry final : Registry}
    {definitions : List Definition} {emissions : List Emission}
    (run : Run isReserved registry definitions final emissions) :
    boundRoutines emissions = definitions.filterMap Definition.routineName := by
  induction run with
  | done => rfl
  | @step registry definition binding emission definitions final emissions accepted rest
      inductionHypothesis =>
      have bound : boundRoutines emission.toList = definition.routineName.toList := by
        cases accepted <;> simp [boundRoutines, Python.routines, Definition.routineName]
      rw [boundRoutines_append, bound, inductionHypothesis]
      cases introduced : definition.routineName with
      | none => simp [List.filterMap_cons_none introduced]
      | some name => simp [List.filterMap_cons_some introduced]

/-- Routines have the names of types. -/
theorem routineNames_sublist (definitions : List Definition) :
    (routineNames definitions).Sublist
      (Registry.primitives.map (·.1) ++ definitions.filterMap Definition.typeName) := by
  refine List.Sublist.append_left ?_ _
  rw [List.filterMap_eq_flatMap_toList, List.filterMap_eq_flatMap_toList]
  refine List.Sublist.flatMap_right _ fun definition _ => ?_
  cases definition <;> simp [Definition.routineName, Definition.typeName]

/-- Record classes have the names of types. -/
theorem boundClasses_sublist (emissions : List Emission) :
    (boundClasses emissions).Sublist (emissions.filterMap Emission.typeName) := by
  rw [boundClasses, List.map_flatMap, List.filterMap_eq_flatMap_toList]
  refine List.Sublist.flatMap_right _ fun emission _ => ?_
  cases emission with
  | typedef name target =>
      cases coding : target.coding <;>
        simp [Python.classes, coding, ClassBinding.name, Emission.typeName]
  | _ => simp [Python.classes, ClassBinding.name, Emission.typeName]

/-! ## Aliases -/

/-- Routines whose aliases refer to known ones may stand in front. -/
theorem RefersBack.append {known : List String} {first second : List BoundRoutine}
    (resolved : forall routine, routine ∈ first -> forall target, routine.target = some target ->
      target ∈ known)
    (rest : RefersBack (known ++ first.map (·.name)) second) :
    RefersBack known (first ++ second) := by
  induction first generalizing known with
  | nil => simpa using rest
  | cons routine others inductionHypothesis =>
      obtain ⟨resolvedFirst, resolvedOthers⟩ := List.forall_mem_cons.mp resolved
      refine ⟨resolvedFirst, inductionHypothesis ?_ (by simpa using rest)⟩
      intro each listed target forwards
      exact List.mem_append_left _ (resolvedOthers each listed target forwards)

/-- The aliases of emissions that refer back refer back. -/
theorem ClosedFrom.refersBack {before emissions : List Emission}
    (closed : ClosedFrom before emissions) :
    RefersBack (boundRoutines before) ((emissions.flatMap Python.routines).map Routine.bound) := by
  induction emissions generalizing before with
  | nil => trivial
  | cons emission rest inductionHypothesis =>
      obtain ⟨closedFirst, closedRest⟩ := closed
      rw [List.flatMap_cons, List.map_append]
      refine RefersBack.append ?_ ?_
      · intro bound listed target forwards
        obtain ⟨routine, member, rfl⟩ := List.mem_map.mp listed
        exact closedFirst.aliases routine member target forwards
      · have bound : boundRoutines (before ++ [emission]) =
            boundRoutines before
              ++ ((Python.routines emission).map Routine.bound).map (·.name) := by
          simp [boundRoutines, Routine.bound, Function.comp_def]
        exact bound ▸ inductionHypothesis closedRest

/-- The targets of aliases are bound. -/
theorem ClosedFrom.target_mem {before emissions : List Emission}
    (closed : ClosedFrom before emissions) {routine : Routine}
    (listed : routine ∈ emissions.flatMap Python.routines) {target : String}
    (forwards : routine.bound.target = some target) :
    target ∈ boundRoutines (before ++ emissions) := by
  obtain ⟨emission, member, added⟩ := List.mem_flatMap.mp listed
  obtain ⟨earlier, later, rfl⟩ := List.append_of_mem member
  obtain ⟨-, closedEmission, -⟩ := closedFrom_append.mp closed
  have bound := closedEmission.aliases routine added target forwards
  rw [<- List.append_assoc, boundRoutines_append]
  exact List.mem_append_left _ bound

/-! ## Reading the generated modules -/

/-- The statements of a class of routines are those of the routines. -/
theorem statements_routines {codeOf : Routine -> Code} {stem runtime parameters : String}
    (states : forall routine,
      (codeOf routine).statements = [routine.statement stem runtime parameters])
    (routines : List Routine) :
    (Code.inset (.concat (routines.map codeOf)) .done).statements =
      routines.map (·.statement stem runtime parameters) := by
  simp [Code.statements, List.flatMap_map, states, <- List.map_eq_flatMap]

/-- What the statements of the routines of emissions that refer back bind. -/
theorem ClosedFrom.read?_statement {emissions : List Emission} (closed : ClosedFrom [] emissions)
    (isWord : forall name, name ∈ boundRoutines emissions -> IsWord name)
    {stem runtime : String} (parameters : String)
    (notMethod : forall rest, textAfter? "def ".toList (stem.toList ++ rest) = none)
    (notAlias : forall rest, textAfter? stem.toList (runtime.toList ++ rest) = none)
    {routine : Routine} (listed : routine ∈ emissions.flatMap Python.routines) :
    BoundRoutine.read? stem (routine.statement stem runtime parameters) = some routine.bound := by
  refine Routine.read?_statement parameters notMethod notAlias ?_ fun target forwards => ?_
  · exact isWord _ (List.mem_map_of_mem listed)
  · exact isWord _ (closed.target_mem listed forwards)

/-- The statements of the routines that the emissions add bind them. -/
theorem statementsBind_of_closed {emissions : List Emission} (closed : ClosedFrom [] emissions)
    (isWord : forall name, name ∈ boundRoutines emissions -> IsWord name)
    {stem runtime : String} (parameters : String)
    (notMethod : forall rest, textAfter? "def ".toList (stem.toList ++ rest) = none)
    (notAlias : forall rest, textAfter? stem.toList (runtime.toList ++ rest) = none) :
    StatementsBind
      ((emissions.flatMap Python.routines).map (·.statement stem runtime parameters)) stem
      (boundRoutines emissions) := by
  refine ⟨(emissions.flatMap Python.routines).map Routine.bound, ?_, ?_, closed.refersBack⟩
  · rw [List.map_map, List.map_map]
    exact List.map_congr_left fun routine listed =>
      closed.read?_statement isWord parameters notMethod notAlias listed
  · simp [boundRoutines, Routine.bound]

/-- A class of routines binds the routines that the emissions add. -/
theorem bindsRoutines_of_closed {emissions : List Emission} (closed : ClosedFrom [] emissions)
    (isWord : forall name, name ∈ boundRoutines emissions -> IsWord name) {code : Code}
    {header stem runtime parameters : String} {codeOf : Routine -> Code}
    (found : code.body? header =
      some (.inset (.concat ((emissions.flatMap Python.routines).map codeOf)) .done))
    (states : forall routine,
      (codeOf routine).statements = [routine.statement stem runtime parameters])
    (notMethod : forall rest, textAfter? "def ".toList (stem.toList ++ rest) = none)
    (notAlias : forall rest, textAfter? stem.toList (runtime.toList ++ rest) = none) :
    BindsRoutines code header stem (boundRoutines emissions) := by
  refine ⟨_, found, ?_⟩
  rw [statements_routines states]
  exact statementsBind_of_closed closed isWord parameters notMethod notAlias

/-- The packer class stands first in the module of routines. -/
theorem body?_packer (naming : Naming) (emissions : List Emission) :
    (packerCode naming emissions).body? ("class " ++ naming.classPrefix ++ "Packer(rpc.Packer):") =
      some (.inset (.concat ((emissions.flatMap Python.routines).map (·.packCode))) .done) := by
  simp [packerCode, routinesCode, Code.single, Code.body?]

/-- The unpacker class stands second in the module of routines. -/
theorem body?_unpacker (naming : Naming) (emissions : List Emission) :
    (packerCode naming emissions).body?
        ("class " ++ naming.classPrefix ++ "Unpacker(rpc.Unpacker):") =
      some (.inset (.concat ((emissions.flatMap Python.routines).map (·.unpackCode))) .done) := by
  have differs : "class " ++ naming.classPrefix ++ "Packer(rpc.Packer):" ≠
      "class " ++ naming.classPrefix ++ "Unpacker(rpc.Unpacker):" := by
    intro same
    have lengths : "Packer(rpc.Packer):".length = "Unpacker(rpc.Unpacker):".length := by
      simpa using congrArg String.length same
    exact absurd lengths (by decide)
  simp [packerCode, routinesCode, Code.single, Code.body?, differs]

/-- The statements of emissions are those of the classes that they add. -/
theorem flatMap_classStatements (emissions : List Emission) :
    emissions.flatMap classStatements =
      (emissions.flatMap Python.classes).flatMap (·.code.statements) := by
  rw [List.flatMap_assoc]
  rfl

/-- The statements of classes bind the names of the classes. -/
theorem filterMap_boundClass? {bindings : List ClassBinding}
    (areWords : forall binding, binding ∈ bindings -> IsWord binding.name) :
    (bindings.flatMap (·.code.statements)).filterMap boundClass? = bindings.map (·.name) := by
  induction bindings with
  | nil => rfl
  | cons first rest inductionHypothesis =>
      obtain ⟨firstIsWord, restAreWords⟩ := List.forall_mem_cons.mp areWords
      rw [List.flatMap_cons, List.filterMap_append, boundClass?_code firstIsWord,
        inductionHypothesis restAreWords]
      rfl

/-- The statements of emissions bind the classes that the emissions add. -/
theorem classNamesRead_eq {emissions : List Emission}
    (areWords : forall name, name ∈ boundClasses emissions -> IsWord name) :
    classNamesRead emissions = boundClasses emissions := by
  rw [classNamesRead, flatMap_classStatements]
  exact filterMap_boundClass? fun binding listed => areWords _ (List.mem_map_of_mem listed)

/-! ## Accepted source texts -/

/-- What is bound for emissions that refer back, if they are for types with
different names that are words. -/
theorem referencesBound_of_closed (naming : Naming) {definitions : List Definition}
    {emissions : List Emission} (closed : ClosedFrom [] emissions)
    (ordered : emissions.filterMap Emission.typeName =
      Registry.primitives.map (·.1) ++ definitions.filterMap Definition.typeName)
    (bound : boundRoutines emissions = routineNames definitions)
    (distinct : (Registry.primitives.map (·.1)
      ++ definitions.filterMap Definition.typeName).Nodup)
    (areWords : forall name, name ∈ emissions.filterMap Emission.typeName -> IsWord name) :
    ReferencesBound naming definitions emissions := by
  have routinesAreWords : forall name, name ∈ boundRoutines emissions -> IsWord name := by
    intro name listed
    rw [bound] at listed
    exact areWords name (ordered ▸ (routineNames_sublist definitions).subset listed)
  have classesAreWords : forall name, name ∈ boundClasses emissions -> IsWord name :=
    fun name listed => areWords name ((boundClasses_sublist emissions).subset listed)
  exact {
    ordered
    packer := bound ▸ bindsRoutines_of_closed closed routinesAreWords
      (body?_packer naming emissions) Routine.statements_packCode (fun _ => rfl) fun _ => rfl
    unpacker := bound ▸ bindsRoutines_of_closed closed routinesAreWords
      (body?_unpacker naming emissions) Routine.statements_unpackCode (fun _ => rfl) fun _ => rfl
    distinctRoutines := distinct.sublist (routineNames_sublist definitions)
    routines := by
      intro emission listed coding used name named
      obtain ⟨before, after, rfl⟩ := List.append_of_mem listed
      obtain ⟨-, closedEmission, -⟩ := closedFrom_append.mp closed
      rw [<- bound, boundRoutines_append]
      exact List.mem_append_left _ ((closedEmission.codings coding used).routines name named)
    types := by simp [typesCode, flatMap_classStatements, List.flatMap_map]
    classes := by
      rintro before emission after rfl coding used name named
      obtain ⟨-, closedEmission, -⟩ := closedFrom_append.mp closed
      rw [classNamesRead_eq fun each listed => classesAreWords each (by simp [listed])]
      exact (closedEmission.codings coding used).classes name named
    distinctClasses := by
      rw [classNamesRead_eq classesAreWords]
      exact (ordered ▸ distinct).sublist (boundClasses_sublist emissions) }

section

variable {source : String} {isReserved : String -> Bool} {final : Registry}
  {definitions : List Definition} {emissions : List Emission}
  (parsed : (Lexing.ofText source).stream.parse = .ok definitions)
  (run : Run isReserved .builtin definitions final emissions)

include run

/-- The types of a file are emitted behind the built-in ones, in the order of their
definitions. -/
theorem typeNames_of_run :
    (Compiler.start.emissions ++ emissions).filterMap Emission.typeName =
      Registry.primitives.map (·.1) ++ definitions.filterMap Definition.typeName := by
  rw [List.filterMap_append, run.emitted_names]
  rfl

/-- The routines of a file are bound behind those of the built-in types. -/
theorem routineNames_of_run :
    boundRoutines (Compiler.start.emissions ++ emissions) = routineNames definitions := by
  rw [boundRoutines_append, boundRoutines_start, boundRoutines_of_run run]
  rfl

include parsed

/-- All emissions for an accepted file refer back. -/
theorem closedFrom_start_of_run : ClosedFrom [] (Compiler.start.emissions ++ emissions) := by
  have known : Known Compiler.start.emissions none .builtin := Known.builtin
  exact closedFrom_append.mpr
    ⟨closedFrom_start, closedFrom_of_run run known (TokenStream.written_of_parse parsed)⟩

/-- The types that are emitted for an accepted file have words for names. -/
theorem isWord_typeNames_of_run : forall name,
    name ∈ (Compiler.start.emissions ++ emissions).filterMap Emission.typeName ->
      IsWord name := by
  have builtinAreWords : forall name, name ∈ Registry.primitives.map (·.1) -> IsWord name := by
    decide
  rw [typeNames_of_run run]
  exact List.forall_mem_append.mpr ⟨builtinAreWords, run.isWord_names parsed⟩

/-- The routines that are bound for an accepted file have words for names. -/
theorem isWord_routineNames_of_run : forall name,
    name ∈ boundRoutines (Compiler.start.emissions ++ emissions) -> IsWord name := by
  intro name listed
  refine isWord_typeNames_of_run parsed run name ?_
  rw [routineNames_of_run run] at listed
  rw [typeNames_of_run run]
  exact (routineNames_sublist definitions).subset listed

/-- What is bound for an accepted file. -/
theorem referencesBound_of_run (naming : Naming) :
    ReferencesBound naming definitions (Compiler.start.emissions ++ emissions) :=
  referencesBound_of_closed naming (closedFrom_start_of_run parsed run) (typeNames_of_run run)
    (routineNames_of_run run) run.nodup_all_names (isWord_typeNames_of_run parsed run)

end

end Python

end XdrPack
