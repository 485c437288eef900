import XdrPack.Proofs.Python.Bindings

/-!
# Captured names

Generated code relies on names that it does not define for a definition: routines that the
classes of routines inherit from the runtime, and functions and exceptions at the start of
the module of record classes. A definition can bind such a name again. An inherited routine
is captured exactly if an enumeration or a type definition has its name, which the names of
the built-in types cannot be, and a helper exactly if a record does.
-/

namespace XdrPack

/-! ## Names of records -/

/-- The name is that of a structure or a union, or another name for one. -/
inductive NamesRecord (definitions : List Definition) : String -> Prop where
  | struct {name fields line} (defined : .struct name fields line ∈ definitions) :
      NamesRecord definitions name
  | union {name discriminant switch line}
      (defined : .union name discriminant switch line ∈ definitions) :
      NamesRecord definitions name
  | typedef {declaration} (defined : .typedef declaration ∈ definitions)
      (bare : declaration.type.shape = .scalar)
      (record : NamesRecord definitions declaration.type.base) :
      NamesRecord definitions declaration.name

namespace Python

section

variable {isReserved : String -> Bool} {registry final : Registry} {definitions : List Definition}
  {emissions before : List Emission}

/-- The class that an accepted definition binds is known as a record afterwards. -/
theorem lookup_of_boundClass {definition : Definition} {binding : Option (String × TypeRef)}
    {emission : Option Emission} (known : Known before none registry)
    (accepted : Verdict.Accepted isReserved registry definition binding emission)
    {name : String} (bound : name ∈ boundClasses emission.toList) :
    ∃ entry, (registry.extend binding).lookup name = some entry ∧ entry.namesRecord = true := by
  cases accepted with
  | constant | enum | program => simp [boundClasses, classes] at bound
  | @typedef declaration target declares new completed =>
      cases coding : target.coding with
      | record other =>
          obtain rfl : name = declaration.name := by
            simpa [boundClasses, classes, coding, ClassBinding.name] using bound
          obtain ⟨bare, entry, found, isRecord⟩ := completed.of_record coding declares
          obtain ⟨-, names⟩ := completed.namesRecord declares found (known.notVoid found)
          rw [bare, isRecord] at names
          exact ⟨_, by simp [Registry.extend], names⟩
      | _ => simp [boundClasses, classes, coding] at bound
  | struct new | union new =>
      obtain rfl := List.mem_singleton.mp bound
      exact ⟨.record name, by simp [Registry.extend], rfl⟩

/-- Every class that a run binds is known as a record at its end. -/
theorem lookup_of_boundClasses (run : Run isReserved registry definitions final emissions)
    (known : Known before none registry)
    (written : forall definition, definition ∈ definitions -> definition.Written) :
    forall name, name ∈ boundClasses emissions ->
      ∃ entry, final.lookup name = some entry ∧ entry.namesRecord = true := by
  induction run generalizing before with
  | done => simp [boundClasses]
  | step accepted rest inductionHypothesis =>
      obtain ⟨firstWritten, restWritten⟩ := List.forall_mem_cons.mp written
      rw [boundClasses_append]
      refine List.forall_mem_append.mpr ⟨fun name own => ?_, ?_⟩
      · obtain ⟨entry, found, isRecord⟩ := lookup_of_boundClass known accepted own
        exact ⟨entry, rest.lookup_final found, isRecord⟩
      · exact inductionHypothesis (known.of_accepted accepted firstWritten) restWritten

/-- Every class that a run binds is named after a record. -/
theorem namesRecord_of_boundClasses (run : Run isReserved registry definitions final emissions)
    (known : Known before none registry)
    (written : forall definition, definition ∈ definitions -> definition.Written)
    {all : List Definition} (within : definitions ⊆ all)
    (earlier : forall name, name ∈ boundClasses before -> NamesRecord all name) :
    forall name, name ∈ boundClasses emissions -> NamesRecord all name := by
  induction run generalizing before with
  | done => simp [boundClasses]
  | @step registry definition binding emission definitions final emissions accepted rest
      inductionHypothesis =>
      obtain ⟨firstWritten, restWritten⟩ := List.forall_mem_cons.mp written
      obtain ⟨isDefined, restWithin⟩ := List.cons_subset.mp within
      have own : forall name, name ∈ boundClasses emission.toList -> NamesRecord all name := by
        cases accepted with
        | constant | enum | program => simp [boundClasses, classes]
        | @typedef declaration target declares new completed =>
            cases coding : target.coding with
            | record other =>
                obtain ⟨bare, entry, found, isRecord⟩ := completed.of_record coding declares
                have base : NamesRecord all declaration.type.base := by
                  rcases known.classes found isRecord with isBound | impossible
                  · exact earlier _ isBound
                  · cases impossible
                simpa [boundClasses, classes, coding, ClassBinding.name] using
                  NamesRecord.typedef isDefined bare base
            | _ => simp [boundClasses, classes, coding]
        | struct => exact List.forall_mem_singleton.mpr (.struct isDefined)
        | union => exact List.forall_mem_singleton.mpr (.union isDefined)
      rw [boundClasses_append]
      refine List.forall_mem_append.mpr ⟨own, ?_⟩
      refine inductionHypothesis (known.of_accepted accepted firstWritten) restWritten restWithin ?_
      rw [boundClasses_append]
      exact List.forall_mem_append.mpr ⟨earlier, own⟩

/-- The classes of one emission are among those of all. -/
theorem mem_boundClasses {emission : Emission} {name : String} (listed : emission ∈ emissions)
    (bound : name ∈ boundClasses [emission]) : name ∈ boundClasses emissions := by
  obtain ⟨earlier, later, rfl⟩ := List.append_of_mem listed
  rw [boundClasses_append, <- List.singleton_append, boundClasses_append]
  exact List.mem_append_right _ (List.mem_append_left _ bound)

/-- The classes that a run binds are named after the records, and every record has one. -/
theorem mem_boundClasses_iff (run : Run isReserved registry definitions final emissions)
    (known : Known before none registry) (noneBefore : boundClasses before = [])
    (written : forall definition, definition ∈ definitions -> definition.Written) {name : String} :
    name ∈ boundClasses emissions ↔ NamesRecord definitions name := by
  constructor
  · refine namesRecord_of_boundClasses run known written (fun _ listed => listed) ?_ name
    rw [noneBefore]
    simp
  · intro names
    induction names with
    | struct defined =>
        obtain ⟨place, binding, emission, accepted, emitted, -⟩ := run.exists_place defined
        cases accepted
        exact mem_boundClasses (emitted _ rfl) (List.mem_singleton_self _)
    | union defined =>
        obtain ⟨place, binding, emission, accepted, emitted, -⟩ := run.exists_place defined
        cases accepted
        exact mem_boundClasses (emitted _ rfl) (List.mem_singleton_self _)
    | @typedef declaration defined bare record inductionHypothesis =>
        -- What the base names at the place of the definition, it names at the end.
        obtain ⟨entry, foundLast, isRecord⟩ :=
          lookup_of_boundClasses run known written _ inductionHypothesis
        obtain ⟨place, binding, emission, accepted, emitted, kept⟩ := run.exists_place defined
        cases accepted with
        | @typedef _ target declares new completed =>
            obtain ⟨other, found, chosen⟩ := completed.chosen (written _ defined) declares
            obtain rfl : entry = other :=
              Option.some.inj (foundLast.symm.trans (kept _ _ found))
            have coded := chosen.eq_record (by rw [bare]; rfl) isRecord
            refine mem_boundClasses (emitted _ rfl) ?_
            simp [boundClasses, classes, coded, ClassBinding.name]

end

/-! ## Names that generated code relies on -/

/-- The routines of the runtime that generated statements and helpers call, without the
stem that says in which direction they code. -/
def runtimeRoutines : List String := ["array", "farray", "fopaque", "opaque", "string", "uint"]

/-- The functions and exceptions that the module of record classes starts with. -/
def helperNames : List String := [
  "XDRError", "FieldNotSet", "BadDiscriminant", "init_type_class", "assert_not_none",
  "pack_objarray", "pack_fobjarray", "unpack_objarray", "unpack_fobjarray"]

/-- Reads the name that a line defines as a class or a function, unless it is indented. -/
def definedName? (line : String) : Option String :=
  ((textAfter? "class ".toList line.toList).or (textAfter? "def ".toList line.toList)).map
    leadingWord

/-- The statements that bind the routines of the built-in types. -/
def primitiveBindings (stem runtime : String) : List String :=
  Registry.primitives.map fun (name, routine) => stem ++ name ++ " = " ++ (runtime ++ routine)

/-- One of the statements binds the inherited routine with the given name again, and it is
not the binding of a built-in type. -/
def StatementsRebind (statements : List String) (stem runtime name : String) : Prop :=
  ∃ statement, statement ∈ statements ∧
    (BoundRoutine.read? stem statement).map (·.name) = some name ∧
    statement ∉ primitiveBindings stem runtime

/-- A statement of the class with the given header binds an inherited routine again. -/
def Rebinds (code : Code) (header stem runtime name : String) : Prop :=
  ∃ body, code.body? header = some body ∧ StatementsRebind body.statements stem runtime name

/-- Which names that generated code relies on are bound again by the definitions of a file. -/
structure Captures (naming : Naming) (definitions : List Definition)
    (emissions : List Emission) : Prop where
  /-- Only these routines are called without being bound for a type of the file. -/
  called : forall emission, emission ∈ emissions -> forall coding, coding ∈ emission.codings ->
    forall routine length element, way? coding = some (.routine routine length element) ->
      routine ∈ runtimeRoutines ∨ routine ∈ routineNames definitions
  /-- The helpers for arrays of records call the routines of counts. -/
  counted : "    ncl.packer.pack_uint(len(items))" ∈ typesPreamble naming ∧
    "    n = ncl.unpacker.unpack_uint()" ∈ typesPreamble naming
  packer : forall name,
    Rebinds (packerCode naming emissions)
        ("class " ++ naming.classPrefix ++ "Packer(rpc.Packer):") "pack_" "rpc.Packer.pack_" name ↔
      name ∈ definitions.filterMap Definition.routineName
  unpacker : forall name,
    Rebinds (packerCode naming emissions)
        ("class " ++ naming.classPrefix ++ "Unpacker(rpc.Unpacker):") "unpack_"
        "rpc.Unpacker.unpack_" name ↔
      name ∈ definitions.filterMap Definition.routineName
  /-- The routines that have the name of a built-in type, as those of strings and of bytes
  do, are not bound again. -/
  shielded : forall name, name ∈ Registry.primitives.map (·.1) ->
    name ∉ definitions.filterMap Definition.routineName
  types : (typesCode naming emissions).statements =
    typesPreamble naming ++ emissions.flatMap classStatements
  helpers : (typesPreamble naming).filterMap definedName? = helperNames
  /-- What is bound behind the helpers are the names of the records, so that a helper is
  bound again if and only if a record has its name. -/
  records : forall name, name ∈ classNamesRead emissions ↔ NamesRecord definitions name

/-- Which names are bound again in the generated modules of a file, as they are read off
their texts. -/
structure CapturesRead (naming : Naming) (definitions : List Definition)
    (modules : Artifacts) : Prop where
  routines : ∃ packer unpacker, RoutineBodies naming modules.packer packer unpacker ∧
    (forall name, StatementsRebind (statementsAt 1 packer) "pack_" "rpc.Packer.pack_" name ↔
      name ∈ definitions.filterMap Definition.routineName) ∧
    forall name, StatementsRebind (statementsAt 1 unpacker) "unpack_" "rpc.Unpacker.unpack_" name ↔
      name ∈ definitions.filterMap Definition.routineName
  records : ∃ classes, modules.types = Text.unlines (typesPreamble naming) ++ classes ∧
    forall name, name ∈ (statementsAt 0 classes).filterMap boundClass? ↔
      NamesRecord definitions name

/-! ## Helpers -/

/-- The first line of a module defines nothing. -/
theorem definedName?_banner (naming : Naming) : definedName? (banner naming) = none := by
  unfold definedName? banner
  simp only [String.toList_append]
  rfl

/-- An import defines nothing. -/
theorem definedName?_import (stem : String) :
    definedName? ("from " ++ stem ++ "constants import *") = none := by
  unfold definedName?
  simp only [String.toList_append]
  rfl

/-- The module of record classes starts with the helpers, whatever its names are. -/
theorem filterMap_definedName? (naming : Naming) :
    (typesPreamble naming).filterMap definedName? = helperNames := by
  rw [typesPreamble, List.filterMap_cons_none (definedName?_banner naming),
    List.filterMap_cons_none (by decide),
    List.filterMap_cons_none (definedName?_import naming.moduleStem)]
  decide +kernel

/-! ## Classes of routines -/

section

variable {added : List Routine} {stem runtime parameters : String}

/-- The routines of the built-in types. -/
def primitiveRoutines : List Routine :=
  Registry.primitives.map fun (name, routine) => ⟨name, .runtime routine⟩

/-- The bindings of the built-in types are the statements of their routines. -/
theorem primitiveBindings_eq (stem runtime parameters : String) :
    primitiveBindings stem runtime =
      primitiveRoutines.map (·.statement stem runtime parameters) := by
  rw [primitiveRoutines, List.map_map]
  rfl

/-- Behind the routines of the built-in types, every routine of another name binds an
inherited one again. -/
theorem statementsRebind_iff
    (reads : forall routine, routine ∈ primitiveRoutines ++ added ->
      BoundRoutine.read? stem (routine.statement stem runtime parameters) = some routine.bound)
    (distinct : forall name, name ∈ primitiveRoutines.map (·.name) -> name ∉ added.map (·.name))
    (name : String) :
    StatementsRebind ((primitiveRoutines ++ added).map (·.statement stem runtime parameters))
        stem runtime name ↔
      name ∈ added.map (·.name) := by
  rw [StatementsRebind, primitiveBindings_eq stem runtime parameters]
  constructor
  · rintro ⟨statement, listed, named, notBuiltin⟩
    obtain ⟨routine, member, rfl⟩ := List.mem_map.mp listed
    rw [reads routine member] at named
    obtain rfl : routine.name = name := Option.some.inj named
    rcases List.mem_append.mp member with builtin | isAdded
    · exact absurd (List.mem_map_of_mem builtin) notBuiltin
    · exact List.mem_map_of_mem isAdded
  · intro listed
    obtain ⟨routine, member, rfl⟩ := List.mem_map.mp listed
    have read := reads routine (List.mem_append_right _ member)
    refine ⟨routine.statement stem runtime parameters, ?_, ?_, ?_⟩
    · exact List.mem_map_of_mem (List.mem_append_right _ member)
    · rw [read]
      rfl
    · -- The binding of a built-in type binds the name of that type.
      intro isBuiltin
      obtain ⟨builtin, isPrimitive, same⟩ := List.mem_map.mp isBuiltin
      have readAlso := reads builtin (List.mem_append_left _ isPrimitive)
      rw [same, read] at readAlso
      have named : routine.name = builtin.name :=
        congrArg BoundRoutine.name (Option.some.inj readAlso)
      exact distinct builtin.name (List.mem_map_of_mem isPrimitive) (named ▸ listed)

/-- A class with known code rebinds what the statements of its routines rebind. -/
theorem rebinds_iff {code : Code} {header : String} {codeOf : Routine -> Code}
    {routines : List Routine}
    (found : code.body? header = some (.inset (.concat (routines.map codeOf)) .done))
    (states : forall routine,
      (codeOf routine).statements = [routine.statement stem runtime parameters]) (name : String) :
    Rebinds code header stem runtime name ↔
      StatementsRebind (routines.map (·.statement stem runtime parameters)) stem runtime name := by
  simp only [Rebinds, found, Option.some.injEq, exists_eq_left', statements_routines states]

end

/-! ## Accepted source texts -/

section

variable {source : String} {isReserved : String -> Bool} {final : Registry}
  {definitions : List Definition} {emissions : List Emission}

/-- The classes of the emissions of a run are named after the records. -/
theorem mem_classNamesRead_iff
    (parsed : (Lexing.ofText source).stream.parse = .ok definitions)
    (run : Run isReserved .builtin definitions final emissions) (name : String) :
    name ∈ classNamesRead (Compiler.start.emissions ++ emissions) ↔
      NamesRecord definitions name := by
  have noneBuiltin : boundClasses Compiler.start.emissions = [] := rfl
  have bound : boundClasses (Compiler.start.emissions ++ emissions) =
      boundClasses emissions := by
    rw [boundClasses_append, noneBuiltin, List.nil_append]
  have areWords : forall each, each ∈ boundClasses emissions -> IsWord each := by
    intro each listed
    refine run.isWord_names parsed each ?_
    rw [<- run.emitted_names]
    exact (boundClasses_sublist emissions).subset listed
  rw [classNamesRead_eq (bound ▸ areWords), bound]
  exact mem_boundClasses_iff run Known.builtin noneBuiltin (TokenStream.written_of_parse parsed)

/-- What the routines of an accepted file bind again, in the class of either direction. -/
theorem statementsRebind_of_run
    (parsed : (Lexing.ofText source).stream.parse = .ok definitions)
    (run : Run isReserved .builtin definitions final emissions)
    {stem runtime : String} (parameters : String)
    (notMethod : forall rest, textAfter? "def ".toList (stem.toList ++ rest) = none)
    (notAlias : forall rest, textAfter? stem.toList (runtime.toList ++ rest) = none)
    (name : String) :
    StatementsRebind (((Compiler.start.emissions ++ emissions).flatMap routines).map
        (·.statement stem runtime parameters)) stem runtime name ↔
      name ∈ definitions.filterMap Definition.routineName := by
  have split : (Compiler.start.emissions ++ emissions).flatMap routines =
      primitiveRoutines ++ emissions.flatMap routines := by
    rw [List.flatMap_append]
    rfl
  have added : (emissions.flatMap routines).map (·.name) =
      definitions.filterMap Definition.routineName := boundRoutines_of_run run
  have distinct := (referencesBound_of_run parsed run .standard).distinctRoutines
  rw [split, <- added]
  refine statementsRebind_iff ?_ ?_ name
  · exact fun routine listed =>
      (closedFrom_start_of_run parsed run).read?_statement (isWord_routineNames_of_run parsed run)
        parameters notMethod notAlias (split ▸ listed)
  · rw [added]
    exact fun each builtin introduced => List.disjoint_of_nodup_append distinct builtin introduced

/-- What is bound again in the code of an accepted file. -/
theorem captures_of_run (naming : Naming)
    (parsed : (Lexing.ofText source).stream.parse = .ok definitions)
    (run : Run isReserved .builtin definitions final emissions) :
    Captures naming definitions (Compiler.start.emissions ++ emissions) := by
  have references := referencesBound_of_run parsed run naming
  exact {
    called := by
      intro emission listed coding used routine length element prescribed
      have named : routine ∈ runtimeRoutines ∨ coding.routineName = some routine := by
        unfold way? at prescribed
        split at prescribed <;> cases prescribed <;> simp [runtimeRoutines, Coding.routineName]
      exact named.imp_right (references.routines emission listed coding used routine)
    counted := by simp [typesPreamble]
    packer := fun name =>
      (rebinds_iff (body?_packer naming _) Routine.statements_packCode name).trans
        (statementsRebind_of_run parsed run _ (fun _ => rfl) (fun _ => rfl) name)
    unpacker := fun name =>
      (rebinds_iff (body?_unpacker naming _) Routine.statements_unpackCode name).trans
        (statementsRebind_of_run parsed run _ (fun _ => rfl) (fun _ => rfl) name)
    shielded := fun name builtin introduced =>
      List.disjoint_of_nodup_append references.distinctRoutines builtin introduced
    types := references.types
    helpers := filterMap_definedName? naming
    records := mem_classNamesRead_iff parsed run }

/-- What is bound again in the modules of an accepted file. -/
theorem capturesRead_of_run (naming : Naming)
    (parsed : (Lexing.ofText source).stream.parse = .ok definitions)
    (run : Run isReserved .builtin definitions final emissions) :
    CapturesRead naming definitions
      (artifacts naming (Compiler.start.emissions ++ emissions)) where
  routines := by
    have named := named_routines parsed run
    refine ⟨_, _, routineBodies_pieces named naming, ?_, ?_⟩
    · rw [statementsAt_packer named]
      exact statementsRebind_of_run parsed run _ (fun _ => rfl) fun _ => rfl
    · rw [statementsAt_unpacker named]
      exact statementsRebind_of_run parsed run _ (fun _ => rfl) fun _ => rfl
  records := by
    refine ⟨(pieces (Compiler.start.emissions ++ emissions)).types, by rw [artifacts_eq], ?_⟩
    rw [statementsAt_types_of_run parsed run]
    exact mem_classNamesRead_iff parsed run

end

end Python

/-- In the generated code of every accepted source text, an inherited routine is bound again
exactly if an enumeration or a type definition has its name, which cannot be that of a
built-in type, and a helper exactly if a record has its name. The same is read off the text of
the generated modules. -/
theorem Compiler.compile_captures (naming : Naming) (source : String)
    (compilation : Compilation) (final : Compiler)
    (success : Compiler.start.compile (Python.backend naming) source = (.ok compilation, final)) :
    ∃ definitions, (Lexing.ofText source).stream.parse = .ok definitions ∧
      compilation.artifacts = Python.artifacts naming final.emissions ∧
      Python.Captures naming definitions final.emissions ∧
      Python.CapturesRead naming definitions compilation.artifacts := by
  obtain ⟨definitions, emissions, parsed, run, emitted, rendered⟩ := compile_modules success
  refine ⟨definitions, parsed, rendered, ?_⟩
  rw [rendered, emitted]
  exact ⟨Python.captures_of_run naming parsed run, Python.capturesRead_of_run naming parsed run⟩

/-- Definitions of every kind compile under names that generated code relies on, and so what
they bind again is known. -/
theorem Compiler.compile_captures_every_kind :
    let source := "enum uint \x7b ZERO = 0 \x7d; typedef uint array<4>; " ++
      "struct XDRError \x7b array used; \x7d; typedef XDRError FieldNotSet; " ++
      "union pack_objarray switch (uint u) \x7b case 0: FieldNotSet f; default: void; \x7d;"
    ∃ compilation final,
      Compiler.start.compile (Python.backend .standard) source = (.ok compilation, final) ∧
      ∃ definitions, (Lexing.ofText source).stream.parse = .ok definitions ∧
        Python.Captures .standard definitions final.emissions ∧
        Python.CapturesRead .standard definitions compilation.artifacts := by
  intro source
  obtain ⟨compilation, final, success⟩ : ∃ compilation final,
      Compiler.start.compile (Python.backend .standard) source = (.ok compilation, final) :=
    exists_of_isOk (by decide +kernel)
  obtain ⟨definitions, parsed, -, captures⟩ :=
    compile_captures .standard source compilation final success
  exact ⟨compilation, final, success, definitions, parsed, captures⟩

/-- A type of bytes that is called `uint` compiles, and so does a structure that is called
`BadDiscriminant`. The encoding routine of counts is bound again, although the helper for
arrays of records calls it, and the exception for values without an arm is hidden by a class.
Both are in the text of the modules. -/
theorem Compiler.compile_captured :
    let source := "typedef opaque uint<>; struct BadDiscriminant \x7b int x; \x7d;"
    ∃ compilation final,
      Compiler.start.compile (Python.backend .standard) source = (.ok compilation, final) ∧
      compilation.artifacts = Python.artifacts .standard final.emissions ∧
      Python.Rebinds (Python.packerCode .standard final.emissions)
        ("class " ++ Naming.standard.classPrefix ++ "Packer(rpc.Packer):") "pack_"
        "rpc.Packer.pack_" "uint" ∧
      "uint" ∈ Python.runtimeRoutines ∧
      "BadDiscriminant" ∈ Python.classNamesRead final.emissions ∧
      "BadDiscriminant" ∈ (Python.typesPreamble .standard).filterMap Python.definedName? ∧
      (∃ packer unpacker,
        Python.RoutineBodies .standard compilation.artifacts.packer packer unpacker ∧
        Python.StatementsRebind (Python.statementsAt 1 packer) "pack_" "rpc.Packer.pack_" "uint") ∧
      ∃ classes,
        compilation.artifacts.types = Text.unlines (Python.typesPreamble .standard) ++ classes ∧
        "BadDiscriminant" ∈ (Python.statementsAt 0 classes).filterMap Python.boundClass? := by
  intro source
  obtain ⟨compilation, final, success⟩ : ∃ compilation final,
      Compiler.start.compile (Python.backend .standard) source = (.ok compilation, final) :=
    exists_of_isOk (by decide +kernel)
  obtain ⟨definitions, emissions, parsed, run, emitted, rendered⟩ := compile_modules success
  have captures : Python.Captures .standard definitions final.emissions :=
    emitted ▸ Python.captures_of_run .standard parsed run
  have read : Python.CapturesRead .standard definitions compilation.artifacts := by
    rw [rendered, emitted]
    exact Python.capturesRead_of_run .standard parsed run
  obtain ⟨packer, unpacker, bodies, rebound, -⟩ := read.routines
  obtain ⟨classes, split, hidden⟩ := read.records
  have reached : (Compiler.start.compile (Python.backend .standard) source).2 = final :=
    congrArg Prod.snd success
  have rebinds : Python.Rebinds (Python.packerCode .standard final.emissions)
      ("class " ++ Naming.standard.classPrefix ++ "Packer(rpc.Packer):") "pack_"
      "rpc.Packer.pack_" "uint" := by
    rw [<- reached]
    exact ⟨_, Python.body?_packer .standard _, "def pack_uint(self, data):", by decide +kernel,
      by decide +kernel, by decide +kernel⟩
  have bound : "BadDiscriminant" ∈ Python.classNamesRead final.emissions := by
    rw [<- reached]
    decide +kernel
  refine ⟨compilation, final, success, rendered, rebinds, by decide, bound, ?_,
    ⟨packer, unpacker, bodies, ?_⟩, classes, split, ?_⟩
  · rw [Python.filterMap_definedName?]
    decide
  · exact (rebound "uint").mpr ((captures.packer "uint").mp rebinds)
  · exact (hidden "BadDiscriminant").mpr ((captures.records "BadDiscriminant").mp bound)

end XdrPack
