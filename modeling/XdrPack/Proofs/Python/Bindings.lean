import XdrPack.Proofs.Python.Indentation
import XdrPack.Proofs.Python.Pieces

/-!
# Bindings in the text of generated modules

A statement of a block is a line of the text that has the indentation of the block and no
deeper one. Read like this, the text of the two classes of routines, and of the classes of
records behind the helpers, has the statements that the modules were put together from.
So what is bound, and in which order, can be read off the modules themselves.
-/

namespace XdrPack

namespace Python

/-! ## Statements of a text -/

instance (line : String) : Decidable (IsInner line) := inferInstanceAs (Decidable (_ ∨ _))

/-- The statement that a line holds if it has the indentation of the given depth, and no
deeper one. -/
def statementAt? (depth : Nat) (line : String) : Option String :=
  ((textAfter? (List.replicate (4 * depth) ' ') line.toList).map String.ofList).filter
    (¬ IsInner ·)

/-- The statements of a text at the given depth. -/
def statementsAt (depth : Nat) (text : String) : List String :=
  (Text.lines text).filterMap (statementAt? depth)

/-- An indented line holds what was indented, if that starts a statement. -/
theorem statementAt?_indented (depth : Nat) (text : String) :
    statementAt? depth (indented depth text) = (some text).filter (¬ IsInner ·) := by
  by_cases empty : text = ""
  · subst empty
    cases depth <;> rfl
  · rw [statementAt?, toList_indented empty, textAfter?_append, Option.map_some,
      String.ofList_toList]

/-- A text that starts a statement is not inside another. -/
theorem not_isInner_of_startsStatement {text : String} (starts : startsStatement text = true) :
    ¬ IsInner text := by
  rintro (rfl | blank)
  · cases starts
  · rw [startsStatement, blank] at starts
    cases starts

section

variable {code : Code}

/-- The lines of code that are not inside others are its statements. -/
theorem filter_linesAt (outer : forall text, text ∈ code.statements -> ¬ IsInner text) :
    (code.linesAt 0).filter (¬ IsInner ·) = code.statements := by
  induction code with
  | done => rfl
  | line text rest inductionHypothesis =>
      obtain ⟨isOuter, restOuter⟩ := List.forall_mem_cons.mp outer
      rw [Code.linesAt, indented_zero, List.filter_cons_of_pos (by simpa using isOuter),
        inductionHypothesis restOuter]
      rfl
  | blank rest inductionHypothesis => exact inductionHypothesis outer
  | raw text rest inductionHypothesis => exact inductionHypothesis outer
  | block header body rest _ inductionHypothesis =>
      obtain ⟨isOuter, restOuter⟩ := List.forall_mem_cons.mp outer
      have noneInside : (body.linesAt (0 + 1)).filter (¬ IsInner ·) = [] := by
        refine List.filter_eq_nil_iff.mpr fun line listed => ?_
        simpa using isInner_of_mem listed
      rw [Code.linesAt, indented_zero, List.cons_append,
        List.filter_cons_of_pos (by simpa using isOuter), List.filter_append, noneInside,
        List.nil_append, inductionHypothesis restOuter]
      rfl
  | inset body rest bodyHypothesis inductionHypothesis =>
      obtain ⟨bodyOuter, restOuter⟩ := List.forall_mem_append.mp outer
      rw [Code.linesAt, show indented 0 = id from funext indented_zero, List.map_id,
        List.filter_append, bodyHypothesis bodyOuter, inductionHypothesis restOuter]
      rfl

variable (lined : code.Lined Unbroken) (depth : Nat)

include lined

/-- The lines of the text of code. -/
theorem lines_textAt : Text.lines (code.textAt depth) = code.linesAt depth := by
  have oneLine : code.Lined OneLine := lined.imp fun _ => Unbroken.oneLine
  rw [Code.textAt, Writer.write_eq oneLine]
  simpa using Text.lines_unlines (oneLine.oneLine depth)

/-- The statements of code are read back from its text. -/
theorem statementsAt_textAt (outer : forall text, text ∈ code.statements -> ¬ IsInner text) :
    statementsAt depth (code.textAt depth) = code.statements := by
  have deeper := code.linesAt_add 0 depth
  rw [Nat.zero_add] at deeper
  have read : (statementAt? depth ∘ indented depth) = Option.guard (¬ IsInner ·) := by
    funext text
    rw [Function.comp_apply, statementAt?_indented]
    simp [Option.filter, Option.guard]
  rw [statementsAt, lines_textAt lined, deeper, List.filterMap_map, read,
    <- filter_linesAt outer, <- List.filterMap_eq_filter]

end

/-! ## Modules of routines -/

/-- The text of a module of routines consists of two classes with the given bodies. -/
structure RoutineBodies (naming : Naming) (text packer unpacker : String) : Prop where
  split : text = packerStart naming ++ packer ++ unpackerStart naming ++ unpacker
  packer : forall line, line ∈ Text.lines packer -> IsInner line
  unpacker : forall line, line ∈ Text.lines unpacker -> IsInner line

section

variable {codeOf : Routine -> Code} {stem runtime parameters : String} {routines : List Routine}
  (lined : forall routine, routine ∈ routines -> (codeOf routine).Lined Unbroken)

include lined

/-- A class of routines that are made of lines is made of lines. -/
theorem lined_routines : (Code.inset (.concat (routines.map codeOf)) .done).Lined Unbroken :=
  ⟨Code.lined_concat.mpr (List.forall_mem_map.mpr lined), trivial⟩

/-- All lines of a class of routines are inside it. -/
theorem isInner_routinesText : forall line,
    line ∈ Text.lines (routinesText (routines.map codeOf)) -> IsInner line := by
  rw [routinesText, lines_textAt (lined_routines lined)]
  exact fun line listed => isInner_of_mem listed

/-- The statements of a class of routines are those of its routines. -/
theorem statementsAt_routinesText
    (states : forall routine,
      (codeOf routine).statements = [routine.statement stem runtime parameters])
    (starts : startsStatement stem = true) :
    statementsAt 1 (routinesText (routines.map codeOf)) =
      routines.map (·.statement stem runtime parameters) := by
  rw [routinesText, statementsAt_textAt (lined_routines lined), statements_routines states]
  rw [statements_routines states]
  refine List.forall_mem_map.mpr fun routine _ => not_isInner_of_startsStatement ?_
  unfold Routine.statement
  split <;> simp +decide [starts]

end

section

variable {emissions : List Emission}
  (named : forall each, each ∈ emissions.flatMap routines -> each.Named)

include named

/-- The module of routines consists of the two classes of its pieces. -/
theorem routineBodies_pieces (naming : Naming) :
    RoutineBodies naming (artifacts naming emissions).packer (pieces emissions).packer
      (pieces emissions).unpacker where
  split := by rw [artifacts_eq]
  packer := isInner_routinesText fun routine listed =>
    Routine.unbroken_packCode (named routine listed)
  unpacker := isInner_routinesText fun routine listed =>
    Routine.unbroken_unpackCode (named routine listed)

/-- The statements of the packer class. -/
theorem statementsAt_packer :
    statementsAt 1 (pieces emissions).packer =
      (emissions.flatMap routines).map
        (·.statement "pack_" "rpc.Packer.pack_" "self, data):") :=
  statementsAt_routinesText
    (fun routine listed => Routine.unbroken_packCode (named routine listed))
    Routine.statements_packCode (by decide)

/-- The statements of the unpacker class. -/
theorem statementsAt_unpacker :
    statementsAt 1 (pieces emissions).unpacker =
      (emissions.flatMap routines).map
        (·.statement "unpack_" "rpc.Unpacker.unpack_" "self):") :=
  statementsAt_routinesText
    (fun routine listed => Routine.unbroken_unpackCode (named routine listed))
    Routine.statements_unpackCode (by decide)

end

/-! ## Modules of record classes -/

/-- The text of a class starts with a statement that binds it. -/
theorem not_isInner_statements {binding : ClassBinding} (indentable : binding.code.Indentable) :
    forall text, text ∈ binding.code.statements -> ¬ IsInner text := by
  cases binding with
  | struct name fields => exact List.forall_mem_singleton.mpr (not_isInner_class name)
  | union name layout => exact List.forall_mem_singleton.mpr (not_isInner_class name)
  | same name target =>
      refine List.forall_mem_singleton.mpr ?_
      rintro (empty | blank)
      · have chars := congrArg String.toList empty
        simp at chars
      · have flush := indentable.1
        rw [isFlush, blank] at flush
        cases flush

/-- The text of the classes that an emission adds. -/
def classesText (emission : Emission) : String :=
  (Code.concat ((classes emission).map (·.code))).textAt 0

/-- The classes of records stand in the order of the emissions. -/
theorem types_pieces (emissions : List Emission) :
    (pieces emissions).types = String.join (emissions.map classesText) := by
  induction emissions with
  | nil => rfl
  | cons first rest inductionHypothesis =>
      rw [<- List.singleton_append, pieces_append, List.map_append, String.join_append,
        <- inductionHypothesis]
      simp [pieces, classesText]

/-- The statements of the text of classes are those that the classes are made of. -/
theorem statementsAt_classes {bindings : List ClassBinding}
    (lined : forall each, each ∈ bindings -> each.code.Lined Unbroken)
    (indentable : forall each, each ∈ bindings -> each.code.Indentable) :
    statementsAt 0 ((Code.concat (bindings.map (·.code))).textAt 0) =
      bindings.flatMap (·.code.statements) := by
  have statements : (Code.concat (bindings.map (·.code))).statements =
      bindings.flatMap (·.code.statements) := by
    simp [List.flatMap_map]
  rw [statementsAt_textAt (Code.lined_concat.mpr (List.forall_mem_map.mpr lined)), statements]
  rw [statements]
  exact List.forall_mem_flatMap.mpr fun each listed =>
    not_isInner_statements (indentable each listed)

/-! ## Accepted source texts -/

/-- The references in the generated modules of a file, as they are read off their texts. -/
structure ReferencesRead (naming : Naming) (definitions : List Definition)
    (emissions : List Emission) (modules : Artifacts) : Prop where
  routines : ∃ packer unpacker, RoutineBodies naming modules.packer packer unpacker ∧
    StatementsBind (statementsAt 1 packer) "pack_" (routineNames definitions) ∧
    StatementsBind (statementsAt 1 unpacker) "unpack_" (routineNames definitions)
  /-- Behind the helpers there is the text of one emission after the other. -/
  classes : ∃ texts, modules.types = Text.unlines (typesPreamble naming) ++ String.join texts ∧
    List.Forall₂ (fun emission text => statementsAt 0 text = classStatements emission)
      emissions texts

section

variable {source : String} {isReserved : String -> Bool} {final : Registry}
  {definitions : List Definition} {emissions : List Emission}
  (parsed : (Lexing.ofText source).stream.parse = .ok definitions)
  (run : Run isReserved .builtin definitions final emissions)

include parsed run

/-- The statements of the classes that each emission of an accepted file adds. -/
theorem statementsAt_classes_of_run : forall emission,
    emission ∈ Compiler.start.emissions ++ emissions ->
      statementsAt 0 (classesText emission) = classStatements emission := by
  intro emission listed
  refine statementsAt_classes ?_ ?_
  · exact fun each added => forall_classes parsed run lined_of_accepted each
      (List.mem_flatMap.mpr ⟨emission, listed, added⟩)
  · exact fun each added => forall_classes parsed run indentable_of_accepted each
      (List.mem_flatMap.mpr ⟨emission, listed, added⟩)

/-- The statements behind the helpers are those of all classes of an accepted file. -/
theorem statementsAt_types_of_run :
    let emitted := Compiler.start.emissions ++ emissions
    statementsAt 0 (pieces emitted).types = emitted.flatMap classStatements := by
  intro emitted
  rw [flatMap_classStatements]
  exact statementsAt_classes (forall_classes parsed run lined_of_accepted)
    (forall_classes parsed run indentable_of_accepted)

/-- What is bound in the modules of an accepted file. -/
theorem referencesRead_of_run (naming : Naming) :
    let emitted := Compiler.start.emissions ++ emissions
    ReferencesRead naming definitions emitted (artifacts naming emitted) := by
  intro emitted
  have closed := closedFrom_start_of_run parsed run
  have bound := routineNames_of_run run
  have areWords := isWord_routineNames_of_run parsed run
  have named := named_routines parsed run
  constructor
  · refine ⟨_, _, routineBodies_pieces named naming, ?_, ?_⟩
    · rw [statementsAt_packer named, <- bound]
      exact statementsBind_of_closed closed areWords _ (fun _ => rfl) fun _ => rfl
    · rw [statementsAt_unpacker named, <- bound]
      exact statementsBind_of_closed closed areWords _ (fun _ => rfl) fun _ => rfl
  · refine ⟨emitted.map classesText, by rw [artifacts_eq, types_pieces], ?_⟩
    rw [List.forall₂_map_right_iff, List.forall₂_same]
    exact statementsAt_classes_of_run parsed run

end

end Python

/-- The generated code of every accepted source text refers only to routines and
record classes that it binds, in the order of the definitions and each of them
once. The same is read off the text of the generated modules. -/
theorem Compiler.compile_referencesBound (naming : Naming) (source : String)
    (compilation : Compilation) (final : Compiler)
    (success : Compiler.start.compile (Python.backend naming) source = (.ok compilation, final)) :
    ∃ definitions, (Lexing.ofText source).stream.parse = .ok definitions ∧
      compilation.artifacts = Python.artifacts naming final.emissions ∧
      Python.ReferencesBound naming definitions final.emissions ∧
      Python.ReferencesRead naming definitions final.emissions compilation.artifacts := by
  obtain ⟨definitions, emissions, parsed, run, emitted, rendered⟩ := compile_modules success
  refine ⟨definitions, parsed, rendered, ?_⟩
  rw [rendered, emitted]
  exact ⟨Python.referencesBound_of_run parsed run naming,
    Python.referencesRead_of_run parsed run naming⟩

/-- A list of records with another name for them compiles, and so what its code
refers to is bound. -/
theorem Compiler.compile_referencesBound_chain :
    let source := "enum color \x7b RED = 0 \x7d; typedef color shade; typedef shade shades<4>; " ++
      "struct link \x7b shades used; link next<1>; \x7d; typedef link chain; " ++
      "union picture switch (shade s) \x7b case 0: chain c; default: void; \x7d;"
    ∃ compilation final,
      Compiler.start.compile (Python.backend .standard) source = (.ok compilation, final) ∧
      ∃ definitions, (Lexing.ofText source).stream.parse = .ok definitions ∧
        Python.ReferencesBound .standard definitions final.emissions ∧
        Python.ReferencesRead .standard definitions final.emissions compilation.artifacts := by
  intro source
  obtain ⟨compilation, final, success⟩ : ∃ compilation final,
      Compiler.start.compile (Python.backend .standard) source = (.ok compilation, final) :=
    exists_of_isOk (by decide +kernel)
  obtain ⟨definitions, parsed, -, references⟩ :=
    compile_referencesBound .standard source compilation final success
  exact ⟨compilation, final, success, definitions, parsed, references⟩

end XdrPack
