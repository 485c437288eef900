import XdrPack.Proofs.Python.Mentions

/-!
# References to constants in generated code

The generated modules mention exactly the values that the definitions of the source text
mention, in the same roles. A reserved word is in the code wherever a definition refers to
it as to a constant, but for labels, which are refused.
-/

namespace XdrPack

open Grammar

namespace Python

/-- What the three generated modules mention. -/
def mentionsRead (naming : Naming) (emissions : List Emission) : List (ReferenceRole × String) :=
  readLines boundValue (constantsCode emissions) ++ readLines mentions (typesCode naming emissions)
    ++ readLines mentions (packerCode naming emissions)

/-! ## Emissions -/

/-- What is read off the code that is generated for an emission. -/
def emissionRead (emission : Emission) : List (ReferenceRole × String) :=
  (constants emission).flatMap (fun constant => readLines boundValue constant.code)
    ++ (classes emission).flatMap (fun binding => readLines mentions binding.code)
    ++ (routines emission).flatMap (fun routine => readLines mentions routine.packCode)
    ++ (routines emission).flatMap fun routine => readLines mentions routine.unpackCode

/-- What is read off the code of an emission is what the emission mentions. -/
def Mentioning (emission : Emission) : Prop :=
  forall mention, mention ∈ emissionRead emission ↔ mention ∈ emission.references.map written

/-- A value that was read is written as a name or a number. -/
theorem isName_value {value : Value} (lexed : Lexed ValuePhrase value) : IsName (literal value) :=
  isName_literal (holds_value isName_words lexed)

/-- A constant whose line can be read. -/
structure ConstantBinding.Named (constant : ConstantBinding) : Prop where
  name : IsName constant.name
  value : IsName (literal constant.value)

/-- The line of a constant binds its value. -/
theorem ConstantBinding.Named.readLines_code {constant : ConstantBinding} (named : constant.Named) :
    readLines boundValue constant.code = [written ⟨.value, constant.value⟩] := by
  have read := named.value.read apart_nil
  rw [List.append_nil] at read
  simp +decide [ConstantBinding.code, symbols, Symbol.read, Symbol.ended, named.name.read, read,
    boundValue, written]

/-- The binding of a constant is a line. -/
theorem ConstantBinding.Named.lined_code {constant : ConstantBinding} (named : constant.Named) :
    constant.code.Lined Unbroken :=
  ⟨by simp +decide [named.name.unbroken, named.value.unbroken], trivial⟩

/-- The constants that are generated for an accepted definition mention names. -/
theorem named_constants {isReserved : String -> Bool} {registry : Registry}
    {definition : Definition} {binding : Option (String × TypeRef)} {emission : Emission}
    (accepted : Verdict.Accepted isReserved registry definition binding (some emission))
    (lexed : Lexed DefinitionPhrase definition.unlined) :
    forall constant, constant ∈ constants emission -> constant.Named := by
  cases accepted with
  | constant =>
      obtain ⟨isLexical, isValue⟩ := Lexed.constant lexed
      exact List.forall_mem_singleton.mpr
        ⟨isName_words.identifier isLexical, isName_value isValue⟩
  | enum =>
      refine List.forall_mem_map.mpr fun member listed => ?_
      obtain ⟨isLexical, isValue⟩ := (Lexed.enum lexed).2 member listed
      exact ⟨isName_words.identifier isLexical, isName_value isValue⟩
  | typedef | struct | union => simp [constants]

/-- The built-in types mention nothing. -/
theorem mentioning_primitive {primitive : String × String}
    (listed : primitive ∈ Registry.primitives) :
    Mentioning (.primitive primitive.1 primitive.2) := by
  have mentioning : Routine.Mentioning ⟨primitive.1, .runtime primitive.2⟩ :=
    ⟨named_primitives primitive listed, by simp⟩
  have packs := Routine.readLines_packCode mentioning
  have unpacks := Routine.readLines_unpackCode mentioning
  intro mention
  simp [emissionRead, constants, classes, routines, packs, unpacks, Routine.references,
    Emission.references]

/-- The routines of a type are called like the type. -/
theorem Routine.name_ofCoding (name : String) (coding : Coding) :
    (ofCoding name coding).name = name := by
  cases coding <;> rfl

/-- The routines of a type refer to a constant for the length of their arrays only. -/
theorem Routine.references_ofCoding (name : String) (coding : Coding) :
    (ofCoding name coding).references = coding.length?.toList.map (⟨.length, ·⟩) := by
  cases coding <;> rfl

/-- The routines of a type definition are spelled out only if they are not an alias. -/
theorem mentioning_ofCoding {name : String} {coding : Coding}
    (named : (Routine.ofCoding name coding).Named) :
    (Routine.ofCoding name coding).Mentioning where
  toNamed := named
  notAlias := by cases coding <;> simp [Routine.ofCoding, Coding.isAlias]

/-- Another name for a class mentions nothing. -/
theorem readLines_typedef {name : String} (isName : IsName name) (target : Field) :
    (classes (.typedef name target)).flatMap (fun binding => readLines mentions binding.code) =
      [] := by
  cases coding : target.coding with
  | record other =>
      have bound : mentions (symbols (name ++ " = " ++ other)) = [] := by
        rw [String.append_assoc]
        exact mentions_assignment isName ⟨_, by rw [String.toList_append]; rfl⟩
      simp [classes, coding, ClassBinding.code, bound]
  | _ => simp [classes, coding]

/-- What is emitted for an accepted definition is mentioned. -/
theorem mentioning_of_accepted {isReserved : String -> Bool} {registry : Registry}
    {definition : Definition} {binding : Option (String × TypeRef)} {emission : Emission}
    (accepted : Verdict.Accepted isReserved registry definition binding (some emission))
    (lexed : Lexed DefinitionPhrase definition.unlined) (declared : definition.Written) :
    Mentioning emission := by
  have named := named_of_accepted accepted lexed declared
  have values : (constants emission).flatMap
      (fun constant => readLines boundValue constant.code) =
        (constants emission).map fun constant => written ⟨.value, constant.value⟩ := by
    rw [List.map_eq_flatMap]
    exact List.flatMap_congr fun constant listed =>
      (named_constants accepted lexed constant listed).readLines_code
  intro mention
  rw [emissionRead, values]
  cases accepted with
  | constant => simp [constants, classes, routines, Emission.references]
  | @enum name members line target new allowed completed =>
      have mentioning : Routine.Mentioning ⟨name, .forward "enum"⟩ :=
        ⟨named _ (List.mem_singleton_self _), by simp⟩
      have packs := Routine.readLines_packCode mentioning
      have unpacks := Routine.readLines_unpackCode mentioning
      simp [constants, classes, routines, packs, unpacks, Routine.references, Emission.references]
  | @typedef declaration target declares new completed =>
      have mentioning := mentioning_ofCoding (named _ (List.mem_singleton_self _))
      have packs := Routine.readLines_packCode mentioning
      have unpacks := Routine.readLines_unpackCode mentioning
      have isName : IsName declaration.name := by
        simpa only [Routine.name_ofCoding] using mentioning.name
      rw [Routine.references_ofCoding] at packs unpacks
      simp [constants, readLines_typedef isName, routines, packs, unpacks, Emission.references,
        Field.references]
  | @struct name fields line members new completed =>
      obtain ⟨-, fields⟩ := Lexed.struct lexed
      have read := Struct.readLines_code name
        (forall_members mentioning_field completed fields declared)
      simp [constants, classes, routines, ClassBinding.code, read, Emission.references]
  | @union name discriminant switch line layout new declares completed =>
      obtain ⟨-, selects, cases⟩ := Lexed.union lexed
      have fields := forall_layout mentioning_field completed selects cases declared
      have read := Union.readLines_code (readable_layout completed declares selects cases declared)
        (List.forall_mem_cons.mp fields).2 name
      simp [constants, classes, routines, ClassBinding.code, read]

/-! ## Modules -/

/-- The first line of a module mentions no constant. -/
theorem mentions_banner (naming : Naming) : mentions (symbols (banner naming)) = [] := by
  unfold banner
  rw [String.append_assoc, symbols, String.toList_append]
  exact mentions_sign '#' _

/-- What all record classes rely on mentions nothing. -/
theorem mentions_typesPreamble (naming : Naming) :
    forall text, text ∈ typesPreamble naming -> mentions (symbols text) = [] := by
  have helpers : forall text, text ∈ (typesPreamble .standard).drop 3 ->
      mentions (symbols text) = [] := by
    decide +kernel
  refine List.forall_mem_cons.mpr ⟨mentions_banner naming, List.forall_mem_cons.mpr
    ⟨by decide, List.forall_mem_cons.mpr ⟨?_, helpers⟩⟩⟩
  rw [String.append_assoc]
  exact mentions_header (by decide) _

/-- The start of the module of routines mentions nothing. -/
theorem mentions_packerPreamble (naming : Naming) :
    forall text, text ∈ packerPreamble naming -> mentions (symbols text) = [] := by
  have remarks : forall text, text ∈ ((packerPreamble .standard).drop 1).take 5 ->
      mentions (symbols text) = [] := by
    decide +kernel
  refine List.forall_mem_cons.mpr ⟨mentions_banner naming,
    List.forall_mem_append.mpr ⟨remarks, List.forall_mem_cons.mpr ⟨?_, by decide⟩⟩⟩
  rw [String.append_assoc]
  exact mentions_header (by decide) _

/-- The generated modules mention what is read off the code of some emission. -/
theorem mem_mentionsRead {naming : Naming} {emissions : List Emission}
    {mention : ReferenceRole × String} :
    mention ∈ mentionsRead naming emissions ↔
      ∃ emission, emission ∈ emissions ∧ mention ∈ emissionRead emission := by
  have preamble : readLines mentions (.lines (typesPreamble naming)) = [] := by
    rw [readLines_lines, List.flatMap_eq_nil_iff]
    exact mentions_typesPreamble naming
  have start : readLines mentions (.lines (packerPreamble naming)) = [] := by
    rw [readLines_lines, List.flatMap_eq_nil_iff]
    exact mentions_packerPreamble naming
  have headers : mentions (symbols ("class " ++ naming.classPrefix ++ "Packer(rpc.Packer):")) = [] ∧
      mentions (symbols ("class " ++ naming.classPrefix ++ "Unpacker(rpc.Unpacker):")) = [] := by
    rw [String.append_assoc, String.append_assoc]
    exact ⟨mentions_header (by decide) _, mentions_header (by decide) _⟩
  obtain ⟨packer, unpacker⟩ := headers
  have read : mentionsRead naming emissions =
      emissions.flatMap (fun emission => (constants emission).flatMap fun constant =>
          readLines boundValue constant.code)
        ++ emissions.flatMap (fun emission => (classes emission).flatMap fun binding =>
          readLines mentions binding.code)
        ++ (emissions.flatMap (fun emission => (routines emission).flatMap fun routine =>
            readLines mentions routine.packCode)
          ++ emissions.flatMap fun emission => (routines emission).flatMap fun routine =>
            readLines mentions routine.unpackCode) := by
    simp only [mentionsRead, constantsCode, typesCode, packerCode, routinesCode, readLines_append,
      readLines_concat, readLines_single, readLines_inset, readLines_blank, readLines_done,
      List.flatMap_map, List.flatMap_assoc, preamble, start, packer, unpacker, List.nil_append,
      List.append_nil]
  rw [read]
  simp only [emissionRead, List.mem_append, List.mem_flatMap, and_or_left, exists_or, or_assoc]

/-! ## Reserved words -/

/-- The literal of a number starts as the number does. -/
theorem head?_numberLiteral (chars : List Char) : (numberLiteral chars).head? = chars.head? := by
  have unsigned : forall digits, (unsignedLiteral digits).head? = digits.head? := by
    intro digits
    unfold unsignedLiteral
    split
    · split <;> rfl
    · rfl
  unfold numberLiteral
  split
  · rfl
  · exact unsigned chars

/-- No number is a reserved word, so a value that is written as one refers to a constant. -/
theorem eq_constant_of_reserved {value : Value} (lexed : Lexed ValuePhrase value)
    (reserved : isReserved (literal value) = true) : value = .constant (literal value) := by
  obtain ⟨phrase, derived, isLexical⟩ := lexed
  cases derived with
  | constant name => rfl
  | number text =>
      have isText := Segment.isNumeralText_of_isNumeral (isLexical (.number text) (by simp))
      have words : forall word, word ∈ keywords ++ classNames ->
          word.toList.head?.all (fun c => !(c.isDigit || c == '-')) = true := by
        decide
      have listed : literal (.number text) ∈ keywords ++ classNames := by
        simpa [isReserved] using reserved
      have starts := words _ listed
      rw [literal, String.toList_ofList, head?_numberLiteral] at starts
      cases chars : text.toList with
      | nil =>
          rw [chars] at isText
          cases isText
      | cons first rest =>
          rw [chars] at isText starts
          simp only [Segment.isNumeralText, List.head?_cons, Option.all_some, Bool.and_eq_true,
            Bool.or_eq_true, Bool.not_eq_true', Bool.or_eq_false_iff] at isText starts
          rcases isText.1 with isDigit | ⟨isMinus, -⟩
          · rw [starts.1] at isDigit
            cases isDigit
          · rw [starts.2] at isMinus
            cases isMinus

/-! ## Accepted source texts -/

/-- What the generated modules mention of the values that the definitions of a file mention. -/
structure MentionsExactly (naming : Naming) (definitions : List Definition)
    (emissions : List Emission) : Prop where
  /-- The modules mention what the definitions do, in the same roles. -/
  mentioned : forall mention, mention ∈ mentionsRead naming emissions ↔
    mention ∈ (definitions.flatMap Definition.references).map written
  /-- A reserved word is mentioned exactly if a definition refers to it as to a constant. -/
  reserved : forall role word, isReserved word = true ->
    ((role, word) ∈ mentionsRead naming emissions ↔
      ⟨role, .constant word⟩ ∈ definitions.flatMap Definition.references)
  /-- No label is a reserved word. -/
  labels : forall label, (.label, label) ∈ mentionsRead naming emissions ->
    isReserved label = false
  constantLines : Text.lines (artifacts naming emissions).constants =
    (constantsCode emissions).linesAt 0
  /-- What is read are the lines of the modules, if the names that they are given are in one
  line. -/
  moduleLines : naming.Unbroken ->
    Text.lines (artifacts naming emissions).types = (typesCode naming emissions).linesAt 0 ∧
      Text.lines (artifacts naming emissions).packer = (packerCode naming emissions).linesAt 0

section

variable {source : String} {final : Registry} {definitions : List Definition}
  {emissions : List Emission} (parsed : (Lexing.ofText source).stream.parse = .ok definitions)
  (run : Run isReserved .builtin definitions final emissions)

include parsed run

/-- The modules that are generated in a run mention what the definitions do. -/
theorem mem_mentionsRead_of_run (naming : Naming) (mention : ReferenceRole × String) :
    mention ∈ mentionsRead naming (Compiler.start.emissions ++ emissions) ↔
      mention ∈ (definitions.flatMap Definition.references).map written := by
  have mentioning : forall emission, emission ∈ Compiler.start.emissions ++ emissions ->
      Mentioning emission := by
    refine List.forall_mem_append.mpr ⟨?_, run.forall_emissions parsed mentioning_of_accepted⟩
    exact List.forall_mem_map.mpr fun primitive listed => mentioning_primitive listed
  have noneBuiltIn : Compiler.start.emissions.flatMap Emission.references = [] := rfl
  have references := run.references_eq (Lexing.lexed_of_parse parsed)
    (TokenStream.written_of_parse parsed)
  rw [mem_mentionsRead, <- references, <- List.nil_append (emissions.flatMap _), <- noneBuiltIn,
    <- List.flatMap_append, List.map_flatMap, List.mem_flatMap]
  apply exists_congr
  intro emission
  apply and_congr_right
  exact fun listed => mentioning emission listed mention

/-- A reserved word is mentioned if a definition refers to it. -/
theorem reserved_mem_mentionsRead (naming : Naming) (role : ReferenceRole) {word : String}
    (reserved : isReserved word = true) :
    (role, word) ∈ mentionsRead naming (Compiler.start.emissions ++ emissions) ↔
      ⟨role, .constant word⟩ ∈ definitions.flatMap Definition.references := by
  rw [mem_mentionsRead_of_run parsed run, List.mem_map]
  constructor
  · rintro ⟨⟨otherRole, value⟩, listed, shown⟩
    obtain ⟨rfl, rfl⟩ : otherRole = role ∧ literal value = word := Prod.mk.inj shown
    obtain ⟨definition, isDefinition, inDefinition⟩ := List.mem_flatMap.mp listed
    have lexed : Lexed ValuePhrase value :=
      lexed_references (Lexing.lexed_of_parse parsed definition isDefinition) _ inDefinition
    rwa [<- eq_constant_of_reserved lexed reserved]
  · exact fun listed => ⟨_, listed, rfl⟩

/-- The module of constants that is generated in a run is made of lines. -/
theorem lined_constantsCode :
    (constantsCode (Compiler.start.emissions ++ emissions)).Lined Unbroken := by
  have noneBuiltIn : Compiler.start.emissions.flatMap constants = [] := by decide
  rw [constantsCode, List.flatMap_append, noneBuiltIn, List.nil_append, Code.lined_concat]
  refine List.forall_mem_map.mpr (List.forall_mem_flatMap.mpr (run.forall_emissions parsed ?_))
  intro definition known binding emission accepted lexed _ constant listed
  exact (named_constants accepted lexed constant listed).lined_code

/-- No label that is mentioned is a reserved word. -/
theorem unreserved_label (naming : Naming) {label : String}
    (mentioned : (.label, label) ∈
      mentionsRead naming (Compiler.start.emissions ++ emissions)) :
    isReserved label = false := by
  by_contra isWord
  rw [Bool.not_eq_false] at isWord
  rw [reserved_mem_mentionsRead parsed run naming .label isWord] at mentioned
  obtain ⟨definition, isDefinition, inDefinition⟩ := List.mem_flatMap.mp mentioned
  obtain ⟨known, binding, emission, accepted, -⟩ := run.exists_accepted isDefinition
  rw [accepted.unreserved_labels inDefinition] at isWord
  cases isWord

/-- The modules of an accepted file mention the constants that its definitions refer to. -/
theorem mentionsExactly_of_run (naming : Naming) :
    MentionsExactly naming definitions (Compiler.start.emissions ++ emissions) where
  mentioned := mem_mentionsRead_of_run parsed run naming
  reserved role word isWord := reserved_mem_mentionsRead parsed run naming role isWord
  labels label := unreserved_label parsed run naming
  constantLines := by
    have lined := lined_constantsCode parsed run
    rw [artifacts, Code.lines_render (lined.imp fun _ => Unbroken.oneLine)]
  moduleLines unbroken := by
    have types := lined_typesCode unbroken (forall_classes parsed run lined_of_accepted)
    have packer := lined_packerCode unbroken (named_routines parsed run)
    rw [artifacts, Code.lines_render (types.imp fun _ => Unbroken.oneLine),
      Code.lines_render (packer.imp fun _ => Unbroken.oneLine)]
    exact ⟨rfl, rfl⟩

end

end Python

/-- The modules that are generated for an accepted source text mention exactly the values that
its definitions mention. A reserved word is among them wherever a definition refers to it,
but never as a label. -/
theorem Compiler.compile_mentionsExactly (naming : Naming) (source : String)
    (compilation : Compilation) (final : Compiler)
    (success : Compiler.start.compile (Python.backend naming) source = (.ok compilation, final)) :
    ∃ definitions, (Lexing.ofText source).stream.parse = .ok definitions ∧
      compilation.artifacts = Python.artifacts naming final.emissions ∧
      Python.MentionsExactly naming definitions final.emissions := by
  obtain ⟨definitions, emissions, parsed, run, emitted, rendered⟩ := compile_modules success
  refine ⟨definitions, parsed, rendered, ?_⟩
  rw [emitted]
  exact Python.mentionsExactly_of_run parsed run naming

/-- Values of every kind compile in every role, and so what the modules mention is known. -/
theorem Compiler.compile_mentionsExactly_every_role :
    let source := "const SIZE = 010; enum color \x7b RED = None, BLUE = 1 \x7d; " ++
      "typedef opaque data[SIZE]; struct pair \x7b data both[class]; pair *next; \x7d; " ++
      "union pick switch (color c) \x7b case RED: case 2: pair rows[-3]; default: void; \x7d;"
    ∃ compilation final,
      Compiler.start.compile (Python.backend .standard) source = (.ok compilation, final) ∧
      ∃ definitions, (Lexing.ofText source).stream.parse = .ok definitions ∧
        Python.MentionsExactly .standard definitions final.emissions := by
  intro source
  obtain ⟨compilation, final, success⟩ : ∃ compilation final,
      Compiler.start.compile (Python.backend .standard) source = (.ok compilation, final) :=
    exists_of_isOk (by decide +kernel)
  obtain ⟨definitions, parsed, -, exactly⟩ :=
    compile_mentionsExactly .standard source compilation final success
  exact ⟨compilation, final, success, definitions, parsed, exactly⟩

/-- Reserved words compile as the value of a member of an enumeration and as a length, and the
generated modules mention them. -/
theorem Compiler.compile_mentions_reserved :
    let source := "enum color \x7b RED = None \x7d; typedef int row[class];"
    ∃ compilation final,
      Compiler.start.compile (Python.backend .standard) source = (.ok compilation, final) ∧
      compilation.artifacts = Python.artifacts .standard final.emissions ∧
      (.value, "None") ∈ Python.mentionsRead .standard final.emissions ∧
      (.length, "class") ∈ Python.mentionsRead .standard final.emissions ∧
      Python.isReserved "None" = true ∧ Python.isReserved "class" = true := by
  intro source
  obtain ⟨compilation, final, success⟩ : ∃ compilation final,
      Compiler.start.compile (Python.backend .standard) source = (.ok compilation, final) :=
    exists_of_isOk (by decide +kernel)
  obtain ⟨-, -, -, -, -, rendered⟩ := compile_modules success
  have reached : (Compiler.start.compile (Python.backend .standard) source).2 = final :=
    congrArg Prod.snd success
  refine ⟨compilation, final, success, rendered, ?_, ?_, by decide, by decide⟩
  · have emitted : Emission.enum "color" [⟨"RED", .constant "None", 1⟩] ∈
        (Compiler.start.compile (Python.backend .standard) source).2.emissions := by
      decide +kernel
    rw [<- reached]
    exact Python.mem_mentionsRead.mpr ⟨_, emitted, by decide +kernel⟩
  · have emitted : Emission.typedef "row"
        ⟨⟨"row", ⟨"int", some "int", .fixed (.constant "class"), false, false⟩, 1⟩,
          .array "int" (some (.constant "class"))⟩ ∈
        (Compiler.start.compile (Python.backend .standard) source).2.emissions := by
      decide +kernel
    rw [<- reached]
    exact Python.mem_mentionsRead.mpr ⟨_, emitted, by decide +kernel⟩

end XdrPack
