import XdrPack.Proofs.Python.Mentions
import XdrPack.Proofs.ReservedNames

/-!
# The parameters of constructors

The constructor of a record class has a parameter for the record itself, one for its context
and one for each attribute. They are read off the head of the constructor, and so are the
keywords of the call that insists on the attributes of a structure off the method that
encodes it. Both name the fields of the structure one by one, so they are distinct just if the
fields are, which nothing checks.
-/

namespace XdrPack

open Grammar

namespace Python

/-! ## Reading parameters -/

/-- The name of a parameter, which may have a default. -/
def Argument.parameter? : Argument -> Option String
  | ⟨some name, _⟩ => some name
  | ⟨none, .plain name⟩ => some name
  | _ => none

/-- The parameters that the head of a function lists. -/
def parameters? (head : String) : Option (List String) :=
  match symbols head with
  | .name "def" :: rest =>
      if rest.getLast? = some (.sign ':') then
        (Call.read? rest.dropLast).bind fun call => call.arguments.mapM Argument.parameter?
      else none
  | _ => none

/-- Whether a line of a class is the head of its constructor. -/
def isConstructorHead (line : String) : Bool :=
  (textAfter? "    def __init__(".toList line.toList).isSome

/-- The parameters of the constructor in the class of a name. -/
def constructorParameters? (name types : String) : Option (List String) := do
  let body <- behindLast? ("class " ++ name ++ ":") (Text.lines types)
  let head <- body.find? isConstructorHead
  parameters? head

/-- The keywords of the call with which the method that encodes starts in the class of a
name. -/
def assertedKeywords? (name types : String) : Option (List String) := do
  let lines <- methodLines? packHead name types
  let first <- lines.head?
  let arguments <- lineAssertion? first
  some (arguments.filterMap (·.key))

/-! ## The head of a constructor -/

/-- A sign at the end of a text is the last symbol. -/
theorem Symbol.read_concat {c : Char} (isSign : isNameChar c = false) (notBlank : c ≠ ' ')
    (name text : List Char) :
    Symbol.read name (text ++ [c]) = Symbol.read name text ++ [.sign c] := by
  induction text generalizing name with
  | nil => simp [Symbol.read, isSign, notBlank, Symbol.ended]
  | cons first rest inductionHypothesis =>
      simp only [List.cons_append, Symbol.read, inductionHypothesis]
      split
      · rfl
      · split
        · rw [List.append_assoc]
        · rw [List.append_assoc, List.cons_append]

/-- Texts that are joined start with the first, and the separator is in front of the others. -/
theorem intercalate_cons (separator first : String) (rest : List String) :
    separator.intercalate (first :: rest) =
      first ++ String.join (rest.map fun text => separator ++ text) := by
  induction rest generalizing first with
  | nil => simp
  | cons second others inductionHypothesis =>
      rw [String.intercalate_cons_cons, inductionHypothesis]
      simp [<- String.toList_inj]

/-- The head of a constructor. -/
def constructorHead (names : List String) : String :=
  "def __init__(self, ncl" ++ String.join (names.map fun name => ", " ++ name ++ "=None") ++ "):"

/-- The head of a constructor as a call, where defaults are what is passed under a name. -/
def constructorCall (names : List String) : Call :=
  ⟨.plain "__init__", ⟨none, .plain "self"⟩ :: ⟨none, .plain "ncl"⟩
    :: names.map fun name => ⟨some name, .plain "None"⟩⟩

/-- The head of a constructor is a call behind a keyword. -/
theorem constructorHead_eq (names : List String) :
    constructorHead names = "def" ++ " " ++ ((constructorCall names).text ++ ":") := by
  have defaults : (names.map fun name => (⟨some name, .plain "None"⟩ : Argument)).map
      Argument.text = names.map fun name => name ++ "=None" := by
    simp [Argument.text, Operand.text, String.append_assoc]
  unfold constructorHead
  rw [Call.text, constructorCall, List.map_cons, List.map_cons, defaults, intercalate_cons,
    List.map_cons, List.map_map]
  simp [Argument.text, Operand.text, <- String.toList_inj, Function.comp_def, List.flatMap_map]

/-- The head of a constructor mentions names. -/
theorem names_constructorCall {names : List String}
    (areNames : forall each, each ∈ names -> IsName each) :
    forall text, text ∈ (constructorCall names).names -> IsName text := by
  have fixed : IsName "__init__" ∧ IsName "self" ∧ IsName "ncl" ∧ IsName "None" := by decide
  obtain ⟨isFunction, isSelf, isContext, isDefault⟩ := fixed
  simp only [Call.names, constructorCall, Operand.names, List.flatMap_cons, Argument.names,
    Option.toList_none, List.nil_append, List.flatMap_map, Option.toList_some,
    List.forall_mem_append, List.forall_mem_singleton, List.forall_mem_flatMap]
  exact ⟨isFunction, isSelf, isContext, fun name listed => ⟨areNames name listed, isDefault⟩⟩

/-- The parameters are read off the head of a constructor. -/
theorem parameters?_constructorHead {names : List String}
    (areNames : forall each, each ∈ names -> IsName each) (depth : Nat) :
    parameters? (indented depth (constructorHead names)) = some ("self" :: "ncl" :: names) := by
  have isKeyword : IsName "def" := by decide
  have read : symbols ((constructorCall names).text ++ ":") =
      (constructorCall names).symbols ++ [.sign ':'] := by
    rw [symbols, String.toList_append]
    exact (Symbol.read_concat (by decide) (by decide) [] _).trans
      (congrArg (· ++ _) (Call.read_text (names_constructorCall areNames)))
  have inverse : forall name, Argument.parameter? ⟨some name, .plain "None"⟩ = some name :=
    fun _ => rfl
  rw [constructorHead_eq, parameters?, symbols_indented, symbols_word isKeyword, read]
  simp only [List.getLast?_concat, if_true, List.dropLast_concat, Call.read?_symbols,
    Option.bind_some, constructorCall, List.mapM_cons,
    mapM_of_inverse inverse]
  rfl

/-! ## The class of a structure -/

/-- No line of a comment is the head of a constructor. -/
theorem isConstructorHead_comment (text : String) :
    isConstructorHead (indented 1 ("# " ++ text)) = false := by
  have notEmpty : "# " ++ text ≠ "" := by simp [<- String.toList_inj]
  simp [isConstructorHead, toList_indented notEmpty, textAfter?, List.isPrefixOf]

/-- The head of a constructor is recognized in its class. -/
theorem isConstructorHead_constructorHead (names : List String) :
    isConstructorHead (indented 1 (constructorHead names)) = true := by
  unfold constructorHead
  generalize String.join _ = defaults
  have notEmpty : "def __init__(self, ncl" ++ defaults ++ "):" ≠ "" := by
    simp [<- String.toList_inj]
  simp [isConstructorHead, toList_indented notEmpty, textAfter?, List.isPrefixOf]

/-- The parameters of the constructor of a class are read. -/
theorem constructorParameters?_class {name types : String}
    {texts names trailer after : List String} {printed pack unpack : Code}
    (found : behindLast? ("class " ++ name ++ ":") (Text.lines types) =
      some ((commentCode texts
        ++ methodsCode (constructorCode names trailer) printed pack unpack).linesAt 1 ++ after))
    (areNames : forall each, each ∈ names -> IsName each) :
    constructorParameters? name types = some ("self" :: "ncl" :: names) := by
  have comments : ((commentCode texts).linesAt 1).find? isConstructorHead = none := by
    simp [commentCode, isConstructorHead_comment]
  obtain ⟨inside, lines⟩ : ∃ inside, (constructorCode names trailer).linesAt 1 =
      indented 1 (constructorHead names) :: inside := ⟨_, rfl⟩
  simp [constructorParameters?, found, methodsCode, List.find?_append, comments, lines,
    isConstructorHead_constructorHead, parameters?_constructorHead areNames]

/-- The keywords of the method that encodes a structure are read. -/
theorem assertedKeywords?_eq {name types : String} {fields : List Field}
    (lines : methodLines? packHead name types =
      some ((actionCode (Struct.packActions fields)).linesAt 0))
    (areNames : forall field, field ∈ fields -> IsName field.name) :
    assertedKeywords? name types = some (fields.map (·.name)) := by
  have named : forall text, text ∈ (Action.assertSet (fields.map (·.name))).mentioned ->
      IsName text :=
    List.forall_mem_map.mpr areNames
  have does := Action.does_written named
  rw [Action.written, Action.events] at does
  have insists := (List.forall₂_cons.mp does).1.lineAssertion?
  have starts : ((actionCode (Struct.packActions fields)).linesAt 0).head? =
      some (Statement.perform ⟨.plain "assert_not_none",
        assertion (fields.map (·.name))⟩).text := by
    rw [linesAt_actionCode_zero, Struct.packActions, List.flatMap_cons, Action.statements_eq]
    rfl
  simp only [assertedKeywords?, lines, starts, insists, Event.asserted?, Option.map_some,
    Option.bind_eq_bind, Option.bind_some, key_assertion]

/-- What is read off the class of a structure. -/
theorem Struct.parameters {name types : String} {fields : List Field} {after : List String}
    {body : Code} (readable : forall field, field ∈ fields -> ReadableField field)
    (code : Struct.code name fields = .single ("class " ++ name ++ ":") body)
    (found : behindLast? ("class " ++ name ++ ":") (Text.lines types) =
      some (body.linesAt 1 ++ after)) :
    constructorParameters? name types = some ("self" :: "ncl" :: (valued fields).map (·.name)) ∧
      assertedKeywords? name types = some ((valued fields).map (·.name)) := by
  have named : forall field, field ∈ valued fields -> forall text,
      text ∈ field.name :: mentioned field.coding -> IsName text := by
    intro field listed
    obtain ⟨isField, declares⟩ := List.mem_filter.mp listed
    exact (readable field isField).named (by simpa using declares)
  have areNames : forall field, field ∈ valued fields -> IsName field.name :=
    fun field listed => named field listed _ List.mem_cons_self
  have packFilled := filled_actionCode (named_packActions named) 0
  have unpackFilled : "" ∉ (unpackBody (valued fields)).linesAt 0 := by
    unfold unpackBody
    split
    · decide
    · exact filled_actionCode (named_unpackActions named) 0
  cases code
  refine ⟨constructorParameters?_class found (List.forall_mem_map.mpr areNames), ?_⟩
  exact assertedKeywords?_eq (methodLines?_class found packFilled unpackFilled).1 areNames

/-- The fields that hold a value have the names that they were declared with. -/
theorem Struct.names_valued {isReserved : String -> Bool} {registry : Registry}
    {declarations : List Declaration} {fields : List Field}
    (completed : List.Forall₂ (Declaration.CompletesMember isReserved registry) declarations
      fields) :
    (valued fields).map (·.name) =
      (declarations.filter fun declaration => !declaration.isVoid).map (·.name) := by
  induction completed with
  | nil => rfl
  | cons completes _ inductionHypothesis =>
      have name := completes.carriedBy.name
      simp only [valued, List.filter_cons, completes.toCompletes.isVoid_eq]
        at inductionHypothesis ⊢
      split
      · rw [List.map_cons, List.map_cons, Field.name, name, inductionHypothesis]
      · exact inductionHypothesis

end Python

/-! ## Accepted source texts -/

namespace Compiler

/-- The class of every structure of an accepted source text names the fields that hold a value
in order, and none of these names is reserved. -/
theorem struct_parameters {naming : Naming} {source : String} {compilation : Compilation}
    {final : Compiler} {definitions : List Definition}
    (success : start.compile (Python.backend naming) source = (.ok compilation, final))
    (parsed : (Lexing.ofText source).stream.parse = .ok definitions)
    {name : String} {fields : List Declaration} {line : Int}
    (listed : .struct name fields line ∈ definitions) :
    let names := (fields.filter fun field => !field.isVoid).map (·.name)
    Python.constructorParameters? name compilation.artifacts.types =
        some ("self" :: "ncl" :: names) ∧
      Python.assertedKeywords? name compilation.artifacts.types = some names ∧
      forall each, each ∈ names -> Python.isReserved each = false := by
  intro names
  obtain ⟨others, emissions, parsedToo, run, emitted, rendered⟩ := compile_modules success
  obtain rfl := Except.ok.inj (parsed.symm.trans parsedToo)
  rw [rendered, emitted]
  obtain ⟨known, binding, emission, accepted, among⟩ := run.exists_accepted listed
  cases accepted with
  | @struct _ _ _ members new completed =>
      have isClass : Python.ClassBinding.struct name members ∈ emissions.flatMap Python.classes :=
        List.mem_flatMap.mpr ⟨_, among _ rfl, List.mem_cons_self⟩
      obtain ⟨after, found⟩ := Python.behindLast?_of_run naming run parsed isClass rfl
      obtain ⟨-, lexed⟩ := Lexed.struct (Lexing.lexed_of_parse parsed _ listed)
      have readable := Python.forall_members Python.readable_field completed lexed
        (TokenStream.written_of_parse parsed _ listed)
      have sameNames : (Python.Struct.valued members).map (·.name) = names :=
        Python.Struct.names_valued completed
      obtain ⟨parameters, keywords⟩ := Python.Struct.parameters readable rfl found
      rw [sameNames] at parameters keywords
      refine ⟨parameters, keywords, ?_⟩
      rw [<- sameNames]
      refine List.forall_mem_map.mpr fun field isValued => ?_
      obtain ⟨isMember, declares⟩ := List.mem_filter.mp isValued
      exact unreserved_members completed isMember (by simpa using declares)

/-- In the class of every structure of an accepted source text, the constructor has a
parameter for each field that holds a value, behind two others, and the method for encoding
insists on just these fields by keyword. So the keywords are distinct if and only if the names of
the fields are, and the same holds of the parameters. -/
theorem constructorParameters_nodup_iff (naming : Naming) (source : String)
    (compilation : Compilation) (final : Compiler)
    (success : start.compile (Python.backend naming) source = (.ok compilation, final)) :
    ∃ definitions, (Lexing.ofText source).stream.parse = .ok definitions ∧
      forall name fields line, .struct name fields line ∈ definitions ->
        let names := (fields.filter fun field => !field.isVoid).map (·.name)
        Python.constructorParameters? name compilation.artifacts.types =
            some ("self" :: "ncl" :: names) ∧
          Python.assertedKeywords? name compilation.artifacts.types = some names ∧
          (("self" :: "ncl" :: names).Nodup ↔ names.Nodup) := by
  obtain ⟨definitions, emissions, parsed, -, -, -⟩ := compile_modules success
  refine ⟨definitions, parsed, fun name fields line listed => ?_⟩
  obtain ⟨parameters, keywords, unreserved⟩ := struct_parameters success parsed listed
  refine ⟨parameters, keywords, ?_⟩
  have apart : forall each, Python.isReserved each = true ->
      each ∉ (fields.filter fun field => !field.isVoid).map (·.name) := by
    intro each reserved isName
    rw [unreserved each isName] at reserved
    cases reserved
  simp [apart "self" (by decide), apart "ncl" (by decide)]

/-- A structure with two different fields around one without a value. -/
theorem constructorParameters_nodup_point :
    let source := "struct point \x7b int x; void; int y<3>; \x7d;"
    ∃ compilation final,
      start.compile (Python.backend .standard) source = (.ok compilation, final) ∧
      Python.constructorParameters? "point" compilation.artifacts.types =
        some ["self", "ncl", "x", "y"] ∧
      Python.assertedKeywords? "point" compilation.artifacts.types = some ["x", "y"] := by
  intro source
  obtain ⟨compilation, final, success⟩ : ∃ compilation final,
      start.compile (Python.backend .standard) source = (.ok compilation, final) :=
    exists_of_isOk (by decide +kernel)
  have parsed : (Lexing.ofText source).stream.parse = .ok [.struct "point"
      [⟨"x", .named "int", 1⟩, .void 1, ⟨"y", .shaped "int" (.varying (some (.number "3"))), 1⟩]
      1] := by
    decide +kernel
  obtain ⟨definitions, parsedToo, parameters⟩ :=
    constructorParameters_nodup_iff .standard source compilation final success
  cases parsed.symm.trans parsedToo
  obtain ⟨read, insisted, -⟩ := parameters _ _ _ List.mem_cons_self
  exact ⟨compilation, final, success, read, insisted⟩

/-- A structure may have two fields of one name, and then its constructor has two parameters
of that name. -/
theorem constructorParameters_repeated :
    let source := "struct S \x7b int x; int x; \x7d;"
    ∃ compilation final,
      start.compile (Python.backend .standard) source = (.ok compilation, final) ∧
      Python.constructorParameters? "S" compilation.artifacts.types =
        some ["self", "ncl", "x", "x"] ∧
      Python.assertedKeywords? "S" compilation.artifacts.types = some ["x", "x"] := by
  intro source
  obtain ⟨compilation, final, success⟩ : ∃ compilation final,
      start.compile (Python.backend .standard) source = (.ok compilation, final) :=
    exists_of_isOk (by decide +kernel)
  have parsed : (Lexing.ofText source).stream.parse = .ok [.struct "S"
      [⟨"x", .named "int", 1⟩, ⟨"x", .named "int", 1⟩] 1] := by
    decide +kernel
  obtain ⟨read, insisted, -⟩ := struct_parameters success parsed List.mem_cons_self
  exact ⟨compilation, final, success, read, insisted⟩

end Compiler

end XdrPack
