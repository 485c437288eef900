import XdrPack.Proofs.Python.Parameters

/-!
# Names of fields inside generated methods

The names of the fields of a record become parameters of its constructor and keywords of the
calls that insist on them. There they meet names that generated code uses for itself: the
constructor calls a helper to set up the record, which a parameter of the same name hides, and
the helper that is passed the keywords has a parameter of its own, which a keyword of the same
name competes for. The calls are read off the generated module together with the heads of the
functions that they go to, and bound by the rules of the language. Two names of fields get in
the way, and only these.
-/

namespace XdrPack

open Grammar

namespace Python

/-! ## Calls of functions -/

/-- The head of a function: its parameters, and the one that collects all other keywords. -/
structure Signature where
  function : String
  parameters : List String
  collector : Option String
  deriving DecidableEq, Repr

/-- Reads the parameters in the head of a function. -/
def parameterList? : List (List Symbol) -> Option (List String × Option String)
  | [] => some ([], none)
  | [[.sign '*', .sign '*', .name collector]] => some ([], some collector)
  | [.name parameter] :: rest =>
      (parameterList? rest).map fun (others, collector) => (parameter :: others, collector)
  | _ => none

/-- Reads the head of a function, unless it is indented. -/
def Signature.read? (line : String) : Option Signature :=
  match isDeeper line, symbols line with
  | false, .name "def" :: .name function :: .sign '(' :: inside =>
      if inside.getLast? = some (.sign ':') then
        ((arguments? [] inside.dropLast).bind parameterList?).map fun (parameters, collector) =>
          ⟨function, parameters, collector⟩
      else none
  | _, _ => none

/-- The function of a name that a module defines last. -/
def signature? (function text : String) : Option Signature :=
  (((Text.lines text).filterMap Signature.read?).filter (·.function = function)).getLast?

/-- What a call gives to the parameters of a function and what it leaves to the collector. -/
structure Bound where
  parameters : List (String × Operand)
  extras : List (String × Operand)
  deriving DecidableEq, Repr

/-- The keyword of an argument and what is passed under it. -/
def Argument.keyed? : Argument -> Option (String × Operand)
  | ⟨some key, value⟩ => some (key, value)
  | _ => none

/-- Gives arguments to parameters by their place or by their name, and keywords that are no
parameters to the collector. -/
def Signature.bound (signature : Signature) (arguments : List Argument) : Bound :=
  let keyed := arguments.filterMap Argument.keyed?
  { parameters := signature.parameters.zip (arguments.filterMap Argument.operand?)
      ++ keyed.filter (·.1 ∈ signature.parameters)
    extras := keyed.filter (·.1 ∉ signature.parameters) }

/-- Binds the arguments of a call. No keyword may be repeated, there may be no more places than
parameters, each parameter has to get exactly one value, and further keywords need a
collector. -/
def Signature.bind? (signature : Signature) (arguments : List Argument) : Option Bound :=
  let bound := signature.bound arguments
  if (arguments.filterMap (·.key)).Nodup
      ∧ (arguments.filterMap Argument.operand?).length <= signature.parameters.length
      ∧ (forall each, each ∈ signature.parameters -> (bound.parameters.map (·.1)).count each = 1)
      ∧ (bound.extras.isEmpty ∨ signature.collector.isSome) then
    some bound
  else none

/-- Where the value of a name in a function comes from. -/
inductive Scope where
  | parameter
  | module
  deriving DecidableEq, Repr

/-- A call of a function by its name. -/
structure NamedCall where
  function : String
  scope : Scope
  arguments : List Argument
  deriving DecidableEq, Repr

/-- The lines of the constructor in the class of a name. -/
def constructorLines? (name types : String) : Option (List String) := do
  let body <- behindLast? ("class " ++ name ++ ":") (Text.lines types)
  let inside <- (body.dropWhile fun line => !isConstructorHead line).tail?
  some (blockLines inside)

/-- The call that the constructor in the class of a name starts with. A parameter of the
constructor hides what the module binds to the same name. -/
def initialCall? (name types : String) : Option NamedCall := do
  let parameters <- constructorParameters? name types
  let first <- (<- constructorLines? name types).head?
  match Statement.read? (symbols first) with
  | some (.perform ⟨.plain function, arguments⟩) =>
      some ⟨function, if function ∈ parameters then .parameter else .module, arguments⟩
  | _ => none

/-- The arguments of all calls that insist on attributes in the method that encodes, in the
class of a name. -/
def assertions? (name types : String) : Option (List (List Argument)) :=
  (methodLines? packHead name types).map (·.filterMap lineAssertion?)

/-- An attribute under its name, as it is passed. -/
def keyedMember (name : String) : String × Operand := (name, .member name)

/-- How the names of fields get along with the names that the methods of their class use. The
names are given as they are insisted on together. -/
structure NamesMeet (asserted : List (List String)) (name types : String) : Prop where
  /-- Names that the class needs for its own parameters, attributes and methods do not occur. -/
  unreserved : forall each, each ∈ asserted.flatten -> isReserved each = false
  parameters : ∃ attributes,
    constructorParameters? name types = some ("self" :: "ncl" :: attributes) ∧
      forall each, each ∈ attributes ↔ each ∈ asserted.flatten
  initial : initialCall? name types =
    some ⟨"init_type_class",
      if "init_type_class" ∈ asserted.flatten then .parameter else .module,
      [⟨none, .plain "self"⟩, ⟨none, .plain "ncl"⟩]⟩
  assertions : assertions? name types = some (asserted.map assertion)
  bound : ∃ signature, signature? "assert_not_none" types = some signature ∧
    forall names, names ∈ asserted ->
      signature.bind? (assertion names) =
        if "obj" ∉ names ∧ names.Nodup then
          some ⟨[("obj", .plain "self")], names.map keyedMember⟩
        else none

/-! ## Binding keywords -/

/-- The head of the helper that insists on attributes. -/
def assertSignature : Signature := ⟨"assert_not_none", ["obj"], some "fields"⟩

/-- The attributes are passed under their names. -/
theorem keyed?_assertion (names : List String) :
    (assertion names).filterMap Argument.keyed? = names.map keyedMember := by
  have each : Argument.keyed? ∘ Argument.keyword = some ∘ keyedMember := rfl
  rw [assertion, List.filterMap_cons_none rfl, List.filterMap_map, each,
    List.filterMap_eq_map]

/-- Only the record is passed by its place. -/
theorem operand?_assertion (names : List String) :
    (assertion names).filterMap Argument.operand? = [.plain "self"] := by
  have each : Argument.operand? ∘ Argument.keyword = fun _ => none := rfl
  have first : Argument.operand? ⟨none, .plain "self"⟩ = some (.plain "self") := rfl
  rw [assertion, List.filterMap_cons_some first, List.filterMap_map, each]
  simp

/-- What the helper is given for its parameter, and which keywords it collects. -/
theorem bound_assertion (names : List String) :
    assertSignature.bound (assertion names) =
      ⟨("obj", .plain "self") :: (names.filter (· = "obj")).map keyedMember,
        (names.filter (· ≠ "obj")).map keyedMember⟩ := by
  simp only [Signature.bound, keyed?_assertion, operand?_assertion, assertSignature,
    List.filter_map, List.mem_singleton]
  rfl

/-- The keywords go to the collector unless one of them competes for the parameter. -/
theorem bind?_assertion (names : List String) :
    assertSignature.bind? (assertion names) =
      if "obj" ∉ names ∧ names.Nodup then
        some ⟨[("obj", .plain "self")], names.map keyedMember⟩
      else none := by
  have parameter : ((assertSignature.bound (assertion names)).parameters.map (·.1)).count "obj" =
      names.count "obj" + 1 := by
    have keys : ((names.filter (· = "obj")).map keyedMember).map (·.1) =
        names.filter (· = "obj") := by
      rw [List.map_map]
      exact List.map_id _
    rw [bound_assertion, List.map_cons, keys, List.count_cons_self, List.count_filter (by simp)]
  -- The parameter has a value by its place, and a keyword would be the second.
  have once : (forall each, each ∈ assertSignature.parameters ->
      ((assertSignature.bound (assertion names)).parameters.map (·.1)).count each = 1) ↔
        "obj" ∉ names := by
    rw [assertSignature, List.forall_mem_singleton]
    rw [assertSignature] at parameter
    rw [parameter, Nat.add_eq_right, List.count_eq_zero]
  by_cases apart : "obj" ∉ names ∧ names.Nodup
  · obtain ⟨absent, distinct⟩ := apart
    have differs : forall each, each ∈ names -> each ≠ "obj" := by
      rintro _ listed rfl
      exact absent listed
    have none : names.filter (· = "obj") = [] := by simpa [List.filter_eq_nil_iff] using differs
    have all : names.filter (· ≠ "obj") = names := by simpa [List.filter_eq_self] using differs
    rw [if_pos ⟨absent, distinct⟩, Signature.bind?, if_pos]
    · rw [bound_assertion, none, all]
      rfl
    · rw [key_assertion, operand?_assertion]
      exact ⟨distinct, Nat.le_refl 1, once.mpr absent, .inr rfl⟩
  · rw [if_neg apart, Signature.bind?, if_neg]
    rw [key_assertion]
    rintro ⟨distinct, -, single, -⟩
    exact apart ⟨once.mp single, distinct⟩

/-! ## The head of the helper -/

/-- The start of the module of record classes behind its import, which depends on nothing. -/
def helperLines : List String := (typesPreamble .standard).drop 3

/-- The start of the module of record classes depends on the names of modules in its first and
its third line. -/
theorem typesPreamble_eq (naming : Naming) :
    typesPreamble naming =
      [banner naming, "", "from " ++ naming.moduleStem ++ "constants import *"] ++ helperLines :=
  rfl

/-- An assignment is not the head of a function. -/
theorem read?_assignment_head {name : String} (isWord : IsWord name) (target : String) :
    Signature.read? (name ++ " = " ++ target) = none := by
  by_cases empty : name = ""
  · rw [empty]
    simp [Signature.read?, isDeeper]
  · have isName : IsName name := ⟨empty, fun c listed => isNameChar_of_isWordChar (isWord c listed)⟩
    have apart : name ++ " = " ++ target = name ++ " " ++ ("= " ++ target) := by
      simp [<- String.toList_inj]
    have sign : symbols ("= " ++ target) = .sign '=' :: symbols (" " ++ target) := by
      simp +decide [symbols, Symbol.read, Symbol.ended]
    rw [apart, Signature.read?, symbols_word isName, sign]
    split <;> simp_all

/-- The head of a class is not the head of a function. -/
theorem read?_class_head (name : String) : Signature.read? ("class " ++ name ++ ":") = none := by
  have isKeyword : IsName "class" := by decide
  have read : symbols ("class " ++ name ++ ":") = .name "class" :: symbols (name ++ ":") := by
    rw [String.append_assoc]
    exact symbols_word isKeyword (name ++ ":")
  rw [Signature.read?, read]
  split <;> simp_all

/-- No line of a class is the head of a function of the module. -/
theorem read?_class {binding : ClassBinding} (isWord : IsWord binding.name) {line : String}
    (listed : line ∈ binding.code.linesAt 0) : Signature.read? line = none := by
  rcases mem_statements_or_isInner listed with isStatement | inner
  · cases binding with
    | struct name fields =>
        obtain rfl := List.mem_singleton.mp isStatement
        exact read?_class_head name
    | union name layout =>
        obtain rfl := List.mem_singleton.mp isStatement
        exact read?_class_head name
    | same name target =>
        obtain rfl := List.mem_singleton.mp isStatement
        exact read?_assignment_head isWord target
  · rcases inner with rfl | blank
    · rfl
    · simp [Signature.read?, isDeeper, blank]

section

variable (naming : Naming) {emissions : List Emission}
  (lined : forall each, each ∈ emissions.flatMap classes -> each.code.Lined Unbroken)
  (areWords : forall each, each ∈ emissions.flatMap classes -> IsWord each.name)

include areWords in
/-- No function of the module of record classes comes behind its helpers. -/
theorem read?_classes : forall line,
    line ∈ (emissions.flatMap classes).flatMap (·.code.linesAt 0) ->
      Signature.read? line = none := by
  intro line listed
  obtain ⟨binding, isClass, inCode⟩ := List.mem_flatMap.mp listed
  exact read?_class (areWords binding isClass) inCode

include lined

/-- The module of record classes has its helpers behind its first lines, whatever these are, and
its classes behind the helpers. -/
theorem lines_helpers :
    ∃ front, Text.lines (artifacts naming emissions).types =
      front ++ helperLines ++ (emissions.flatMap classes).flatMap (·.code.linesAt 0) := by
  have areLines : forall line, line ∈ helperLines -> OneLine line :=
    fun line listed => (nested_unbroken_helpers.2 line listed).oneLine
  have lines := lines_types naming lined
  rw [typesPreamble_eq, Text.unlines_append, Text.lines_append_of_ended (by simp),
    Text.lines_unlines areLines] at lines
  exact ⟨_, lines⟩

include areWords

/-- The head of the helper is read off the module of record classes, whatever its names are. -/
theorem signature?_artifacts :
    signature? "assert_not_none" (artifacts naming emissions).types = some assertSignature := by
  have helper : (helperLines.filterMap Signature.read?).filter (·.function = "assert_not_none") =
      [assertSignature] := by
    decide +kernel
  obtain ⟨front, lines⟩ := lines_helpers naming lined
  rw [signature?, lines, List.filterMap_append, List.filterMap_append,
    List.filterMap_eq_nil_iff.mpr (read?_classes areWords), List.append_nil, List.filter_append,
    helper, List.getLast?_concat]

end

/-! ## The constructor -/

/-- The call that a constructor starts with. -/
def setupCall : Statement :=
  .perform ⟨.plain "init_type_class", [⟨none, .plain "self"⟩, ⟨none, .plain "ncl"⟩]⟩

/-- The call that a constructor starts with is read back. -/
theorem read?_setupCall : Statement.read? (symbols setupCall.text) = some setupCall := by
  have areNames : forall text, text ∈ setupCall.names -> IsName text := by decide
  have sound : setupCall.Sound := by simp +decide [setupCall, Statement.Sound]
  rw [Statement.symbols_text areNames, Statement.read?_symbols sound]

/-- A line of a block that is not empty is found without its indentation. -/
theorem blockLines_indented {text : String} (notEmpty : text ≠ "") (rest : List String) :
    blockLines (indented 2 text :: rest) = text :: blockLines rest := by
  rw [blockLines, toList_indented notEmpty, textAfter?_append]
  simp

/-- The statements of a constructor. -/
def constructorStatements (names trailer : List String) : List String :=
  setupCall.text :: names.map (fun name => "self." ++ name ++ " = " ++ name) ++ trailer

section

variable {name types : String} {texts names trailer after : List String}
  {printed pack unpack : Code}
  (found : behindLast? ("class " ++ name ++ ":") (Text.lines types) =
    some ((commentCode texts
      ++ methodsCode (constructorCode names trailer) printed pack unpack).linesAt 1 ++ after))

include found

/-- The constructor of a class is found, with an empty line behind it. -/
theorem constructorLines?_class :
    ∃ rest, constructorLines? name types =
      some (blockLines ((constructorStatements names trailer).map (indented 2) ++ "" :: rest)) := by
  have comments : forall line, line ∈ (commentCode texts).linesAt 1 ->
      (!isConstructorHead line) = true := by
    rw [commentCode, Code.linesAt_lines, List.map_map]
    exact List.forall_mem_map.mpr fun text _ => by
      rw [Function.comp_apply, isConstructorHead_comment, Bool.not_false]
  have constructor : (constructorCode names trailer).linesAt 1 =
      indented 1 (constructorHead names)
        :: (constructorStatements names trailer).map (indented 2) := by
    rw [<- Code.linesAt_lines, <- List.append_nil (Code.linesAt 2 _)]
    rfl
  refine ⟨(printed ++ .blank .done ++ pack ++ .blank .done ++ unpack
    ++ .blank (.blank .done)).linesAt 1 ++ after, ?_⟩
  simp [constructorLines?, found, methodsCode, constructor, Code.linesAt,
    List.dropWhile_append_of_pos comments, isConstructorHead_constructorHead]

/-- The call that the constructor of a class starts with is read. -/
theorem initialCall?_class (areNames : forall each, each ∈ names -> IsName each) :
    initialCall? name types =
      some ⟨"init_type_class", if "init_type_class" ∈ names then .parameter else .module,
        [⟨none, .plain "self"⟩, ⟨none, .plain "ncl"⟩]⟩ := by
  have notEmpty : setupCall.text ≠ "" := by decide
  obtain ⟨rest, lines⟩ := constructorLines?_class found
  rw [constructorStatements, List.cons_append, List.map_cons, List.cons_append,
    blockLines_indented notEmpty] at lines
  simp only [initialCall?, constructorParameters?_class found areNames, lines, read?_setupCall,
    Option.bind_eq_bind, Option.bind_some, List.head?_cons]
  simp [setupCall]

end

/-! ## Calls that insist on attributes -/

/-- The attributes that an action insists on. -/
def Action.asserted? : Action -> Option (List String)
  | assertSet names => some names
  | _ => none

/-- An action insists on what its events insist on. -/
theorem Action.asserted?_events (action : Action) :
    action.events.filterMap Event.asserted? = action.asserted?.toList := by
  cases action with
  | encode name coding =>
      rw [events]
      cases way? coding <;> rfl
  | decode name coding =>
      rw [events]
      cases way? coding with
      | none => rfl
      | some way => cases way <;> cases class? coding <;> rfl
  | _ => rfl

/-- Statements insist on what their events insist on. -/
theorem filterMap_does {statements : List Statement} {events : List Event}
    (does : List.Forall₂ Statement.Does statements events) :
    (statements.map Statement.text).filterMap lineAssertion? =
      (events.filterMap Event.asserted?).map assertion := by
  induction does with
  | nil => rfl
  | @cons statement event others more first rest inductionHypothesis =>
      rw [List.map_cons, List.filterMap_cons, first.lineAssertion?, inductionHypothesis,
        List.filterMap_cons]
      cases event.asserted? <;> rfl

/-- The lines of actions insist on what the actions insist on. -/
theorem filterMap_statements {actions : List Action} (named : Action.Named actions) :
    (actions.flatMap (·.statements)).filterMap lineAssertion? =
      (actions.filterMap Action.asserted?).map assertion := by
  induction actions with
  | nil => rfl
  | cons action others inductionHypothesis =>
      obtain ⟨actionNamed, othersNamed⟩ := List.forall_mem_cons.mp named
      rw [List.flatMap_cons, List.filterMap_append, Action.statements_eq,
        filterMap_does (Action.does_written actionNamed), Action.asserted?_events,
        inductionHypothesis othersNamed, List.filterMap_cons]
      cases action.asserted? <;> rfl

/-- Indentation does not matter. -/
theorem filterMap_indented (depth : Nat) (lines : List String) :
    (lines.map (indented depth)).filterMap lineAssertion? = lines.filterMap lineAssertion? := by
  have same : lineAssertion? ∘ indented depth = lineAssertion? :=
    funext fun line => by rw [Function.comp_apply, lineAssertion?, symbols_indented, lineAssertion?]
  rw [List.filterMap_map, same]

/-- The code of actions insists on what the actions insist on. -/
theorem filterMap_actionCode {actions : List Action} (named : Action.Named actions)
    (depth : Nat) :
    ((actionCode actions).linesAt depth).filterMap lineAssertion? =
      (actions.filterMap Action.asserted?).map assertion := by
  rw [linesAt_actionCode, filterMap_indented, filterMap_statements named]

/-- A call whose text starts with a word calls nothing else. -/
theorem Call.callee_of_read? {word function : String} {rest : List Symbol} {arguments}
    (read : Call.read? (.name word :: rest) = some ⟨.plain function, arguments⟩) :
    function = word := by
  have plain : forall names, Operand.ofNames? (word :: names) = some (.plain function) ->
      function = word := by
    rintro (_ | ⟨second, _ | ⟨third, _ | more⟩⟩) isPlain
    · cases isPlain
      rfl
    all_goals
      simp [Operand.ofNames?] at isPlain
  obtain ⟨names, others, split⟩ : ∃ names others,
      dotted (.name word :: rest) = (word :: names, others) := by
    unfold dotted
    split <;> simp_all
  simp only [Call.read?, split] at read
  split at read
  · next called =>
      obtain ⟨callee, isCallee, same⟩ := Option.map_eq_some_iff.mp read
      cases same
      cases called
      exact plain names isCallee
  · next called =>
      simp only [Option.bind_eq_bind, Option.bind_eq_some_iff] at read
      obtain ⟨callee, isCallee, pieces, -, read, -, same⟩ := read
      cases same
      cases called
      exact plain names isCallee
  · cases read

/-- The head of a branch insists on nothing. -/
theorem lineAssertion?_head {word : String} (isHead : word ∈ ["if", "elif"]) (text : String) :
    lineAssertion? (word ++ " " ++ text) = none := by
  have isName : IsName word := by
    have all : forall each, each ∈ ["if", "elif"] -> IsName each := by decide
    exact all word isHead
  have differ : word ≠ "pass" ∧ word ≠ "raise" ∧ word ≠ "self" ∧ word ≠ "assert_not_none" := by
    have all : forall each, each ∈ ["if", "elif"] -> each ≠ "pass" ∧ each ≠ "raise" ∧
        each ≠ "self" ∧ each ≠ "assert_not_none" := by
      decide
    exact all word isHead
  obtain ⟨notPass, notRaise, notSelf, notHelper⟩ := differ
  have called : Statement.read? (.name word :: symbols text) =
      (Call.read? (.name word :: symbols text)).map .perform := by
    simp [Statement.read?, notPass, notRaise, notSelf]
  rw [lineAssertion?, symbols_word isName, called]
  cases read : Call.read? (.name word :: symbols text) with
  | none => rfl
  | some call =>
      obtain ⟨callee, arguments⟩ := call
      cases callee with
      | plain function =>
          obtain rfl := Call.callee_of_read? read
          simp [Statement.assertion?, notHelper]
      | _ => rfl

/-- A branch insists on what its actions insist on. -/
theorem filterMap_branch {discriminant word : String} (isHead : word ∈ ["if", "elif"])
    {branch : Branch} (named : branch.Named) :
    ((branch.code discriminant word).linesAt 0).filterMap lineAssertion? =
      (branch.actions.filterMap Action.asserted?).map assertion := by
  have head := lineAssertion?_head isHead (branch.condition discriminant ++ ":")
  rw [<- String.append_assoc] at head
  rw [Branch.code, Code.single, Code.linesAt, indented_zero, List.cons_append,
    List.filterMap_cons_none head]
  simp [Code.linesAt, filterMap_actionCode named.actions]

/-- The lines of a choice insist on what its branches insist on. -/
theorem filterMap_choice {choice : Choice} (named : choice.Named) :
    (choice.code.linesAt 0).filterMap lineAssertion? =
      ((choice.branches.flatMap (·.actions) ++ choice.otherwise).filterMap
        Action.asserted?).map assertion := by
  obtain ⟨discriminant, branches, otherwise⟩ := choice
  obtain ⟨-, branchesNamed, otherwiseNamed⟩ := named
  cases branches with
  | nil => exact filterMap_actionCode otherwiseNamed 0
  | cons first rest =>
      obtain ⟨firstNamed, restNamed⟩ := List.forall_mem_cons.mp branchesNamed
      have start : ((first.code discriminant "if").linesAt 0).filterMap lineAssertion? = _ :=
        filterMap_branch (by decide) firstNamed
      have last : lineAssertion? "else:" = none := by decide
      have later : (rest.flatMap fun branch =>
          (branch.code discriminant "elif").linesAt 0).filterMap lineAssertion? =
            ((rest.flatMap (·.actions)).filterMap Action.asserted?).map assertion := by
        rw [List.filterMap_flatMap, List.filterMap_flatMap, List.map_flatMap]
        exact List.flatMap_congr fun branch listed =>
          filterMap_branch (by decide) (restNamed branch listed)
      simp [Choice.code, Code.linesAt_concat, List.flatMap_map, later, Code.single, Code.linesAt,
        start, indented_zero, List.filterMap_cons_none last,
        filterMap_actionCode otherwiseNamed]

/-! ## Classes -/

section

variable {name types : String} (helper : signature? "assert_not_none" types = some assertSignature)

include helper

/-- What is read off a class whose attributes are those that its method for encoding insists
on. -/
theorem namesMeet_class {texts names trailer after : List String} {printed pack unpack : Code}
    {asserted : List (List String)}
    (found : behindLast? ("class " ++ name ++ ":") (Text.lines types) =
      some ((commentCode texts ++ methodsCode (constructorCode names trailer)
        (.single "def __repr__(self):" printed) (.single packHead pack)
        (.single unpackHead unpack)).linesAt 1 ++ after))
    (packFilled : "" ∉ pack.linesAt 0) (unpackFilled : "" ∉ unpack.linesAt 0)
    (areNames : forall each, each ∈ names -> IsName each)
    (same : forall each, each ∈ names ↔ each ∈ asserted.flatten)
    (unreserved : forall each, each ∈ asserted.flatten -> isReserved each = false)
    (insists : (pack.linesAt 0).filterMap lineAssertion? = asserted.map assertion) :
    NamesMeet asserted name types where
  unreserved := unreserved
  parameters := ⟨names, constructorParameters?_class found areNames, same⟩
  initial := by
    rw [initialCall?_class found areNames]
    simp only [same]
  assertions := by
    rw [assertions?, (methodLines?_class found packFilled unpackFilled).1, Option.map_some, insists]
  bound := ⟨assertSignature, helper, fun names _ => bind?_assertion names⟩

/-- The fields of a structure that hold a value are insisted on together. -/
def Struct.asserted (fields : List Field) : List (List String) :=
  [(valued fields).map (·.name)]

/-- How the names of the fields of a structure get along with those in its class. -/
theorem Struct.namesMeet {fields : List Field} {after : List String} {body : Code}
    (readable : forall field, field ∈ fields -> ReadableField field)
    (unreserved : forall field, field ∈ fields -> field.isVoid = false ->
      isReserved field.name = false)
    (code : Struct.code name fields = .single ("class " ++ name ++ ":") body)
    (found : behindLast? ("class " ++ name ++ ":") (Text.lines types) =
      some (body.linesAt 1 ++ after)) :
    NamesMeet (Struct.asserted fields) name types := by
  have declares : forall field, field ∈ valued fields -> field ∈ fields ∧ field.isVoid = false := by
    simp [valued]
  have named : forall field, field ∈ valued fields -> forall text,
      text ∈ field.name :: mentioned field.coding -> IsName text := by
    intro field listed
    obtain ⟨isField, declared⟩ := declares field listed
    exact (readable field isField).named declared
  have packNamed := named_packActions named
  have unpackFilled : "" ∉ (unpackBody (valued fields)).linesAt 0 := by
    unfold unpackBody
    split
    · decide
    · exact filled_actionCode (named_unpackActions named) 0
  have insists : (packActions (valued fields)).filterMap Action.asserted? =
      Struct.asserted fields := by
    simp [packActions, Struct.asserted, Action.asserted?, List.filterMap_map, Function.comp_def]
  cases code
  refine namesMeet_class helper found (filled_actionCode packNamed 0) unpackFilled ?_ ?_ ?_ ?_
  · exact List.forall_mem_map.mpr fun field listed => named field listed _ List.mem_cons_self
  · simp [Struct.asserted]
  · rw [Struct.asserted, List.flatten_singleton]
    refine List.forall_mem_map.mpr fun field listed => ?_
    exact unreserved field (declares field listed).1 (declares field listed).2
  · rw [filterMap_actionCode packNamed, insists]

/-- The discriminant of a union and each body that holds a value are insisted on by
themselves. -/
def Union.asserted (layout : UnionLayout) : List (List String) :=
  [layout.discriminant.name]
    :: (layout.bodies.filter fun field => !field.isVoid).map fun field => [field.name]

omit helper in
/-- A body is insisted on by itself, unless it holds no value. -/
theorem Union.asserted?_packBody (field : Field) :
    (packBody field).filterMap Action.asserted? =
      if field.isVoid then [] else [[field.name]] := by
  unfold packBody
  split <;> rfl

omit helper in
/-- The choice of a body insists on the bodies that hold a value. -/
theorem Union.asserted?_choice (layout : UnionLayout) :
    ((choice packBody layout).branches.flatMap (·.actions)
        ++ (choice packBody layout).otherwise).filterMap Action.asserted? =
      (layout.bodies.filter fun field => !field.isVoid).map fun field => [field.name] := by
  have bodies : forall fields : List Field, (fields.flatMap packBody).filterMap Action.asserted? =
      (fields.filter fun field => !field.isVoid).map fun field => [field.name] := by
    intro fields
    induction fields with
    | nil => rfl
    | cons field others inductionHypothesis =>
        rw [List.flatMap_cons, List.filterMap_append, asserted?_packBody, inductionHypothesis,
          List.filter_cons]
        cases field.isVoid <;> rfl
  have arms : (choice packBody layout).branches.flatMap (·.actions) =
      (layout.arms.map (·.body)).flatMap packBody := by
    rw [choice, List.flatMap_map, List.flatMap_map]
  have otherwise : (choice packBody layout).otherwise.filterMap Action.asserted? =
      (layout.fallback.toList.flatMap packBody).filterMap Action.asserted? := by
    unfold choice
    cases layout.fallback with
    | none => rfl
    | some field => simp
  rw [List.filterMap_append, arms, otherwise, <- List.filterMap_append, <- List.flatMap_append,
    bodies, UnionLayout.bodies]

/-- How the names of a union get along with those in its class. -/
theorem Union.namesMeet {layout : UnionLayout} {after : List String} {body : Code}
    (readable : ReadableLayout layout)
    (unreserved : forall field, field ∈ layout.discriminant :: layout.bodies ->
      field.isVoid = false -> isReserved field.name = false)
    (code : Union.code name layout = .single ("class " ++ name ++ ":") body)
    (found : behindLast? ("class " ++ name ++ ":") (Text.lines types) =
      some (body.linesAt 1 ++ after)) :
    NamesMeet (Union.asserted layout) name types := by
  have packNamed := named_packDiscriminant readable
  have unpackNamed := named_unpackDiscriminant readable
  have packBodies : forall field, field ∈ layout.bodies -> Action.Named (packBody field) :=
    fun field listed => named_packBody (readable.bodies field listed)
  have unpackBodies : forall field, field ∈ layout.bodies -> Action.Named (unpackBody field) :=
    fun field listed => named_unpackBody (readable.bodies field listed)
  have flattened : (Union.asserted layout).flatten =
      layout.discriminant.name
        :: (layout.bodies.filter fun field => !field.isVoid).map (·.name) := by
    rw [Union.asserted, List.flatten_cons, <- List.flatMap_def, <- List.map_eq_flatMap]
    rfl
  cases code
  refine namesMeet_class helper found (filled_method readable packNamed packBodies)
    (filled_method readable unpackNamed unpackBodies) (isName_attributes readable) ?_ ?_ ?_
  · intro each
    have kept := UnionLayout.mem_firstOfEachName [layout.discriminant.name] layout.bodies each
    rw [flattened, attributes, UnionLayout.members, List.mem_cons, List.mem_cons]
    rwa [List.mem_singleton] at kept
  · rw [flattened]
    refine List.forall_mem_cons.mpr ⟨?_, List.forall_mem_map.mpr fun field listed => ?_⟩
    · exact unreserved _ List.mem_cons_self readable.declares
    · obtain ⟨isBody, declares⟩ := List.mem_filter.mp listed
      exact unreserved field (List.mem_cons_of_mem _ isBody) (by simpa using declares)
  · rw [Code.linesAt_append, List.filterMap_append, filterMap_actionCode packNamed,
      filterMap_choice (named_choice readable packBodies), asserted?_choice]
    rfl

end

/-- All classes of a run have words as names. -/
theorem isWord_classes_of_run {isReserved : String -> Bool} {registry final : Registry}
    {definitions : List Definition} {emissions : List Emission} {source : String}
    (run : Run isReserved registry definitions final emissions)
    (parsed : (Lexing.ofText source).stream.parse = .ok definitions) :
    forall each, each ∈ emissions.flatMap classes -> IsWord each.name := by
  intro each listed
  refine run.isWord_names parsed each.name ?_
  rw [<- run.emitted_names]
  exact (boundClasses_sublist emissions).subset (List.mem_map_of_mem listed)

end Python

/-! ## Accepted source texts -/

/-- How the names of the fields of a structure, or of the discriminant and the bodies of a
union, get along with the names in the methods of its class. -/
def Emission.NamesMeetIn (types : String) : Emission -> Prop
  | .struct name fields => Python.NamesMeet (Python.Struct.asserted fields) name types
  | .union name layout => Python.NamesMeet (Python.Union.asserted layout) name types
  | _ => True

/-- The classes of all records of a run are read off the generated module. -/
theorem Python.namesMeet_of_run (naming : Naming) {definitions : List Definition}
    {final : Registry} {emissions : List Emission} {source : String}
    (run : Run isReserved .builtin definitions final emissions)
    (parsed : (Lexing.ofText source).stream.parse = .ok definitions) {emission : Emission}
    (listed : emission ∈ Compiler.start.emissions ++ emissions) :
    emission.NamesMeetIn
      (artifacts naming (Compiler.start.emissions ++ emissions)).types := by
  have lined := lined_classes_of_run run parsed
  have words := isWord_classes_of_run run parsed
  rw [<- classes_start_append emissions] at lined words
  have helper := signature?_artifacts naming lined words
  rcases List.mem_append.mp listed with isPrimitive | own
  · rw [Compiler.emissions_start] at isPrimitive
    obtain ⟨routine, -, rfl⟩ := List.mem_map.mp isPrimitive
    trivial
  · obtain ⟨definition, known, binding, isDefinition, accepted⟩ := run.exists_definition own
    have lexed := Lexing.lexed_of_parse parsed _ isDefinition
    have written := TokenStream.written_of_parse parsed _ isDefinition
    cases accepted with
    | constant | enum | typedef => trivial
    | @struct name fields line members new completed =>
        have isClass : ClassBinding.struct name members ∈ emissions.flatMap classes :=
          List.mem_flatMap.mpr ⟨_, own, List.mem_cons_self⟩
        obtain ⟨after, found⟩ := behindLast?_of_run naming run parsed isClass rfl
        obtain ⟨-, lexedFields⟩ := Lexed.struct lexed
        have readable := forall_members readable_field completed lexedFields written
        exact Struct.namesMeet helper readable (fun _ => unreserved_members completed) rfl found
    | @union name discriminant switch line layout new declares completed =>
        have isClass : ClassBinding.union name layout ∈ emissions.flatMap classes :=
          List.mem_flatMap.mpr ⟨_, own, List.mem_cons_self⟩
        obtain ⟨after, found⟩ := behindLast?_of_run naming run parsed isClass rfl
        obtain ⟨-, selects, cases⟩ := Lexed.union lexed
        have readable := readable_layout completed declares selects cases written
        refine Union.namesMeet helper readable ?_ rfl found
        exact List.forall_mem_cons.mpr
          ⟨completed.selector.unreserved, fun _ => completed.unreserved⟩

namespace Compiler

/-- In the class of every record of an accepted source text, the names of fields that hold a
value are no names that the class needs for itself. The constructor has them as parameters, so
the first thing that it calls is the helper of the module if and only if no field is called
`init_type_class`. The method that encodes passes them to another helper by keyword, and each
such call leaves all of them to be collected if and only if none is called `obj` or repeated. -/
theorem compile_namesMeet (naming : Naming) (source : String) (compilation : Compilation)
    (final : Compiler)
    (success : start.compile (Python.backend naming) source = (.ok compilation, final)) :
    forall emission, emission ∈ final.emissions ->
      emission.NamesMeetIn compilation.artifacts.types := by
  obtain ⟨definitions, emissions, parsed, run, emitted, rendered⟩ := compile_modules success
  rw [rendered, emitted]
  exact fun emission listed => Python.namesMeet_of_run naming run parsed listed

/-- A structure and a union whose fields have other names, some of which the helper uses for
its collector and for local variables. -/
theorem compile_namesMeet_pick :
    let source := "struct item \x7b unsigned fields; void; int name<3>; \x7d; " ++
      "union pick switch (int k) \x7b case 0: item value; case 1: void; default: int k; \x7d;"
    ∃ compilation final,
      start.compile (Python.backend .standard) source = (.ok compilation, final) ∧
      Python.initialCall? "item" compilation.artifacts.types =
        some ⟨"init_type_class", .module, [⟨none, .plain "self"⟩, ⟨none, .plain "ncl"⟩]⟩ ∧
      (∃ signature,
        Python.signature? "assert_not_none" compilation.artifacts.types = some signature ∧
        signature.bind? (Python.assertion ["fields", "name"]) =
          some ⟨[("obj", .plain "self")],
            [("fields", .member "fields"), ("name", .member "name")]⟩) ∧
      Python.NamesMeet [["k"], ["value"], ["k"]] "pick" compilation.artifacts.types := by
  intro source
  let number : Field :=
    ⟨⟨"fields", ⟨"unsigned_int", some "uint", .scalar, false, false⟩, 1⟩, .routine "unsigned_int"⟩
  let items : Field := ⟨⟨"name", ⟨"int", some "int", .varying (some (.number "3")), false, false⟩,
    1⟩, .array "int" none⟩
  let selector : Field := ⟨⟨"k", ⟨"int", some "int", .scalar, false, false⟩, 1⟩, .routine "int"⟩
  let value : Field := ⟨⟨"value", ⟨"item", none, .scalar, false, false⟩, 1⟩, .record "item"⟩
  let nothing : Field := ⟨.void 1, .void⟩
  obtain ⟨compilation, final, success⟩ : ∃ compilation final,
      start.compile (Python.backend .standard) source = (.ok compilation, final) :=
    exists_of_isOk (by decide +kernel)
  have emitted : [.struct "item" [number, nothing, items], .union "pick"
      ⟨selector, [⟨[.number "0"], value⟩, ⟨[.number "1"], nothing⟩], some selector⟩] ⊆
        (start.compile (Python.backend .standard) source).2.emissions := by
    decide +kernel
  rw [success] at emitted
  have meet := compile_namesMeet .standard source compilation final success
  have item : Python.NamesMeet [["fields", "name"]] "item" _ := meet _ (emitted List.mem_cons_self)
  obtain ⟨signature, head, bound⟩ := item.bound
  refine ⟨compilation, final, success, item.initial, ⟨signature, head, ?_⟩,
    meet _ (emitted (List.mem_cons_of_mem _ List.mem_cons_self))⟩
  exact (bound _ List.mem_cons_self).trans (if_pos (by decide))

/-- A structure may have fields that are called `init_type_class` and `obj`. Its constructor
then calls the value that it is passed for the one field instead of the helper, and the call that
insists on the other is refused, as it gives the parameter of the helper a second value. -/
theorem compile_names_clash :
    let source := "struct S \x7b int init_type_class; int obj; \x7d;"
    ∃ compilation final,
      start.compile (Python.backend .standard) source = (.ok compilation, final) ∧
      Python.initialCall? "S" compilation.artifacts.types =
        some ⟨"init_type_class", .parameter, [⟨none, .plain "self"⟩, ⟨none, .plain "ncl"⟩]⟩ ∧
      ∃ call signature, Python.assertions? "S" compilation.artifacts.types = some [call] ∧
        Python.signature? "assert_not_none" compilation.artifacts.types = some signature ∧
        call.map (·.key) = [none, some "init_type_class", some "obj"] ∧
        signature.bind? call = none := by
  intro source
  obtain ⟨compilation, final, success⟩ : ∃ compilation final,
      start.compile (Python.backend .standard) source = (.ok compilation, final) :=
    exists_of_isOk (by decide +kernel)
  let member (name : String) : Field :=
    ⟨⟨name, ⟨"int", some "int", .scalar, false, false⟩, 1⟩, .routine "int"⟩
  have listed : .struct "S" [member "init_type_class", member "obj"] ∈
      (start.compile (Python.backend .standard) source).2.emissions := by
    decide +kernel
  obtain ⟨definitions, emissions, parsed, run, emitted, rendered⟩ := compile_modules success
  rw [success, emitted] at listed
  have meet : Python.NamesMeet [["init_type_class", "obj"]] "S" compilation.artifacts.types := by
    rw [rendered, emitted]
    exact Python.namesMeet_of_run .standard run parsed listed
  obtain ⟨signature, head, bound⟩ := meet.bound
  refine ⟨compilation, final, success, meet.initial, _, signature, meet.assertions, head, rfl, ?_⟩
  exact (bound _ List.mem_cons_self).trans (if_neg (by decide))

end Compiler

end XdrPack
