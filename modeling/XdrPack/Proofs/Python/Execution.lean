import XdrPack.Proofs.Fallthrough
import XdrPack.Proofs.Python.Program
import XdrPack.Proofs.Python.Unbroken

/-!
# Executing generated methods

The lines of the methods that encode and decode a record are executed. Which comparisons
of an attribute with a literal hold is left open, and an execution gives the list of what
the method does: which attributes it insists on, encodes and decodes, and in which way. The
lines of a list of actions do what the actions prescribe, and the lines of a choice do what
its first branch whose condition holds prescribes.
-/

namespace XdrPack.Python

/-! ## Events -/

/-- The way in which a value is coded. -/
inductive Way where
  /-- By the routine with this name, which is passed a length and a routine for the
  elements of an array where it needs them. -/
  | routine (name : String) (length element : Option String)
  /-- By the methods of a record class. -/
  | record
  /-- As an array of records. -/
  | records (length : Option String)
  deriving DecidableEq, Repr

/-- What a method of a record class does. -/
inductive Event where
  /-- Insists that attributes are set. -/
  | asserted (names : List String)
  | encoded (name : String) (way : Way)
  /-- Creates a record of a class. -/
  | created (name record : String)
  /-- Decodes an attribute. An array is made of records of the class, if there is one. -/
  | decoded (name : String) (way : Way) (record : Option String)
  /-- Remembers which arm of a union is in use. -/
  | arm (name : Option String)
  /-- Refuses the value of the discriminant. -/
  | refused (discriminant : String)
  | idle
  deriving DecidableEq, Repr

/-- The name of a coding routine without the stem that says in which direction it codes. -/
def withoutStem? (stem method : String) : Option String :=
  (textAfter? stem.toList method.toList).map String.ofList

/-- The way in which a routine codes, by what it is passed besides the value. -/
def Way.read? (stem owner method : String) : List Operand -> Option Way
  | [] => do some (.routine (<- withoutStem? stem method) none none)
  | [.plain length] => do some (.routine (<- withoutStem? stem method) (some length) none)
  | [.method other element] =>
      if other = owner then do
        some (.routine (<- withoutStem? stem method) none (some (<- withoutStem? stem element)))
      else none
  | [.plain length, .method other element] =>
      if other = owner then do
        some (.routine (<- withoutStem? stem method) (some length)
          (some (<- withoutStem? stem element)))
      else none
  | _ => none

/-- The arguments of a call that insists on attributes. -/
def Statement.assertion? : Statement -> Option (List Argument)
  | .perform ⟨.plain "assert_not_none", arguments⟩ => some arguments
  | _ => none

namespace Argument

/-- An attribute that is passed under its name. -/
def keyword (name : String) : Argument := ⟨some name, .member name⟩

/-- The attribute that an argument passes under the name of the attribute. -/
def keyword? : Argument -> Option String
  | ⟨some key, .member name⟩ => if key = name then some name else none
  | _ => none

/-- What an argument passes, if it has no name. -/
def operand? : Argument -> Option Operand
  | ⟨none, value⟩ => some value
  | _ => none

/-- Only an attribute under its name is read as one. -/
theorem keyword?_eq_some_iff {argument : Argument} {name : String} :
    argument.keyword? = some name ↔ argument = keyword name := by
  constructor
  · intro read
    unfold keyword? at read
    split at read
    · split at read
      · next same =>
          cases read
          rw [same, keyword]
      · cases read
    · cases read
  · rintro rfl
    exact if_pos rfl

end Argument

/-- The arguments that insist on attributes of the record. -/
def assertion (names : List String) : List Argument :=
  ⟨none, .plain "self"⟩ :: names.map Argument.keyword

/-- The keywords of the arguments are the names of the attributes. -/
theorem key_assertion (names : List String) :
    (assertion names).filterMap (·.key) = names := by
  have each : (fun argument : Argument => argument.key) ∘ Argument.keyword = some := rfl
  rw [assertion, List.filterMap_cons_none rfl, List.filterMap_map, each, List.filterMap_some]

/-- The attributes that arguments insist on, each of which has to be passed under its name
behind the record. -/
def insisted? : List Argument -> Option (List String)
  | ⟨none, .plain "self"⟩ :: others => others.mapM Argument.keyword?
  | _ => none

/-- The arguments are known from the attributes that they insist on. -/
theorem insisted?_eq_some_iff {arguments : List Argument} {names : List String} :
    insisted? arguments = some names ↔ arguments = assertion names := by
  constructor
  · intro read
    unfold insisted? at read
    split at read
    · next others =>
        rw [assertion, List.cons.injEq]
        refine ⟨rfl, ?_⟩
        induction others generalizing names with
        | nil =>
            cases read
            rfl
        | cons first rest inductionHypothesis =>
            rw [List.mapM_cons] at read
            obtain ⟨name, isName, others, areNames, rfl⟩ := by
              simpa [Option.bind_eq_some_iff] using read
            rw [Argument.keyword?_eq_some_iff.mp isName, inductionHypothesis areNames,
              List.map_cons]
    · cases read
  · rintro rfl
    exact mapM_of_inverse (fun name => Argument.keyword?_eq_some_iff.mpr rfl) names

namespace Event

/-- What an encoding routine does. -/
def ofPacker? (method : String) : List Operand -> Option Event
  | [.member name] => (Way.read? "pack_" "packer" method []).map (.encoded name)
  | [.plain length, .member name] =>
      (Way.read? "pack_" "packer" method [.plain length]).map (.encoded name)
  | [.member name, element] =>
      (Way.read? "pack_" "packer" method [element]).map (.encoded name)
  | [.plain length, .member name, element] =>
      (Way.read? "pack_" "packer" method [.plain length, element]).map (.encoded name)
  | _ => none

/-- What a method of an attribute does. A method without arguments is one of a record. -/
def ofMethod? (owner method : String) : List Operand -> Option Event
  | [] =>
      if method = "pack" then some (.encoded owner .record)
      else if method = "unpack" then some (.decoded owner .record none)
      else none
  | operands => if owner = "packer" then ofPacker? method operands else none

/-- What a function does to the record. -/
def ofFunction? (function : String) : List Operand -> Option Event
  | [.member context, .member name] =>
      if function = "pack_objarray" ∧ context = "ncl" then some (.encoded name (.records none))
      else none
  | [.member context, .plain length, .member name] =>
      if function = "pack_fobjarray" ∧ context = "ncl" then
        some (.encoded name (.records (some length)))
      else none
  | _ => none

/-- What keeping the result of a call does. -/
def ofKept? (name : String) (callee : Operand) (operands : List Operand) : Option Event :=
  match callee, operands with
  | .method owner method, operands =>
      if owner = "unpacker" then
        (Way.read? "unpack_" "unpacker" method operands).map (.decoded name · none)
      else none
  | .plain record, [.member context] =>
      if context = "ncl" then some (.created name record) else none
  | .plain function, [.member context, .plain record] =>
      if function = "unpack_objarray" ∧ context = "ncl" then
        some (.decoded name (.records none) (some record))
      else none
  | .plain function, [.member context, .plain length, .plain record] =>
      if function = "unpack_fobjarray" ∧ context = "ncl" then
        some (.decoded name (.records (some length)) (some record))
      else none
  | _, _ => none

/-- What a statement that insists on nothing does. -/
def ofOther? : Statement -> Option Event
  | .pass => some .idle
  | .perform ⟨.plain function, others⟩ =>
      (others.mapM Argument.operand?).bind (ofFunction? function)
  | .perform ⟨.method owner method, others⟩ =>
      (others.mapM Argument.operand?).bind (ofMethod? owner method)
  | .raise ⟨.plain "BadDiscriminant", [⟨none, .member name⟩]⟩ => some (.refused name)
  | .keep name ⟨callee, others⟩ => (others.mapM Argument.operand?).bind (ofKept? name callee)
  | .point "arm" (.plain "None") => some (.arm none)
  | .point "arm" (.member name) => some (.arm (some name))
  | _ => none

/-- What a statement does. A call that insists on attributes does so if its arguments are
attributes under their names. What the helper makes of them is not looked at. -/
def ofStatement? (statement : Statement) : Option Event :=
  match statement.assertion? with
  | some arguments => (insisted? arguments).map .asserted
  | none => ofOther? statement

/-- The attributes that an event insists on. -/
def asserted? : Event -> Option (List String)
  | .asserted names => some names
  | _ => none

/-- A routine of the runtime insists on nothing. -/
theorem asserted?_ofPacker? {method : String} {operands : List Operand} {event : Event}
    (does : ofPacker? method operands = some event) : event.asserted? = none := by
  unfold ofPacker? at does
  split at does
  case h_5 => cases does
  all_goals
    obtain ⟨way, -, rfl⟩ := Option.map_eq_some_iff.mp does
    rfl

/-- A method of an attribute insists on nothing. -/
theorem asserted?_ofMethod? {owner method : String} {operands : List Operand} {event : Event}
    (does : ofMethod? owner method operands = some event) : event.asserted? = none := by
  unfold ofMethod? at does
  split at does
  · grind [asserted?]
  · split at does
    · exact asserted?_ofPacker? does
    · cases does

/-- A function for arrays of records insists on nothing. -/
theorem asserted?_ofFunction? {function : String} {operands : List Operand} {event : Event}
    (does : ofFunction? function operands = some event) : event.asserted? = none := by
  unfold ofFunction? at does
  grind [asserted?]

/-- Keeping a result insists on nothing. -/
theorem asserted?_ofKept? {name : String} {callee : Operand} {operands : List Operand}
    {event : Event} (does : ofKept? name callee operands = some event) :
    event.asserted? = none := by
  unfold ofKept? at does
  split at does
  case h_1 =>
    split at does
    · obtain ⟨way, -, rfl⟩ := Option.map_eq_some_iff.mp does
      rfl
    · cases does
  all_goals grind [asserted?]

/-- Nothing but a call of the helper insists on attributes. -/
theorem asserted?_ofOther? {statement : Statement} {event : Event}
    (does : ofOther? statement = some event) : event.asserted? = none := by
  unfold ofOther? at does
  split at does
  case h_2 =>
    obtain ⟨operands, -, called⟩ := Option.bind_eq_some_iff.mp does
    exact asserted?_ofFunction? called
  case h_3 =>
    obtain ⟨operands, -, called⟩ := Option.bind_eq_some_iff.mp does
    exact asserted?_ofMethod? called
  case h_5 =>
    obtain ⟨operands, -, called⟩ := Option.bind_eq_some_iff.mp does
    exact asserted?_ofKept? called
  case h_8 => cases does
  all_goals
    cases does
    rfl

/-- What a statement that insists on attributes passes is known from what it does. -/
theorem assertion?_eq {statement : Statement} {event : Event}
    (does : ofStatement? statement = some event) :
    statement.assertion? = event.asserted?.map assertion := by
  unfold ofStatement? at does
  split at does
  · next arguments read =>
      obtain ⟨names, insisted, rfl⟩ := Option.map_eq_some_iff.mp does
      rw [read, insisted?_eq_some_iff.mp insisted]
      rfl
  · next read =>
      rw [read, asserted?_ofOther? does]
      rfl

end Event

/-! ## Lines -/

/-- The arguments in a line that insists on attributes. -/
def lineAssertion? (line : String) : Option (List Argument) :=
  (Statement.read? (symbols line)).bind Statement.assertion?

/-- Reads a condition up to its colon: the comparisons of attributes with literals of
which one has to hold. -/
def comparisons? : List Symbol -> Option (List (String × String))
  | [.name "self", .sign '.', .name name, .sign '=', .sign '=', .name value, .sign ':'] =>
      some [(name, value)]
  | .name "self" :: .sign '.' :: .name name :: .sign '=' :: .sign '=' :: .name value
      :: .name "or" :: rest => (comparisons? rest).map ((name, value) :: ·)
  | _ => none

/-- A line of a method. -/
inductive Line where
  /-- The start of a choice. -/
  | first (comparisons : List (String × String))
  /-- The next branch of a choice. -/
  | next (comparisons : List (String × String))
  /-- The last branch of a choice. -/
  | otherwise
  | event (event : Event)
  deriving DecidableEq, Repr

/-- Reads the symbols of a line. -/
def Line.ofSymbols? : List Symbol -> Option Line
  | .name "if" :: condition => (comparisons? condition).map .first
  | .name "elif" :: condition => (comparisons? condition).map .next
  | [.name "else", .sign ':'] => some .otherwise
  | others => ((Statement.read? others).bind Event.ofStatement?).map .event

/-- Reads a line. -/
def Line.read? (line : String) : Option Line := ofSymbols? (symbols line)

/-- Whether a line belongs to the branch above it. -/
def isDeeper (line : String) : Bool := line.toList.head? == some ' '

/-- An event and what happens behind it. Behind a refusal there is nothing. -/
def Event.andThen (event : Event) (rest : Option (List Event)) : Option (List Event) :=
  match event with
  | .refused _ => some [event]
  | _ => rest.map (event :: ·)

/-- Executes lines, when `equal` says which attributes are equal to which literals. It is
known whether a branch of the current choice was taken and whether the lines of the branch
are executed. -/
def execute (equal : String -> String -> Bool) (taken active : Bool) :
    List String -> Option (List Event)
  | [] => some []
  | line :: rest =>
      match isDeeper line, Line.read? line with
      | true, some (.event event) =>
          if active then event.andThen (execute equal taken active rest)
          else execute equal taken active rest
      | false, some (.first comparisons) =>
          let holds := comparisons.any fun (name, value) => equal name value
          execute equal holds holds rest
      | false, some (.next comparisons) =>
          let holds := comparisons.any fun (name, value) => equal name value
          execute equal (taken || holds) (!taken && holds) rest
      | false, some .otherwise => execute equal true (!taken) rest
      | false, some (.event event) => event.andThen (execute equal false false rest)
      | _, _ => none

/-! ## Reading actions -/

/-- A line at the outermost level of a method that is read as an event. -/
structure Reports (line : String) (event : Event) : Prop where
  read : Line.read? line = some (.event event)
  outer : isDeeper line = false

/-- A line that starts with a name belongs to no branch above it. -/
theorem IsName.isDeeper_append {text : String} (isName : IsName text) (rest : String) :
    isDeeper (text ++ rest) = false := by
  have notEmpty : text.toList ≠ [] := by simpa using isName.notEmpty
  obtain ⟨c, others, chars⟩ := List.exists_cons_of_ne_nil notEmpty
  have isChar := isName.all c (by simp [chars])
  have notBlank : c ≠ ' ' := by
    rintro rfl
    exact absurd isChar (by decide)
  simp [isDeeper, chars, notBlank]

/-- No statement is mistaken for a part of a choice. -/
theorem Line.ofSymbols?_symbols {statement : Statement} (sound : statement.Sound) :
    ofSymbols? statement.symbols =
      ((Statement.read? statement.symbols).bind Event.ofStatement?).map .event := by
  cases statement with
  | perform call =>
      obtain ⟨callee, arguments⟩ := call
      cases callee with
      | plain function =>
          have notKeyword : forall word, word ∈ keywords -> function ≠ word := by
            rintro _ listed rfl
            exact sound listed
          have notIf := notKeyword "if" (by decide)
          have notElif := notKeyword "elif" (by decide)
          show ofSymbols? (.name function :: .sign '(' :: Argument.inside arguments) = _
          simp [ofSymbols?, notIf, notElif, Statement.symbols, Call.symbols, Operand.symbols]
      | _ => rfl
  | _ => rfl

/-- A written statement is read as what it does. -/
theorem reports_text {statement : Statement} {event : Event}
    (areNames : forall text, text ∈ statement.names -> IsName text) (sound : statement.Sound)
    (does : Event.ofStatement? statement = some event) : Reports statement.text event where
  read := by
    rw [Line.read?, Statement.symbols_text areNames, Line.ofSymbols?_symbols sound,
      Statement.read?_symbols sound, Option.bind_some, does]
    rfl
  outer := by
    cases statement with
    | pass => decide
    | raise call => simp [Statement.text, isDeeper]
    | keep name call => simp [Statement.text, isDeeper]
    | point name source => simp [Statement.text, isDeeper]
    | perform call =>
        obtain ⟨callee, arguments⟩ := call
        cases callee with
        | plain function =>
            have isName := areNames function (by simp [Statement.names, Call.names, Operand.names])
            simpa [Statement.text, Call.text, Operand.text, String.append_assoc] using
              isName.isDeeper_append _
        | _ => simp [Statement.text, Call.text, Operand.text, isDeeper]

/-! ## Ways of coding -/

/-- A routine is known by its name behind the stem. -/
theorem withoutStem?_append (stem name : String) :
    withoutStem? stem (stem ++ name) = some name := by
  simp [withoutStem?]

/-- Two names in a row are a name. -/
theorem IsName.append {left right : String} (isLeft : IsName left) (isRight : IsName right) :
    IsName (left ++ right) where
  notEmpty := by simp [isLeft.notEmpty]
  all := by
    rw [String.toList_append, List.forall_mem_append]
    exact ⟨isLeft.all, isRight.all⟩

/-- A statement that can be written and does something. -/
structure Statement.Does (statement : Statement) (event : Event) : Prop where
  areNames : forall text, text ∈ statement.names -> IsName text
  sound : statement.Sound
  does : Event.ofStatement? statement = some event

/-- The line of a statement is read as what the statement does. -/
theorem Statement.Does.reports {statement : Statement} {event : Event}
    (does : statement.Does event) : Reports statement.text event :=
  reports_text does.areNames does.sound does.does

/-- The line of a statement is read as the attributes that its event insists on. -/
theorem Statement.Does.lineAssertion? {statement : Statement} {event : Event}
    (does : statement.Does event) :
    lineAssertion? statement.text = event.asserted?.map assertion := by
  rw [Python.lineAssertion?, Statement.symbols_text does.areNames,
    Statement.read?_symbols does.sound, Option.bind_some, Event.assertion?_eq does.does]

namespace Way

/-- The names that a way mentions. -/
def names : Way -> List String
  | .routine called length element => called :: length.toList ++ element.toList
  | .record => []
  | .records length => length.toList

/-- Operands that are passed without names. -/
def passed (operands : List Operand) : List Argument := operands.map (⟨none, ·⟩)

/-- The statement that encodes an attribute. -/
def encoding (name : String) : Way -> Statement
  | .routine called length element =>
      .perform ⟨.method "packer" ("pack_" ++ called),
        passed (length.toList.map Operand.plain ++ Operand.member name
          :: element.toList.map fun each => Operand.method "packer" ("pack_" ++ each))⟩
  | .record => .perform ⟨.method name "pack", []⟩
  | .records length =>
      .perform ⟨.plain (if length.isNone then "pack_objarray" else "pack_fobjarray"),
        passed (.member "ncl" :: length.toList.map Operand.plain ++ [.member name])⟩

/-- The statements that decode an attribute, which holds records of the given class if
records are decoded. -/
def decodings (name : String) (class? : Option String) : Way -> List Statement
  | .routine called length element =>
      [.keep name ⟨.method "unpacker" ("unpack_" ++ called),
        passed (length.toList.map Operand.plain
          ++ element.toList.map fun each => Operand.method "unpacker" ("unpack_" ++ each))⟩]
  | .record => class?.toList.flatMap fun each =>
      [.keep name ⟨.plain each, passed [.member "ncl"]⟩, .perform ⟨.method name "unpack", []⟩]
  | .records length => class?.toList.map fun each =>
      .keep name ⟨.plain (if length.isNone then "unpack_objarray" else "unpack_fobjarray"),
        passed (.member "ncl" :: length.toList.map Operand.plain ++ [.plain each])⟩

/-- What these statements do. -/
def decoded (name : String) (class? : Option String) : Way -> List Event
  | .routine called length element => [.decoded name (.routine called length element) none]
  | .record => class?.toList.flatMap fun each =>
      [.created name each, .decoded name .record none]
  | .records length => class?.toList.map fun each => .decoded name (.records length) (some each)

/-- Operands that are passed without names mention what they mention by themselves. -/
theorem names_passed (operands : List Operand) :
    (passed operands).flatMap Argument.names = operands.flatMap Operand.names := by
  simp [passed, List.flatMap_map, Argument.names]

/-- Operands that are passed without names are read back. -/
theorem operands_passed (operands : List Operand) :
    (passed operands).mapM Argument.operand? = some operands := by
  have inverse : forall value, Argument.operand? ⟨none, value⟩ = some value := fun _ => rfl
  exact mapM_of_inverse inverse operands

/-- A statement that encodes an attribute in a way does so. -/
theorem does_encoding {name : String} {way : Way}
    (areNames : forall text, text ∈ name :: way.names -> IsName text) :
    (way.encoding name).Does (.encoded name way) where
  areNames := by
    have isStem : IsName "pack_" := by decide
    cases way with
    | routine called length element =>
        cases length <;> cases element <;>
          simp_all +decide [encoding, names, Statement.names, Call.names, names_passed,
            Operand.names, IsName.append]
    | record => simp_all +decide [encoding, names, Statement.names, Call.names, Operand.names]
    | records length =>
        cases length <;>
          simp_all +decide [encoding, names, Statement.names, Call.names, names_passed,
            Operand.names]
  sound := by
    cases way with
    | records length => cases length <;> simp +decide [encoding, Statement.Sound]
    | _ => trivial
  does := by
    cases way with
    | routine called length element =>
        cases length <;> cases element <;>
          simp [encoding, Event.ofStatement?, Statement.assertion?, Event.ofOther?, operands_passed,
            Event.ofMethod?, Event.ofPacker?, read?, withoutStem?_append]
    | record => rfl
    | records length => cases length <;> rfl

/-- Statements that decode an attribute in a way do so. -/
theorem does_decodings {name : String} {class? : Option String} {way : Way}
    (areNames : forall text, text ∈ name :: class?.toList ++ way.names -> IsName text) :
    List.Forall₂ Statement.Does (way.decodings name class?) (way.decoded name class?) := by
  cases way with
  | routine called length element =>
      have isStem : IsName "unpack_" := by decide
      refine .cons ⟨?_, trivial, ?_⟩ .nil
      · cases length <;> cases element <;>
          simp_all +decide [names, Statement.names, Call.names, names_passed, Operand.names,
            IsName.append]
      · cases length <;> cases element <;>
          simp [Event.ofStatement?, Statement.assertion?, Event.ofOther?, operands_passed,
            Event.ofKept?, read?, withoutStem?_append]
  | record =>
      cases class? with
      | none => exact .nil
      | some each =>
          refine .cons ⟨?_, trivial, rfl⟩ (.cons ⟨?_, trivial, rfl⟩ .nil) <;>
            simp_all +decide [names, Statement.names, Call.names, names_passed, Operand.names]
  | records length =>
      cases class? with
      | none => exact .nil
      | some each =>
          refine .cons ⟨?_, trivial, ?_⟩ .nil
          · cases length <;>
              simp_all +decide [names, Statement.names, Call.names, names_passed, Operand.names]
          · cases length <;> rfl

end Way

/-! ## Actions -/

/-- The way that a coding prescribes. -/
def way? : Coding -> Option Way
  | .void => none
  | .routine name => some (.routine name none none)
  | .record _ => some .record
  | .text => some (.routine "string" none none)
  | .fixedBytes length => some (.routine "fopaque" (some (literal length)) none)
  | .bytes => some (.routine "opaque" none none)
  | .array element none => some (.routine "array" none (some element))
  | .array element (some length) =>
      some (.routine "farray" (some (literal length)) (some element))
  | .recordArray _ fixed => some (.records (fixed.map literal))

/-- The class of the records that a coding creates. -/
def class? : Coding -> Option String
  | .record name | .recordArray name _ => some name
  | _ => none

/-- What a coding mentions and what its way mentions are names at the same time. -/
theorem isName_way? {coding : Coding}
    (areNames : forall text, text ∈ mentioned coding -> IsName text) {way : Way}
    (prescribed : way? coding = some way) :
    forall text, text ∈ (class? coding).toList ++ way.names -> IsName text := by
  cases coding with
  | void => cases prescribed
  | array element fixed =>
      cases fixed <;> cases prescribed <;>
        simp_all +decide [mentioned, class?, Way.names]
  | recordArray element fixed =>
      cases fixed <;> cases prescribed <;> simp_all [mentioned, class?, Way.names]
  | _ =>
      cases prescribed
      simp_all +decide [mentioned, class?, Way.names]

namespace Action

/-- The statements of an action. -/
def written : Action -> List Statement
  | assertSet names => [.perform ⟨.plain "assert_not_none", assertion names⟩]
  | encode name coding => (way? coding).toList.map (·.encoding name)
  | decode name coding => (way? coding).toList.flatMap (·.decodings name (class? coding))
  | setArm none => [.point "arm" (.plain "None")]
  | setArm (some name) => [.point "arm" (.member name)]
  | refuse discriminant => [.raise ⟨.plain "BadDiscriminant", [⟨none, .member discriminant⟩]⟩]

/-- What an action does. -/
def events : Action -> List Event
  | assertSet names => [.asserted names]
  | encode name coding => (way? coding).toList.map (.encoded name)
  | decode name coding => (way? coding).toList.flatMap (·.decoded name (class? coding))
  | setArm name => [.arm name]
  | refuse discriminant => [.refused discriminant]

/-- The line that encodes an attribute is that of the statement for its way of coding. -/
theorem encodeStatement?_eq (name : String) (coding : Coding) :
    encodeStatement? .record (.member name) coding =
      (way? coding).map fun way => (way.encoding name).text := by
  cases coding with
  | void => rfl
  | array element fixed | recordArray element fixed =>
      cases fixed <;>
        simp [encodeStatement?, way?, Way.encoding, Way.passed, Statement.text, Call.text,
          Argument.text, Operand.text, Site.packer, Place.text, <- String.toList_inj]
  | _ =>
      simp [encodeStatement?, way?, Way.encoding, Way.passed, Statement.text, Call.text,
        Argument.text, Operand.text, Site.packer, Place.text, <- String.toList_inj]

/-- The lines that decode an attribute are those of the statements for its way of coding. -/
theorem decodeStatements_eq (name : String) (coding : Coding) :
    decodeStatements .record (.member name) coding =
      ((way? coding).toList.flatMap (·.decodings name (class? coding))).map Statement.text := by
  cases coding with
  | void => rfl
  | array element fixed | recordArray element fixed =>
      cases fixed <;>
        simp [decodeStatements, decodeExpression?, way?, class?, Way.decodings, Way.passed,
          Statement.text, Call.text, Argument.text, Operand.text, Site.unpacker, Place.text,
          <- String.toList_inj]
  | _ =>
      simp [decodeStatements, decodeExpression?, way?, class?, Way.decodings, Way.passed,
        Statement.text, Call.text, Argument.text, Operand.text, Site.unpacker, Place.text,
        <- String.toList_inj]

/-- The lines of an action are those of its statements. -/
theorem statements_eq (action : Action) :
    action.statements = action.written.map Statement.text := by
  cases action with
  | assertSet names =>
      cases names with
      | nil => rfl
      | cons first more =>
          have shown : ((first :: more).map fun name => name ++ "=self." ++ name) =
              ((first :: more).map Argument.keyword).map Argument.text := by
            simp [Argument.keyword, Argument.text, Operand.text, <- String.toList_inj]
          show ["assert_not_none(self, " ++ _ ++ ")"] = ["assert_not_none" ++ "("
            ++ ", ".intercalate ((⟨none, .plain "self"⟩ :: Argument.keyword first
              :: more.map Argument.keyword).map Argument.text) ++ ")"]
          rw [shown, intercalate_map_cons, <- List.map_cons]
          generalize ", ".intercalate _ = rest
          simp [Argument.text, Operand.text, <- String.toList_inj]
  | encode name coding =>
      rw [statements, encodeStatement?_eq, written]
      cases way? coding <;> rfl
  | decode name coding => exact decodeStatements_eq name coding
  | setArm name =>
      cases name with
      | none => rfl
      | some name => simp [statements, written, Statement.text, Operand.text, <- String.toList_inj]
  | refuse discriminant =>
      simp [statements, written, Statement.text, Call.text, Argument.text, Operand.text,
        <- String.toList_inj]

/-- The statements of an action do what it prescribes. -/
theorem does_written {action : Action}
    (areNames : forall text, text ∈ action.mentioned -> IsName text) :
    List.Forall₂ Statement.Does action.written action.events := by
  cases action with
  | assertSet names =>
      have notKeyword : "assert_not_none" ∉ keywords := by decide
      refine .cons ⟨?_, notKeyword, ?_⟩ .nil
      · have isFunction : IsName "assert_not_none" := by decide
        have isSelf : IsName "self" := by decide
        simp only [Statement.names, Call.names, Operand.names, assertion, List.flatMap_cons,
          Argument.names, Option.toList_none, List.nil_append, List.flatMap_map, Argument.keyword,
          Option.toList_some, List.forall_mem_append, List.forall_mem_singleton,
          List.forall_mem_flatMap]
        exact ⟨isFunction, isSelf, fun name listed => ⟨areNames name listed, areNames name listed⟩⟩
      · show (insisted? (assertion names)).map Event.asserted = _
        rw [insisted?_eq_some_iff.mpr rfl]
        rfl
  | encode name coding =>
      obtain ⟨isName, inCoding⟩ := List.forall_mem_cons.mp areNames
      rw [written, events]
      cases prescribed : way? coding with
      | none => exact .nil
      | some way =>
          obtain ⟨-, inWay⟩ := List.forall_mem_append.mp (isName_way? inCoding prescribed)
          exact .cons (Way.does_encoding (List.forall_mem_cons.mpr ⟨isName, inWay⟩)) .nil
  | decode name coding =>
      obtain ⟨isName, inCoding⟩ := List.forall_mem_cons.mp areNames
      rw [written, events]
      cases prescribed : way? coding with
      | none => exact .nil
      | some way =>
          have inWay := isName_way? inCoding prescribed
          simpa using Way.does_decodings (List.forall_mem_cons.mpr ⟨isName, inWay⟩)
  | setArm name =>
      cases name with
      | none => exact .cons ⟨by decide, trivial, rfl⟩ .nil
      | some name =>
          refine .cons ⟨?_, trivial, rfl⟩ .nil
          have isName := areNames name (by simp [mentioned])
          simp_all +decide [Statement.names, Operand.names]
  | refuse discriminant =>
      refine .cons ⟨?_, trivial, rfl⟩ .nil
      have isName := areNames discriminant (by simp [mentioned])
      simp_all +decide [Statement.names, Call.names, Argument.names, Operand.names]

/-- The statements of an action say what it does. -/
theorem reports {action : Action} (areNames : forall text, text ∈ action.mentioned -> IsName text) :
    List.Forall₂ Reports action.statements action.events := by
  rw [statements_eq, List.forall₂_map_left_iff]
  exact (does_written areNames).imp fun _ _ => Statement.Does.reports

/-- Everything that some actions mention is a name. -/
def Named (actions : List Action) : Prop :=
  forall action, action ∈ actions -> forall text, text ∈ action.mentioned -> IsName text

/-- The lines of actions say what the actions do, one after the other. -/
theorem reports_flatMap {actions : List Action} (named : Named actions) :
    List.Forall₂ Reports (actions.flatMap (·.statements)) (actions.flatMap (·.events)) := by
  induction actions with
  | nil => exact .nil
  | cons first more inductionHypothesis =>
      obtain ⟨firstNamed, moreNamed⟩ := List.forall_mem_cons.mp named
      exact List.rel_append (reports firstNamed) (inductionHypothesis moreNamed)

end Action

/-! ## Executing statements -/

namespace Reports

variable {line : String} {event : Event}

/-- A line that is read as an event is not empty. -/
theorem notEmpty (reports : Reports line event) : line ≠ "" := by
  rintro rfl
  cases reports.read

/-- A line that is read as an event has the indentation of a branch inside one. -/
theorem toList_indented (reports : Reports line event) :
    (indented 1 line).toList = ' ' :: ' ' :: ' ' :: ' ' :: line.toList := by
  rw [XdrPack.toList_indented reports.notEmpty]
  rfl

/-- A line inside a branch belongs to it. -/
theorem isDeeper_indented (reports : Reports line event) : isDeeper (indented 1 line) = true := by
  simp [isDeeper, reports.toList_indented]

/-- A line inside a branch is read as the same event. -/
theorem read?_indented (reports : Reports line event) :
    Line.read? (indented 1 line) = some (.event event) := by
  rw [<- reports.read, Line.read?, Line.read?, symbols, symbols, reports.toList_indented]
  rfl

end Reports

variable {equal : String -> String -> Bool} {lines : List String} {events : List Event}

/-- Statements at the outermost level are executed one after the other. -/
theorem execute_outer (reports : List.Forall₂ Reports lines events) (rest : List String) :
    execute equal false false (lines ++ rest) =
      events.foldr Event.andThen (execute equal false false rest) := by
  induction reports with
  | nil => rfl
  | cons first _ inductionHypothesis =>
      rw [List.cons_append, execute]
      simp only [first.outer, first.read, inductionHypothesis, List.foldr_cons]

/-- Statements of a branch are executed if the branch is. -/
theorem execute_inner (reports : List.Forall₂ Reports lines events) (taken active : Bool)
    (rest : List String) :
    execute equal taken active (lines.map (indented 1) ++ rest) =
      if active then events.foldr Event.andThen (execute equal taken active rest)
      else execute equal taken active rest := by
  induction reports with
  | nil => simp
  | cons first _ inductionHypothesis =>
      rw [List.map_cons, List.cons_append, execute]
      simp only [first.isDeeper_indented, first.read?_indented, inductionHypothesis,
        List.foldr_cons]
      split <;> rfl

/-! ## Executing choices -/

/-- The comparisons that a condition is made of. -/
theorem comparisons?_condition {discriminant : String} (isName : IsName discriminant)
    {labels : List Value} (notEmpty : labels ≠ [])
    (areNames : forall label, label ∈ labels -> IsName (literal label)) :
    comparisons? (Symbol.read [] ((" or ".intercalate (labels.map fun label =>
      "self." ++ discriminant ++ " == " ++ literal label)).toList ++ [':'])) =
      some (labels.map fun label => (discriminant, literal label)) := by
  induction labels with
  | nil => exact absurd rfl notEmpty
  | cons label others inductionHypothesis =>
      obtain ⟨isLiteral, othersAre⟩ := List.forall_mem_cons.mp areNames
      cases others with
      | nil =>
          simp +decide [comparisons?, Symbol.read, Symbol.ended, isName.read, isLiteral.read]
      | cons second more =>
          have later := inductionHypothesis (by simp) othersAre
          rw [intercalate_map_cons]
          generalize " or ".intercalate ((second :: more).map _) = rest at later ⊢
          simp +decide [comparisons?, Symbol.read, Symbol.ended, isName.read, isLiteral.read,
            later]

/-- Everything that a branch mentions is a name. -/
structure Branch.Named (branch : Branch) : Prop where
  notEmpty : branch.labels ≠ []
  labels : forall label, label ∈ branch.labels -> IsName (literal label)
  actions : Action.Named branch.actions

section

variable {discriminant : String} (isName : IsName discriminant) {branch : Branch}
  (named : branch.Named)

include isName named

/-- The first branch of a choice is read. -/
theorem Branch.read?_first :
    Line.read? ("if" ++ " " ++ branch.condition discriminant ++ ":") =
      some (.first (branch.labels.map fun label => (discriminant, literal label))) := by
  have read := comparisons?_condition isName named.notEmpty named.labels
  rw [Branch.condition]
  generalize " or ".intercalate (branch.labels.map _) = text at read ⊢
  simp +decide [Line.read?, symbols, Symbol.read, Symbol.ended, Line.ofSymbols?, read]

/-- A later branch of a choice is read. -/
theorem Branch.read?_next :
    Line.read? ("elif" ++ " " ++ branch.condition discriminant ++ ":") =
      some (.next (branch.labels.map fun label => (discriminant, literal label))) := by
  have read := comparisons?_condition isName named.notEmpty named.labels
  rw [Branch.condition]
  generalize " or ".intercalate (branch.labels.map _) = text at read ⊢
  simp +decide [Line.read?, symbols, Symbol.read, Symbol.ended, Line.ofSymbols?, read]

end

/-- Everything that a choice mentions is a name. -/
structure Choice.Named (choice : Choice) : Prop where
  discriminant : IsName choice.discriminant
  branches : forall branch, branch ∈ choice.branches -> branch.Named
  otherwise : Action.Named choice.otherwise

/-- A choice takes its first branch if one of the labels fits, and goes on otherwise. -/
theorem Choice.taken_cons (equals : Value -> Bool) (discriminant : String) (branch : Branch)
    (more : List Branch) (otherwise : List Action) :
    Choice.taken equals ⟨discriminant, branch :: more, otherwise⟩ =
      if branch.labels.any equals then branch.actions
      else Choice.taken equals ⟨discriminant, more, otherwise⟩ := by
  simp only [Choice.taken, List.find?_cons]
  cases branch.labels.any equals <;> rfl

/-- The lines of actions at a depth. -/
theorem linesAt_actionCode (depth : Nat) (actions : List Action) :
    (actionCode actions).linesAt depth = (actions.flatMap (·.statements)).map (indented depth) := by
  rw [actionCode, Code.linesAt_lines]

/-- The lines of actions at the outermost level. -/
theorem linesAt_actionCode_zero (actions : List Action) :
    (actionCode actions).linesAt 0 = actions.flatMap (·.statements) := by
  rw [linesAt_actionCode, show indented 0 = id from funext indented_zero, List.map_id]

/-- The head of a branch belongs to no branch above it. -/
theorem isDeeper_branch (discriminant word : String) (isWord : IsName word) (branch : Branch) :
   isDeeper (word ++ " " ++ branch.condition discriminant ++ ":") = false := by
  rw [String.append_assoc, String.append_assoc]
  exact isWord.isDeeper_append _

/-- Behind the first branch of a choice, nothing more is executed if a branch was taken, and
otherwise the first branch whose condition holds. -/
theorem execute_alternatives {discriminant : String} (isName : IsName discriminant)
    {branches : List Branch} (named : forall branch, branch ∈ branches -> branch.Named)
    {otherwise : List Action} (otherwiseNamed : Action.Named otherwise) (taken active : Bool) :
    execute equal taken active
        ((Code.concat (branches.map (·.code discriminant "elif"))
          ++ .single "else:" (actionCode otherwise)).linesAt 0) =
      if taken then some []
      else ((Choice.taken (fun label => equal discriminant (literal label))
        ⟨discriminant, branches, otherwise⟩).flatMap (·.events)).foldr Event.andThen (some []) := by
  induction branches generalizing taken active with
  | nil =>
      have reports := Action.reports_flatMap otherwiseNamed
      show execute equal taken active ("else:" :: ((actionCode otherwise).linesAt 1 ++ [])) = _
      have read : Line.read? "else:" = some .otherwise := by decide
      have outer : isDeeper "else:" = false := by decide
      rw [execute]
      simp only [read, outer, linesAt_actionCode, execute_inner reports, execute]
      cases taken <;> rfl
  | cons branch more inductionHypothesis =>
      obtain ⟨branchNamed, moreNamed⟩ := List.forall_mem_cons.mp named
      have reports := Action.reports_flatMap branchNamed.actions
      have outer := isDeeper_branch discriminant "elif" (by decide) branch
      have read := branch.read?_next isName branchNamed
      have lines : (Code.concat ((branch :: more).map (·.code discriminant "elif"))
          ++ .single "else:" (actionCode otherwise)).linesAt 0 =
        ("elif" ++ " " ++ branch.condition discriminant ++ ":") ::
          ((branch.actions.flatMap (·.statements)).map (indented 1) ++
            (Code.concat (more.map (·.code discriminant "elif"))
              ++ .single "else:" (actionCode otherwise)).linesAt 0) := by
        simp [Branch.code, Code.single, Code.linesAt, indented_zero, linesAt_actionCode]
      rw [lines, execute]
      simp only [read, outer, execute_inner reports, inductionHypothesis moreNamed,
        Choice.taken_cons, List.any_map, Function.comp_def]
      cases taken with
      | true => rfl
      | false =>
          cases branch.labels.any fun label => equal discriminant (literal label) <;> rfl

/-- A choice executes what its first branch whose condition holds does, or else what remains. -/
theorem execute_choice {choice : Choice} (named : choice.Named) :
    execute equal false false (choice.code.linesAt 0) =
      ((choice.taken fun label => equal choice.discriminant (literal label)).flatMap
        (·.events)).foldr Event.andThen (some []) := by
  obtain ⟨discriminant, branches, otherwise⟩ := choice
  obtain ⟨isName, branchesNamed, otherwiseNamed⟩ := named
  cases branches with
  | nil =>
      show execute equal false false ((actionCode otherwise).linesAt 0) = _
      rw [linesAt_actionCode_zero, <- List.append_nil (otherwise.flatMap _),
        execute_outer (Action.reports_flatMap otherwiseNamed)]
      rfl
  | cons branch more =>
      obtain ⟨branchNamed, moreNamed⟩ := List.forall_mem_cons.mp branchesNamed
      have reports := Action.reports_flatMap branchNamed.actions
      have outer := isDeeper_branch discriminant "if" (by decide) branch
      have read := branch.read?_first isName branchNamed
      have lines : (Choice.code ⟨discriminant, branch :: more, otherwise⟩).linesAt 0 =
        ("if" ++ " " ++ branch.condition discriminant ++ ":") ::
          ((branch.actions.flatMap (·.statements)).map (indented 1) ++
            (Code.concat (more.map (·.code discriminant "elif"))
              ++ .single "else:" (actionCode otherwise)).linesAt 0) := by
        simp [Choice.code, Branch.code, Code.single, Code.linesAt, indented_zero,
          linesAt_actionCode]
      rw [lines, execute]
      simp only [read, outer, execute_inner reports,
        execute_alternatives isName moreNamed otherwiseNamed, Choice.taken_cons, List.any_map,
        Function.comp_def]
      cases branch.labels.any fun label => equal discriminant (literal label) <;> rfl

end XdrPack.Python
