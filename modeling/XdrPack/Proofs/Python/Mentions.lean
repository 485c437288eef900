import XdrPack.Proofs.ConstantReferences
import XdrPack.Proofs.Python.Indentation

/-!
# Values in generated lines

The lines of generated code are read for the values that they mention: the value that a
constant is bound to, the length that is passed to a routine and the literals that a
discriminant is compared with. They are read without regard to what they were generated
from. The code of a record class and of a pair of routines mentions the values of the fields
and codings that it is for, and all other lines mention nothing.
-/

namespace XdrPack

open Grammar

namespace Python

/-! ## Reading lines -/

/-- The routines that are passed a length before anything else. -/
def sizedRoutines : List String := ["pack_fopaque", "unpack_fopaque", "pack_farray",
  "unpack_farray"]

/-- The functions that are passed a length behind the context. -/
def sizedHelpers : List String := ["pack_fobjarray", "unpack_fobjarray"]

/-- The length that a call passes. -/
def Call.length? : Call -> Option String
  | ⟨.plain helper, ⟨none, .member "ncl"⟩ :: ⟨none, .plain length⟩ :: _⟩ =>
      if helper ∈ sizedHelpers then some length else none
  | ⟨.member routine, ⟨none, .plain length⟩ :: _⟩ =>
      if routine ∈ sizedRoutines then some length else none
  | ⟨.method _ routine, ⟨none, .plain length⟩ :: _⟩ =>
      if routine ∈ sizedRoutines then some length else none
  | _ => none

/-- The length that a statement passes. -/
def Statement.length? : Statement -> Option String
  | perform call | keep _ call => call.length?
  | pass | raise _ | point _ _ => none

/-- A length as it is read. -/
def readLength (length : Option String) : List (ReferenceRole × String) :=
  length.toList.map (.length, ·)

/-- What a line of a method mentions: the literals of a condition, or the length that is
passed by a call. -/
def mentions : List Symbol -> List (ReferenceRole × String)
  | .name "if" :: condition | .name "elif" :: condition =>
      ((comparisons? condition).getD []).map fun (_, label) => (.label, label)
  | .name "return" :: call => readLength ((Call.read? call).bind Call.length?)
  | line => readLength ((Statement.read? line).bind Statement.length?)

/-- What a line of the module of constants mentions: the value that is bound. -/
def boundValue : List Symbol -> List (ReferenceRole × String)
  | [.name _, .sign '=', .name value] => [(.value, value)]
  | _ => []

/-- What is read off the lines of code. -/
def readLines (read : List Symbol -> List (ReferenceRole × String)) (code : Code) :
    List (ReferenceRole × String) :=
  (code.linesAt 0).flatMap fun line => read (symbols line)

/-- A reference as generated code writes it. -/
def written (reference : Reference) : ReferenceRole × String :=
  (reference.role, literal reference.value)

/-! ## Lines of code -/

/-- Blanks in front of a line do not matter. -/
theorem symbols_indented (depth : Nat) (text : String) :
    symbols (indented depth text) = symbols text := by
  have blanks : forall (count : Nat) (chars : List Char),
      Symbol.read [] (List.replicate count ' ' ++ chars) = Symbol.read [] chars := by
    intro count chars
    induction count with
    | zero => rfl
    | succ count inductionHypothesis =>
        rw [List.replicate_succ, List.cons_append, <- inductionHypothesis]
        rfl
  by_cases empty : text = ""
  · rw [empty, indented_empty]
  · rw [symbols, toList_indented empty, blanks, symbols]

section

variable {read : List Symbol -> List (ReferenceRole × String)}

/-- What is read off lines does not depend on their indentation. -/
theorem flatMap_indented (depth : Nat) (lines : List String) :
    (lines.map (indented depth)).flatMap (fun line => read (symbols line)) =
      lines.flatMap fun line => read (symbols line) := by
  simp only [List.flatMap_map, symbols_indented]

@[simp]
theorem readLines_done : readLines read .done = [] := rfl

@[simp]
theorem readLines_append (first second : Code) :
    readLines read (first ++ second) = readLines read first ++ readLines read second := by
  simp [readLines]

@[simp]
theorem readLines_concat (pieces : List Code) :
    readLines read (.concat pieces) = pieces.flatMap (readLines read) := by
  rw [readLines, Code.linesAt_concat, List.flatMap_assoc]
  rfl

@[simp]
theorem readLines_lines (texts : List String) :
    readLines read (.lines texts) = texts.flatMap fun text => read (symbols text) := by
  rw [readLines, Code.linesAt_lines, flatMap_indented]

@[simp]
theorem readLines_line (text : String) (rest : Code) :
    readLines read (.line text rest) = read (symbols text) ++ readLines read rest := by
  rw [readLines, Code.linesAt, List.flatMap_cons, symbols_indented]
  rfl

@[simp]
theorem readLines_block (header : String) (body rest : Code) :
    readLines read (.block header body rest) =
      read (symbols header) ++ readLines read body ++ readLines read rest := by
  have deeper := body.linesAt_add 0 1
  rw [Nat.zero_add] at deeper
  rw [readLines, Code.linesAt, List.flatMap_append, List.flatMap_cons, symbols_indented, deeper,
    flatMap_indented]
  rfl

@[simp]
theorem readLines_inset (body rest : Code) :
    readLines read (.inset body rest) = readLines read body ++ readLines read rest := by
  rw [readLines, Code.linesAt, List.flatMap_append, flatMap_indented]
  rfl

@[simp]
theorem readLines_single (header : String) (body : Code) :
    readLines read (.single header body) = read (symbols header) ++ readLines read body := by
  rw [Code.single, readLines_block, readLines_done, List.append_nil]

end

@[simp]
theorem readLines_blank (rest : Code) :
    readLines mentions (.blank rest) = readLines mentions rest := rfl

/-! ## Lines that mention nothing -/

/-- Names that are joined by dots start with the first of them. -/
theorem dotted_name (word : String) (rest : List Symbol) :
    ∃ more behind, dotted (.name word :: rest) = (word :: more, behind) := by
  unfold dotted
  split
  · next same =>
      cases same
      exact ⟨_, _, rfl⟩
  · next same =>
      cases same
      exact ⟨_, _, rfl⟩
  · next impossible => exact absurd rfl (impossible word rest)

/-- Names that do not start with the record stand for themselves. -/
theorem ofNames?_cons {word : String} (notSelf : word ≠ "self") {more : List String}
    {operand : Operand} (isOperand : Operand.ofNames? (word :: more) = some operand) :
    operand = .plain word := by
  rcases more with _ | ⟨second, _ | ⟨third, _ | ⟨fourth, rest⟩⟩⟩ <;>
    simp_all [Operand.ofNames?]

/-- A call that starts with a word other than `self` calls the function of that name. -/
theorem callee_of_read? {word : String} (notSelf : word ≠ "self") {rest : List Symbol} {call : Call}
    (read : Call.read? (.name word :: rest) = some call) : call.callee = .plain word := by
  obtain ⟨more, behind, isSplit⟩ := dotted_name word rest
  rw [Call.read?, isSplit] at read
  split at read
  · next same =>
      cases same
      obtain ⟨operand, isOperand, rfl⟩ := Option.map_eq_some_iff.mp read
      exact ofNames?_cons notSelf isOperand
  · next same =>
      cases same
      simp only [Option.bind_eq_bind, Option.bind_eq_some_iff] at read
      obtain ⟨operand, isOperand, arguments, -, values, -, isCall⟩ := read
      cases isCall
      exact ofNames?_cons notSelf isOperand
  · cases read

/-- A call of a function that takes no length passes none. -/
theorem length?_of_callee {call : Call} {function : String} (calls : call.callee = .plain function)
    (notSized : function ∉ sizedHelpers) : call.length? = none := by
  obtain ⟨callee, arguments⟩ := call
  obtain rfl : callee = .plain function := calls
  unfold Call.length?
  split <;> simp_all

/-- A line that starts with a keyword passes no length, unless it returns something. -/
theorem length?_keyword {word : String} (isKeyword : word ∈ keywords) (rest : List Symbol) :
    (Statement.read? (.name word :: rest)).bind Statement.length? = none := by
  have notSelf : word ≠ "self" := by
    rintro rfl
    exact absurd isKeyword (by decide)
  have notSized : word ∉ sizedHelpers := by
    have apart : forall word, word ∈ keywords -> word ∉ sizedHelpers := by decide
    exact apart word isKeyword
  rw [Option.bind_eq_none_iff]
  intro statement read
  unfold Statement.read? at read
  split at read
  · cases read
    rfl
  · obtain ⟨call, -, rfl⟩ := Option.map_eq_some_iff.mp read
    rfl
  · next same =>
      cases same
      exact absurd rfl notSelf
  · obtain ⟨call, isCall, rfl⟩ := Option.map_eq_some_iff.mp read
    exact length?_of_callee (callee_of_read? notSelf isCall) notSized

/-- A line that starts with a keyword mentions nothing, unless it is a condition or returns
something. -/
theorem mentions_keyword {word : String} (isKeyword : word ∈ keywords) (notIf : word ≠ "if")
    (notElif : word ≠ "elif") (notReturn : word ≠ "return") (rest : List Symbol) :
    mentions (.name word :: rest) = [] := by
  have silent := length?_keyword isKeyword rest
  simp [mentions, notIf, notElif, notReturn, silent, readLength]

/-- The binding of a name mentions nothing. -/
theorem mentions_binding (word : String) (rest : List Symbol) :
    mentions (.name word :: .sign '=' :: rest) = [] := by
  unfold mentions
  split
  · next same =>
      cases same
      rfl
  · next same =>
      cases same
      rfl
  · next same =>
      cases same
      rfl
  · have silent : (Statement.read? (.name word :: .sign '=' :: rest)).bind Statement.length? =
        none := by
      unfold Statement.read?
      split
      · next same => cases same
      · next same =>
          cases same
          rfl
      · next same => cases same
      · rfl
    rw [silent]
    rfl

/-- No call starts with a sign. -/
theorem read?_sign (c : Char) (rest : List Symbol) : Call.read? (.sign c :: rest) = none := by
  have nameless : dotted (.sign c :: rest) = ([], .sign c :: rest) := rfl
  rw [Call.read?, nameless]
  split
  · next same =>
      cases same
      rfl
  · next same =>
      cases same
      rfl
  · rfl

/-- A line that starts with a sign mentions nothing. -/
theorem mentions_sign (c : Char) (rest : List Symbol) : mentions (.sign c :: rest) = [] := by
  show readLength (((Call.read? (.sign c :: rest)).map Statement.perform).bind _) = []
  rw [read?_sign]
  rfl

/-- A result that starts with a sign mentions nothing. -/
theorem mentions_return_sign (c : Char) (rest : List Symbol) :
    mentions (.name "return" :: .sign c :: rest) = [] := by
  show readLength ((Call.read? (.sign c :: rest)).bind _) = []
  rw [read?_sign]
  rfl

/-- The symbols behind a word and a blank. -/
theorem symbols_word {word : String} (isName : IsName word) (rest : String) :
    symbols (word ++ " " ++ rest) = .name word :: symbols rest := by
  have apart : Apart (' ' :: rest.toList) := by simp +decide
  rw [symbols, String.toList_append, String.toList_append, List.append_assoc]
  exact (isName.read apart).trans rfl

/-- The header of a class or a function and an import mention nothing. -/
theorem mentions_header {head : String} (isHead : head ∈ ["class ", "def ", "from "])
    (text : String) : mentions (symbols (head ++ text)) = [] := by
  have silent : forall word, word ∈ ["class", "def", "from"] ->
      mentions (symbols (word ++ " " ++ text)) = [] := by
    have keyword : forall word, word ∈ ["class", "def", "from"] -> IsName word ∧
        word ∈ keywords ∧ word ≠ "if" ∧ word ≠ "elif" ∧ word ≠ "return" := by
      decide
    intro word isHeader
    obtain ⟨isName, isKeyword, notIf, notElif, notReturn⟩ := keyword word isHeader
    rw [symbols_word isName, mentions_keyword isKeyword notIf notElif notReturn]
  simp only [List.mem_cons, List.not_mem_nil, or_false] at isHead
  rcases isHead with rfl | rfl | rfl
  · exact silent "class" (by decide)
  · exact silent "def" (by decide)
  · exact silent "from" (by decide)

/-- A comment mentions nothing. -/
theorem mentions_comment (text : String) : mentions (symbols ("# " ++ text)) = [] := by
  rw [symbols, String.toList_append]
  exact mentions_sign '#' _

/-- A text that is returned mentions nothing. -/
theorem mentions_quoted (text : String) : mentions (symbols ("return \"<" ++ text)) = [] := by
  rw [symbols, String.toList_append]
  exact mentions_return_sign '"' _

/-! ## Statements -/

/-- What a written statement mentions. -/
theorem mentions_symbols {statement : Statement} (sound : statement.Sound) :
    mentions statement.symbols = readLength statement.length? := by
  have read : readLength ((Statement.read? statement.symbols).bind Statement.length?) =
      readLength statement.length? := by
    rw [Statement.read?_symbols sound, Option.bind_some]
  rw [<- read]
  cases statement with
  | perform call =>
      obtain ⟨callee, arguments⟩ := call
      cases callee with
      | plain function =>
          have notKeyword : forall word, word ∈ keywords -> function ≠ word := by
            rintro _ listed rfl
            exact sound listed
          have notIf := notKeyword "if" (by decide)
          have notElif := notKeyword "elif" (by decide)
          have notReturn := notKeyword "return" (by decide)
          show mentions (.name function :: .sign '(' :: Argument.inside arguments) = _
          simp [mentions, notIf, notElif, notReturn, Statement.symbols, Call.symbols,
            Operand.symbols]
      | _ => rfl
  | _ => rfl

/-- A statement mentions the length that it passes. -/
theorem mentions_text {statement : Statement}
    (areNames : forall text, text ∈ statement.names -> IsName text) (sound : statement.Sound) :
    mentions (symbols statement.text) = readLength statement.length? := by
  rw [Statement.symbols_text areNames, mentions_symbols sound]

/-- What a returned call mentions. -/
theorem mentions_return {call : Call} (areNames : forall text, text ∈ call.names -> IsName text) :
    mentions (symbols ("return " ++ call.text)) = readLength call.length? := by
  rw [show "return " = "return" ++ " " from rfl, symbols_word (by decide)]
  show readLength ((Call.read? (symbols call.text)).bind _) = _
  rw [symbols, Call.read_text areNames, Call.read?_symbols, Option.bind_some]

/-! ## Actions -/

/-- The lengths that an action passes on. -/
def Action.references : Action -> List Reference
  | encode _ coding | decode _ coding => coding.length?.toList.map (⟨.length, ·⟩)
  | assertSet _ | setArm _ | refuse _ => []

/-- The statements of an action pass on its lengths. -/
theorem Action.length?_written (action : Action) :
    action.written.flatMap (fun statement => readLength statement.length?) =
      action.references.map Python.written := by
  cases action with
  | assertSet names => rfl
  | encode name coding | decode name coding =>
      cases coding with
      | array element fixed | recordArray element fixed => cases fixed <;> rfl
      | _ => rfl
  | setArm name => cases name <;> rfl
  | refuse discriminant => rfl

/-- The lines of actions mention the lengths that the actions pass on. -/
theorem readLines_actionCode {actions : List Action} (named : Action.Named actions) :
    readLines mentions (actionCode actions) =
      (actions.flatMap Action.references).map written := by
  have each : forall action, action ∈ actions ->
      action.statements.flatMap (fun text => mentions (symbols text)) =
        action.references.map written := by
    intro action listed
    rw [<- action.length?_written, Action.statements_eq, List.flatMap_map]
    refine List.flatMap_congr fun statement isWritten => ?_
    obtain ⟨event, -, does⟩ :=
      exists_of_forall₂ (Action.does_written (named action listed)).flip isWritten
    exact mentions_text does.areNames does.sound
  rw [actionCode, readLines_lines, List.flatMap_assoc, List.map_flatMap]
  exact List.flatMap_congr each

/-! ## Choices -/

/-- The labels of a branch and the lengths that its actions pass on. -/
def Branch.references (branch : Branch) : List Reference :=
  branch.labels.map (⟨.label, ·⟩) ++ branch.actions.flatMap Action.references

/-- A condition mentions the labels of its branch. -/
theorem mentions_condition {discriminant word : String} (isWord : word = "if" ∨ word = "elif")
    (isName : IsName discriminant) {branch : Branch} (named : branch.Named) :
    mentions (symbols (word ++ " " ++ branch.condition discriminant ++ ":")) =
      (branch.labels.map (Reference.mk .label)).map written := by
  have read := comparisons?_condition isName named.notEmpty named.labels
  have chosen (condition : List Symbol) : mentions (.name word :: condition) =
      ((comparisons? condition).getD []).map fun (_, label) => (.label, label) := by
    rcases isWord with rfl | rfl <;> rfl
  rw [String.append_assoc, symbols_word (by rcases isWord with rfl | rfl <;> decide), chosen,
    symbols, String.toList_append, show ":".toList = [':'] from rfl, Branch.condition, read,
    Option.getD_some, List.map_map, List.map_map]
  rfl

/-- A branch mentions its labels and what its actions refer to. -/
theorem Branch.readLines_code {discriminant word : String} (isWord : word = "if" ∨ word = "elif")
    (isName : IsName discriminant) {branch : Branch} (named : branch.Named) :
    readLines mentions (branch.code discriminant word) = branch.references.map written := by
  rw [code, readLines_single, mentions_condition isWord isName named,
    readLines_actionCode named.actions, references, List.map_append]

/-- A choice mentions what its branches and its last resort do. -/
theorem Choice.readLines_code {choice : Choice} (named : choice.Named) :
    readLines mentions choice.code =
      (choice.branches.flatMap Branch.references
        ++ choice.otherwise.flatMap Action.references).map written := by
  obtain ⟨discriminant, branches, otherwise⟩ := choice
  obtain ⟨isName, branchesNamed, otherwiseNamed⟩ := named
  have last := readLines_actionCode otherwiseNamed
  cases branches with
  | nil => exact last
  | cons first rest =>
      obtain ⟨firstNamed, restNamed⟩ := List.forall_mem_cons.mp branchesNamed
      have silent : mentions (symbols "else:") = [] := by decide
      have others :
          rest.flatMap (fun branch => readLines mentions (branch.code discriminant "elif")) =
            (rest.flatMap Branch.references).map written := by
        rw [List.map_flatMap]
        exact List.flatMap_congr fun branch listed =>
          branch.readLines_code (.inr rfl) isName (restNamed branch listed)
      simp only [Choice.code, readLines_append, readLines_concat, readLines_single,
        List.flatMap_map, silent, List.nil_append, others, last,
        first.readLines_code (.inl rfl) isName firstNamed, List.flatMap_cons, List.map_append]

/-! ## Record classes -/

/-- A field that can be read, and that passes on no length if it declares nothing. -/
structure MentioningField (field : Field) : Prop extends ReadableField field where
  silent : field.isVoid = true -> field.references = []

/-- A completed member mentions what it refers to. -/
theorem mentioning_field {isReserved : String -> Bool} {registry : Registry}
    {declaration : Declaration} {field : Field}
    (completes : declaration.CompletesMember isReserved registry field)
    (lexed : Lexed DeclarationPhrase declaration.unlined) (declared : declaration.Written) :
    MentioningField field where
  toReadableField := readable_field completes lexed declared
  silent isVoid := by
    rw [completes.toCompletes.isVoid_eq] at isVoid
    rw [Field.references, completes.toCompletes.coding_of_void isVoid]
    rfl

/-- A constructor mentions nothing if the end of it does not. -/
theorem readLines_constructorCode {names trailer : List String}
    (areNames : forall each, each ∈ names -> IsName each)
    (silent : forall text, text ∈ trailer -> mentions (symbols text) = []) :
    readLines mentions (constructorCode names trailer) = [] := by
  have start : mentions (symbols "init_type_class(self, ncl)") = [] := by decide
  have assignments : names.flatMap
      (fun name => mentions (symbols ("self." ++ name ++ " = " ++ name))) = [] := by
    refine List.flatMap_eq_nil_iff.mpr fun name listed => ?_
    have inAssignment : forall text, text ∈ (Statement.point name (.plain name)).names ->
        IsName text := by
      simpa [Statement.names, Operand.names] using areNames name listed
    show mentions (symbols (Statement.point name (.plain name)).text) = []
    rw [mentions_text inAssignment trivial]
    rfl
  rw [constructorCode, readLines_single, readLines_lines,
    show "def __init__(self, ncl" = "def " ++ "__init__(self, ncl" from rfl,
    String.append_assoc, String.append_assoc, mentions_header (by decide), List.flatMap_append,
    List.flatMap_append, List.flatMap_map, assignments, List.flatMap_eq_nil_iff.mpr silent,
    List.flatMap_singleton, start]
  rfl

/-- A class mentions what the methods that encode and decode its records do. -/
theorem readLines_class {name printed : String} {texts names trailer : List String}
    {pack unpack : Code} (areNames : forall each, each ∈ names -> IsName each)
    (quoted : ∃ rest, printed = "return \"<" ++ rest)
    (silent : forall text, text ∈ trailer -> mentions (symbols text) = []) :
    readLines mentions (.single ("class " ++ name ++ ":")
        (commentCode texts ++ methodsCode (constructorCode names trailer)
          (.single "def __repr__(self):" (.line printed .done)) (.single packHead pack)
          (.single unpackHead unpack))) =
      readLines mentions pack ++ readLines mentions unpack := by
  have header : mentions (symbols ("class " ++ name ++ ":")) = [] := by
    rw [String.append_assoc]
    exact mentions_header (by decide) _
  have comments : readLines mentions (commentCode texts) = [] := by
    rw [commentCode, readLines_lines, List.flatMap_map, List.flatMap_eq_nil_iff]
    exact fun text _ => mentions_comment text
  have methods : mentions (symbols "def __repr__(self):") = [] ∧
      mentions (symbols packHead) = [] ∧ mentions (symbols unpackHead) = [] := by
    decide
  have shown : mentions (symbols printed) = [] := by
    obtain ⟨rest, rfl⟩ := quoted
    exact mentions_quoted rest
  have constructor := readLines_constructorCode areNames silent
  obtain ⟨inPrinted, inPack, inUnpack⟩ := methods
  simp only [methodsCode, readLines_single, readLines_append, readLines_line, readLines_blank,
    readLines_done, header, comments, constructor, shown, inPrinted, inPack, inUnpack,
    List.append_nil, List.nil_append]

/-- The fields that declare nothing do not matter. -/
theorem Struct.references_valued {fields : List Field}
    (mentioning : forall field, field ∈ fields -> MentioningField field) :
    (valued fields).flatMap Field.references = fields.flatMap Field.references := by
  induction fields with
  | nil => rfl
  | cons first rest inductionHypothesis =>
      obtain ⟨own, others⟩ := List.forall_mem_cons.mp mentioning
      rw [List.flatMap_cons, <- inductionHypothesis others]
      cases declares : first.isVoid with
      | true => simp [valued, declares, own.silent declares]
      | false => simp [valued, declares]

/-- The class of a structure mentions the lengths of its fields, once for each direction. -/
theorem Struct.readLines_code (name : String) {fields : List Field}
    (mentioning : forall field, field ∈ fields -> MentioningField field) :
    readLines mentions (code name fields) =
      (fields.flatMap Field.references ++ fields.flatMap Field.references).map written := by
  have areNames : forall field, field ∈ valued fields -> forall text,
      text ∈ field.name :: mentioned field.coding -> IsName text := by
    intro field listed
    obtain ⟨isField, declares⟩ := List.mem_filter.mp listed
    exact (mentioning field isField).named (by simpa using declares)
  have names : forall each, each ∈ (valued fields).map (·.name) -> IsName each :=
    List.forall_mem_map.mpr fun field listed => areNames field listed _ List.mem_cons_self
  have all := references_valued mentioning
  have packs : readLines mentions (actionCode (packActions (valued fields))) =
      (fields.flatMap Field.references).map written := by
    rw [readLines_actionCode (named_packActions areNames), <- all, packActions, List.flatMap_cons,
      List.flatMap_map]
    rfl
  have unpacks : readLines mentions (unpackBody (valued fields)) =
      (fields.flatMap Field.references).map written := by
    rw [<- all, unpackBody]
    split
    · next empty =>
        rw [List.isEmpty_iff.mp empty]
        decide
    · rw [readLines_actionCode (named_unpackActions areNames), unpackActions, List.flatMap_map]
      rfl
  have quoted : ∃ rest, printedForm name ((valued fields).map (·.name)) = "return \"<" ++ rest := by
    unfold printedForm
    split <;> simp only [String.append_assoc] <;> exact ⟨_, rfl⟩
  rw [List.map_append]
  exact (readLines_class names quoted (by simp)).trans (congrArg₂ (· ++ ·) packs unpacks)

namespace Union

/-- What the body of an arm passes on is coded in both directions. -/
theorem references_packBody {field : Field} (mentioning : MentioningField field) :
    (packBody field).flatMap Action.references = field.references := by
  unfold packBody
  split
  · next isVoid => rw [mentioning.silent isVoid]; rfl
  · exact List.append_nil _

/-- Decoding a body refers to what the body refers to. -/
theorem references_unpackBody {field : Field} (mentioning : MentioningField field) :
    (unpackBody field).flatMap Action.references = field.references := by
  unfold unpackBody
  split
  · next isVoid => rw [mentioning.silent isVoid]; rfl
  · exact List.append_nil _

variable {layout : UnionLayout} (readable : ReadableLayout layout)
  (mentioning : forall field, field ∈ layout.bodies -> MentioningField field)

include readable mentioning

/-- A choice among bodies mentions the labels of the arms and what the bodies pass on. -/
theorem readLines_choice {body : Field -> List Action}
    (named : forall field, field ∈ layout.bodies -> Action.Named (body field))
    (passes : forall field, MentioningField field ->
      (body field).flatMap Action.references = field.references) :
    readLines mentions (choice body layout).code =
      (layout.arms.flatMap UnionArm.references
        ++ layout.fallback.toList.flatMap Field.references).map written := by
  have arms : (choice body layout).branches.flatMap Branch.references =
      layout.arms.flatMap UnionArm.references := by
    rw [choice, List.flatMap_map]
    refine List.flatMap_congr fun arm listed => ?_
    have isBody : arm.body ∈ layout.bodies := List.mem_append_left _ (List.mem_map_of_mem listed)
    rw [Branch.references, passes arm.body (mentioning _ isBody), UnionArm.references]
  have otherwise : (choice body layout).otherwise.flatMap Action.references =
      layout.fallback.toList.flatMap Field.references := by
    cases present : layout.fallback with
    | none => simp only [choice, present]; rfl
    | some field =>
        have isBody : field ∈ layout.bodies := List.mem_append_right _ (by simp [present])
        simp [choice, present, passes field (mentioning _ isBody)]
  rw [Choice.readLines_code (named_choice readable named), arms, otherwise]

/-- A method that codes the discriminant and then chooses mentions what the union does. -/
theorem readLines_method (name : String) {first : List Action} {body : Field -> List Action}
    (firstNamed : Action.Named first)
    (selects : first.flatMap Action.references = layout.discriminant.references)
    (named : forall field, field ∈ layout.bodies -> Action.Named (body field))
    (passes : forall field, MentioningField field ->
      (body field).flatMap Action.references = field.references) :
    readLines mentions (actionCode first ++ (choice body layout).code) =
      (Emission.union name layout).references.map written := by
  rw [readLines_append, readLines_actionCode firstNamed, selects,
    readLines_choice readable mentioning named passes, <- List.map_append, <- List.append_assoc,
    Emission.references]

/-- The class of a union mentions its labels and the lengths in its declarations, once for
each direction. -/
theorem readLines_code (name : String) :
    readLines mentions (code name layout) =
      ((Emission.union name layout).references
        ++ (Emission.union name layout).references).map written := by
  have packNamed := named_packDiscriminant readable
  have unpackNamed := named_unpackDiscriminant readable
  have packs := readLines_method readable mentioning name packNamed (List.append_nil _)
    (fun field listed => named_packBody (readable.bodies field listed))
    fun field => references_packBody
  have unpacks := readLines_method readable mentioning name unpackNamed (List.append_nil _)
    (fun field listed => named_unpackBody (readable.bodies field listed))
    fun field => references_unpackBody
  rw [List.map_append]
  refine (readLines_class (isName_attributes readable) ?_ (by decide)).trans
    (congrArg₂ (· ++ ·) packs unpacks)
  simp only [String.append_assoc]
  exact ⟨_, rfl⟩

end Union

/-- An assignment of a name mentions nothing. -/
theorem mentions_assignment {name : String} (isName : IsName name) {rest : String}
    (binds : ∃ behind, rest.toList = ' ' :: '=' :: behind) :
    mentions (symbols (name ++ rest)) = [] := by
  obtain ⟨behind, shown⟩ := binds
  have apart : Apart (' ' :: '=' :: behind) := by simp +decide
  rw [symbols, String.toList_append, shown, isName.read apart]
  exact mentions_binding name _

/-! ## Routines -/

/-- The lengths that a pair of routines passes on. -/
def Routine.references (routine : Routine) : List Reference :=
  match routine.body with
  | .coding coding => coding.length?.toList.map (⟨.length, ·⟩)
  | .runtime _ | .forward _ => []

namespace Way

/-- The call that encodes a value in a class of routines. A record encodes itself. -/
def packing : Way -> Option Call
  | .routine called length element =>
      some ⟨.member ("pack_" ++ called), passed (length.toList.map Operand.plain
        ++ Operand.plain "data" :: element.toList.map fun each => .member ("pack_" ++ each))⟩
  | .record => none
  | .records length =>
      some ⟨.plain (if length.isNone then "pack_objarray" else "pack_fobjarray"),
        passed (.member "ncl" :: length.toList.map Operand.plain ++ [.plain "data"])⟩

/-- The call that decodes a value in a class of routines. -/
def unpacking (class? : Option String) : Way -> Option Call
  | .routine called length element =>
      some ⟨.member ("unpack_" ++ called), passed (length.toList.map Operand.plain
        ++ element.toList.map fun each => .member ("unpack_" ++ each))⟩
  | .record => none
  | .records length => class?.map fun each =>
      ⟨.plain (if length.isNone then "unpack_objarray" else "unpack_fobjarray"),
        passed (.member "ncl" :: length.toList.map Operand.plain ++ [.plain each])⟩

/-- The call that encodes in a routine mentions names. -/
theorem isName_packing {way : Way} (areNames : forall text, text ∈ way.names -> IsName text)
    {call : Call} (packs : way.packing = some call) :
    forall text, text ∈ call.names -> IsName text := by
  have isStem : IsName "pack_" := by decide
  cases way with
  | routine called length element =>
      cases packs
      cases length <;> cases element <;>
        simp_all +decide [names, Call.names, names_passed, Operand.names, IsName.append]
  | record => cases packs
  | records length =>
      cases packs
      cases length <;> simp_all +decide [names, Call.names, names_passed, Operand.names]

/-- The call that decodes in a routine mentions names. -/
theorem isName_unpacking {way : Way} {class? : Option String}
    (areNames : forall text, text ∈ class?.toList ++ way.names -> IsName text) {call : Call}
    (unpacks : way.unpacking class? = some call) :
    forall text, text ∈ call.names -> IsName text := by
  have isStem : IsName "unpack_" := by decide
  cases way with
  | routine called length element =>
      cases unpacks
      cases length <;> cases element <;>
        simp_all +decide [names, Call.names, names_passed, Operand.names, IsName.append]
  | record => cases unpacks
  | records length =>
      obtain ⟨each, rfl, rfl⟩ := Option.map_eq_some_iff.mp unpacks
      cases length <;> simp_all +decide [names, Call.names, names_passed, Operand.names]

end Way

section

variable {coding : Coding}

/-- The call that encodes in a routine passes the length of the coding. -/
theorem length?_packing (notAlias : coding.isAlias = false) :
    ((way? coding).bind Way.packing).bind Call.length? = coding.length?.map literal := by
  cases coding with
  | routine => cases notAlias
  | array element fixed | recordArray element fixed => cases fixed <;> rfl
  | _ => rfl

/-- The call that decodes in a routine passes the length of the coding. -/
theorem length?_unpacking (notAlias : coding.isAlias = false) :
    ((way? coding).bind (Way.unpacking (class? coding))).bind Call.length? =
      coding.length?.map literal := by
  cases coding with
  | routine => cases notAlias
  | array element fixed | recordArray element fixed => cases fixed <;> rfl
  | _ => rfl

/-- An encoding routine is a call for its way of coding. -/
theorem encodeStatement?_routines (notRecord : forall name, coding ≠ .record name) :
    encodeStatement? .routines .data coding =
      ((way? coding).bind Way.packing).map Call.text := by
  cases coding with
  | record name => exact absurd rfl (notRecord name)
  | void => rfl
  | array element fixed | recordArray element fixed =>
      cases fixed <;>
        simp [encodeStatement?, way?, Way.packing, Way.passed, Call.text, Argument.text,
          Operand.text, Site.packer, Place.text, <- String.toList_inj]
  | _ =>
      simp [encodeStatement?, way?, Way.packing, Way.passed, Call.text, Argument.text,
        Operand.text, Site.packer, Place.text, <- String.toList_inj]

/-- A decoding routine is a call for its way of coding. -/
theorem decodeExpression?_routines (coding : Coding) :
    decodeExpression? .routines coding =
      ((way? coding).bind (Way.unpacking (class? coding))).map Call.text := by
  cases coding with
  | void | record => rfl
  | array element fixed | recordArray element fixed =>
      cases fixed <;>
        simp [decodeExpression?, way?, class?, Way.unpacking, Way.passed, Call.text,
          Argument.text, Operand.text, Site.unpacker, <- String.toList_inj]
  | _ =>
      simp [decodeExpression?, way?, class?, Way.unpacking, Way.passed, Call.text,
        Argument.text, Operand.text, Site.unpacker, <- String.toList_inj]

end

section

variable {coding : Coding} (areNames : forall text, text ∈ mentioned coding -> IsName text)
  (notAlias : coding.isAlias = false)

include areNames notAlias

/-- The statement of an encoding routine mentions the length. -/
theorem mentions_packing :
    mentions (symbols ((encodeStatement? .routines .data coding).getD "pass")) =
      readLength (coding.length?.map literal) := by
  have passes := length?_packing notAlias
  by_cases isRecord : ∃ name, coding = .record name
  · obtain ⟨name, rfl⟩ := isRecord
    show mentions (symbols ("data" ++ ".pack()")) = []
    decide
  · rw [encodeStatement?_routines fun name same => isRecord ⟨name, same⟩, <- passes]
    cases packs : (way? coding).bind Way.packing with
    | none => decide
    | some call =>
        obtain ⟨way, prescribed, isCall⟩ := Option.bind_eq_some_iff.mp packs
        have inWay := (List.forall_mem_append.mp (isName_way? areNames prescribed)).2
        have sound : (Statement.perform call).Sound := by
          cases way with
          | routine => cases isCall; trivial
          | record => cases isCall
          | records length =>
              cases isCall
              cases length <;> simp +decide [Statement.Sound]
        have areCallNames : forall text, text ∈ (Statement.perform call).names -> IsName text :=
          Way.isName_packing inWay isCall
        show mentions (symbols (Statement.perform call).text) = _
        rw [mentions_text areCallNames sound]
        rfl

/-- The statements of a decoding routine mention the length. -/
theorem mentions_unpacking :
    (Routine.returnStatements coding).flatMap (fun text => mentions (symbols text)) =
      readLength (coding.length?.map literal) := by
  have passes := length?_unpacking notAlias
  rw [Routine.returnStatements, decodeExpression?_routines]
  cases unpacks : (way? coding).bind (Way.unpacking (class? coding)) with
  | some call =>
      obtain ⟨way, prescribed, isCall⟩ := Option.bind_eq_some_iff.mp unpacks
      have inWay := isName_way? areNames prescribed
      rw [unpacks, Option.bind_some] at passes
      show mentions (symbols ("return " ++ call.text)) ++ [] = _
      rw [List.append_nil, mentions_return (Way.isName_unpacking inWay isCall), passes]
  | none =>
      rw [unpacks, Option.bind_none] at passes
      rw [<- passes]
      cases coding with
      | void => decide
      | record name =>
          have created : mentions (symbols ("data" ++ " = " ++ name ++ "(self.ncl)")) = [] := by
            rw [String.append_assoc, String.append_assoc]
            exact mentions_assignment (by decide) ⟨_, by rw [String.toList_append]; rfl⟩
          have others : mentions (symbols ("data" ++ ".unpack()")) = [] ∧
              mentions (symbols "return data") = [] := by
            decide
          show mentions (symbols ("data" ++ " = " ++ name ++ "(self.ncl)"))
            ++ (mentions (symbols ("data" ++ ".unpack()"))
              ++ (mentions (symbols "return data") ++ [])) = []
          rw [created, others.1, others.2]
          rfl
      | array element fixed | recordArray element fixed => cases fixed <;> cases unpacks
      | _ => cases unpacks

end

/-- A pair of routines that mentions names and is not spelled out for what is an alias. -/
structure Routine.Mentioning (routine : Routine) : Prop extends routine.Named where
  notAlias : forall coding, routine.body = .coding coding -> coding.isAlias = false

namespace Routine

variable {routine : Routine} (mentioning : routine.Mentioning)

include mentioning

/-- The encoding routine mentions the length that the pair passes on. -/
theorem readLines_packCode :
    readLines mentions routine.packCode = routine.references.map written := by
  obtain ⟨name, body⟩ := routine
  have isStem : IsName "pack_" := by decide
  have isName : IsName ("pack_" ++ name) := isStem.append mentioning.name
  cases body with
  | runtime target | forward target =>
      rw [packCode, readLines_line, readLines_done, List.append_nil,
        String.append_assoc, mentions_assignment isName]
      · rfl
      · exact ⟨_, by rw [String.toList_append]; rfl⟩
  | coding coding =>
      have header : mentions (symbols ("def pack_" ++ name ++ "(self, data):")) = [] := by
        rw [show "def pack_" = "def " ++ "pack_" from rfl, String.append_assoc,
          String.append_assoc]
        exact mentions_header (by decide) _
      rw [packCode, readLines_block, header, readLines_line,
        mentions_packing mentioning.body (mentioning.notAlias coding rfl)]
      cases passed : coding.length? <;> simp [references, passed, readLength, written]

/-- The decoding routine mentions the length that the pair passes on. -/
theorem readLines_unpackCode :
    readLines mentions routine.unpackCode = routine.references.map written := by
  obtain ⟨name, body⟩ := routine
  have isStem : IsName "unpack_" := by decide
  have isName : IsName ("unpack_" ++ name) := isStem.append mentioning.name
  cases body with
  | runtime target | forward target =>
      rw [unpackCode, readLines_line, readLines_done, List.append_nil, String.append_assoc,
        mentions_assignment isName]
      · rfl
      · exact ⟨_, by rw [String.toList_append]; rfl⟩
  | coding coding =>
      have header : mentions (symbols ("def unpack_" ++ name ++ "(self):")) = [] := by
        rw [show "def unpack_" = "def " ++ "unpack_" from rfl, String.append_assoc,
          String.append_assoc]
        exact mentions_header (by decide) _
      rw [unpackCode, readLines_block, header, readLines_lines,
        mentions_unpacking mentioning.body (mentioning.notAlias coding rfl)]
      cases passed : coding.length? <;> simp [references, passed, readLength, written]

end Routine

end Python

end XdrPack
