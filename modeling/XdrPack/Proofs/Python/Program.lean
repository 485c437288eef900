import XdrPack.Proofs.Python.Statements
import XdrPack.Python.Module

/-!
# Statements of generated methods as a program

The statements in the methods of record classes are calls, assignments to attributes and
exceptions. They are read off their lines in two steps, symbols first, without regard to
what they were generated from. A statement that is written out is read back.
-/

namespace XdrPack.Python

/-! ## Symbols -/

/-- A symbol of a line. -/
inductive Symbol where
  /-- A name or a number. -/
  | name (text : String)
  | sign (c : Char)
  deriving DecidableEq, Repr

/-- Whether a character belongs to a name or a number. -/
def isNameChar (c : Char) : Bool := Segment.isWordChar c || c == '-'

/-- The symbol that ends where no more of its characters follow, if there is one. -/
def Symbol.ended (name : List Char) : List Symbol :=
  if name.isEmpty then [] else [.name (String.ofList name)]

/-- The symbols of a text, if the given characters of a name stand in front of it. Blanks
only separate symbols. -/
def Symbol.read (name : List Char) : List Char -> List Symbol
  | [] => ended name
  | c :: rest =>
      if isNameChar c then read (name ++ [c]) rest
      else if c = ' ' then ended name ++ read [] rest
      else ended name ++ .sign c :: read [] rest

/-- The symbols of a line. -/
def symbols (line : String) : List Symbol := Symbol.read [] line.toList

/-! ## Statements -/

/-- What a statement works on. -/
inductive Operand where
  /-- A plain name or number. -/
  | plain (text : String)
  /-- An attribute of the record. -/
  | member (name : String)
  /-- A method of an attribute of the record. -/
  | method (owner name : String)
  deriving DecidableEq, Repr

/-- The names that are joined by dots at the start, and what is behind them. -/
def dotted : List Symbol -> List String × List Symbol
  | .name text :: .sign '.' :: rest => (text :: (dotted rest).1, (dotted rest).2)
  | .name text :: rest => ([text], rest)
  | rest => ([], rest)

/-- What names that are joined by dots stand for. -/
def Operand.ofNames? : List String -> Option Operand
  | [text] => some (.plain text)
  | [object, name] => if object = "self" then some (.member name) else none
  | [object, owner, name] => if object = "self" then some (.method owner name) else none
  | _ => none

/-- An argument of a call, which may be passed under a name. -/
structure Argument where
  key : Option String
  value : Operand
  deriving DecidableEq, Repr

/-- Reads an argument. -/
def Argument.read? (symbols : List Symbol) : Option Argument :=
  match dotted symbols with
  | (names, []) => (Operand.ofNames? names).map (⟨none, ·⟩)
  | ([key], .sign '=' :: value) =>
      match dotted value with
      | (names, []) => (Operand.ofNames? names).map (⟨some key, ·⟩)
      | _ => none
  | _ => none

/-- Splits arguments at their commas, up to the closing bracket at the end. -/
def arguments? (current : List Symbol) : List Symbol -> Option (List (List Symbol))
  | [] => none
  | [.sign ')'] => some [current]
  | .sign ',' :: rest => (arguments? [] rest).map (current :: ·)
  | symbol :: rest => arguments? (current ++ [symbol]) rest

/-- A call. -/
structure Call where
  callee : Operand
  arguments : List Argument
  deriving DecidableEq, Repr

/-- Reads a call. -/
def Call.read? (symbols : List Symbol) : Option Call :=
  match dotted symbols with
  | (names, [.sign '(', .sign ')']) => (Operand.ofNames? names).map (⟨·, []⟩)
  | (names, .sign '(' :: inside) => do
      let callee <- Operand.ofNames? names
      let arguments <- arguments? [] inside
      some ⟨callee, <- arguments.mapM Argument.read?⟩
  | _ => none

/-- A statement of a method. -/
inductive Statement where
  | pass
  | perform (call : Call)
  | raise (call : Call)
  /-- Keeps the result of a call in an attribute. -/
  | keep (name : String) (call : Call)
  /-- Lets an attribute be the same as something else. -/
  | point (name : String) (source : Operand)
  deriving DecidableEq, Repr

/-- Reads what is assigned to an attribute. -/
def Statement.assigned? (name : String) (value : List Symbol) : Option Statement :=
  match dotted value with
  | (names, []) => (Operand.ofNames? names).map (.point name)
  | _ => (Call.read? value).map (.keep name)

/-- Reads a statement. -/
def Statement.read? (symbols : List Symbol) : Option Statement :=
  match symbols with
  | [.name "pass"] => some .pass
  | .name "raise" :: exception => (Call.read? exception).map .raise
  | .name "self" :: .sign '.' :: .name name :: .sign '=' :: value => assigned? name value
  | _ => (Call.read? symbols).map .perform

/-! ## Writing statements -/

namespace Operand

/-- The names that an operand mentions. -/
def names : Operand -> List String
  | plain text => [text]
  | member name => [name]
  | method owner name => [owner, name]

def text : Operand -> String
  | plain text => text
  | member name => "self." ++ name
  | method owner name => "self." ++ owner ++ "." ++ name

def symbols : Operand -> List Symbol
  | plain text => [.name text]
  | member name => [.name "self", .sign '.', .name name]
  | method owner name => [.name "self", .sign '.', .name owner, .sign '.', .name name]

end Operand

namespace Argument

def names (argument : Argument) : List String := argument.key.toList ++ argument.value.names

def text : Argument -> String
  | ⟨none, value⟩ => value.text
  | ⟨some key, value⟩ => key ++ "=" ++ value.text

def symbols : Argument -> List Symbol
  | ⟨none, value⟩ => value.symbols
  | ⟨some key, value⟩ => .name key :: .sign '=' :: value.symbols

/-- The symbols of arguments and of the closing bracket. -/
def inside : List Argument -> List Symbol
  | [] => [.sign ')']
  | [last] => last.symbols ++ [.sign ')']
  | first :: second :: more => first.symbols ++ .sign ',' :: inside (second :: more)

end Argument

namespace Call

def names (call : Call) : List String := call.callee.names ++ call.arguments.flatMap (·.names)

def text (call : Call) : String :=
  call.callee.text ++ "(" ++ ", ".intercalate (call.arguments.map (·.text)) ++ ")"

def symbols (call : Call) : List Symbol :=
  call.callee.symbols ++ .sign '(' :: Argument.inside call.arguments

end Call

namespace Statement

def names : Statement -> List String
  | pass => []
  | perform call | raise call => call.names
  | keep name call => name :: call.names
  | point name source => name :: source.names

def text : Statement -> String
  | pass => "pass"
  | perform call => call.text
  | raise call => "raise " ++ call.text
  | keep name call => "self." ++ name ++ " = " ++ call.text
  | point name source => "self." ++ name ++ " = " ++ source.text

def symbols : Statement -> List Symbol
  | pass => [.name "pass"]
  | perform call => call.symbols
  | raise call => .name "raise" :: call.symbols
  | keep name call => .name "self" :: .sign '.' :: .name name :: .sign '=' :: call.symbols
  | point name source => .name "self" :: .sign '.' :: .name name :: .sign '=' :: source.symbols

end Statement

/-! ## Symbols of written statements -/

/-- The first of several joined texts. -/
theorem intercalate_map_cons {α : Type} (separator : String) (text : α -> String)
    (first second : α) (more : List α) :
    separator.intercalate ((first :: second :: more).map text) =
      text first ++ separator ++ separator.intercalate ((second :: more).map text) :=
  String.intercalate_cons_cons

/-- A name or a number. -/
structure IsName (text : String) : Prop where
  notEmpty : text ≠ ""
  all : forall c, c ∈ text.toList -> isNameChar c = true

instance (text : String) : Decidable (IsName text) :=
  decidable_of_iff (text ≠ "" ∧ text.toList.all isNameChar)
    ⟨fun ⟨notEmpty, all⟩ => ⟨notEmpty, List.all_eq_true.mp all⟩,
      fun isName => ⟨isName.notEmpty, List.all_eq_true.mpr isName.all⟩⟩

/-- A text that does not go on with a name. -/
def Apart (rest : List Char) : Prop := forall c, rest.head? = some c -> isNameChar c = false

@[simp]
theorem apart_nil : Apart [] := by simp [Apart]

@[simp]
theorem apart_cons {c : Char} {rest : List Char} : Apart (c :: rest) ↔ isNameChar c = false := by
  simp [Apart]

/-- A name ends where no more of its characters follow. -/
theorem Symbol.read_apart (name : List Char) {rest : List Char} (apart : Apart rest) :
    Symbol.read name rest = Symbol.ended name ++ Symbol.read [] rest := by
  cases rest with
  | nil => simp [Symbol.read, Symbol.ended]
  | cons c others =>
      have ends := apart c rfl
      simp only [Symbol.read, ends, Bool.false_eq_true, if_false, Symbol.ended, List.isEmpty_nil,
        if_true, List.nil_append]
      split <;> rfl

/-- A name is read as one symbol. -/
theorem IsName.read {text : String} (isName : IsName text) {rest : List Char}
    (apart : Apart rest) :
    Symbol.read [] (text.toList ++ rest) = .name text :: Symbol.read [] rest := by
  have collected : forall before, Symbol.read before (text.toList ++ rest) =
      Symbol.read (before ++ text.toList) rest := by
    have all := isName.all
    generalize text.toList = chars at all
    induction chars with
    | nil => simp
    | cons c others inductionHypothesis =>
        intro before
        obtain ⟨isChar, othersAre⟩ := List.forall_mem_cons.mp all
        rw [List.cons_append, Symbol.read, if_pos isChar, inductionHypothesis othersAre,
          List.append_assoc]
        rfl
  have notEmpty : text.toList.isEmpty = false := by simp [isName.notEmpty]
  rw [collected, Symbol.read_apart _ apart, List.nil_append, Symbol.ended, notEmpty]
  simp

/-- An operand is read as its symbols. -/
theorem Operand.read_text {operand : Operand}
    (areNames : forall text, text ∈ operand.names -> IsName text) {rest : List Char}
    (apart : Apart rest) :
    Symbol.read [] (operand.text.toList ++ rest) = operand.symbols ++ Symbol.read [] rest := by
  cases operand with
  | plain text => exact (areNames text (by simp [names])).read apart
  | member name =>
      have isName := areNames name (by simp [names])
      simp +decide [text, symbols, Symbol.read, Symbol.ended, isName.read, apart]
  | method owner name =>
      have isOwner := areNames owner (by simp [names])
      have isName := areNames name (by simp [names])
      simp +decide [text, symbols, Symbol.read, Symbol.ended, isOwner.read, isName.read, apart]

/-- An argument is read as its symbols. -/
theorem Argument.read_text {argument : Argument}
    (areNames : forall text, text ∈ argument.names -> IsName text) {rest : List Char}
    (apart : Apart rest) :
    Symbol.read [] (argument.text.toList ++ rest) = argument.symbols ++ Symbol.read [] rest := by
  obtain ⟨key, value⟩ := argument
  have inValue : forall text, text ∈ value.names -> IsName text :=
    fun text listed => areNames text (by simp [names, listed])
  cases key with
  | none => exact Operand.read_text inValue apart
  | some key =>
      have isKey := areNames key (by simp [names])
      simp +decide [text, symbols, Symbol.read, Symbol.ended, isKey.read,
        Operand.read_text inValue apart]

/-- The symbols of arguments and of the bracket that closes them. -/
theorem Argument.read_inside {arguments : List Argument}
    (areNames : forall text, text ∈ arguments.flatMap (·.names) -> IsName text) :
    Symbol.read [] ((", ".intercalate (arguments.map (·.text))).toList ++ [')']) =
      inside arguments := by
  induction arguments with
  | nil => rfl
  | cons first others inductionHypothesis =>
      simp only [List.flatMap_cons, List.forall_mem_append] at areNames
      obtain ⟨firstNames, otherNames⟩ := areNames
      cases others with
      | nil =>
          have closes : Apart [')'] := by simp +decide
          exact read_text firstNames closes
      | cons second more =>
          have later := inductionHypothesis otherNames
          rw [intercalate_map_cons]
          generalize ", ".intercalate ((second :: more).map _) = rest at later ⊢
          simp +decide [read_text firstNames, Symbol.read, Symbol.ended, inside, later]

/-- A call is read as its symbols. -/
theorem Call.read_text {call : Call} (areNames : forall text, text ∈ call.names -> IsName text) :
    Symbol.read [] call.text.toList = call.symbols := by
  obtain ⟨callee, arguments⟩ := call
  simp only [names, List.forall_mem_append] at areNames
  have inside := Argument.read_inside areNames.2
  generalize shown : ", ".intercalate (arguments.map (·.text)) = rest at inside
  simp +decide [text, symbols, shown, Operand.read_text areNames.1, Symbol.read, Symbol.ended,
    inside]

/-- The symbols of a written statement. -/
theorem Statement.symbols_text {statement : Statement}
    (areNames : forall text, text ∈ statement.names -> IsName text) :
    Python.symbols statement.text = statement.symbols := by
  cases statement with
  | pass => decide
  | perform call => exact Call.read_text areNames
  | raise call =>
      simp +decide [Python.symbols, text, symbols, Symbol.read, Symbol.ended,
        Call.read_text areNames]
  | keep name call =>
      obtain ⟨isName, inCall⟩ := List.forall_mem_cons.mp areNames
      simp +decide [Python.symbols, text, symbols, Symbol.read, Symbol.ended, isName.read,
        Call.read_text inCall]
  | point name source =>
      obtain ⟨isName, inSource⟩ := List.forall_mem_cons.mp areNames
      have read := Operand.read_text inSource apart_nil
      simp only [List.append_nil] at read
      simp +decide [Python.symbols, text, symbols, Symbol.read, Symbol.ended, isName.read, read]

/-! ## Reading written statements -/

namespace Argument

/-- An argument is read back from its symbols. -/
theorem read?_symbols (argument : Argument) : read? argument.symbols = some argument := by
  obtain ⟨key, value⟩ := argument
  cases key <;> cases value <;> rfl

/-- The symbols of an argument are kept together. -/
theorem arguments?_symbols (argument : Argument) (current rest : List Symbol) :
    arguments? current (argument.symbols ++ rest) =
      arguments? (current ++ argument.symbols) rest := by
  obtain ⟨key, value⟩ := argument
  cases key <;> cases value <;> simp [symbols, Operand.symbols, arguments?]

/-- Arguments start with a name. -/
theorem inside_cons (first : Argument) (more : List Argument) :
    ∃ text rest, inside (first :: more) = .name text :: rest := by
  obtain ⟨key, value⟩ := first
  cases more <;> cases key <;> cases value <;> exact ⟨_, _, rfl⟩

/-- Arguments are split at their commas. -/
theorem arguments?_inside {arguments : List Argument} (notEmpty : arguments ≠ []) :
    arguments? [] (inside arguments) = some (arguments.map symbols) := by
  induction arguments with
  | nil => exact absurd rfl notEmpty
  | cons first others inductionHypothesis =>
      cases others with
      | nil => simp [inside, arguments?_symbols, arguments?]
      | cons second more =>
          simp [inside, arguments?_symbols, arguments?, inductionHypothesis]

end Argument

/-- The callee of a call is found in front of its bracket. -/
theorem Call.dotted_symbols (call : Call) :
    ∃ names, dotted call.symbols = (names, .sign '(' :: Argument.inside call.arguments) ∧
      Operand.ofNames? names = some call.callee := by
  obtain ⟨callee, arguments⟩ := call
  cases callee <;> exact ⟨_, rfl, rfl⟩

/-- A call is read back from its symbols. -/
theorem Call.read?_symbols (call : Call) : read? call.symbols = some call := by
  obtain ⟨names, split, isCallee⟩ := call.dotted_symbols
  obtain ⟨callee, arguments⟩ := call
  rw [read?, split]
  cases arguments with
  | nil => simp [Argument.inside, isCallee]
  | cons first more =>
      obtain ⟨text, rest, starts⟩ := Argument.inside_cons first more
      have read := Argument.arguments?_inside (List.cons_ne_nil first more)
      rw [starts] at read ⊢
      simp only [isCallee, read, mapM_of_inverse Argument.read?_symbols, Option.bind_eq_bind,
        Option.bind_some]

/-- A statement that does not call a function by a keyword. -/
def Statement.Sound : Statement -> Prop
  | perform ⟨.plain function, _⟩ => function ∉ keywords
  | _ => True

/-- A statement is read back from its symbols. -/
theorem Statement.read?_symbols {statement : Statement} (sound : statement.Sound) :
    read? statement.symbols = some statement := by
  cases statement with
  | pass => rfl
  | raise call =>
      show (Call.read? call.symbols).map Statement.raise = _
      rw [Call.read?_symbols]
      rfl
  | keep name call =>
      show assigned? name call.symbols = _
      obtain ⟨names, split, -⟩ := call.dotted_symbols
      simp only [assigned?, split, Call.read?_symbols, Option.map_some]
  | point name source => cases source <;> rfl
  | perform call =>
      have read : (Call.read? call.symbols).map Statement.perform = some (.perform call) := by
        rw [Call.read?_symbols]
        rfl
      obtain ⟨callee, arguments⟩ := call
      cases callee with
      | plain function =>
          have notRaise : function ≠ "raise" := by
            rintro rfl
            exact sound (by decide)
          rw [<- read]
          show read? (.name function :: .sign '(' :: Argument.inside arguments) = _
          simp [read?, notRaise, Call.symbols, Operand.symbols]
      | member name => exact read
      | method owner name => exact read

end XdrPack.Python
