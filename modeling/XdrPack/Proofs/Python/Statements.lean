import XdrPack.Proofs.Words
import XdrPack.Python.Module

/-!
# Reading generated statements

The names that generated code binds are read off its statements, without regard
to what they were generated from. What a statement of a class of routines binds
is a name behind the stem of the class, and what a statement of the module of
record classes binds is the name of a class. Both end where the word ends.
-/

namespace XdrPack

/-! ## Statements -/

namespace Code

/-- The statements of code at its outermost level. A block shows its header. -/
def statements : Code -> List String
  | done => []
  | line text rest => text :: rest.statements
  | blank rest => rest.statements
  | raw _ rest => rest.statements
  | block header _ rest => header :: rest.statements
  | inset body rest => body.statements ++ rest.statements

/-- The body of the first block with the given header. -/
def body? (header : String) : Code -> Option Code
  | done => none
  | line _ rest => rest.body? header
  | blank rest => rest.body? header
  | raw _ rest => rest.body? header
  | block other body rest => if other = header then some body else rest.body? header
  | inset _ rest => rest.body? header

@[simp]
theorem statements_append (first second : Code) :
    (first ++ second).statements = first.statements ++ second.statements := by
  show (first.append second).statements = _
  induction first with
  | done => rfl
  | line text rest inductionHypothesis => simp [append, statements, inductionHypothesis]
  | blank rest inductionHypothesis => simp [append, statements, inductionHypothesis]
  | raw text rest inductionHypothesis => simp [append, statements, inductionHypothesis]
  | block header body rest _ inductionHypothesis => simp [append, statements, inductionHypothesis]
  | inset body rest _ inductionHypothesis => simp [append, statements, inductionHypothesis]

@[simp]
theorem statements_concat (pieces : List Code) :
    (concat pieces).statements = pieces.flatMap statements := by
  induction pieces with
  | nil => rfl
  | cons first rest inductionHypothesis =>
      show (first ++ concat rest).statements = _
      simp [inductionHypothesis]

@[simp]
theorem statements_lines (texts : List String) : (lines texts).statements = texts := by
  induction texts with
  | nil => rfl
  | cons first rest inductionHypothesis =>
      show first :: (lines rest).statements = _
      rw [inductionHypothesis]

@[simp]
theorem body?_append (header : String) (first second : Code) :
    (first ++ second).body? header = (first.body? header).or (second.body? header) := by
  show (first.append second).body? header = _
  induction first with
  | done => rfl
  | line text rest inductionHypothesis => exact inductionHypothesis
  | blank rest inductionHypothesis => exact inductionHypothesis
  | raw text rest inductionHypothesis => exact inductionHypothesis
  | block other body rest _ inductionHypothesis =>
      simp only [append, body?]
      split
      · rfl
      · exact inductionHypothesis
  | inset body rest _ inductionHypothesis => exact inductionHypothesis

@[simp]
theorem body?_lines (header : String) (texts : List String) :
    (lines texts).body? header = none := by
  induction texts with
  | nil => rfl
  | cons first rest inductionHypothesis => exact inductionHypothesis

end Code

/-! ## Words -/

/-- What is left of a text behind a given start. -/
def textAfter? (start text : List Char) : Option (List Char) :=
  if start.isPrefixOf text then some (text.drop start.length) else none

@[simp]
theorem textAfter?_append (start rest : List Char) :
    textAfter? start (start ++ rest) = some rest := by
  simp [textAfter?]

/-- A start that both texts share does not matter. -/
theorem textAfter?_append_append (shared start text : List Char) :
    textAfter? (shared ++ start) (shared ++ text) = textAfter? start text := by
  induction shared with
  | nil => rfl
  | cons c rest inductionHypothesis => simp [textAfter?]

/-- What is written item by item is read back if every item is. -/
theorem mapM_of_inverse {α β : Type} {write : α -> β} {read : β -> Option α}
    (inverse : forall item, read (write item) = some item) (items : List α) :
    (items.map write).mapM read = some items := by
  induction items with
  | nil => rfl
  | cons first rest inductionHypothesis =>
      rw [List.map_cons, List.mapM_cons, inverse, inductionHypothesis]
      rfl

/-- The word at the start of a text. -/
def leadingWord (text : List Char) : String := String.ofList (text.takeWhile Segment.isWordChar)

/-- The leading word is the word that a text starts with. -/
theorem IsWord.leadingWord {name : String} (isWord : IsWord name) {rest : List Char}
    (ends : forall c, rest.head? = some c -> Segment.isWordChar c = false) :
    leadingWord (name.toList ++ rest) = name := by
  rw [XdrPack.leadingWord, isWord.takeWhile ends, String.ofList_toList]

namespace Python

/-! ## Classes of routines -/

/-- A name that is bound in a class of routines and, for an alias, the routine of
the same class that it stands for. -/
structure BoundRoutine where
  name : String
  target : Option String
  deriving DecidableEq, Repr

/-- Reads what a statement binds in the class whose routines have the given stem:
either by a definition or by an assignment. -/
def BoundRoutine.read? (stem statement : String) : Option BoundRoutine :=
  let text := (textAfter? "def ".toList statement.toList).getD statement.toList
  (textAfter? stem.toList text).map fun named =>
    { name := leadingWord named
      target := (textAfter? (" = " ++ stem).toList (named.dropWhile Segment.isWordChar)).map
        leadingWord }

section

variable {stem name : String} (isWord : IsWord name)

include isWord

/-- What an assignment binds. -/
theorem read?_assignment
    (notMethod : forall rest, textAfter? "def ".toList (stem.toList ++ rest) = none)
    (source : String) :
    BoundRoutine.read? stem (stem ++ name ++ " = " ++ source) =
      some ⟨name, (textAfter? stem.toList source.toList).map leadingWord⟩ := by
  have ends : forall c, (" = ".toList ++ source.toList).head? = some c ->
      Segment.isWordChar c = false := by
    rintro c ⟨⟩
    decide
  have text : (stem ++ name ++ " = " ++ source).toList
      = stem.toList ++ (name.toList ++ (" = ".toList ++ source.toList)) := by
    simp only [String.toList_append, List.append_assoc]
  simp only [BoundRoutine.read?, text, notMethod, Option.getD_none, textAfter?_append,
    Option.map_some, isWord.leadingWord ends, isWord.dropWhile ends, String.toList_append,
    textAfter?_append_append]

/-- What the definition of a method binds. -/
theorem read?_method (parameters : String) :
    BoundRoutine.read? stem ("def " ++ stem ++ name ++ "(" ++ parameters) = some ⟨name, none⟩ := by
  have ends : forall c, ("(".toList ++ parameters.toList).head? = some c ->
      Segment.isWordChar c = false := by
    rintro c ⟨⟩
    decide
  have text : ("def " ++ stem ++ name ++ "(" ++ parameters).toList
      = "def ".toList ++ (stem.toList ++ (name.toList ++ ("(".toList ++ parameters.toList))) := by
    simp only [String.toList_append, List.append_assoc]
  have noAlias : textAfter? (" = " ++ stem).toList ("(".toList ++ parameters.toList) = none := by
    rw [String.toList_append]
    rfl
  simp only [BoundRoutine.read?, text, Option.getD_some, textAfter?_append, Option.map_some,
    isWord.leadingWord ends, isWord.dropWhile ends, noAlias, Option.map_none]

end

namespace Routine

/-- What a pair of routines binds in either class. -/
def bound (routine : Routine) : BoundRoutine :=
  { name := routine.name
    target :=
      match routine.body with
      | .forward target => some target
      | _ => none }

/-- The one statement of a routine in the class with the given stem, where
`runtime` reaches the routines of the runtime. -/
def statement (stem runtime parameters : String) (routine : Routine) : String :=
  match routine.body with
  | .runtime source => stem ++ routine.name ++ " = " ++ (runtime ++ source)
  | .forward target => stem ++ routine.name ++ " = " ++ (stem ++ target)
  | .coding _ => "def " ++ stem ++ routine.name ++ "(" ++ parameters

/-- An encoding routine is one statement of its class. -/
theorem statements_packCode (routine : Routine) :
    routine.packCode.statements =
      [routine.statement "pack_" "rpc.Packer.pack_" "self, data):"] := by
  obtain ⟨name, body⟩ := routine
  cases body <;> simp [packCode, Code.statements, statement, <- String.toList_inj]

/-- A decoding routine is one statement of its class. -/
theorem statements_unpackCode (routine : Routine) :
    routine.unpackCode.statements =
      [routine.statement "unpack_" "rpc.Unpacker.unpack_" "self):"] := by
  obtain ⟨name, body⟩ := routine
  cases body <;> simp [unpackCode, Code.statements, statement, <- String.toList_inj]

/-- The statement of a routine binds its name, and is an alias if the routine
forwards to another one. -/
theorem read?_statement {stem runtime : String} (parameters : String) {routine : Routine}
    (notMethod : forall rest, textAfter? "def ".toList (stem.toList ++ rest) = none)
    (notAlias : forall rest, textAfter? stem.toList (runtime.toList ++ rest) = none)
    (isWord : IsWord routine.name)
    (targetIsWord : forall target, routine.bound.target = some target -> IsWord target) :
    BoundRoutine.read? stem (routine.statement stem runtime parameters) = some routine.bound := by
  obtain ⟨name, body⟩ := routine
  cases body with
  | runtime source =>
      simp only [statement, bound, read?_assignment isWord notMethod, String.toList_append,
        notAlias, Option.map_none]
  | forward target =>
      have ends : forall c, ([] : List Char).head? = some c -> Segment.isWordChar c = false := by
        simp
      have isTarget := (targetIsWord target rfl).leadingWord ends
      rw [List.append_nil] at isTarget
      simp only [statement, bound, read?_assignment isWord notMethod, String.toList_append,
        textAfter?_append, Option.map_some, isTarget]
  | coding coding => simp only [statement, bound, read?_method isWord]

end Routine

/-! ## Record classes -/

/-- Reads the name that a statement of the module of record classes binds: either
by an assignment or by a class. -/
def boundClass? (statement : String) : Option String :=
  match textAfter? " = ".toList (statement.toList.dropWhile Segment.isWordChar) with
  | some _ => some (leadingWord statement.toList)
  | none => (textAfter? "class ".toList statement.toList).map leadingWord

/-- The name that is bound for a record class. -/
def ClassBinding.name : ClassBinding -> String
  | struct name _ => name
  | union name _ => name
  | same name _ => name

/-- An assignment binds the name on its left. -/
theorem boundClass?_assignment {name : String} (isWord : IsWord name) (target : String) :
    boundClass? (name ++ " = " ++ target) = some name := by
  have ends : forall c, (" = ".toList ++ target.toList).head? = some c ->
      Segment.isWordChar c = false := by
    rintro c ⟨⟩
    decide
  have text : (name ++ " = " ++ target).toList
      = name.toList ++ (" = ".toList ++ target.toList) := by
    simp only [String.toList_append, List.append_assoc]
  simp only [boundClass?, text, isWord.dropWhile ends, textAfter?_append, isWord.leadingWord ends]

/-- A class binds its name. -/
theorem boundClass?_class {name : String} (isWord : IsWord name) :
    boundClass? ("class " ++ name ++ ":") = some name := by
  have ends : forall c, ":".toList.head? = some c -> Segment.isWordChar c = false := by
    rintro c ⟨⟩
    decide
  have text : ("class " ++ name ++ ":").toList
      = "class ".toList ++ (name.toList ++ ":".toList) := by
    simp only [String.toList_append, List.append_assoc]
  have keyword : IsWord "class" := by decide
  have keywordEnds : forall c, (' ' :: (name.toList ++ ":".toList)).head? = some c ->
      Segment.isWordChar c = false := by
    rintro c ⟨⟩
    decide
  have noAssignment : textAfter? " = ".toList
      (("class ".toList ++ (name.toList ++ ":".toList)).dropWhile Segment.isWordChar) = none := by
    rw [show "class ".toList ++ (name.toList ++ ":".toList)
        = "class".toList ++ ' ' :: (name.toList ++ ":".toList) from rfl,
      keyword.dropWhile keywordEnds]
    cases chars : name.toList with
    | nil => rfl
    | cons c rest =>
        have differs : '=' ≠ c := by
          rintro rfl
          exact absurd (isWord '=' (by simp [chars])) (by decide)
        simp [textAfter?, differs]
  simp only [boundClass?, text, noAssignment, textAfter?_append, Option.map_some,
    isWord.leadingWord ends]

/-- The code of a class binds its name. -/
theorem boundClass?_code {binding : ClassBinding} (isWord : IsWord binding.name) :
    binding.code.statements.filterMap boundClass? = [binding.name] := by
  cases binding with
  | struct name fields => exact List.filterMap_cons_some (boundClass?_class isWord)
  | union name layout => exact List.filterMap_cons_some (boundClass?_class isWord)
  | same name target => exact List.filterMap_cons_some (boundClass?_assignment isWord target)

end Python

end XdrPack
