import XdrPack.Proofs.Indentation
import XdrPack.Proofs.Python.Agreement

/-!
# Indentation of the generated modules

Every statement that is generated starts at the margin of its block, only the headers of
blocks end in a colon, and no block is empty: what may have nothing to do is written as a
statement that does nothing. So the modules of record classes and of routines are well
indented, whatever they are generated for.
-/

namespace XdrPack

open Grammar

namespace Python

/-! ## Statements -/

/-- A name starts a statement. -/
theorem IsName.startsStatement {name : String} (isName : IsName name) :
    startsStatement name = true := by
  obtain ⟨notEmpty, all⟩ := isName
  unfold XdrPack.startsStatement
  cases chars : name.toList with
  | nil => exact absurd (String.toList_eq_nil_iff.mp chars) notEmpty
  | cons c rest =>
      have nameChar := all c (by simp [chars])
      have notSpace : c ≠ ' ' := by
        rintro rfl
        cases nameChar
      have notSign : c ≠ '#' := by
        rintro rfl
        cases nameChar
      simp [notSpace, notSign]

/-- A name opens no block. -/
theorem IsName.closed {name : String} (isName : IsName name) : opensBlock name = false := by
  refine opensBlock_of_not_mem fun listed => ?_
  cases isName.all ':' listed

/-- An expression is assigned by a plain statement. -/
theorem plain_assignment {target expression : String} (starts : startsStatement target = true)
    (closed : opensBlock expression = false) : IsPlain (target ++ " = " ++ expression) := by
  constructor
  · simp [starts]
  · simp +decide [closed]

/-- What is coded starts a statement. -/
theorem startsStatement_place (place : Place) : startsStatement place.text = true := by
  cases place with
  | member name => simp +decide [Place.text]
  | data => decide

/-- What encodes a value is a plain statement. -/
theorem plain_encodeStatement? {site : Site} {place : Place} {coding : Coding}
    {statement : String} (written : encodeStatement? site place coding = some statement) :
    IsPlain statement := by
  have packer : startsStatement site.packer = true := by cases site <;> decide
  have starts := startsStatement_place place
  cases coding with
  | void => cases written
  | array element fixed | recordArray element fixed =>
      cases fixed <;> cases written <;> constructor <;> simp +decide [packer]
  | _ =>
      cases written
      constructor <;> simp +decide [packer, starts]

/-- An expression that decodes opens no block. -/
theorem closed_decodeExpression? {site : Site} {coding : Coding} {expression : String}
    (written : decodeExpression? site coding = some expression) :
    opensBlock expression = false := by
  cases coding with
  | void | record => cases written
  | array element fixed | recordArray element fixed =>
      cases fixed <;> cases written <;> simp +decide
  | _ =>
      cases written
      simp +decide

/-- What decodes a value is made of plain statements. -/
theorem plain_decodeStatements (site : Site) (place : Place) (coding : Coding) :
    forall statement, statement ∈ decodeStatements site place coding -> IsPlain statement := by
  have starts := startsStatement_place place
  have assigned : forall statement, statement ∈ (decodeExpression? site coding).toList.map
      (fun expression => place.text ++ " = " ++ expression) -> IsPlain statement := by
    refine List.forall_mem_map.mpr fun expression written => ?_
    exact plain_assignment starts (closed_decodeExpression? (Option.mem_toList.mp written))
  cases coding with
  | record name =>
      refine List.forall_mem_cons.mpr ⟨?_, List.forall_mem_singleton.mpr ?_⟩ <;>
        constructor <;> simp +decide [starts]
  | _ => exact assigned

/-- The statements of an action are plain. -/
theorem Action.plain_statements {action : Action}
    (named : forall text, text ∈ action.mentioned -> IsName text) :
    forall statement, statement ∈ action.statements -> IsPlain statement := by
  cases action with
  | assertSet names =>
      cases names with
      | nil => exact List.forall_mem_singleton.mpr ⟨by decide, by decide⟩
      | cons first rest => exact List.forall_mem_singleton.mpr ⟨by simp +decide, by simp +decide⟩
  | encode name coding =>
      exact fun statement written => plain_encodeStatement? (Option.mem_toList.mp written)
  | decode name coding => exact plain_decodeStatements .record (.member name) coding
  | setArm name =>
      cases name with
      | none => exact List.forall_mem_singleton.mpr ⟨by decide, by decide⟩
      | some field =>
          have closed := (named field (by simp [mentioned])).closed
          exact List.forall_mem_singleton.mpr ⟨by simp +decide, by simp +decide [closed]⟩
  | refuse discriminant => exact List.forall_mem_singleton.mpr ⟨by simp +decide, by simp +decide⟩

section

variable {actions : List Action} (named : Action.Named actions)

include named

/-- The statements of actions open no blocks. -/
theorem plain_statements : forall statement,
    statement ∈ actions.flatMap (·.statements) -> IsPlain statement := by
  refine List.forall_mem_flatMap.mpr fun action listed => ?_
  exact action.plain_statements (named action listed)

/-- The code of actions starts at the margin. -/
theorem indentable_actionCode : (actionCode actions).Indentable :=
  Code.indentable_of_plain (plain_statements named)

/-- Actions say something if one of them does. -/
theorem speaks_actionCode {action : Action} (listed : action ∈ actions)
    (written : action.statements ≠ []) : (actionCode actions).speaks = true := by
  obtain ⟨statement, isStatement⟩ := List.exists_mem_of_ne_nil _ written
  have inCode : statement ∈ actions.flatMap (·.statements) :=
    List.mem_flatMap.mpr ⟨action, listed, isStatement⟩
  exact Code.speaks_of_plain inCode (plain_statements named statement inCode)

end

/-! ## Choices -/

/-- The code of a branch starts at the margin, and its block says something. -/
theorem Branch.indentable_code {discriminant word : String} {branch : Branch}
    (starts : startsStatement word = true) (named : Action.Named branch.actions)
    (speaks : (actionCode branch.actions).speaks = true) :
    (branch.code discriminant word).Indentable := by
  refine Code.indentable_single ?_ ?_ speaks (indentable_actionCode named)
  · simp [starts]
  · simp +decide

/-- A choice can be indented if every branch has something to do. -/
theorem Choice.indentable_code {choice : Choice} (named : choice.Named)
    (branches : forall branch, branch ∈ choice.branches ->
      (actionCode branch.actions).speaks = true)
    (otherwise : (actionCode choice.otherwise).speaks = true) : choice.code.Indentable := by
  have last := indentable_actionCode named.otherwise
  unfold code
  split
  · exact last
  · next first rest isChoice =>
      have areNamed := named.branches
      rw [isChoice] at areNamed branches
      obtain ⟨firstNamed, restNamed⟩ := List.forall_mem_cons.mp areNamed
      obtain ⟨firstSpeaks, restSpeaks⟩ := List.forall_mem_cons.mp branches
      rw [Code.indentable_append, Code.indentable_append, Code.indentable_concat]
      refine ⟨⟨?_, List.forall_mem_map.mpr fun branch listed => ?_⟩, ?_⟩
      · exact first.indentable_code (by decide) firstNamed.actions firstSpeaks
      · exact branch.indentable_code (by decide) (restNamed branch listed).actions
          (restSpeaks branch listed)
      · exact Code.indentable_single (by decide) (by decide) otherwise last

/-! ## Record classes -/

/-- A comment starts at the margin. -/
theorem indentable_commentCode (texts : List String) : (commentCode texts).Indentable := by
  refine Code.indentable_lines.mpr (List.forall_mem_map.mpr fun text _ => ?_)
  constructor <;> simp [isFlush, isStatement]

/-- Constructors can be indented. What they end with may include comments. -/
theorem indentable_constructorCode {names trailer : List String}
    (areNames : forall name, name ∈ names -> IsName name)
    (trailerIndentable : (Code.lines trailer).Indentable) :
    (constructorCode names trailer).Indentable := by
  have assignments : forall text, text ∈ names.map (fun name => "self." ++ name ++ " = " ++ name) ->
      IsPlain text := by
    refine List.forall_mem_map.mpr fun name listed => ?_
    exact plain_assignment (by simp +decide) (areNames name listed).closed
  have first : IsPlain "init_type_class(self, ncl)" := ⟨by decide, by decide⟩
  refine Code.indentable_single (by simp +decide) (by simp +decide) ?_ ?_
  · exact Code.speaks_of_plain (by simp) first
  · rw [Code.indentable_lines] at trailerIndentable ⊢
    have plain := Code.indentable_of_plain (List.forall_mem_cons.mpr ⟨first, assignments⟩)
    exact List.forall_mem_append.mpr ⟨Code.indentable_lines.mp plain, trailerIndentable⟩

/-- The methods of a class start at the margin if their bodies do. -/
theorem indentable_methodsCode {constructor printed pack unpack : Code}
    (constructorIndentable : constructor.Indentable) (printedIndentable : printed.Indentable)
    (packIndentable : pack.Indentable) (unpackIndentable : unpack.Indentable) :
    (methodsCode constructor printed pack unpack).Indentable := by
  simp only [methodsCode, Code.indentable_append]
  exact ⟨⟨⟨⟨⟨⟨⟨constructorIndentable, trivial⟩, printedIndentable⟩, trivial⟩, packIndentable⟩,
    trivial⟩, unpackIndentable⟩, trivial⟩

/-- A class says something because its methods do. -/
theorem speaks_methodsCode {names trailer : List String} {printed pack unpack : Code} :
    (methodsCode (constructorCode names trailer) printed pack unpack).speaks = true := by
  have constructor : (constructorCode names trailer).speaks = true :=
    Code.speaks_block (by simp +decide) _ _
  simp [methodsCode, constructor]

/-- The method that gives the printed form can be indented. -/
theorem indentable_printed {statement : String} (plain : IsPlain statement) :
    (Code.single "def __repr__(self):" (.line statement .done)).Indentable := by
  exact Code.indentable_single (by decide) (by decide) (Code.speaks_line plain.starts _)
    (Code.indentable_line plain)

/-- A coding that prescribes a way has statements. -/
theorem decodeStatements_ne_nil {coding : Coding} (coded : (way? coding).isSome) (site : Site)
    (place : Place) : decodeStatements site place coding ≠ [] := by
  cases coding with
  | void => cases coded
  | array element fixed | recordArray element fixed =>
      cases fixed <;> simp [decodeStatements, decodeExpression?]
  | _ => simp [decodeStatements, decodeExpression?]

/-- The class of a structure can be indented. -/
theorem Struct.indentable_code (name : String) {fields : List Field}
    (readable : forall field, field ∈ fields -> ReadableField field) :
    (code name fields).Indentable := by
  have declares : forall field, field ∈ valued fields -> field.isVoid = false := by
    intro field listed
    simpa using List.of_mem_filter listed
  have areNames : forall field, field ∈ valued fields -> forall text,
      text ∈ field.name :: mentioned field.coding -> IsName text := by
    intro field listed
    exact (readable field (List.mem_of_mem_filter listed)).named (declares field listed)
  have coded : forall field, field ∈ valued fields -> (way? field.coding).isSome := by
    intro field listed
    exact (readable field (List.mem_of_mem_filter listed)).coded (declares field listed)
  have names : forall each, each ∈ (valued fields).map (·.name) -> IsName each :=
    List.forall_mem_map.mpr fun field listed => areNames field listed _ List.mem_cons_self
  have packNamed := named_packActions areNames
  have unpackNamed := named_unpackActions areNames
  refine Code.indentable_single (by simp +decide) (by simp +decide) ?_ ?_
  · rw [Code.speaks_append, speaks_methodsCode, Bool.or_true]
  · refine Code.indentable_append.mpr ⟨indentable_commentCode _, indentable_methodsCode ?_ ?_ ?_ ?_⟩
    · exact indentable_constructorCode names trivial
    · refine indentable_printed ?_
      unfold printedForm
      split <;> constructor <;> simp +decide
    · refine Code.indentable_single (by decide) (by decide) ?_ (indentable_actionCode packNamed)
      refine speaks_actionCode packNamed List.mem_cons_self ?_
      cases (valued fields).map (·.name) <;> simp [Action.statements]
    · refine Code.indentable_single (by decide) (by decide) ?_ ?_
      · unfold unpackBody
        split
        · decide
        · next notEmpty =>
            obtain ⟨field, listed⟩ := List.exists_mem_of_ne_nil _ (by simpa using notEmpty)
            exact speaks_actionCode unpackNamed (List.mem_map_of_mem listed)
              (decodeStatements_ne_nil (coded field listed) _ _)
      · unfold unpackBody
        split
        · exact ⟨by decide, by decide, trivial⟩
        · exact indentable_actionCode unpackNamed

namespace Union

variable {layout : UnionLayout} (readable : ReadableLayout layout)

include readable

/-- The names of the attributes of a union are names. -/
theorem isName_attributes : forall each, each ∈ attributes layout -> IsName each := by
  refine List.forall_mem_cons.mpr ⟨readable.discriminant.name readable.declares, ?_⟩
  refine List.forall_mem_map.mpr fun field listed => ?_
  exact (readable.bodies field (UnionLayout.mem_of_mem_firstOfEachName listed)).name
    (UnionLayout.new_of_mem_firstOfEachName listed).1

/-- A choice among bodies can be indented if every body says something. -/
theorem indentable_choice {body : Field -> List Action}
    (named : forall field, field ∈ layout.bodies -> Action.Named (body field))
    (speaks : forall field, field ∈ layout.bodies -> (actionCode (body field)).speaks = true) :
    (choice body layout).code.Indentable := by
  refine Choice.indentable_code (named_choice readable named) ?_ ?_
  · refine List.forall_mem_map.mpr fun arm listed => ?_
    exact speaks arm.body (List.mem_append_left _ (List.mem_map_of_mem listed))
  · unfold choice
    split
    · next field known => exact speaks field (List.mem_append_right _ (by simp [known]))
    · next absent =>
        have plain : IsPlain ("raise BadDiscriminant(self." ++ layout.discriminant.name ++ ")") :=
          ⟨by simp +decide, by simp +decide⟩
        exact Code.speaks_of_plain List.mem_cons_self plain

/-- The class of a union can be indented. -/
theorem indentable_code (name : String) : (code name layout).Indentable := by
  have arms (body : Field -> List Action)
      (named : forall field, field ∈ layout.bodies -> Action.Named (body field))
      (sets : forall field, ∃ arm, .setArm arm ∈ body field) :
      (choice body layout).code.Indentable := by
    refine indentable_choice readable named fun field listed => ?_
    obtain ⟨arm, isAction⟩ := sets field
    refine speaks_actionCode (named field listed) isAction ?_
    cases arm <;> simp [Action.statements]
  have packNamed := named_packDiscriminant readable
  have unpackNamed := named_unpackDiscriminant readable
  refine Code.indentable_single (by simp +decide) (by simp +decide) ?_ ?_
  · rw [Code.speaks_append, speaks_methodsCode, Bool.or_true]
  · refine Code.indentable_append.mpr ⟨indentable_commentCode _, indentable_methodsCode ?_ ?_ ?_ ?_⟩
    · refine indentable_constructorCode (isName_attributes readable) ?_
      exact ⟨by decide, by decide, by decide, by decide, trivial⟩
    · exact indentable_printed ⟨by simp +decide, by simp +decide⟩
    · refine Code.indentable_single (by decide) (by decide) ?_ ?_
      · have asserts := speaks_actionCode packNamed List.mem_cons_self (by simp [Action.statements])
        rw [Code.speaks_append, asserts, Bool.true_or]
      · refine Code.indentable_append.mpr ⟨indentable_actionCode packNamed, ?_⟩
        refine arms packBody ?_ ?_
        · exact fun field listed => named_packBody (readable.bodies field listed)
        · intro field
          unfold packBody
          split <;> simp
    · refine Code.indentable_single (by decide) (by decide) ?_ ?_
      · have coded := readable.discriminant.coded readable.declares
        have decodes := speaks_actionCode unpackNamed List.mem_cons_self
          (decodeStatements_ne_nil coded _ _)
        rw [Code.speaks_append, decodes, Bool.true_or]
      · refine Code.indentable_append.mpr ⟨indentable_actionCode unpackNamed, ?_⟩
        refine arms unpackBody ?_ ?_
        · exact fun field listed => named_unpackBody (readable.bodies field listed)
        · intro field
          unfold unpackBody
          split <;> simp

end Union

/-- The classes that are generated for an accepted definition can be indented. -/
theorem indentable_of_accepted {isReserved : String -> Bool} {registry : Registry}
    {definition : Definition} {binding : Option (String × TypeRef)} {emission : Option Emission}
    (accepted : Verdict.Accepted isReserved registry definition binding emission)
    (lexed : Lexed DefinitionPhrase definition.unlined) (written : definition.Written) :
    forall each, each ∈ emission.toList.flatMap classes -> each.code.Indentable := by
  cases accepted with
  | constant | enum | program => simp [classes]
  | @typedef declaration target declares new completed =>
      have holds := Declaration.holds_of_lexed isName_words (Lexed.typedef lexed)
      have mentions : forall text, text ∈ mentioned target.coding -> IsName text :=
        holds_mentioned holds.base (fun value listed => isName_literal (holds.values value listed))
          completed written
      cases coding : target.coding with
      | record other =>
          have plain : IsPlain (declaration.name ++ " = " ++ other) := by
            refine plain_assignment (holds.name declares).startsStatement ?_
            exact (mentions other (by simp [coding, mentioned])).closed
          have only : classes (.typedef declaration.name target) =
              [.same declaration.name other] := by
            rw [classes, coding]
          rw [Option.toList_some, List.flatMap_singleton, only]
          exact List.forall_mem_singleton.mpr (Code.indentable_line plain)
      | _ => simp [classes, coding]
  | struct new completed =>
      obtain ⟨-, fields⟩ := Lexed.struct lexed
      refine List.forall_mem_singleton.mpr (Struct.indentable_code _ ?_)
      exact forall_members readable_field completed fields written
  | union new declares completed =>
      obtain ⟨-, selects, switch⟩ := Lexed.union lexed
      refine List.forall_mem_singleton.mpr (Union.indentable_code ?_ _)
      exact readable_layout completed declares selects switch written

/-! ## Routines -/

/-- The names and literals that the code of a pair of routines mentions. -/
def RoutineBody.mentioned : RoutineBody -> List String
  | runtime routine => [routine]
  | forward target => [target]
  | coding chosen => Python.mentioned chosen

/-- Everything that a pair of routines mentions is a name. -/
structure Routine.Named (routine : Routine) : Prop where
  name : IsName routine.name
  body : forall text, text ∈ routine.body.mentioned -> IsName text

/-- A name has no line ends. -/
theorem IsName.unbroken {name : String} (isName : IsName name) : Unbroken name := by
  intro c listed
  have nameChar := isName.all c listed
  refine ⟨?_, ?_⟩ <;>
    · rintro rfl
      cases nameChar

/-- The statements that decode in a routine open no blocks. -/
theorem plain_returnStatements (coding : Coding) :
    forall statement, statement ∈ Routine.returnStatements coding -> IsPlain statement := by
  unfold Routine.returnStatements
  split
  · next expression written =>
      have closed := closed_decodeExpression? written
      exact List.forall_mem_singleton.mpr ⟨by simp +decide, by simp +decide [closed]⟩
  · refine List.forall_mem_append.mpr ⟨plain_decodeStatements _ _ _, ?_⟩
    exact List.forall_mem_singleton.mpr ⟨by decide, by decide⟩

namespace Routine

variable {routine : Routine} (named : routine.Named)

include named

/-- The code of an encoding routine starts at the margin. -/
theorem indentable_packCode : routine.packCode.Indentable := by
  obtain ⟨name, body⟩ := routine
  cases body with
  | runtime target | forward target =>
      have closed := (named.body target List.mem_cons_self).closed
      exact Code.indentable_line ⟨by simp +decide, by simp +decide [closed]⟩
  | coding coding =>
      have plain : IsPlain ((encodeStatement? .routines .data coding).getD "pass") := by
        cases written : encodeStatement? .routines .data coding with
        | none => exact ⟨by decide, by decide⟩
        | some statement => exact plain_encodeStatement? written
      exact ⟨by simp +decide, by simp +decide, Code.speaks_line plain.starts _,
        Code.indentable_line plain, trivial⟩

/-- The code of a decoding routine starts at the margin. -/
theorem indentable_unpackCode : routine.unpackCode.Indentable := by
  obtain ⟨name, body⟩ := routine
  cases body with
  | runtime target | forward target =>
      have closed := (named.body target List.mem_cons_self).closed
      exact Code.indentable_line ⟨by simp +decide, by simp +decide [closed]⟩
  | coding coding =>
      have plain := plain_returnStatements coding
      obtain ⟨statement, listed⟩ : ∃ statement, statement ∈ returnStatements coding := by
        unfold returnStatements
        split <;> simp
      exact ⟨by simp +decide, by simp +decide, Code.speaks_of_plain listed (plain _ listed),
        Code.indentable_of_plain plain, trivial⟩

/-- An encoding routine of names is made of lines. -/
theorem unbroken_packCode : routine.packCode.Lined Unbroken := by
  obtain ⟨name, body⟩ := routine
  have isName := named.name.unbroken
  cases body with
  | runtime target | forward target =>
      have isTarget := (named.body target List.mem_cons_self).unbroken
      exact ⟨by simp +decide [isName, isTarget], trivial⟩
  | coding coding =>
      have inCoding : forall text, text ∈ mentioned coding -> Unbroken text :=
        fun text listed => (named.body text listed).unbroken
      have unbroken : Unbroken ((encodeStatement? .routines .data coding).getD "pass") := by
        cases written : encodeStatement? .routines .data coding with
        | none => decide
        | some statement => exact unbroken_encodeStatement? _ (by decide) inCoding written
      exact ⟨by simp +decide [isName], ⟨unbroken, trivial⟩, trivial⟩

/-- A decoding routine of names is made of lines. -/
theorem unbroken_unpackCode : routine.unpackCode.Lined Unbroken := by
  obtain ⟨name, body⟩ := routine
  have isName := named.name.unbroken
  cases body with
  | runtime target | forward target =>
      have isTarget := (named.body target List.mem_cons_self).unbroken
      exact ⟨by simp +decide [isName, isTarget], trivial⟩
  | coding coding =>
      have inCoding : forall text, text ∈ mentioned coding -> Unbroken text :=
        fun text listed => (named.body text listed).unbroken
      refine ⟨by simp +decide [isName], Code.lined_lines.mpr ?_, trivial⟩
      unfold returnStatements
      split
      · next expression written =>
          have unbroken := unbroken_decodeExpression? _ inCoding written
          exact List.forall_mem_singleton.mpr (by simp +decide [unbroken])
      · refine List.forall_mem_append.mpr ⟨?_, by decide⟩
        exact unbroken_decodeStatements _ (by decide) inCoding

end Routine

/-- The routines of a type mention names if its coding does. -/
theorem named_ofCoding {name : String} {coding : Coding} (isName : IsName name)
    (mentions : forall text, text ∈ mentioned coding -> IsName text) :
    (Routine.ofCoding name coding).Named := by
  cases coding <;> exact ⟨isName, mentions⟩

/-- The routines of the built-in types mention names. -/
theorem named_primitives : forall primitive, primitive ∈ Registry.primitives ->
    (Routine.mk primitive.1 (.runtime primitive.2)).Named := by
  have areNames : forall primitive, primitive ∈ Registry.primitives ->
      IsName primitive.1 ∧ IsName primitive.2 := by
    decide
  intro primitive listed
  obtain ⟨isName, isRoutine⟩ := areNames primitive listed
  exact ⟨isName, List.forall_mem_singleton.mpr isRoutine⟩

/-- The routines that are generated for an accepted definition mention names. -/
theorem named_of_accepted {isReserved : String -> Bool} {registry : Registry}
    {definition : Definition} {binding : Option (String × TypeRef)} {emission : Option Emission}
    (accepted : Verdict.Accepted isReserved registry definition binding emission)
    (lexed : Lexed DefinitionPhrase definition.unlined) (written : definition.Written) :
    forall each, each ∈ emission.toList.flatMap routines -> each.Named := by
  cases accepted with
  | constant | struct | union | program => simp [routines]
  | @enum name members line new allowed =>
      have isName : IsName name := isName_words.identifier (Lexed.enum lexed).1
      exact List.forall_mem_singleton.mpr ⟨isName, List.forall_mem_singleton.mpr (by decide)⟩
  | @typedef declaration target declares new completed =>
      have holds := Declaration.holds_of_lexed isName_words (Lexed.typedef lexed)
      refine List.forall_mem_singleton.mpr (named_ofCoding (holds.name declares) ?_)
      exact holds_mentioned holds.base
        (fun value listed => isName_literal (holds.values value listed)) completed written

/-! ## Modules -/

/-- The first line of a module stands at the margin. -/
theorem nested_banner (naming : Naming) : Nested 0 [banner naming] := by
  have start : "# Generated by rpcgen from ".toList.head? = some '#' := by decide
  refine nested_comment ?_ 0
  unfold banner
  rw [String.append_assoc, String.toList_append, List.head?_append, start, Option.some_or]

/-- A line that imports a generated module stands at the margin. -/
theorem nested_import (stem rest : String) (closed : opensBlock rest = false)
    (notEmpty : rest ≠ "") : Nested 0 ["from " ++ stem ++ rest] :=
  nested_statement (by simp [notEmpty, closed]) (by simp [indentation])

/-- What all record classes rely on, behind the lines that depend on the names. -/
theorem nested_unbroken_helpers : let helpers := (typesPreamble .standard).drop 3
    Nested 0 helpers ∧ forall text, text ∈ helpers -> Unbroken text := by
  decide +kernel

/-- What the comment at the start of the module of routines says. -/
theorem nested_unbroken_remarks : let remarks := ((packerPreamble .standard).drop 1).take 5
    Nested 0 remarks ∧ forall text, text ∈ remarks -> Unbroken text := by
  decide +kernel

/-- The start of the module of record classes is well indented. -/
theorem nested_typesPreamble (naming : Naming) : Nested 0 (typesPreamble naming) := by
  have between : Nested 0 [""] := by decide
  exact (((nested_banner naming).append between).append
    (nested_import _ _ (by decide) (by decide))).append nested_unbroken_helpers.1

/-- The start of the module of routines is well indented. -/
theorem nested_packerPreamble (naming : Naming) : Nested 0 (packerPreamble naming) := by
  have blank : Nested 0 ["", ""] := by decide
  exact (((nested_banner naming).append nested_unbroken_remarks.1).append
    (nested_import _ _ (by decide) (by decide))).append blank

/-- An encoding routine says something. -/
theorem Routine.speaks_packCode (routine : Routine) : routine.packCode.speaks = true := by
  obtain ⟨name, body⟩ := routine
  cases body with
  | runtime target | forward target => exact Code.speaks_line (by simp +decide) _
  | coding coding => exact Code.speaks_block (by simp +decide) _ _

/-- A decoding routine says something. -/
theorem Routine.speaks_unpackCode (routine : Routine) : routine.unpackCode.speaks = true := by
  obtain ⟨name, body⟩ := routine
  cases body with
  | runtime target | forward target => exact Code.speaks_line (by simp +decide) _
  | coding coding => exact Code.speaks_block (by simp +decide) _ _

/-- A class of routines can be indented if there is a routine in it. -/
theorem indentable_routinesCode {header : String} {codes : List Code}
    (starts : startsStatement header = true) (opens : opensBlock header = true)
    (speaks : forall code, code ∈ codes -> code.speaks = true) (notEmpty : codes ≠ [])
    (indentable : forall code, code ∈ codes -> code.Indentable) :
    (routinesCode header codes).Indentable := by
  obtain ⟨code, listed⟩ := List.exists_mem_of_ne_nil _ notEmpty
  refine Code.indentable_single starts opens ?_ ⟨Code.indentable_concat.mpr indentable, trivial⟩
  rw [Code.speaks_inset, Code.speaks_concat]
  exact List.any_eq_true.mpr ⟨code, listed, speaks code listed⟩

end Python

/-- The texts that a user gives for the generated modules have no line ends. -/
structure Naming.Unbroken (naming : Naming) : Prop where
  sourceName : XdrPack.Unbroken naming.sourceName
  moduleStem : XdrPack.Unbroken naming.moduleStem
  classPrefix : XdrPack.Unbroken naming.classPrefix

namespace Python

section

variable {naming : Naming} (unbroken : naming.Unbroken)

include unbroken

/-- The first line of a module has no line end inside. -/
theorem unbroken_banner : Unbroken (banner naming) := by
  have start : Unbroken "# Generated by rpcgen from " := by decide
  have stop : Unbroken ". Do not edit." := by decide
  unfold banner
  rw [unbroken_append, unbroken_append]
  exact ⟨⟨start, unbroken.sourceName⟩, stop⟩

/-- The start of the module of record classes is made of lines. -/
theorem unbroken_typesPreamble : forall text, text ∈ typesPreamble naming -> Unbroken text := by
  have imports : Unbroken ("from " ++ naming.moduleStem ++ "constants import *") := by
    simp +decide [unbroken.moduleStem]
  exact List.forall_mem_cons.mpr ⟨unbroken_banner unbroken, List.forall_mem_cons.mpr
    ⟨by decide, List.forall_mem_cons.mpr ⟨imports, nested_unbroken_helpers.2⟩⟩⟩

/-- The start of the module of routines is made of lines. -/
theorem unbroken_packerPreamble : forall text, text ∈ packerPreamble naming -> Unbroken text := by
  have imports : Unbroken ("from " ++ naming.moduleStem ++ "types import *") := by
    simp +decide [unbroken.moduleStem]
  refine List.forall_mem_cons.mpr ⟨unbroken_banner unbroken, ?_⟩
  exact List.forall_mem_append.mpr ⟨nested_unbroken_remarks.2,
    List.forall_mem_cons.mpr ⟨imports, by decide⟩⟩

variable {emissions : List Emission}

/-- The module of record classes is made of lines if its classes are. -/
theorem lined_typesCode
    (lined : forall each, each ∈ emissions.flatMap classes -> each.code.Lined Unbroken) :
    (typesCode naming emissions).Lined Unbroken :=
  Code.lined_append.mpr ⟨Code.lined_lines.mpr (unbroken_typesPreamble unbroken),
    Code.lined_concat.mpr (List.forall_mem_map.mpr lined)⟩

/-- The module of routines is made of lines if the routines mention names. -/
theorem lined_packerCode (named : forall each, each ∈ emissions.flatMap routines -> each.Named) :
    (packerCode naming emissions).Lined Unbroken := by
  have packer : Unbroken ("class " ++ naming.classPrefix ++ "Packer(rpc.Packer):") := by
    simp +decide [unbroken.classPrefix]
  have unpacker : Unbroken ("class " ++ naming.classPrefix ++ "Unpacker(rpc.Unpacker):") := by
    simp +decide [unbroken.classPrefix]
  have packLined : forall code, code ∈ (emissions.flatMap routines).map (·.packCode) ->
      code.Lined Unbroken :=
    List.forall_mem_map.mpr fun routine listed => Routine.unbroken_packCode (named routine listed)
  have unpackLined : forall code, code ∈ (emissions.flatMap routines).map (·.unpackCode) ->
      code.Lined Unbroken :=
    List.forall_mem_map.mpr fun routine listed => Routine.unbroken_unpackCode (named routine listed)
  simp only [packerCode, Code.lined_append]
  refine ⟨⟨⟨?_, ?_⟩, trivial⟩, ?_⟩
  · exact Code.lined_lines.mpr (unbroken_packerPreamble unbroken)
  · exact ⟨packer, ⟨Code.lined_concat.mpr packLined, trivial⟩, trivial⟩
  · exact ⟨unpacker, ⟨Code.lined_concat.mpr unpackLined, trivial⟩, trivial⟩

/-- The module of record classes is well indented if its classes can be. -/
theorem wellIndented_types
    (lined : forall each, each ∈ emissions.flatMap classes -> each.code.Lined Unbroken)
    (indentable : forall each, each ∈ emissions.flatMap classes -> each.code.Indentable) :
    WellIndented (artifacts naming emissions).types := by
  have allLined : (typesCode naming emissions).Lined Unbroken := lined_typesCode unbroken lined
  refine Nested.wellIndented ?_
  rw [artifacts, Code.lines_render (allLined.imp fun _ => Unbroken.oneLine), typesCode,
    Code.linesAt_append, Code.linesAt_lines, List.map_congr_left fun text _ => indented_zero text,
    List.map_id']
  refine (nested_typesPreamble naming).append (Code.Indentable.nested ?_ 0)
  exact Code.indentable_concat.mpr (List.forall_mem_map.mpr indentable)

/-- The module of routines is well indented if there are routines and they mention names. -/
theorem wellIndented_packer (notEmpty : emissions.flatMap routines ≠ [])
    (named : forall each, each ∈ emissions.flatMap routines -> each.Named) :
    WellIndented (artifacts naming emissions).packer := by
  have allLined : (packerCode naming emissions).Lined Unbroken := lined_packerCode unbroken named
  refine Nested.wellIndented ?_
  rw [artifacts, Code.lines_render (allLined.imp fun _ => Unbroken.oneLine)]
  simp only [packerCode, Code.linesAt_append, Code.linesAt_lines]
  rw [List.map_congr_left fun text _ => indented_zero text, List.map_id']
  refine (((nested_packerPreamble naming).append ?_).append ?_).append ?_
  · refine Code.Indentable.nested (indentable_routinesCode ?_ ?_ ?_ (by simpa using notEmpty) ?_) 0
    · simp +decide
    · simp +decide
    · exact List.forall_mem_map.mpr fun routine _ => routine.speaks_packCode
    · exact List.forall_mem_map.mpr fun routine listed =>
        Routine.indentable_packCode (named routine listed)
  · have blanks : (Code.blank (.blank .done)).Indentable := trivial
    exact blanks.nested 0
  · refine Code.Indentable.nested (indentable_routinesCode ?_ ?_ ?_ (by simpa using notEmpty) ?_) 0
    · simp +decide
    · simp +decide
    · exact List.forall_mem_map.mpr fun routine _ => routine.speaks_unpackCode
    · exact List.forall_mem_map.mpr fun routine listed =>
        Routine.indentable_unpackCode (named routine listed)

end

end Python

/-- What holds of everything that is emitted for an accepted definition that was read holds
of everything that a run emits. -/
theorem Run.forall_emissions {isReserved : String -> Bool} {registry final : Registry}
    {definitions : List Definition} {emissions : List Emission} {source : String}
    (run : Run isReserved registry definitions final emissions)
    (parsed : (Lexing.ofText source).stream.parse = .ok definitions) {property : Emission -> Prop}
    (holds : forall {definition known binding emission},
      Verdict.Accepted isReserved known definition binding (some emission) ->
        Lexed DefinitionPhrase definition.unlined -> definition.Written -> property emission) :
    forall emission, emission ∈ emissions -> property emission := by
  intro emission listed
  obtain ⟨definition, known, binding, isDefinition, accepted⟩ := run.exists_definition listed
  exact holds accepted (Lexing.lexed_of_parse parsed _ isDefinition)
    (TokenStream.written_of_parse parsed _ isDefinition)

namespace Python

section

variable {source : String} {isReserved : String -> Bool} {final : Registry}
  {definitions : List Definition} {emissions : List Emission}
  (parsed : (Lexing.ofText source).stream.parse = .ok definitions)
  (run : Run isReserved .builtin definitions final emissions)

include parsed run

/-- What holds of the classes of every accepted definition holds of all classes. -/
theorem forall_classes {property : ClassBinding -> Prop}
    (holds : forall {definition known binding emission},
      Verdict.Accepted isReserved known definition binding emission ->
        Lexed DefinitionPhrase definition.unlined -> definition.Written ->
          forall each, each ∈ emission.toList.flatMap classes -> property each) :
    forall each, each ∈ (Compiler.start.emissions ++ emissions).flatMap classes ->
      property each := by
  have noClasses : Compiler.start.emissions.flatMap classes = [] := by decide
  rw [List.flatMap_append, noClasses, List.nil_append]
  refine List.forall_mem_flatMap.mpr (run.forall_emissions parsed ?_)
  intro definition known binding emission accepted lexed written
  simpa using holds accepted lexed written

/-- All routines mention names. -/
theorem named_routines :
    forall each, each ∈ (Compiler.start.emissions ++ emissions).flatMap routines ->
      each.Named := by
  rw [List.flatMap_append]
  refine List.forall_mem_append.mpr ⟨List.forall_mem_flatMap.mpr ?_, List.forall_mem_flatMap.mpr ?_⟩
  · rw [Compiler.emissions_start]
    refine List.forall_mem_map.mpr fun primitive listed => ?_
    exact List.forall_mem_singleton.mpr (named_primitives primitive listed)
  · refine run.forall_emissions parsed ?_
    intro definition known binding emission accepted lexed written
    simpa using named_of_accepted accepted lexed written

end

end Python

/-- The modules of record classes and of routines that are generated for an accepted source
text are well indented, and none of their blocks is empty. -/
theorem Compiler.compile_wellIndented (naming : Naming) (unbroken : naming.Unbroken)
    (source : String) (compilation : Compilation) (final : Compiler)
    (success : Compiler.start.compile (Python.backend naming) source = (.ok compilation, final)) :
    WellIndented compilation.artifacts.types ∧ WellIndented compilation.artifacts.packer := by
  obtain ⟨definitions, emissions, parsed, run, emitted, rendered⟩ := compile_modules success
  rw [rendered, emitted]
  constructor
  · exact Python.wellIndented_types unbroken
      (Python.forall_classes parsed run Python.lined_of_accepted)
      (Python.forall_classes parsed run Python.indentable_of_accepted)
  · refine Python.wellIndented_packer unbroken ?_ (Python.named_routines parsed run)
    have builtIn : start.emissions.flatMap Python.routines ≠ [] := by decide
    rw [List.flatMap_append]
    exact List.append_ne_nil_of_left_ne_nil builtIn _

/-- A structure without any value, a union without arms, a type that is another name for a
record, and types with and without statements of their own. -/
theorem Compiler.compile_wellIndented_small :
    let source := "struct none \x7b void; \x7d; typedef none same; typedef opaque data<>; " ++
      "union pick switch (int k) \x7b case 0: default: void; \x7d; typedef int number;"
    ∃ compilation final,
      Compiler.start.compile (Python.backend .standard) source = (.ok compilation, final) ∧
      WellIndented compilation.artifacts.types ∧ WellIndented compilation.artifacts.packer := by
  intro source
  obtain ⟨compilation, final, success⟩ : ∃ compilation final,
      Compiler.start.compile (Python.backend .standard) source = (.ok compilation, final) :=
    exists_of_isOk (by decide +kernel)
  exact ⟨compilation, final, success, compile_wellIndented .standard
    ⟨by decide +kernel, by decide +kernel, by decide +kernel⟩ source compilation final success⟩

end XdrPack
