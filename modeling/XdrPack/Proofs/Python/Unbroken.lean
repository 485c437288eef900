import XdrPack.Proofs.Python.Definitions
import XdrPack.Proofs.Rendering
import XdrPack.Proofs.UnionMembers
import XdrPack.Python.Module

/-!
# Lines of record classes

The names and values of a parsed definition contain no line ends, and neither does
anything that is generated for it. So every text in the code of a record class is a
single line of the generated module.
-/

namespace XdrPack

open Grammar

/-! ## Texts without line ends -/

/-- A text without line feeds and carriage returns. -/
def Unbroken (text : String) : Prop := forall c, c ∈ text.toList -> c ≠ '\n' ∧ c ≠ '\r'

instance (text : String) : Decidable (Unbroken text) :=
  decidable_of_iff (text.toList.all fun c => c != '\n' && c != '\r')
    (by simp [Unbroken, List.all_eq_true])

@[simp]
theorem unbroken_append {left right : String} :
    Unbroken (left ++ right) ↔ Unbroken left ∧ Unbroken right := by
  simp only [Unbroken, String.toList_append, List.forall_mem_append]

@[simp]
theorem unbroken_join {texts : List String} :
    Unbroken (String.join texts) ↔ forall text, text ∈ texts -> Unbroken text := by
  simp only [Unbroken, String.toList_join, List.forall_mem_flatMap]

namespace Unbroken

/-- Texts without line ends stay so when they are joined. -/
theorem intercalate {separator : String} {texts : List String} (unbroken : Unbroken separator)
    (each : forall text, text ∈ texts -> Unbroken text) :
    Unbroken (separator.intercalate texts) := by
  induction texts with
  | nil => simp +decide
  | cons first rest inductionHypothesis =>
      obtain ⟨firstUnbroken, restUnbroken⟩ := List.forall_mem_cons.mp each
      cases rest with
      | nil => simpa using firstUnbroken
      | cons second others =>
          rw [String.intercalate_cons_cons, unbroken_append, unbroken_append]
          exact ⟨⟨firstUnbroken, unbroken⟩, inductionHypothesis restUnbroken⟩

/-- A text without line ends is a line. -/
theorem oneLine {text : String} (unbroken : Unbroken text) : OneLine text where
  unbroken listed := (unbroken '\n' listed).1 rfl
  closed last := (unbroken '\r' (List.mem_of_getLast? last)).2 rfl

end Unbroken

/-- Words have no line ends. -/
theorem IsWord.unbroken {name : String} (isWord : IsWord name) : Unbroken name := by
  intro c listed
  have wordChar := isWord c listed
  refine ⟨?_, ?_⟩ <;>
    · rintro rfl
      exact absurd wordChar (by decide)

/-! ## Statements -/

namespace Python

/-- A literal adds no character but a letter. -/
theorem mem_numberLiteral {digits : List Char} {c : Char} (listed : c ∈ numberLiteral digits) :
    c ∈ digits ∨ c = 'o' := by
  have ofUnsigned : forall {text : List Char}, c ∈ unsignedLiteral text -> c ∈ text ∨ c = 'o' := by
    intro text listed
    unfold unsignedLiteral at listed
    split at listed
    · split at listed <;> grind
    · exact .inl listed
  unfold numberLiteral at listed
  split at listed
  · rcases List.mem_cons.mp listed with rfl | later
    · exact .inl List.mem_cons_self
    · exact (ofUnsigned later).imp_left (List.mem_cons_of_mem _)
  · exact ofUnsigned listed

/-- The literal of a value has no line ends if the value has none. -/
theorem unbroken_literal {value : Value} (unbroken : Unbroken value.text) :
    Unbroken (literal value) := by
  cases value with
  | constant name => exact unbroken
  | number text =>
      intro c listed
      rw [literal, String.toList_ofList] at listed
      rcases mem_numberLiteral listed with inText | rfl
      · exact unbroken c inText
      · decide

/-- The names and literals that the statements of a coding mention. -/
def mentioned : Coding -> List String
  | .void | .text | .bytes => []
  | .routine name | .record name => [name]
  | .fixedBytes length => [literal length]
  | .array element fixed | .recordArray element fixed => element :: fixed.toList.map literal

/-- The packer is reached without a line end. -/
theorem unbroken_packer (site : Site) : Unbroken site.packer := by cases site <;> decide

/-- The unpacker is reached without a line end. -/
theorem unbroken_unpacker (site : Site) : Unbroken site.unpacker := by cases site <;> decide

/-- The statement that encodes has no line ends if what it mentions has none. -/
theorem unbroken_encodeStatement? (site : Site) {place : Place} {coding : Coding}
    (atPlace : Unbroken place.text)
    (inCoding : forall text, text ∈ mentioned coding -> Unbroken text) {statement : String}
    (written : encodeStatement? site place coding = some statement) : Unbroken statement := by
  have packer := unbroken_packer site
  cases coding with
  | void => cases written
  | array element fixed | recordArray element fixed =>
      cases fixed <;> cases written <;> simp_all +decide [mentioned]
  | _ =>
      cases written
      simp_all +decide [mentioned]

/-- The expression that decodes has no line ends if what it mentions has none. -/
theorem unbroken_decodeExpression? (site : Site) {coding : Coding}
    (inCoding : forall text, text ∈ mentioned coding -> Unbroken text) {expression : String}
    (written : decodeExpression? site coding = some expression) : Unbroken expression := by
  have unpacker := unbroken_unpacker site
  cases coding with
  | void | record => cases written
  | array element fixed | recordArray element fixed =>
      cases fixed <;> cases written <;> simp_all +decide [mentioned]
  | _ =>
      cases written
      simp_all +decide [mentioned]

/-- The statements that decode have no line ends if what they mention has none. -/
theorem unbroken_decodeStatements (site : Site) {place : Place} {coding : Coding}
    (atPlace : Unbroken place.text)
    (inCoding : forall text, text ∈ mentioned coding -> Unbroken text) :
    forall statement, statement ∈ decodeStatements site place coding -> Unbroken statement := by
  have assigned : forall statement, statement ∈ (decodeExpression? site coding).toList.map
      (fun expression => place.text ++ " = " ++ expression) -> Unbroken statement := by
    intro statement listed
    obtain ⟨expression, written, rfl⟩ := List.mem_map.mp listed
    have unbroken := unbroken_decodeExpression? site inCoding (Option.mem_toList.mp written)
    simp +decide [atPlace, unbroken]
  cases coding with
  | record name =>
      have unbroken : Unbroken name := inCoding name List.mem_cons_self
      simp +decide [decodeStatements, atPlace, unbroken]
  | _ => exact assigned

/-- The names and the codings of fields that an action mentions. -/
def Action.mentioned : Action -> List String
  | assertSet names => names
  | encode name coding | decode name coding => name :: Python.mentioned coding
  | setArm name => name.toList
  | refuse discriminant => [discriminant]

/-- The statements of an action have no line ends if nothing that it mentions has. -/
theorem Action.unbroken_statements {action : Action}
    (unbroken : forall text, text ∈ action.mentioned -> Unbroken text) :
    forall statement, statement ∈ action.statements -> Unbroken statement := by
  cases action with
  | assertSet names =>
      cases names with
      | nil => decide
      | cons first rest =>
          have listed : Unbroken (", ".intercalate
              ((first :: rest).map fun name => name ++ "=self." ++ name)) := by
            refine .intercalate (by decide) fun text member => ?_
            obtain ⟨name, isName, rfl⟩ := List.mem_map.mp member
            simp +decide [unbroken name isName]
          simpa +decide [statements] using listed
  | encode name coding =>
      obtain ⟨named, inCoding⟩ := List.forall_mem_cons.mp unbroken
      intro statement written
      refine unbroken_encodeStatement? .record ?_ inCoding (Option.mem_toList.mp written)
      simp +decide [Place.text, named]
  | decode name coding =>
      obtain ⟨named, inCoding⟩ := List.forall_mem_cons.mp unbroken
      refine unbroken_decodeStatements .record ?_ inCoding
      simp +decide [Place.text, named]
  | setArm name =>
      cases name with
      | none => decide
      | some field => simpa +decide [statements, mentioned] using unbroken
  | refuse discriminant => simpa +decide [statements, mentioned] using unbroken

/-- Actions that mention no line ends are made of lines. -/
theorem lined_actionCode {actions : List Action}
    (unbroken : forall action, action ∈ actions -> forall text, text ∈ action.mentioned ->
      Unbroken text) : (actionCode actions).Lined Unbroken := by
  refine Code.lined_lines.mpr fun statement listed => ?_
  obtain ⟨action, member, written⟩ := List.mem_flatMap.mp listed
  exact action.unbroken_statements (unbroken action member) statement written

/-- The code of a branch has no line ends if nothing that it mentions has. -/
theorem Branch.lined_code {discriminant word : String} {branch : Branch}
    (wordUnbroken : Unbroken word) (named : Unbroken discriminant)
    (labels : forall label, label ∈ branch.labels -> Unbroken (literal label))
    (actions : (actionCode branch.actions).Lined Unbroken) :
    (branch.code discriminant word).Lined Unbroken := by
  have condition : Unbroken (branch.condition discriminant) := by
    refine .intercalate (by decide) fun text listed => ?_
    obtain ⟨label, member, rfl⟩ := List.mem_map.mp listed
    simp +decide [named, labels label member]
  have header : Unbroken (word ++ " " ++ branch.condition discriminant ++ ":") := by
    simp +decide [wordUnbroken, condition]
  exact ⟨header, actions, trivial⟩

/-- The code of a choice has no line ends if nothing that it mentions has. -/
theorem Choice.lined_code {choice : Choice} (named : Unbroken choice.discriminant)
    (labels : forall branch, branch ∈ choice.branches -> forall label, label ∈ branch.labels ->
      Unbroken (literal label))
    (actions : forall branch, branch ∈ choice.branches ->
      (actionCode branch.actions).Lined Unbroken)
    (otherwise : (actionCode choice.otherwise).Lined Unbroken) : choice.code.Lined Unbroken := by
  unfold code
  split
  · exact otherwise
  · next first rest branches =>
      rw [branches] at labels actions
      obtain ⟨firstLabels, restLabels⟩ := List.forall_mem_cons.mp labels
      obtain ⟨firstActions, restActions⟩ := List.forall_mem_cons.mp actions
      rw [Code.lined_append, Code.lined_append, Code.lined_concat]
      refine ⟨⟨first.lined_code (by decide) named firstLabels firstActions, ?_⟩,
        by decide, otherwise, trivial⟩
      refine List.forall_mem_map.mpr fun branch listed => ?_
      exact branch.lined_code (by decide) named (restLabels branch listed)
        (restActions branch listed)

/-! ## Record classes -/

/-- Nothing that a field shows has line ends. -/
structure UnbrokenField (field : Field) : Prop where
  name : Unbroken field.name
  text : Unbroken field.declaration.text
  coding : forall text, text ∈ mentioned field.coding -> Unbroken text

/-- A constructor whose parameters have no line ends is made of lines. -/
theorem lined_constructorCode {names trailer : List String}
    (unbroken : forall name, name ∈ names -> Unbroken name)
    (trailerUnbroken : forall text, text ∈ trailer -> Unbroken text) :
    (constructorCode names trailer).Lined Unbroken := by
  refine ⟨?_, ?_, trivial⟩
  · have parameters : forall text, text ∈ names.map (fun name => ", " ++ name ++ "=None") ->
        Unbroken text := by
      refine List.forall_mem_map.mpr fun name listed => ?_
      simp +decide [unbroken name listed]
    simp +decide only [unbroken_append, unbroken_join, and_true, true_and]
    exact parameters
  · rw [Code.lined_lines, List.forall_mem_append, List.forall_mem_append]
    refine ⟨⟨by decide, ?_⟩, trailerUnbroken⟩
    refine List.forall_mem_map.mpr fun name listed => ?_
    simp +decide [unbroken name listed]

/-- A class is made of lines if its methods are. -/
theorem lined_methodsCode {constructor printed pack unpack : Code}
    (constructorLined : constructor.Lined Unbroken) (printedLined : printed.Lined Unbroken)
    (packLined : pack.Lined Unbroken) (unpackLined : unpack.Lined Unbroken) :
    (methodsCode constructor printed pack unpack).Lined Unbroken := by
  simp only [methodsCode, Code.lined_append]
  exact ⟨⟨⟨⟨⟨⟨⟨constructorLined, trivial⟩, printedLined⟩, trivial⟩, packLined⟩, trivial⟩,
    unpackLined⟩, trivial⟩

/-- A comment whose texts have no line ends is made of lines. -/
theorem lined_commentCode {texts : List String}
    (unbroken : forall text, text ∈ texts -> Unbroken text) :
    (commentCode texts).Lined Unbroken := by
  rw [commentCode, Code.lined_lines]
  refine List.forall_mem_map.mpr fun text listed => ?_
  simp +decide [unbroken text listed]

namespace Struct

variable {name : String} {fields : List Field}

/-- The definition that the class of a structure shows has no line ends inside its lines. -/
theorem unbroken_definitionLines (named : Unbroken name)
    (unbroken : forall field, field ∈ fields -> UnbrokenField field) :
    forall text, text ∈ definitionLines name fields -> Unbroken text := by
  rw [definitionLines, List.forall_mem_append, List.forall_mem_append]
  refine ⟨⟨?_, ?_⟩, by decide⟩
  · simp +decide [named]
  · refine List.forall_mem_map.mpr fun field listed => ?_
    simp +decide [(unbroken field listed).text]

/-- The printed form of a structure has no line ends. -/
theorem unbroken_printedForm (named : Unbroken name) {names : List String}
    (unbroken : forall field, field ∈ names -> Unbroken field) :
    Unbroken (printedForm name names) := by
  have shown : forall text, text ∈ names.map (fun field => " " ++ field ++ "=%r") ->
      Unbroken text := by
    refine List.forall_mem_map.mpr fun field listed => ?_
    simp +decide [unbroken field listed]
  have values : Unbroken (" ".intercalate (names.map fun field => "self." ++ field ++ ",")) := by
    refine .intercalate (by decide) (List.forall_mem_map.mpr fun field listed => ?_)
    simp +decide [unbroken field listed]
  unfold printedForm
  split
  · simp +decide [named]
  · simp +decide only [unbroken_append, unbroken_join, named, values, and_true, true_and]
    exact shown

/-- The code of a structure is made of lines. -/
theorem lined_code (named : Unbroken name)
    (unbroken : forall field, field ∈ fields -> UnbrokenField field) :
    (code name fields).Lined Unbroken := by
  have unbroken : forall field, field ∈ valued fields -> UnbrokenField field :=
    fun field listed => unbroken field (List.mem_of_mem_filter listed)
  have names : forall each, each ∈ (valued fields).map (·.name) -> Unbroken each :=
    List.forall_mem_map.mpr fun field listed => (unbroken field listed).name
  have mentions : forall field, field ∈ valued fields ->
      forall text, text ∈ field.name :: mentioned field.coding -> Unbroken text :=
    fun field listed => List.forall_mem_cons.mpr
      ⟨(unbroken field listed).name, (unbroken field listed).coding⟩
  refine ⟨by simp +decide [named], ?_, trivial⟩
  refine Code.lined_append.mpr ⟨lined_commentCode ?_, lined_methodsCode ?_ ?_ ?_ ?_⟩
  · exact List.forall_mem_cons.mpr ⟨by decide, unbroken_definitionLines named unbroken⟩
  · exact lined_constructorCode names (by simp)
  · exact ⟨by decide, ⟨unbroken_printedForm named names, trivial⟩, trivial⟩
  · refine ⟨by decide, lined_actionCode (List.forall_mem_cons.mpr ⟨names, ?_⟩), trivial⟩
    exact List.forall_mem_map.mpr mentions
  · refine ⟨by decide, ?_, trivial⟩
    unfold unpackBody
    split
    · exact ⟨by decide, trivial⟩
    · exact lined_actionCode (List.forall_mem_map.mpr mentions)

end Struct

/-- Nothing that a union shows has line ends. -/
structure UnbrokenLayout (layout : UnionLayout) : Prop where
  discriminant : UnbrokenField layout.discriminant
  labels : forall arm, arm ∈ layout.arms -> forall label, label ∈ arm.labels ->
    Unbroken label.text
  bodies : forall field, field ∈ layout.bodies -> UnbrokenField field

namespace Union

variable {name : String} {layout : UnionLayout}

/-- The definition that the class of a union shows has no line ends inside its lines. -/
theorem unbroken_definitionLines (named : Unbroken name) (unbroken : UnbrokenLayout layout) :
    forall text, text ∈ definitionLines name layout -> Unbroken text := by
  have bodyLine : forall field, field ∈ layout.bodies ->
      Unbroken ("        " ++ field.declaration.text ++ ";") := by
    intro field listed
    simp +decide [(unbroken.bodies field listed).text]
  simp only [definitionLines, List.forall_mem_append]
  refine ⟨⟨⟨?_, ?_⟩, ?_⟩, by decide⟩
  · simp +decide [named, unbroken.discriminant.text]
  · refine List.forall_mem_flatMap.mpr fun arm listed => List.forall_mem_append.mpr ⟨?_, ?_⟩
    · refine List.forall_mem_map.mpr fun label member => ?_
      simp +decide [unbroken.labels arm listed label member]
    · refine List.forall_mem_singleton.mpr (bodyLine arm.body ?_)
      exact List.mem_append_left _ (List.mem_map_of_mem listed)
  · cases fallback : layout.fallback with
    | none => simp [defaultLines]
    | some field =>
        refine List.forall_mem_cons.mpr ⟨by decide, List.forall_mem_singleton.mpr ?_⟩
        exact bodyLine field (List.mem_append_right _ (by simp [fallback]))

/-- The attributes of a union have no line ends. -/
theorem unbroken_attributes (unbroken : UnbrokenLayout layout) :
    forall each, each ∈ attributes layout -> Unbroken each := by
  refine List.forall_mem_cons.mpr ⟨unbroken.discriminant.name, ?_⟩
  refine List.forall_mem_map.mpr fun field listed => ?_
  exact (unbroken.bodies field (UnionLayout.mem_of_mem_firstOfEachName listed)).name

/-- The code of a choice among bodies is made of lines if the actions of each body
are. -/
theorem lined_choice (unbroken : UnbrokenLayout layout) {body : Field -> List Action}
    (actions : forall field, UnbrokenField field -> (actionCode (body field)).Lined Unbroken) :
    (choice body layout).code.Lined Unbroken := by
  refine Choice.lined_code unbroken.discriminant.name ?_ ?_ ?_
  · refine List.forall_mem_map.mpr fun arm listed label member => ?_
    exact unbroken_literal (unbroken.labels arm listed label member)
  · refine List.forall_mem_map.mpr fun arm listed => actions arm.body (unbroken.bodies _ ?_)
    exact List.mem_append_left _ (List.mem_map_of_mem listed)
  · cases fallback : layout.fallback with
    | none =>
        simp only [choice, fallback]
        refine lined_actionCode (List.forall_mem_singleton.mpr ?_)
        exact List.forall_mem_singleton.mpr unbroken.discriminant.name
    | some field =>
        simp only [choice, fallback]
        exact actions field (unbroken.bodies _ (List.mem_append_right _ (by simp [fallback])))

/-- The code that encodes a body is made of lines. -/
theorem lined_packBody {field : Field} (unbroken : UnbrokenField field) :
    (actionCode (packBody field)).Lined Unbroken := by
  refine lined_actionCode ?_
  unfold packBody
  split
  · simp [Action.mentioned]
  · simpa [Action.mentioned] using
      ⟨unbroken.name, ⟨unbroken.name, unbroken.coding⟩, unbroken.name⟩

/-- The code that decodes a body is made of lines. -/
theorem lined_unpackBody {field : Field} (unbroken : UnbrokenField field) :
    (actionCode (unpackBody field)).Lined Unbroken := by
  refine lined_actionCode ?_
  unfold unpackBody
  split
  · simp [Action.mentioned]
  · simpa [Action.mentioned] using ⟨⟨unbroken.name, unbroken.coding⟩, unbroken.name⟩

/-- The code of a union is made of lines. -/
theorem lined_code (named : Unbroken name) (unbroken : UnbrokenLayout layout) :
    (code name layout).Lined Unbroken := by
  refine ⟨by simp +decide [named], ?_, trivial⟩
  refine Code.lined_append.mpr ⟨lined_commentCode ?_, lined_methodsCode ?_ ?_ ?_ ?_⟩
  · exact List.forall_mem_cons.mpr ⟨by decide, unbroken_definitionLines named unbroken⟩
  · exact lined_constructorCode (unbroken_attributes unbroken) (by decide)
  · refine ⟨by decide, ⟨?_, trivial⟩, trivial⟩
    simp +decide [named, unbroken.discriminant.name]
  · refine ⟨by decide, Code.lined_append.mpr ⟨lined_actionCode ?_, ?_⟩, trivial⟩
    · simpa [packDiscriminant, Action.mentioned] using
        ⟨unbroken.discriminant.name, unbroken.discriminant.coding⟩
    · exact lined_choice unbroken fun _ => lined_packBody
  · refine ⟨by decide, Code.lined_append.mpr ⟨lined_actionCode ?_, ?_⟩, trivial⟩
    · simpa [unpackDiscriminant, Action.mentioned] using
        ⟨unbroken.discriminant.name, unbroken.discriminant.coding⟩
    · exact lined_choice unbroken fun _ => lined_unpackBody

end Union

end Python

/-! ## What was read -/

/-- An identifier that was read has no line ends. -/
theorem unbroken_identifier {name : String}
    (isLexical : (Token.Kind.identifier name).isLexical = true) : Unbroken name := by
  have isWord : IsWord name :=
    Segment.isWordChar_of_isWordText (Bool.and_eq_true_iff.mp isLexical).1
  exact isWord.unbroken

/-- A number that was read has no line ends. -/
theorem unbroken_number {text : String} (isNumeral : Numeral.isNumeral text.toList = true) :
    Unbroken text := by
  have isText := Segment.isNumeralText_of_isNumeral isNumeral
  cases chars : text.toList with
  | nil =>
      intro c listed
      rw [chars] at listed
      cases listed
  | cons first rest =>
      rw [chars] at isText
      obtain ⟨starts, all⟩ := Bool.and_eq_true_iff.mp isText
      have restIsWord : IsWord (String.ofList rest) := by
        intro c listed
        rw [String.toList_ofList] at listed
        exact List.all_eq_true.mp all c listed
      have firstUnbroken : first ≠ '\n' ∧ first ≠ '\r' := by
        refine ⟨?_, ?_⟩ <;>
          · rintro rfl
            exact absurd starts (by simp)
      intro c listed
      rw [chars] at listed
      rcases List.mem_cons.mp listed with rfl | later
      · exact firstUnbroken
      · exact restIsWord.unbroken c (by simpa using later)

/-- A property of everything that a declaration is read from. -/
structure HoldsOfWords (property : String -> Prop) : Prop where
  keyword : forall keyword : Keyword, property keyword.text
  identifier : forall {name : String}, (Token.Kind.identifier name).isLexical = true ->
    property name
  number : forall {text : String}, Numeral.isNumeral text.toList = true -> property text

/-- Nothing that the lexer gives has a line end. -/
theorem unbroken_words : HoldsOfWords Unbroken where
  keyword keyword := by cases keyword <;> decide
  identifier := unbroken_identifier
  number := unbroken_number

/-- The values in a shape. -/
def Shape.values : Shape -> List Value
  | scalar => []
  | fixed length => [length]
  | varying bound => bound.toList

section

variable {property : String -> Prop} (words : HoldsOfWords property)

include words

/-- What holds of words holds of a value that was read. -/
theorem holds_value {value : Value} (lexed : Lexed ValuePhrase value) : property value.text := by
  obtain ⟨phrase, derived, isLexical⟩ := lexed
  cases derived with
  | number text => exact words.number (isLexical (.number text) (by simp))
  | constant name => exact words.identifier (isLexical (.identifier name) (by simp))

/-- What holds of all words holds of the name of a type. -/
theorem holds_type {phrase : Phrase} {base : String} (derived : TypePhrase phrase base)
    (isLexical : forall kind, kind ∈ phrase -> kind.isLexical = true) : property base := by
  cases derived with
  | unsigned | unsignedInt | unsignedHyper => exact words.identifier (by decide)
  | int => exact words.keyword .int
  | hyper => exact words.keyword .hyper
  | float => exact words.keyword .float
  | double => exact words.keyword .double
  | quadruple => exact words.keyword .quadruple
  | bool => exact words.keyword .bool
  | named name => exact words.identifier (isLexical (.identifier base) (by simp))

/-- What holds of all words holds of the length of an array. -/
theorem holds_array {brackets : Phrase} {shape : Shape} (derived : ArrayPhrase brackets shape)
    (isLexical : forall kind, kind ∈ brackets -> kind.isLexical = true) :
    forall value, value ∈ shape.values -> property value.text := by
  cases derived with
  | fixed size =>
      refine List.forall_mem_singleton.mpr (holds_value words ⟨_, size, fun kind listed => ?_⟩)
      exact isLexical kind (by simp [listed])
  | varying bound =>
      cases bound with
      | unbounded => simp [Shape.values]
      | bounded limit =>
          refine List.forall_mem_singleton.mpr (holds_value words ⟨_, limit, fun kind listed => ?_⟩)
          exact isLexical kind (by simp [listed])

end

/-- The property holds of everything in a declaration, and of its name if it has one. -/
structure Declaration.Holds (property : String -> Prop) (declaration : Declaration) : Prop where
  name : declaration.isVoid = false -> property declaration.name
  nameless : declaration.isVoid = true -> declaration.name = ""
  base : property declaration.type.base
  values : forall value, value ∈ declaration.type.shape.values -> property value.text

/-- What holds of words holds of a declaration that was read. -/
theorem Declaration.holds_of_lexed {property : String -> Prop} (words : HoldsOfWords property)
    {declaration : Declaration} (lexed : Lexed DeclarationPhrase declaration.unlined) :
    declaration.Holds property := by
  suffices tree : declaration.unlined.Holds property from
    ⟨tree.name, tree.nameless, tree.base, tree.values⟩
  generalize declaration.unlined = tree at lexed ⊢
  obtain ⟨phrase, derived, isLexical⟩ := lexed
  have named : forall {name : String}, .identifier name ∈ phrase -> property name :=
    fun listed => words.identifier (isLexical _ listed)
  cases derived with
  | void => exact ⟨by simp +decide, fun _ => rfl, words.keyword .void, by simp [Declaration.void,
      TypeRef.void, TypeRef.named, TypeRef.shaped, Shape.values]⟩
  | bytes name array =>
      exact ⟨fun _ => named (by simp), by rintro ⟨⟩, words.keyword .opaqueBytes,
        holds_array words array fun kind listed => isLexical kind (by simp [listed])⟩
  | string name array =>
      exact ⟨fun _ => named (by simp), by rintro ⟨⟩, words.keyword .string,
        holds_array words (.varying array) fun kind listed => isLexical kind (by simp [listed])⟩
  | single name type =>
      exact ⟨fun _ => named (by simp), by rintro ⟨⟩,
        holds_type words type fun kind listed => isLexical kind (by simp [listed]),
        by simp [TypeRef.shaped, Shape.values]⟩
  | array name type array =>
      exact ⟨fun _ => named (by simp), by rintro ⟨⟩,
        holds_type words type fun kind listed => isLexical kind (by simp [listed]),
        holds_array words array fun kind listed => isLexical kind (by simp [listed])⟩
  | optional name type =>
      have one : property "1" := words.number (by decide)
      exact ⟨fun _ => named (by simp), by rintro ⟨⟩,
        holds_type words type fun kind listed => isLexical kind (by simp [listed]),
        by simp [TypeRef.shaped, Shape.values, Value.text, one]⟩

/-- What holds of the base and the literals of a declaration holds of what its coding
mentions. -/
theorem holds_mentioned {property : String -> Prop} {registry : Registry}
    {declaration : Declaration} {field : Field} (base : property declaration.type.base)
    (values : forall value, value ∈ declaration.type.shape.values ->
      property (Python.literal value))
    (completes : declaration.Completes registry field) (written : declaration.Written) :
    forall text, text ∈ Python.mentioned field.coding -> property text := by
  cases declares : declaration.isVoid with
  | true => simp [completes.coding_of_void declares, Python.mentioned]
  | false =>
      obtain ⟨entry, -, chosen⟩ := completes.chosen written declares
      generalize declaration.type.base = name at chosen base
      generalize declaration.type.shape = shape at chosen values
      generalize field.coding = coding at chosen ⊢
      cases chosen with
      | fixedBytes => simpa [Python.mentioned] using values _ (by simp [Shape.values])
      | fixedArray | fixedRecordArray =>
          simpa [Python.mentioned, base] using values _ (by simp [Shape.values])
      | _ => simp [Python.mentioned, base]

/-- Nothing in a declaration has line ends. -/
structure Declaration.Unbroken (declaration : Declaration) : Prop where
  name : XdrPack.Unbroken declaration.name
  base : XdrPack.Unbroken declaration.type.base
  values : forall value, value ∈ declaration.type.shape.values -> XdrPack.Unbroken value.text

/-- A declaration that was read has no line ends. -/
theorem Declaration.unbroken_of_lexed {declaration : Declaration}
    (lexed : Lexed DeclarationPhrase declaration.unlined) : declaration.Unbroken := by
  have holds := Declaration.holds_of_lexed unbroken_words lexed
  refine ⟨?_, holds.base, holds.values⟩
  cases declares : declaration.isVoid with
  | true => simp +decide [holds.nameless declares]
  | false => exact holds.name declares

namespace Declaration.Unbroken

variable {declaration : Declaration}

/-- A declaration of words without line ends is written without line ends. -/
theorem text (unbroken : declaration.Unbroken) : XdrPack.Unbroken declaration.text := by
  have suffix : XdrPack.Unbroken declaration.type.shape.suffix := by
    have values := unbroken.values
    cases shape : declaration.type.shape with
    | scalar => decide
    | fixed length =>
        rw [shape] at values
        simp +decide [Shape.suffix, values length (by simp [Shape.values])]
    | varying bound =>
        rw [shape] at values
        cases bound with
        | none => decide
        | some limit => simp +decide [Shape.suffix, values limit (by simp [Shape.values])]
  have written : XdrPack.Unbroken declaration.type.writtenSuffix := by
    unfold TypeRef.writtenSuffix
    split
    · decide
    · exact suffix
  unfold Declaration.text
  split
  · decide
  · simp +decide [unbroken.base, unbroken.name, written]

/-- What is generated for a declaration without line ends has none either. -/
theorem field (unbroken : declaration.Unbroken) {registry : Registry} {field : Field}
    (completes : declaration.Completes registry field) (written : declaration.Written) :
    Python.UnbrokenField field where
  name := by
    rw [Field.name, completes.declared]
    exact unbroken.name
  text := by
    rw [completes.text_eq written]
    exact unbroken.text
  coding := holds_mentioned unbroken.base
    (fun value listed => Python.unbroken_literal (unbroken.values value listed)) completes written

end Declaration.Unbroken

end XdrPack
