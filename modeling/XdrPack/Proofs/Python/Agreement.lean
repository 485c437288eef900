import XdrPack.Proofs.Python.Comment
import XdrPack.Proofs.Python.Execution

/-!
# Encoding and decoding agree

The methods of a record class that encode and decode are found in the text of the generated
module and executed. Whichever comparisons of the discriminant hold, both take the same
steps: each attribute that is encoded is decoded in its turn, by the routine of the same
name with the same length and the same routine for elements, both remember the same arm of
a union, and both refuse the same values of the discriminant.
-/

namespace XdrPack

open Grammar

namespace Python

/-! ## Methods -/

/-- The lines at the start that are indented twice, without that indentation. -/
def blockLines : List String -> List String
  | [] => []
  | line :: rest =>
      match textAfter? (List.replicate 8 ' ') line.toList with
      | some text => String.ofList text :: blockLines rest
      | none => []

/-- The lines of the method with the given head in the class of a name. -/
def methodLines? (head name types : String) : Option (List String) := do
  let body <- behindLast? ("class " ++ name ++ ":") (Text.lines types)
  let inside <- behindFirst? (indented 1 head) body
  some (blockLines inside)

/-- What is behind the first occurrence of a line is found if the line is not in front of it.
-/
theorem behindFirst?_eq {first : String} {before : List String} (absent : first ∉ before)
    (after : List String) : behindFirst? first (before ++ first :: after) = some after := by
  induction before with
  | nil => simp [behindFirst?]
  | cons line rest inductionHypothesis =>
      have differs : line ≠ first := by
        rintro rfl
        exact absent List.mem_cons_self
      rw [List.cons_append, behindFirst?, if_neg differs,
        inductionHypothesis fun listed => absent (List.mem_cons_of_mem _ listed)]

/-- An empty line ends a block. -/
theorem blockLines_eq {lines : List String} (filled : "" ∉ lines) (rest : List String) :
    blockLines (lines.map (indented 2) ++ "" :: rest) = lines := by
  induction lines with
  | nil => rfl
  | cons line others inductionHypothesis =>
      have notEmpty : line ≠ "" := by
        rintro rfl
        exact filled List.mem_cons_self
      have later := inductionHypothesis fun listed => filled (List.mem_cons_of_mem _ listed)
      rw [List.map_cons, List.cons_append, blockLines, toList_indented notEmpty, textAfter?_append]
      simp [later]

/-- A line at depth one that is not inside another is one of the statements. -/
theorem mem_statements_of_indented {code : Code} {head : String} (outer : ¬ IsInner head)
    (listed : indented 1 head ∈ code.linesAt 1) : head ∈ code.statements := by
  rw [show 1 = 0 + 1 from rfl, Code.linesAt_add] at listed
  obtain ⟨line, isLine, same⟩ := List.mem_map.mp listed
  obtain rfl := indented_inj same
  exact (mem_statements_or_isInner isLine).resolve_right outer

/-- A method is found behind statements that are not its head. -/
theorem methodLines?_eq {head name types : String} (before body : Code) (rest : List String)
    (found : behindLast? ("class " ++ name ++ ":") (Text.lines types) =
      some (before.linesAt 1 ++ indented 1 head :: (body.linesAt 2 ++ "" :: rest)))
    (outer : ¬ IsInner head) (absent : head ∉ before.statements)
    (filled : "" ∉ body.linesAt 0) :
    methodLines? head name types = some (body.linesAt 0) := by
  have notBefore : indented 1 head ∉ before.linesAt 1 :=
    fun listed => absent (mem_statements_of_indented outer listed)
  rw [show 2 = 0 + 2 from rfl, Code.linesAt_add] at found
  simp [methodLines?, found, behindFirst?_eq notBefore, blockLines_eq filled]

/-- The head of the method that encodes a record. -/
def packHead : String := "def pack(self, dummy=None):"

/-- The head of the method that decodes a record. -/
def unpackHead : String := "def unpack(self):"

/-- Both methods of a class are found. -/
theorem methodLines?_class {name types : String} {texts names trailer after : List String}
    {printed pack unpack : Code}
    (found : behindLast? ("class " ++ name ++ ":") (Text.lines types) =
      some ((commentCode texts ++ methodsCode (constructorCode names trailer)
        (.single "def __repr__(self):" printed) (.single packHead pack)
        (.single unpackHead unpack)).linesAt 1 ++ after))
    (packFilled : "" ∉ pack.linesAt 0) (unpackFilled : "" ∉ unpack.linesAt 0) :
    methodLines? packHead name types = some (pack.linesAt 0) ∧
      methodLines? unpackHead name types = some (unpack.linesAt 0) := by
  -- What stands before the first of the two methods, and no line of it is the head of either.
  let before := commentCode texts ++ constructorCode names trailer ++ .blank .done
    ++ .single "def __repr__(self):" printed ++ .blank .done
  constructor
  · refine methodLines?_eq before pack
      ((Code.single unpackHead unpack).linesAt 1 ++ "" :: "" :: after) ?_ ?_ ?_ packFilled
    · rw [found]
      simp [before, methodsCode, Code.single, Code.linesAt]
    · rintro (empty | inner) <;> contradiction
    · simp [before, commentCode, constructorCode, Code.single, Code.statements, packHead,
        <- String.toList_inj]
  · refine methodLines?_eq (before ++ .single packHead pack ++ .blank .done) unpack ("" :: after)
      ?_ ?_ ?_ unpackFilled
    · rw [found]
      simp [before, methodsCode, Code.single, Code.linesAt]
    · rintro (empty | inner) <;> contradiction
    · simp [before, commentCode, constructorCode, Code.single, Code.statements, packHead,
        unpackHead, <- String.toList_inj]

/-! ## Steps -/

/-- One attribute that is coded, and the way in which it is. -/
structure Step where
  name : String
  way : Way
  deriving DecidableEq, Repr

/-- A step of decoding, with the class of the records that it creates. -/
structure Decoding extends Step where
  record : Option String
  deriving DecidableEq, Repr

namespace Event

/-- The step of an event that encodes. -/
def step? : Event -> Option Step
  | encoded name way => some ⟨name, way⟩
  | _ => none

/-- The arm that is remembered. -/
def arm? : Event -> Option (Option String)
  | arm name => some name
  | _ => none

/-- The discriminant that is refused. -/
def refusal? : Event -> Option String
  | refused discriminant => some discriminant
  | _ => none

end Event

/-- The steps that some events decode. A record is created directly before it decodes
itself. -/
def decodings? : List Event -> Option (List Decoding)
  | [] => some []
  | .created name record :: .decoded other .record none :: rest =>
      if other = name then (decodings? rest).map (⟨⟨name, .record⟩, some record⟩ :: ·) else none
  | .created _ _ :: _ => none
  | .decoded _ .record _ :: _ => none
  | .decoded name way record :: rest => (decodings? rest).map (⟨⟨name, way⟩, record⟩ :: ·)
  | _ :: rest => decodings? rest

/-- Whatever is encoded was insisted on before. -/
def AssertedFirst (events : List Event) : Prop :=
  forall before name way after, events = before ++ .encoded name way :: after ->
    ∃ names, .asserted names ∈ before ∧ name ∈ names

/-- What the methods of a record have to do. -/
structure Plan where
  /-- The fields that are coded, in order. -/
  fields : List Field
  /-- The arms that are remembered. -/
  arms : List (Option String)
  /-- The discriminants that are refused. -/
  refusals : List String

/-- What one method encodes and the other decodes is what the plan says. -/
structure Agree (plan : Plan) (packed unpacked : List Event) : Prop where
  /-- All fields are encoded and decoded in order, in the way that their codings prescribe
  and with the classes of their records. -/
  steps : ∃ decodings,
    decodings.map (fun each => (each.name, some each.way, each.record)) =
      plan.fields.map (fun field => (field.name, way? field.coding, class? field.coding)) ∧
    packed.filterMap Event.step? = decodings.map (·.toStep) ∧
    decodings? unpacked = some decodings
  packedArms : packed.filterMap Event.arm? = plan.arms
  unpackedArms : unpacked.filterMap Event.arm? = plan.arms
  packedRefusals : packed.filterMap Event.refusal? = plan.refusals
  unpackedRefusals : unpacked.filterMap Event.refusal? = plan.refusals
  asserted : AssertedFirst packed

/-! ## Executing bodies -/

section

variable {equal : String -> String -> Bool}

/-- No line of actions is empty. -/
theorem filled_actionCode {actions : List Action} (named : Action.Named actions) (depth : Nat) :
    "" ∉ (actionCode actions).linesAt depth := by
  rw [linesAt_actionCode]
  intro listed
  obtain ⟨line, isLine, empty⟩ := List.mem_map.mp listed
  obtain ⟨event, -, reports⟩ := exists_of_forall₂ (Action.reports_flatMap named).flip isLine
  exact reports.notEmpty (indented_eq_empty.mp empty)

/-- No line of a branch is empty. -/
theorem filled_branch {discriminant word : String} (notEmpty : word ≠ "") {branch : Branch}
    (named : branch.Named) : "" ∉ (branch.code discriminant word).linesAt 0 := by
  simp [Branch.code, Code.single, Code.linesAt, notEmpty, filled_actionCode named.actions 1]

/-- No line of a choice is empty. -/
theorem filled_choice {choice : Choice} (named : choice.Named) : "" ∉ choice.code.linesAt 0 := by
  have branches := named.branches
  unfold Choice.code
  split
  · exact filled_actionCode named.otherwise 0
  · next first rest split =>
      rw [split] at branches
      obtain ⟨firstNamed, restNamed⟩ := List.forall_mem_cons.mp branches
      have otherwise : "" ∉ (Code.single "else:" (actionCode choice.otherwise)).linesAt 0 := by
        simp [Code.single, Code.linesAt, filled_actionCode named.otherwise 1]
      simp only [Code.linesAt_append, Code.linesAt_concat, List.flatMap_map, List.mem_append,
        List.mem_flatMap, not_or, not_exists, not_and]
      refine ⟨⟨filled_branch (by decide) firstNamed, fun branch listed => ?_⟩, otherwise⟩
      exact filled_branch (by decide) (restNamed branch listed)

/-- Actions are executed one after the other. -/
theorem execute_actionCode {actions : List Action} (named : Action.Named actions) (code : Code) :
    execute equal false false ((actionCode actions ++ code).linesAt 0) =
      (actions.flatMap (·.events)).foldr Event.andThen
        (execute equal false false (code.linesAt 0)) := by
  rw [Code.linesAt_append, linesAt_actionCode_zero,
    execute_outer (Action.reports_flatMap named)]

/-- Events that are no refusals come one after the other. -/
theorem foldr_andThen {events : List Event} (steady : events.filterMap Event.refusal? = [])
    (rest : List Event) : events.foldr Event.andThen (some rest) = some (events ++ rest) := by
  induction events with
  | nil => rfl
  | cons event others inductionHypothesis =>
      cases event with
      | refused discriminant => simp [Event.refusal?] at steady
      | _ =>
          rw [List.foldr_cons, inductionHypothesis (by simpa [Event.refusal?] using steady)]
          rfl

end

/-! ## Fields -/

/-- The step that codes a field. -/
def decoding? (field : Field) : Option Decoding :=
  (way? field.coding).map fun way => ⟨⟨field.name, way⟩, class? field.coding⟩

/-- The events that encode some fields. -/
def encodeEvents (fields : List Field) : List Event :=
  fields.flatMap fun field => (Action.encode field.name field.coding).events

/-- The events that decode some fields. -/
def decodeEvents (fields : List Field) : List Event :=
  fields.flatMap fun field => (Action.decode field.name field.coding).events

/-- Only fields are encoded. -/
theorem mem_encodeEvents {fields : List Field} {event : Event}
    (listed : event ∈ encodeEvents fields) :
    ∃ field, field ∈ fields ∧ ∃ way, event = .encoded field.name way := by
  obtain ⟨field, isField, inEvents⟩ := List.mem_flatMap.mp listed
  obtain ⟨way, -, rfl⟩ := List.mem_map.mp inEvents
  exact ⟨field, isField, way, rfl⟩

/-- Nothing is selected from the events that encode fields if none of them is. -/
theorem filterMap_encodeEvents_eq_nil {α : Type} {select : Event -> Option α} (fields : List Field)
    (encoded : forall name way, select (.encoded name way) = none) :
    (encodeEvents fields).filterMap select = [] := by
  refine List.filterMap_eq_nil_iff.mpr fun event listed => ?_
  obtain ⟨field, -, way, rfl⟩ := mem_encodeEvents listed
  exact encoded field.name way

/-- Nothing is selected from the events that decode fields if none of them is. -/
theorem filterMap_decodeEvents_eq_nil {α : Type} {select : Event -> Option α} (fields : List Field)
    (created : forall name record, select (.created name record) = none)
    (decoded : forall name way record, select (.decoded name way record) = none) :
    (decodeEvents fields).filterMap select = [] := by
  refine List.filterMap_eq_nil_iff.mpr fun event listed => ?_
  obtain ⟨field, -, inEvents⟩ := List.mem_flatMap.mp listed
  obtain ⟨way, -, inWay⟩ := List.mem_flatMap.mp inEvents
  cases way with
  | routine called length element =>
      obtain rfl := List.mem_singleton.mp inWay
      exact decoded _ _ _
  | record =>
      obtain ⟨each, -, inRecord⟩ := List.mem_flatMap.mp inWay
      rcases List.mem_pair.mp inRecord with rfl | rfl
      · exact created _ _
      · exact decoded _ _ _
  | records length =>
      obtain ⟨each, -, rfl⟩ := List.mem_map.mp inWay
      exact decoded _ _ _

/-- Fields with a coding are coded one by one. -/
theorem map_decoding? {fields : List Field}
    (coded : forall field, field ∈ fields -> (way? field.coding).isSome) :
    (fields.filterMap decoding?).map (fun each => (each.name, some each.way, each.record)) =
      fields.map fun field => (field.name, way? field.coding, class? field.coding) := by
  induction fields with
  | nil => rfl
  | cons field others inductionHypothesis =>
      obtain ⟨fieldCoded, othersCoded⟩ := List.forall_mem_cons.mp coded
      obtain ⟨way, prescribed⟩ := Option.isSome_iff_exists.mp fieldCoded
      simp [decoding?, prescribed, <- inductionHypothesis othersCoded]

/-- The fields that have a way of coding are encoded in order. -/
theorem filterMap_encodeEvents (fields : List Field) :
    (encodeEvents fields).filterMap Event.step? =
      (fields.filterMap decoding?).map (·.toStep) := by
  induction fields with
  | nil => rfl
  | cons field others inductionHypothesis =>
      rw [encodeEvents] at inductionHypothesis ⊢
      rw [List.flatMap_cons, List.filterMap_append, inductionHypothesis, Action.events]
      cases prescribed : way? field.coding <;> simp [decoding?, prescribed, Event.step?]

/-- What is decoded by events that follow one another. -/
theorem decodings?_append {first : List Event} {decodings : List Decoding}
    (decoded : decodings? first = some decodings) (second : List Event) :
    decodings? (first ++ second) = (decodings? second).map (decodings ++ ·) := by
  fun_induction decodings? first generalizing decodings with
  | case1 =>
      cases decoded
      simp
  | case2 name record rest inductionHypothesis =>
      obtain ⟨others, decodedRest, rfl⟩ := Option.map_eq_some_iff.mp decoded
      simp [decodings?, inductionHypothesis decodedRest, Function.comp_def]
  | case3 | case4 | case5 => cases decoded
  | case6 name way record rest notRecord inductionHypothesis =>
      obtain ⟨others, decodedRest, rfl⟩ := Option.map_eq_some_iff.mp decoded
      cases way with
      | record => exact absurd rfl notRecord
      | _ => simp [decodings?, inductionHypothesis decodedRest, Function.comp_def]
  | case7 event rest _ notCreated _ notDecoded inductionHypothesis =>
      cases event with
      | created name record => exact absurd rfl (notCreated name record)
      | decoded name way record => exact absurd rfl (notDecoded name way record)
      | _ => simpa [decodings?] using inductionHypothesis decoded

/-- Decoding a field is the step of the field. -/
theorem decodings?_decode (field : Field) :
    decodings? (Action.decode field.name field.coding).events = some (decoding? field).toList := by
  obtain ⟨declaration, coding⟩ := field
  cases coding with
  | array element fixed | recordArray element fixed =>
      cases fixed <;> simp [Action.events, way?, class?, Way.decoded, decodings?, decoding?]
  | _ => simp [Action.events, way?, class?, Way.decoded, decodings?, decoding?]

/-- The fields that have a way of coding are decoded in order. -/
theorem decodings?_decodeEvents (fields : List Field) :
    decodings? (decodeEvents fields) = some (fields.filterMap decoding?) := by
  induction fields with
  | nil => rfl
  | cons field others inductionHypothesis =>
      rw [decodeEvents] at inductionHypothesis ⊢
      rw [List.flatMap_cons, decodings?_append (decodings?_decode field), inductionHypothesis]
      cases step : decoding? field <;> simp [step]

/-! ## Agreement in parts -/

/-- Where nothing is encoded, nothing has to be insisted on. -/
theorem AssertedFirst.of_unencoded {events : List Event}
    (unencoded : events.filterMap Event.step? = []) : AssertedFirst events := by
  rintro before name way after rfl
  simp [Event.step?] at unencoded

/-- What is insisted on before stays insisted on. -/
theorem AssertedFirst.append {first second : List Event} (firstAsserted : AssertedFirst first)
    (secondAsserted : AssertedFirst second) : AssertedFirst (first ++ second) := by
  intro before name way after split
  rcases List.append_eq_append_iff.mp split with ⟨between, rfl, later⟩ | ⟨between, earlier, later⟩
  · obtain ⟨names, listed, isName⟩ := secondAsserted between name way after later
    exact ⟨names, List.mem_append_right _ listed, isName⟩
  · cases between with
    | nil =>
        -- At the seam the encoding would be the first event of the second part.
        obtain ⟨names, listed, -⟩ := secondAsserted [] name way after later.symm
        cases listed
    | cons event others =>
        obtain ⟨rfl, rfl⟩ := List.cons_eq_cons.mp later
        exact firstAsserted before name way others earlier

namespace Agree

/-- Agreement of what follows one another. -/
theorem append {firstPlan secondPlan : Plan} {firstPacked firstUnpacked secondPacked
    secondUnpacked : List Event} (first : Agree firstPlan firstPacked firstUnpacked)
    (second : Agree secondPlan secondPacked secondUnpacked) :
    Agree ⟨firstPlan.fields ++ secondPlan.fields, firstPlan.arms ++ secondPlan.arms,
      firstPlan.refusals ++ secondPlan.refusals⟩ (firstPacked ++ secondPacked)
      (firstUnpacked ++ secondUnpacked) where
  steps := by
    obtain ⟨decodings, planned, packed, unpacked⟩ := first.steps
    obtain ⟨others, othersPlanned, othersPacked, othersUnpacked⟩ := second.steps
    refine ⟨decodings ++ others, ?_, ?_, ?_⟩
    · rw [List.map_append, List.map_append, planned, othersPlanned]
    · rw [List.filterMap_append, List.map_append, packed, othersPacked]
    · rw [decodings?_append unpacked, othersUnpacked]
      rfl
  packedArms := by rw [List.filterMap_append, first.packedArms, second.packedArms]
  unpackedArms := by rw [List.filterMap_append, first.unpackedArms, second.unpackedArms]
  packedRefusals := by rw [List.filterMap_append, first.packedRefusals, second.packedRefusals]
  unpackedRefusals := by
    rw [List.filterMap_append, first.unpackedRefusals, second.unpackedRefusals]
  asserted := first.asserted.append second.asserted

/-- Attributes that are insisted on together are encoded and decoded alike. -/
theorem fields {fields : List Field}
    (coded : forall field, field ∈ fields -> (way? field.coding).isSome) :
    Agree ⟨fields, [], []⟩ (.asserted (fields.map (·.name)) :: encodeEvents fields)
      (decodeEvents fields) where
  steps := by
    exact ⟨fields.filterMap decoding?, map_decoding? coded, filterMap_encodeEvents fields,
      decodings?_decodeEvents fields⟩
  packedArms := filterMap_encodeEvents_eq_nil fields fun _ _ => rfl
  unpackedArms := filterMap_decodeEvents_eq_nil fields (fun _ _ => rfl) fun _ _ _ => rfl
  packedRefusals := filterMap_encodeEvents_eq_nil fields fun _ _ => rfl
  unpackedRefusals := filterMap_decodeEvents_eq_nil fields (fun _ _ => rfl) fun _ _ _ => rfl
  asserted := by
    intro before name way after split
    cases before with
    | nil => cases split
    | cons first others =>
        obtain ⟨rfl, later⟩ := List.cons_eq_cons.mp split
        have encodes : .encoded name way ∈ encodeEvents fields := by
          rw [later]
          exact List.mem_append_right others List.mem_cons_self
        obtain ⟨field, listed, _, same⟩ := mem_encodeEvents encodes
        cases same
        exact ⟨_, List.mem_cons_self, List.mem_map_of_mem listed⟩

/-- Doing nothing changes no agreement. -/
theorem idle : Agree ⟨[], [], []⟩ [] [.idle] where
  steps := ⟨[], rfl, rfl, rfl⟩
  packedArms := rfl
  unpackedArms := rfl
  packedRefusals := rfl
  unpackedRefusals := rfl
  asserted := .of_unencoded rfl

/-- Nothing is coded where an arm is remembered. -/
theorem arm (name : Option String) : Agree ⟨[], [name], []⟩ [.arm name] [.arm name] where
  steps := ⟨[], rfl, rfl, rfl⟩
  packedArms := rfl
  unpackedArms := rfl
  packedRefusals := rfl
  unpackedRefusals := rfl
  asserted := .of_unencoded rfl

/-- Refusing the discriminant in both directions is what was planned. -/
theorem refused (discriminant : String) :
    Agree ⟨[], [], [discriminant]⟩ [.refused discriminant] [.refused discriminant] where
  steps := ⟨[], rfl, rfl, rfl⟩
  packedArms := rfl
  unpackedArms := rfl
  packedRefusals := rfl
  unpackedRefusals := rfl
  asserted := .of_unencoded rfl

end Agree

/-! ## What was read -/

/-- The characters of words belong to names. -/
theorem isNameChar_of_isWordChar {c : Char} (isWordChar : Segment.isWordChar c = true) :
    isNameChar c = true := by
  rw [isNameChar, isWordChar, Bool.true_or]

/-- Words and numbers are read as such. -/
theorem isName_words : HoldsOfWords IsName where
  keyword keyword := by cases keyword <;> decide
  identifier := by
    intro name isLexical
    obtain ⟨isWord, -⟩ := Bool.and_eq_true_iff.mp isLexical
    refine ⟨?_, fun c listed => ?_⟩
    · rintro rfl
      cases isWord
    · exact isNameChar_of_isWordChar (Segment.isWordChar_of_isWordText isWord c listed)
  number := by
    intro text isNumeral
    have isText := Segment.isNumeralText_of_isNumeral isNumeral
    refine ⟨?_, fun c listed => ?_⟩
    · rintro rfl
      cases isText
    · cases chars : text.toList with
      | nil => simp [chars] at listed
      | cons first rest =>
          rw [chars] at isText listed
          obtain ⟨starts, all⟩ := Bool.and_eq_true_iff.mp isText
          rcases List.mem_cons.mp listed with rfl | later
          · rcases Bool.or_eq_true_iff.mp starts with digit | minus
            · exact isNameChar_of_isWordChar (by simp [Segment.isWordChar, Char.isAlphanum, digit])
            · simp [isNameChar, (Bool.and_eq_true_iff.mp minus).1]
          · exact isNameChar_of_isWordChar (List.all_eq_true.mp all c later)

/-- The literal of a number that was read is not empty. -/
theorem numberLiteral_ne_nil {digits : List Char} (notEmpty : digits ≠ []) :
    numberLiteral digits ≠ [] := by
  have unsigned : forall text, text ≠ [] -> unsignedLiteral text ≠ [] := by
    intro text filled
    unfold unsignedLiteral
    split
    · split <;> simp
    · exact filled
  unfold numberLiteral
  split
  · simp
  · exact unsigned digits notEmpty

/-- The literal of a value is a name or a number if the value is one. -/
theorem isName_literal {value : Value} (isName : IsName value.text) : IsName (literal value) := by
  cases value with
  | constant name => exact isName
  | number text =>
      have notEmpty : text.toList ≠ [] := by simpa [Value.text] using isName.notEmpty
      refine ⟨?_, fun c listed => ?_⟩
      · simpa [literal] using numberLiteral_ne_nil notEmpty
      · rw [literal, String.toList_ofList] at listed
        rcases mem_numberLiteral listed with inText | rfl
        · exact isName.all c inText
        · decide

/-- A field whose statements can be read. -/
structure ReadableField (field : Field) : Prop where
  name : field.isVoid = false -> IsName field.name
  coding : forall text, text ∈ mentioned field.coding -> IsName text
  coded : field.isVoid = false -> (way? field.coding).isSome

/-- What a field with a value mentions are names. -/
theorem ReadableField.named {field : Field} (readable : ReadableField field)
    (declares : field.isVoid = false) :
    forall text, text ∈ field.name :: mentioned field.coding -> IsName text :=
  List.forall_mem_cons.mpr ⟨readable.name declares, readable.coding⟩

/-- The statements of a field that was read can be read. -/
theorem readable_field {isReserved : String -> Bool} {registry : Registry}
    {declaration : Declaration} {field : Field}
    (completes : declaration.CompletesMember isReserved registry field)
    (lexed : Lexed DeclarationPhrase declaration.unlined) (written : declaration.Written) :
    ReadableField field := by
  have holds := Declaration.holds_of_lexed isName_words lexed
  have isVoid := completes.toCompletes.isVoid_eq
  refine ⟨fun declares => ?_, ?_, fun declares => ?_⟩
  · rw [Field.name, completes.declared]
    exact holds.name (isVoid ▸ declares)
  · exact holds_mentioned holds.base
      (fun value listed => isName_literal (holds.values value listed)) completes.toCompletes written
  · obtain ⟨entry, -, chosen⟩ := completes.toCompletes.chosen written (isVoid ▸ declares)
    generalize declaration.type.shape = shape at chosen
    generalize field.coding = coding at chosen ⊢
    cases chosen <;> rfl

/-- A union whose statements can be read. -/
structure ReadableLayout (layout : UnionLayout) : Prop where
  discriminant : ReadableField layout.discriminant
  declares : layout.discriminant.isVoid = false
  labels : forall arm, arm ∈ layout.arms -> arm.labels ≠ [] ∧
    forall label, label ∈ arm.labels -> IsName (literal label)
  bodies : forall field, field ∈ layout.bodies -> ReadableField field

/-- What is read of the fields of a union is readable. -/
theorem readable_layout {isReserved : String -> Bool} {registry : Registry}
    {discriminant : Declaration} {switch : Switch} {layout : UnionLayout}
    (completed : layout.Completes isReserved registry discriminant switch)
    (declares : discriminant.isVoid = false)
    (selects : Lexed DeclarationPhrase discriminant.unlined) (lexed : switch.Lexed)
    (written : discriminant.Written ∧ switch.Written) : ReadableLayout layout := by
  obtain ⟨selector, bodies⟩ :=
    List.forall_mem_cons.mp (forall_layout readable_field completed selects lexed written)
  refine ⟨selector, ?_, fun arm listed => ?_, bodies⟩
  · rwa [completed.selector.toCompletes.isVoid_eq]
  · obtain ⟨notEmpty, labels⟩ := lexed_labels completed lexed listed
    exact ⟨notEmpty, fun label member =>
      isName_literal (holds_value isName_words (labels label member))⟩

/-! ## Structures -/

/-- What the method with the given head does in the class of a name. -/
def performed? (equal : String -> String -> Bool) (head name types : String) :
    Option (List Event) :=
  (methodLines? head name types).bind (execute equal false false)

/-- The methods of a record class encode and decode what the plan says. -/
def Performs (equal : String -> String -> Bool) (plan : Plan) (name types : String) : Prop :=
  ∃ packed unpacked, performed? equal packHead name types = some packed ∧
    performed? equal unpackHead name types = some unpacked ∧ Agree plan packed unpacked

section

variable {equal : String -> String -> Bool} {name types : String}

/-- A class whose methods do what was planned performs the plan. -/
theorem performs_of_bodies {texts names trailer after : List String}
    {printed pack unpack : Code} {plan : Plan} {packed unpacked : List Event}
    (found : behindLast? ("class " ++ name ++ ":") (Text.lines types) =
      some ((commentCode texts ++ methodsCode (constructorCode names trailer)
        (.single "def __repr__(self):" printed) (.single packHead pack)
        (.single unpackHead unpack)).linesAt 1 ++ after))
    (packFilled : "" ∉ pack.linesAt 0) (unpackFilled : "" ∉ unpack.linesAt 0)
    (packs : execute equal false false (pack.linesAt 0) = some packed)
    (unpacks : execute equal false false (unpack.linesAt 0) = some unpacked)
    (agree : Agree plan packed unpacked) : Performs equal plan name types := by
  obtain ⟨packLines, unpackLines⟩ := methodLines?_class found packFilled unpackFilled
  refine ⟨packed, unpacked, ?_, ?_, agree⟩
  · rw [performed?, packLines, Option.bind_some, packs]
  · rw [performed?, unpackLines, Option.bind_some, unpacks]

/-- Actions that refuse nothing are executed to the end. -/
theorem execute_actions {actions : List Action} (named : Action.Named actions)
    (steady : (actions.flatMap (·.events)).filterMap Event.refusal? = []) :
    execute equal false false ((actionCode actions).linesAt 0) =
      some (actions.flatMap (·.events)) := by
  rw [<- Code.append_done (actionCode _), execute_actionCode named]
  show List.foldr _ (some []) _ = _
  rw [foldr_andThen steady, List.append_nil]

namespace Struct

variable {fields : List Field}

/-- What a structure has to encode and decode: the fields that hold a value. -/
def plan (fields : List Field) : Plan := ⟨fields.filter fun field => !field.isVoid, [], []⟩

/-- What the actions that encode fields do. -/
theorem events_packActions (fields : List Field) :
    (packActions fields).flatMap (·.events) =
      .asserted (fields.map (·.name)) :: encodeEvents fields := by
  simp [packActions, List.flatMap_map, encodeEvents, Action.events]

/-- What the actions that decode fields do. -/
theorem events_unpackActions (fields : List Field) :
    (unpackActions fields).flatMap (·.events) = decodeEvents fields := by
  simp [unpackActions, List.flatMap_map, decodeEvents]

/-- The actions that decode fields mention names. -/
theorem named_unpackActions
    (areNames : forall field, field ∈ fields -> forall text,
      text ∈ field.name :: mentioned field.coding -> IsName text) :
    Action.Named (unpackActions fields) :=
  List.forall_mem_map.mpr areNames

/-- The actions that encode fields mention names. -/
theorem named_packActions
    (areNames : forall field, field ∈ fields -> forall text,
      text ∈ field.name :: mentioned field.coding -> IsName text) :
    Action.Named (packActions fields) := by
  refine List.forall_mem_cons.mpr ⟨?_, List.forall_mem_map.mpr areNames⟩
  exact List.forall_mem_map.mpr fun field listed => areNames field listed _ List.mem_cons_self

/-- The body of the method that decodes a structure decodes its fields. -/
theorem exists_execute_unpackBody {packed : List Event}
    (named : Action.Named (unpackActions fields))
    (agree : Agree ⟨fields, [], []⟩ packed (decodeEvents fields)) :
    "" ∉ (unpackBody fields).linesAt 0 ∧ ∃ unpacked,
      execute equal false false ((unpackBody fields).linesAt 0) = some unpacked ∧
        Agree ⟨fields, [], []⟩ packed unpacked := by
  cases fields with
  | nil => exact ⟨by decide, [.idle], rfl, by simpa [decodeEvents] using agree.append .idle⟩
  | cons first others =>
      refine ⟨filled_actionCode named 0, _, execute_actions named ?_, ?_⟩
      · rw [events_unpackActions, agree.unpackedRefusals]
      · rwa [events_unpackActions]

/-- The methods of the class of a structure encode and decode its fields. -/
theorem performs {after : List String}
    (readable : forall field, field ∈ fields -> ReadableField field) {body : Code}
    (code : Struct.code name fields = .single ("class " ++ name ++ ":") body)
    (found : behindLast? ("class " ++ name ++ ":") (Text.lines types) =
      some (body.linesAt 1 ++ after)) :
    Performs equal (plan fields) name types := by
  have readableValued : forall field, field ∈ valued fields ->
      field.isVoid = false ∧ ReadableField field := by
    intro field listed
    obtain ⟨isField, declares⟩ := List.mem_filter.mp listed
    exact ⟨by simpa using declares, readable field isField⟩
  have areNames : forall field, field ∈ valued fields -> forall text,
      text ∈ field.name :: mentioned field.coding -> IsName text := by
    intro field listed
    obtain ⟨declares, readableField⟩ := readableValued field listed
    exact readableField.named declares
  have agree : Agree ⟨valued fields, [], []⟩ _ _ := Agree.fields fun field listed =>
    (readableValued field listed).2.coded (readableValued field listed).1
  have packNamed := named_packActions areNames
  have packs : execute equal false false
      ((actionCode (packActions (valued fields))).linesAt 0) = _ :=
    execute_actions packNamed (by rw [events_packActions, agree.packedRefusals])
  rw [events_packActions] at packs
  obtain ⟨unpackFilled, unpacked, unpacks, unpackAgree⟩ :=
    exists_execute_unpackBody (named_unpackActions areNames) agree
  cases code
  exact performs_of_bodies found (filled_actionCode packNamed 0) unpackFilled packs unpacks
    unpackAgree

end Struct

end

/-! ## Unions -/

/-- A body that is chosen is one of the bodies. -/
theorem mem_bodies_of_chosen {equals : Value -> Bool} {layout : UnionLayout} {field : Field}
    (chosen : layout.chosen equals = some field) : field ∈ layout.bodies := by
  rw [UnionLayout.chosen] at chosen
  rw [UnionLayout.bodies, List.mem_append]
  split at chosen
  · next arm found =>
      cases chosen
      exact .inl (List.mem_map_of_mem (List.mem_of_find?_eq_some found))
  · exact .inr (Option.mem_toList.mpr chosen)

namespace Union

/-- What is coded for the body of an arm, and the arm that is remembered. -/
def bodyPlan (field : Field) : Plan :=
  if field.isVoid then ⟨[], [none], []⟩ else ⟨[field], [some field.name], []⟩

/-- What a union has to encode and decode: the discriminant and the body that is chosen.
Without one the discriminant is refused. -/
def plan (equal : String -> String -> Bool) (layout : UnionLayout) : Plan :=
  match layout.chosen fun label => equal layout.discriminant.name (literal label) with
  | some field => ⟨layout.discriminant :: (bodyPlan field).fields, (bodyPlan field).arms, []⟩
  | none => ⟨[layout.discriminant], [], [layout.discriminant.name]⟩

/-- Nothing is refused once a body is chosen. -/
theorem refusals_bodyPlan (field : Field) : (bodyPlan field).refusals = [] := by
  unfold bodyPlan
  split <;> rfl

section

variable {field : Field} (readable : ReadableField field)

include readable

/-- The actions that encode a body mention names. -/
theorem named_packBody : Action.Named (packBody field) := by
  unfold packBody
  split
  · simp [Action.Named, Action.mentioned]
  · next declares =>
      have isName := readable.name (by simpa using declares)
      simpa [Action.Named, Action.mentioned, isName] using readable.coding

/-- The actions that decode a body mention names. -/
theorem named_unpackBody : Action.Named (unpackBody field) := by
  unfold unpackBody
  split
  · simp [Action.Named, Action.mentioned]
  · next declares =>
      have isName := readable.name (by simpa using declares)
      simpa [Action.Named, Action.mentioned, isName] using readable.coding

/-- The body of an arm is encoded and decoded alike. -/
theorem agree_body : Agree (bodyPlan field) ((packBody field).flatMap (·.events))
    ((unpackBody field).flatMap (·.events)) := by
  unfold bodyPlan packBody unpackBody
  cases declares : field.isVoid with
  | true => exact .arm none
  | false =>
      have coded : forall each, each ∈ [field] -> (way? each.coding).isSome :=
        List.forall_mem_singleton.mpr (readable.coded declares)
      simpa [encodeEvents, decodeEvents, Action.events] using
        (Agree.fields coded).append (.arm (some field.name))

end

section

variable {layout : UnionLayout} {equal : String -> String -> Bool} {name types : String}
  (readable : ReadableLayout layout)

include readable

/-- A choice between bodies mentions names if the actions for all bodies do. -/
theorem named_choice {body : Field -> List Action}
    (named : forall field, field ∈ layout.bodies -> Action.Named (body field)) :
    (choice body layout).Named where
  discriminant := readable.discriminant.name readable.declares
  branches := by
    refine List.forall_mem_map.mpr fun arm listed => ?_
    obtain ⟨notEmpty, labels⟩ := readable.labels arm listed
    exact ⟨notEmpty, labels, named _ (List.mem_append_left _ (List.mem_map_of_mem listed))⟩
  otherwise := by
    unfold choice
    split
    · next field known => exact named field (List.mem_append_right _ (by simp [known]))
    · simpa [Action.Named, Action.mentioned] using readable.discriminant.name readable.declares

/-- Some actions and then a choice have no empty lines. -/
theorem filled_method {first : List Action} {body : Field -> List Action}
    (firstNamed : Action.Named first)
    (named : forall field, field ∈ layout.bodies -> Action.Named (body field)) :
    "" ∉ (actionCode first ++ (choice body layout).code).linesAt 0 := by
  rw [Code.linesAt_append, List.mem_append, not_or]
  exact ⟨filled_actionCode firstNamed 0, filled_choice (named_choice readable named)⟩

/-- The actions that encode the discriminant mention names. -/
theorem named_packDiscriminant : Action.Named (packDiscriminant layout) := by
  have discriminantNames := readable.discriminant.named readable.declares
  simpa [packDiscriminant, Action.Named, Action.mentioned] using discriminantNames

/-- The actions that decode the discriminant mention names. -/
theorem named_unpackDiscriminant : Action.Named (unpackDiscriminant layout) := by
  have discriminantNames := readable.discriminant.named readable.declares
  simpa [unpackDiscriminant, Action.Named, Action.mentioned] using discriminantNames

/-- The discriminant is encoded and decoded alike. -/
theorem agree_discriminant :
    Agree ⟨[layout.discriminant], [], []⟩ ((packDiscriminant layout).flatMap (·.events))
      ((unpackDiscriminant layout).flatMap (·.events)) := by
  have coded : forall each, each ∈ [layout.discriminant] -> (way? each.coding).isSome :=
    List.forall_mem_singleton.mpr (readable.discriminant.coded readable.declares)
  simpa [packDiscriminant, unpackDiscriminant, encodeEvents, decodeEvents, Action.events] using
    Agree.fields coded

/-- The discriminant and the body that is chosen are encoded and decoded alike. -/
theorem agree_chosen :
    let equals label := equal layout.discriminant.name (literal label)
    Agree (plan equal layout)
      ((packDiscriminant layout ++ (choice packBody layout).taken equals).flatMap (·.events))
      ((unpackDiscriminant layout ++ (choice unpackBody layout).taken equals).flatMap
        (·.events)) := by
  intro equals
  rw [taken_choice, taken_choice, List.flatMap_append, List.flatMap_append, plan]
  have discriminant := agree_discriminant readable
  cases chosen : layout.chosen equals with
  | none => exact discriminant.append (.refused layout.discriminant.name)
  | some field =>
      have body := agree_body (readable.bodies field (mem_bodies_of_chosen chosen))
      simpa [refusals_bodyPlan] using discriminant.append body

/-- Some actions and then the choice of a body are executed to the end. -/
theorem execute_chosen {first : List Action} {body : Field -> List Action}
    (firstNamed : Action.Named first)
    (firstSteady : (first.flatMap (·.events)).filterMap Event.refusal? = [])
    (named : forall field, field ∈ layout.bodies -> Action.Named (body field))
    (steady : forall field, field ∈ layout.bodies ->
      ((body field).flatMap (·.events)).filterMap Event.refusal? = []) :
    let equals label := equal layout.discriminant.name (literal label)
    "" ∉ (actionCode first ++ (choice body layout).code).linesAt 0 ∧
      execute equal false false ((actionCode first ++ (choice body layout).code).linesAt 0) =
        some ((first ++ (choice body layout).taken equals).flatMap (·.events)) := by
  intro equals
  constructor
  · exact filled_method readable firstNamed named
  · rw [execute_actionCode firstNamed, execute_choice (named_choice readable named),
      List.flatMap_append, <- foldr_andThen firstSteady]
    congr 1
    show List.foldr _ _ (((choice body layout).taken equals).flatMap _) = _
    rw [taken_choice]
    cases chosen : layout.chosen equals with
    -- A refusal ends the execution, but nothing follows the choice.
    | none => rfl
    | some field =>
        have listed := mem_bodies_of_chosen chosen
        rw [foldr_andThen (steady field listed), List.append_nil]

/-- The methods of the class of a union encode and decode its discriminant and the body
that is chosen. -/
theorem performs {after : List String} {body : Code}
    (code : Union.code name layout = .single ("class " ++ name ++ ":") body)
    (found : behindLast? ("class " ++ name ++ ":") (Text.lines types) =
      some (body.linesAt 1 ++ after)) :
    Performs equal (plan equal layout) name types := by
  have packNamed := named_packDiscriminant readable
  have unpackNamed := named_unpackDiscriminant readable
  have agree := agree_discriminant readable
  have bodies field listed := agree_body (readable.bodies field listed)
  obtain ⟨packFilled, packs⟩ := execute_chosen readable packNamed agree.packedRefusals
    (fun field listed => named_packBody (readable.bodies field listed))
    (fun field listed => (bodies field listed).packedRefusals.trans (refusals_bodyPlan field))
  obtain ⟨unpackFilled, unpacks⟩ := execute_chosen readable unpackNamed agree.unpackedRefusals
    (fun field listed => named_unpackBody (readable.bodies field listed))
    (fun field listed => (bodies field listed).unpackedRefusals.trans (refusals_bodyPlan field))
  cases code
  exact performs_of_bodies found packFilled unpackFilled packs unpacks (agree_chosen readable)

end

end Union

end Python

/-! ## Accepted source texts -/

/-- Whatever the comparisons of a discriminant give, the methods of the class of a structure
or a union encode and decode what it consists of. -/
def Emission.PerformsIn (types : String) : Emission -> Prop
  | .struct name fields =>
      forall equal, Python.Performs equal (Python.Struct.plan fields) name types
  | .union name layout =>
      forall equal, Python.Performs equal (Python.Union.plan equal layout) name types
  | _ => True

/-- The methods of every record class of an accepted source text encode and decode alike,
whatever the comparisons in them give. Left open is what becomes of the calls: what the routines
and the other classes do, and whether the helper that insists on attributes can be called with
the keywords that it is passed, which `Signature.bind?` decides. -/
theorem Compiler.compile_performs (naming : Naming) (source : String) (compilation : Compilation)
    (final : Compiler)
    (success : Compiler.start.compile (Python.backend naming) source = (.ok compilation, final)) :
    forall emission, emission ∈ final.emissions ->
      emission.PerformsIn compilation.artifacts.types := by
  obtain ⟨definitions, emissions, parsed, run, emitted, rendered⟩ := compile_modules success
  rw [rendered, emitted]
  intro emission listed
  rcases List.mem_append.mp listed with isPrimitive | own
  · rw [emissions_start] at isPrimitive
    obtain ⟨routine, -, rfl⟩ := List.mem_map.mp isPrimitive
    trivial
  · obtain ⟨definition, known, binding, isDefinition, accepted⟩ := run.exists_definition own
    have lexed := Lexing.lexed_of_parse parsed _ isDefinition
    have written := TokenStream.written_of_parse parsed _ isDefinition
    cases accepted with
    | constant | enum | typedef => trivial
    | @struct name fields line members new completed =>
        intro equal
        have isClass : Python.ClassBinding.struct name members ∈ emissions.flatMap Python.classes :=
          List.mem_flatMap.mpr ⟨_, own, List.mem_cons_self⟩
        obtain ⟨after, found⟩ := Python.behindLast?_of_run naming run parsed isClass rfl
        obtain ⟨-, members⟩ := Lexed.struct lexed
        have readable := Python.forall_members Python.readable_field completed members written
        exact Python.Struct.performs readable rfl found
    | @union name discriminant switch line layout new declares completed =>
        intro equal
        have isClass : Python.ClassBinding.union name layout ∈ emissions.flatMap Python.classes :=
          List.mem_flatMap.mpr ⟨_, own, List.mem_cons_self⟩
        obtain ⟨after, found⟩ := Python.behindLast?_of_run naming run parsed isClass rfl
        obtain ⟨-, selects, cases⟩ := Lexed.union lexed
        have readable := Python.readable_layout completed declares selects cases written
        exact Python.Union.performs readable rfl found

/-- A structure with a field without a value, and a union by three results of comparing its
discriminant: an arm that holds a record, one that holds nothing, and none. -/
theorem Compiler.compile_performs_pick :
    let source := "struct item \x7b unsigned id; void; item links[2]; \x7d; " ++
      "union pick switch (int k) \x7b case 0: case -1: item chosen; case 2: void; \x7d;"
    let number : Field :=
      ⟨⟨"id", ⟨"unsigned_int", some "uint", .scalar, false, false⟩, 1⟩, .routine "unsigned_int"⟩
    let nothing : Field := ⟨.void 1, .void⟩
    let links : Field := ⟨⟨"links", ⟨"item", none, .fixed (.number "2"), false, false⟩, 1⟩,
      .recordArray "item" (some (.number "2"))⟩
    let selector : Field := ⟨⟨"k", ⟨"int", some "int", .scalar, false, false⟩, 1⟩, .routine "int"⟩
    let item : Field := ⟨⟨"chosen", ⟨"item", none, .scalar, false, false⟩, 1⟩, .record "item"⟩
    let layout : UnionLayout :=
      ⟨selector, [⟨[.number "0", .number "-1"], item⟩, ⟨[.number "2"], nothing⟩], none⟩
    ∃ compilation final,
      Compiler.start.compile (Python.backend .standard) source = (.ok compilation, final) ∧
      .struct "item" [number, nothing, links] ∈ final.emissions ∧
      .union "pick" layout ∈ final.emissions ∧
      Python.Performs (fun _ _ => false) ⟨[number, links], [], []⟩ "item"
        compilation.artifacts.types ∧
      Python.Performs (fun _ text => text == "-1") ⟨[selector, item], [some "chosen"], []⟩ "pick"
        compilation.artifacts.types ∧
      Python.Performs (fun _ text => text == "2") ⟨[selector], [none], []⟩ "pick"
        compilation.artifacts.types ∧
      Python.Performs (fun _ _ => false) ⟨[selector], [], ["k"]⟩ "pick"
        compilation.artifacts.types := by
  intro source number nothing links selector item layout
  obtain ⟨compilation, final, success⟩ : ∃ compilation final,
      Compiler.start.compile (Python.backend .standard) source = (.ok compilation, final) :=
    exists_of_isOk (by decide +kernel)
  have performs := compile_performs .standard source compilation final success
  have emitted : [.struct "item" [number, nothing, links], .union "pick" layout] ⊆
      (Compiler.start.compile (Python.backend .standard) source).2.emissions := by
    decide +kernel
  rw [success] at emitted
  have struct := emitted List.mem_cons_self
  have union := emitted (List.mem_cons_of_mem _ List.mem_cons_self)
  exact ⟨compilation, final, success, struct, union, performs _ struct _, performs _ union _,
    performs _ union _, performs _ union _⟩

end XdrPack
