import XdrPack.Python.Module
import XdrPack.Proofs.Rendering

/-!
# The pieces of the generated modules

Every emission writes a piece of its own into each generated module, whatever names and
values it holds, and one into each class of the module of coding routines. The pieces
stand in the order of the emissions, and around them is what depends on the names of the
modules alone.
-/

namespace XdrPack

/-! ## Texts of code -/

/-- The text of code that is written at a depth. -/
def Code.textAt (depth : Nat) (code : Code) : String := ((Writer.mk "" depth).write code).text

/-- Writing code adds its text and keeps the depth. -/
theorem Writer.write_textAt (writer : Writer) (code : Code) :
    writer.write code = { writer with text := writer.text ++ code.textAt writer.depth } := by
  induction code generalizing writer with
  | done => simp [write, Code.textAt]
  | line text rest inductionHypothesis =>
      rw [Code.textAt, write, write, inductionHypothesis, inductionHypothesis (line _ _), line_eq,
        line_eq]
      simp [String.append_assoc]
  | blank rest inductionHypothesis =>
      rw [Code.textAt, write, write, inductionHypothesis, inductionHypothesis (blank _)]
      simp [blank, String.append_assoc]
  | raw text rest inductionHypothesis =>
      rw [Code.textAt, write, write, inductionHypothesis, inductionHypothesis (raw _ _)]
      simp [raw, String.append_assoc]
  | block header body rest bodyHypothesis inductionHypothesis =>
      rw [Code.textAt, write, write, bodyHypothesis, inductionHypothesis,
        bodyHypothesis (deeper (line (mk "" _) _)), inductionHypothesis (shallower _), line_eq,
        line_eq]
      simp [deeper, shallower, String.append_assoc]
  | inset body rest _ inductionHypothesis =>
      rw [Code.textAt, write, write, inductionHypothesis, inductionHypothesis (inset _ _), inset,
        inset, foldl_line, foldl_line]
      simp [String.append_assoc]

namespace Code

/-- Code is written piece by piece. -/
theorem write_append (writer : Writer) (first second : Code) :
    writer.write (first ++ second) = (writer.write first).write second := by
  show writer.write (first.append second) = _
  induction first generalizing writer with
  | done => rfl
  | line text rest inductionHypothesis => exact inductionHypothesis _
  | blank rest inductionHypothesis => exact inductionHypothesis _
  | raw text rest inductionHypothesis => exact inductionHypothesis _
  | block header body rest _ inductionHypothesis => exact inductionHypothesis _
  | inset body rest _ inductionHypothesis => exact inductionHypothesis _

@[simp]
theorem textAt_append (depth : Nat) (first second : Code) :
    (first ++ second).textAt depth = first.textAt depth ++ second.textAt depth := by
  rw [textAt, write_append, Writer.write_textAt, Writer.write_textAt]
  simp

@[simp]
theorem textAt_concat (depth : Nat) (codes : List Code) :
    (concat codes).textAt depth = String.join (codes.map (·.textAt depth)) := by
  induction codes with
  | nil => rfl
  | cons first rest inductionHypothesis =>
      rw [List.map_cons, String.join_cons, <- inductionHypothesis, <- textAt_append]
      rfl

/-- The text of lines at a depth. -/
theorem textAt_lines (depth : Nat) (texts : List String) :
    (lines texts).textAt depth = Text.unlines (texts.map (indented depth)) := by
  induction texts with
  | nil => rfl
  | cons text rest inductionHypothesis =>
      show (line text (lines rest)).textAt depth = _
      rw [textAt, Writer.write, Writer.write_textAt, Writer.line_eq]
      simp [inductionHypothesis]

/-- The text of a block is its header and its body, which is one level deeper. -/
theorem textAt_single (depth : Nat) (header : String) (body : Code) :
    (single header body).textAt depth =
      Text.unlines [indented depth header] ++ body.textAt (depth + 1) := by
  rw [textAt, single, Writer.write, Writer.write_textAt _ body, Writer.line_eq]
  simp [Writer.deeper, Writer.shallower, Writer.write]

/-- The text of code that is written on its own first: its lines at the depth. -/
theorem textAt_inset (depth : Nat) (body : Code) :
    (inset body done).textAt depth =
      Text.unlines ((Text.lines (body.textAt 0)).map (indented depth)) := by
  rw [textAt, Writer.write, Writer.inset, Writer.foldl_line]
  simp [Writer.write, Writer.empty, textAt]

/-- Code that writes nothing as it is writes lines. -/
theorem Lined.exists_unlines {code : Code} {property : String -> Prop}
    (lined : code.Lined property) (depth : Nat) :
    ∃ lines, code.textAt depth = Text.unlines lines := by
  induction code generalizing depth with
  | done => exact ⟨[], rfl⟩
  | line text rest inductionHypothesis =>
      obtain ⟨others, written⟩ := inductionHypothesis lined.2 depth
      refine ⟨indented depth text :: others, ?_⟩
      rw [textAt, Writer.write, Writer.write_textAt, Writer.line_eq]
      simp [written]
  | blank rest inductionHypothesis =>
      obtain ⟨others, written⟩ := inductionHypothesis lined depth
      refine ⟨"" :: others, ?_⟩
      rw [textAt, Writer.write, Writer.write_textAt]
      simp [Writer.blank, written]
  | raw text rest => exact absurd lined id
  | block header body rest bodyHypothesis inductionHypothesis =>
      obtain ⟨inner, writtenInner⟩ := bodyHypothesis lined.2.1 (depth + 1)
      obtain ⟨others, written⟩ := inductionHypothesis lined.2.2 depth
      refine ⟨indented depth header :: inner ++ others, ?_⟩
      show (single header body ++ rest).textAt depth = _
      rw [textAt_append, textAt_single, writtenInner, written]
      simp [String.append_assoc]
  | inset body rest _ inductionHypothesis =>
      obtain ⟨others, written⟩ := inductionHypothesis lined.2 depth
      refine ⟨(Text.lines (body.textAt 0)).map (indented depth) ++ others, ?_⟩
      show (inset body done ++ rest).textAt depth = _
      rw [textAt_append, textAt_inset, written]
      simp

/-- Several pieces of code that are written on their own first come out one after the
other, as every piece ends with a line end. -/
theorem textAt_inset_concat (depth : Nat) {codes : List Code}
    (lined : forall code, code ∈ codes -> code.Lined fun _ => True) :
    (inset (concat codes) done).textAt depth =
      String.join (codes.map fun code => (inset code done).textAt depth) := by
  induction codes with
  | nil => rfl
  | cons first rest inductionHypothesis =>
      obtain ⟨firstLined, restLined⟩ := List.forall_mem_cons.mp lined
      obtain ⟨lines, written⟩ := firstLined.exists_unlines 0
      have separate : Text.lines ((concat (first :: rest)).textAt 0) =
          Text.lines (first.textAt 0) ++ Text.lines ((concat rest).textAt 0) := by
        show Text.lines ((first ++ concat rest).textAt 0) = _
        rw [textAt_append, written]
        cases lines with
        | nil => simp [Text.lines, Text.linesOf]
        | cons line others => exact Text.lines_append_of_ended (by simp) _
      rw [List.map_cons, String.join_cons, <- inductionHypothesis restLined, textAt_inset,
        textAt_inset, textAt_inset, separate, List.map_append, Text.unlines_append]

end Code

/-! ## Pieces -/

namespace Python

/-- What is written for an emission into the module of constants, the module of record
classes, and the two classes of the module of coding routines. -/
structure Pieces where
  constants : String
  types : String
  packer : String
  unpacker : String
  deriving DecidableEq, Repr

/-- The code of routines inside their class. -/
def routinesText (codes : List Code) : String := (Code.inset (.concat codes) .done).textAt 1

/-- The pieces of some emissions. -/
def pieces (emissions : List Emission) : Pieces :=
  let routines := emissions.flatMap routines
  { constants := (Code.concat ((emissions.flatMap constants).map (·.code))).textAt 0
    types := (Code.concat ((emissions.flatMap classes).map (·.code))).textAt 0
    packer := routinesText (routines.map (·.packCode))
    unpacker := routinesText (routines.map (·.unpackCode)) }

/-- An encoding routine writes nothing as it is. -/
theorem Routine.lined_packCode (routine : Routine) : routine.packCode.Lined fun _ => True := by
  obtain ⟨name, body⟩ := routine
  cases body <;> simp [packCode, Code.Lined]

/-- A decoding routine writes nothing as it is. -/
theorem Routine.lined_unpackCode (routine : Routine) : routine.unpackCode.Lined fun _ => True := by
  obtain ⟨name, body⟩ := routine
  cases body <;> simp [unpackCode, Code.Lined]

/-- Routines come out in their class piece by piece. -/
theorem routinesText_append {first second : List Code}
    (lined : forall code, code ∈ first ++ second -> code.Lined fun _ => True) :
    routinesText (first ++ second) = routinesText first ++ routinesText second := by
  obtain ⟨firstLined, secondLined⟩ := List.forall_mem_append.mp lined
  rw [routinesText, routinesText, routinesText, Code.textAt_inset_concat 1 lined,
    Code.textAt_inset_concat 1 firstLined, Code.textAt_inset_concat 1 secondLined,
    List.map_append, String.join_append]

/-- The pieces of emissions are those of the first ones, and then those of the others. -/
theorem pieces_append (first second : List Emission) :
    pieces (first ++ second) =
      ⟨(pieces first).constants ++ (pieces second).constants,
        (pieces first).types ++ (pieces second).types,
        (pieces first).packer ++ (pieces second).packer,
        (pieces first).unpacker ++ (pieces second).unpacker⟩ := by
  have packing : forall routines : List Routine, forall code,
      code ∈ routines.map (·.packCode) -> code.Lined fun _ => True := by
    intro routines
    exact List.forall_mem_map.mpr fun routine _ => routine.lined_packCode
  have unpacking : forall routines : List Routine, forall code,
      code ∈ routines.map (·.unpackCode) -> code.Lined fun _ => True := by
    intro routines
    exact List.forall_mem_map.mpr fun routine _ => routine.lined_unpackCode
  simp only [pieces, List.flatMap_append, Code.textAt_concat, List.map_append, String.join_append,
    Pieces.mk.injEq, true_and]
  constructor
  · refine routinesText_append ?_
    rw [<- List.map_append]
    exact packing _
  · refine routinesText_append ?_
    rw [<- List.map_append]
    exact unpacking _

/-- The start of the module of coding routines, up to the first class. -/
def packerStart (naming : Naming) : String :=
  Text.unlines (packerPreamble naming
    ++ ["class " ++ naming.classPrefix ++ "Packer(rpc.Packer):"])

/-- What stands between the routines of the two classes. -/
def unpackerStart (naming : Naming) : String :=
  Text.unlines ["", "", "class " ++ naming.classPrefix ++ "Unpacker(rpc.Unpacker):"]

/-- The generated modules consist of the pieces of the emissions, in what depends on the
names of the modules alone. -/
theorem artifacts_eq (naming : Naming) (emissions : List Emission) :
    artifacts naming emissions =
      { constants := (pieces emissions).constants
        types := Text.unlines (typesPreamble naming) ++ (pieces emissions).types
        packer := packerStart naming ++ (pieces emissions).packer ++ unpackerStart naming
          ++ (pieces emissions).unpacker } := by
  have rendered : forall code : Code, code.render = code.textAt 0 := fun _ => rfl
  have blanks : (Code.blank (.blank .done)).textAt 0 = Text.unlines ["", ""] := by
    simp [Code.textAt, Writer.write, Writer.blank]
  have flat : forall texts, (Code.lines texts).textAt 0 = Text.unlines texts := by
    intro texts
    rw [Code.textAt_lines, show indented 0 = id from funext indented_zero, List.map_id]
  simp only [artifacts, rendered, constantsCode, typesCode, packerCode, routinesCode, pieces,
    routinesText, packerStart, unpackerStart, Code.textAt_append, Code.textAt_single, flat, blanks,
    indented_zero, Text.unlines_append, Text.unlines_cons, Text.unlines_nil, String.append_assoc,
    String.empty_append, String.append_empty, Nat.zero_add]

end Python

end XdrPack
