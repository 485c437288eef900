import XdrPack.Code

/-!
# The lines of rendered code

Code whose texts are single lines is rendered as a list of lines, each with the
indentation of the blocks around it, and the lines of the text are these lines again.
Code that is written on its own first and then inserted comes out as if it had been
written in its place.
-/

namespace XdrPack

/-! ## Lines of a text -/

/-- A text without line ends that can be followed by one. -/
structure OneLine (text : String) : Prop where
  unbroken : '\n' ∉ text.toList
  closed : text.toList.getLast? ≠ some '\r'

namespace Text

/-- The text of some lines, each with a line end. -/
def unlines (lines : List String) : String := String.join (lines.map (· ++ "\n"))

@[simp]
theorem unlines_nil : unlines [] = "" := rfl

@[simp]
theorem unlines_cons (line : String) (lines : List String) :
    unlines (line :: lines) = line ++ "\n" ++ unlines lines := by
  simp [unlines, String.join_cons]

@[simp]
theorem unlines_append (first second : List String) :
    unlines (first ++ second) = unlines first ++ unlines second := by
  induction first with
  | nil => simp
  | cons line lines inductionHypothesis => simp [inductionHypothesis, String.append_assoc]

/-- A character that does not end a line extends the first line. -/
theorem linesOf_cons {c : Char} {rest : List Char} (notEnd : c ≠ '\n')
    (notReturn : c = '\r' -> rest.head? ≠ some '\n') :
    linesOf (c :: rest) = extendFirst c (linesOf rest) := by
  rw [linesOf]
  · exact notEnd
  · rintro after rfl rfl
    exact notReturn rfl rfl

/-- A text that is not empty has a line. -/
theorem linesOf_ne_nil {text : List Char} (notEmpty : text ≠ []) : linesOf text ≠ [] := by
  fun_cases linesOf text with
  | case1 => exact absurd rfl notEmpty
  | case2 | case3 => simp
  | case4 c rest => cases linesOf rest <;> simp [extendFirst]

/-- A line end separates the lines before it from those behind it. -/
theorem linesOf_append (before after : List Char) :
    linesOf (before ++ '\n' :: after) = linesOf (before ++ ['\n']) ++ linesOf after := by
  induction before using linesOf.induct with
  | case1 => rfl
  | case2 rest inductionHypothesis =>
      exact congrArg ([] :: ·) inductionHypothesis
  | case3 rest inductionHypothesis =>
      exact congrArg ([] :: ·) inductionHypothesis
  | case4 c rest notEnd notReturn inductionHypothesis =>
      -- A return at the very end belongs to the line end that follows.
      by_cases atEnd : c = '\r' ∧ rest = []
      · obtain ⟨rfl, rfl⟩ := atEnd
        rfl
      · have extended : forall {others : List Char},
            linesOf (c :: (rest ++ '\n' :: others)) =
              extendFirst c (linesOf (rest ++ '\n' :: others)) := by
          intro others
          refine linesOf_cons notEnd fun isReturn starts => ?_
          cases rest with
          | nil => exact atEnd ⟨isReturn, rfl⟩
          | cons next more =>
              obtain rfl : next = '\n' := by simpa using starts
              exact notReturn more isReturn rfl
        rw [List.cons_append, List.cons_append, extended, extended, inductionHypothesis]
        cases lines : linesOf (rest ++ ['\n']) with
        | nil => exact absurd lines (linesOf_ne_nil (by simp))
        | cons first others => rfl

/-- A text without line ends is the first line of what it is followed by. -/
theorem linesOf_line {line : List Char} (unbroken : '\n' ∉ line)
    (closed : line.getLast? ≠ some '\r') (rest : List Char) :
    linesOf (line ++ '\n' :: rest) = line :: linesOf rest := by
  induction line with
  | nil => rfl
  | cons c others inductionHypothesis =>
      have notEnd : c ≠ '\n' := by
        rintro rfl
        exact unbroken List.mem_cons_self
      have othersUnbroken : '\n' ∉ others := fun listed => unbroken (List.mem_cons_of_mem c listed)
      cases others with
      | nil =>
          have notReturn : c ≠ '\r' := by
            rintro rfl
            exact closed rfl
          rw [List.cons_append, linesOf_cons notEnd fun isReturn => absurd isReturn notReturn]
          rfl
      | cons next more =>
          have notNext : next ≠ '\n' := by
            rintro rfl
            exact othersUnbroken List.mem_cons_self
          rw [List.cons_append, linesOf_cons notEnd fun _ => by simpa using notNext,
            inductionHypothesis othersUnbroken (by simpa using closed)]
          rfl

/-- The lines of a text made of lines. -/
theorem lines_unlines {lines : List String}
    (areLines : forall line, line ∈ lines -> OneLine line) :
    Text.lines (unlines lines) = lines := by
  induction lines with
  | nil => simp [Text.lines, linesOf]
  | cons line others inductionHypothesis =>
      obtain ⟨isLine, othersAreLines⟩ := List.forall_mem_cons.mp areLines
      have chars : (unlines (line :: others)).toList =
          line.toList ++ '\n' :: (unlines others).toList := by
        simp
      rw [Text.lines, chars, linesOf_line isLine.unbroken isLine.closed, List.map_cons,
        String.ofList_toList]
      exact congrArg (line :: ·) (inductionHypothesis othersAreLines)

/-- The lines of a text with lines in front of it, whatever these contain. -/
theorem lines_append_of_ended {before : List String} (notEmpty : before ≠ []) (rest : String) :
    Text.lines (unlines before ++ rest) = Text.lines (unlines before) ++ Text.lines rest := by
  obtain ⟨others, last, rfl⟩ := List.eq_nil_or_concat before |>.resolve_left notEmpty
  rw [List.concat_eq_append]
  have chars : (unlines (others ++ [last])).toList =
      (unlines others ++ last).toList ++ ['\n'] := by
    simp
  rw [Text.lines, Text.lines, Text.lines, String.toList_append, chars, List.append_assoc,
    <- List.map_append]
  exact congrArg _ (linesOf_append _ _)

end Text

/-! ## Indentation -/

/-- A line with its indentation, of which an empty line has none. -/
def indented (depth : Nat) (text : String) : String :=
  if text.isEmpty then "" else Writer.indent depth ++ text

@[simp]
theorem indented_empty (depth : Nat) : indented depth "" = "" := rfl

/-- The indentation is four spaces for each level. -/
theorem toList_indent (depth : Nat) :
    (Writer.indent depth).toList = List.replicate (4 * depth) ' ' := by
  have repeated : forall count, (Nat.repeat (fun text : String => text.push ' ') count "").toList =
      List.replicate count ' ' := by
    intro count
    induction count with
    | zero => rfl
    | succ count inductionHypothesis =>
        rw [Nat.repeat, String.toList_push, inductionHypothesis, List.replicate_succ']
  exact repeated (4 * depth)

/-- Nothing is put in front of a line at depth zero. -/
theorem indented_zero (text : String) : indented 0 text = text := by
  unfold indented
  split
  · next empty => exact (String.isEmpty_iff.mp empty).symm
  · exact String.empty_append

/-- The characters of an indented line that is not empty. -/
theorem toList_indented {text : String} (notEmpty : text ≠ "") (depth : Nat) :
    (indented depth text).toList = List.replicate (4 * depth) ' ' ++ text.toList := by
  rw [indented, if_neg (by simpa using notEmpty), String.toList_append, toList_indent]

@[simp]
theorem indented_eq_empty {depth : Nat} {text : String} : indented depth text = "" ↔ text = "" := by
  constructor
  · intro isEmpty
    refine Decidable.byContradiction fun notEmpty => ?_
    have chars := toList_indented notEmpty depth
    rw [isEmpty] at chars
    simp [notEmpty] at chars
  · rintro rfl
    rfl

/-- Indentation adds up. -/
theorem indented_add (depth more : Nat) (text : String) :
    indented (depth + more) text = indented more (indented depth text) := by
  by_cases empty : text = ""
  · subst empty
    rfl
  · have inner : indented depth text ≠ "" := by simpa using empty
    rw [<- String.toList_inj, toList_indented empty, toList_indented inner, toList_indented empty,
      <- List.append_assoc, List.replicate_append_replicate, Nat.mul_add, Nat.add_comm]

/-- Different lines stay different when they are indented. -/
theorem indented_inj {depth : Nat} {first second : String}
    (same : indented depth first = indented depth second) : first = second := by
  by_cases empty : first = ""
  · subst empty
    exact (indented_eq_empty.mp same.symm).symm
  · have notEmpty : second ≠ "" := by
      rintro rfl
      exact empty (indented_eq_empty.mp same)
    have chars := congrArg String.toList same
    rw [toList_indented empty, toList_indented notEmpty] at chars
    exact String.toList_inj.mp (List.append_cancel_left chars)

/-- Indentation keeps a line. -/
theorem OneLine.indented {text : String} (isLine : OneLine text) (depth : Nat) :
    OneLine (indented depth text) := by
  unfold XdrPack.indented
  split
  · exact ⟨by simp, by simp⟩
  · next notEmpty =>
      have chars : text.toList ≠ [] := by simpa using notEmpty
      refine ⟨?_, ?_⟩
      · rw [String.toList_append, toList_indent]
        simpa using isLine.unbroken
      · rw [String.toList_append, List.getLast?_append]
        cases last : text.toList.getLast? with
        | none => exact absurd (List.getLast?_eq_none_iff.mp last) chars
        | some c =>
            have closed := isLine.closed
            rwa [last] at closed

namespace Writer

/-- Writing a line adds it with its indentation and a line end. -/
theorem line_eq (writer : Writer) (text : String) :
    writer.line text =
      { writer with text := writer.text ++ Text.unlines [indented writer.depth text] } := by
  unfold line indented
  split
  · simp
  · simp [String.append_assoc]

/-- Writing lines adds each of them. -/
theorem foldl_line (writer : Writer) (lines : List String) :
    lines.foldl line writer =
      { writer with text := writer.text ++ Text.unlines (lines.map (indented writer.depth)) } := by
  induction lines generalizing writer with
  | nil => simp
  | cons text others inductionHypothesis =>
      rw [List.foldl_cons, inductionHypothesis, line_eq]
      simp [String.append_assoc]

end Writer

/-! ## Code -/

namespace Code

/-- Every text of the code has the property, and none is written as it is. -/
def Lined (property : String -> Prop) : Code -> Prop
  | done => True
  | line text rest => property text ∧ rest.Lined property
  | blank rest => rest.Lined property
  | raw _ _ => False
  | block header body rest => property header ∧ body.Lined property ∧ rest.Lined property
  | inset body rest => body.Lined property ∧ rest.Lined property

/-- The lines of code that is written at a depth. -/
def linesAt (depth : Nat) : Code -> List String
  | done => []
  | line text rest => indented depth text :: rest.linesAt depth
  | blank rest => "" :: rest.linesAt depth
  | raw _ rest => rest.linesAt depth
  | block header body rest =>
      indented depth header :: body.linesAt (depth + 1) ++ rest.linesAt depth
  | inset body rest => (body.linesAt 0).map (indented depth) ++ rest.linesAt depth

/-- The lines of code are lines if its texts are. -/
theorem Lined.oneLine {code : Code} (lined : code.Lined OneLine) (depth : Nat) :
    forall line, line ∈ code.linesAt depth -> OneLine line := by
  induction code generalizing depth with
  | done => simp [linesAt]
  | line text rest inductionHypothesis =>
      exact List.forall_mem_cons.mpr ⟨lined.1.indented depth, inductionHypothesis lined.2 depth⟩
  | blank rest inductionHypothesis =>
      exact List.forall_mem_cons.mpr ⟨⟨by simp, by simp⟩, inductionHypothesis lined depth⟩
  | raw text rest => exact absurd lined id
  | block header body rest bodyHypothesis inductionHypothesis =>
      obtain ⟨isLine, bodyLined, restLined⟩ := lined
      refine List.forall_mem_append.mpr ⟨List.forall_mem_cons.mpr ⟨isLine.indented depth, ?_⟩, ?_⟩
      · exact bodyHypothesis bodyLined (depth + 1)
      · exact inductionHypothesis restLined depth
  | inset body rest bodyHypothesis inductionHypothesis =>
      refine List.forall_mem_append.mpr ⟨?_, inductionHypothesis lined.2 depth⟩
      refine List.forall_mem_map.mpr fun line listed => ?_
      exact (bodyHypothesis lined.1 0 line listed).indented depth

end Code

/-- Writing code adds its lines and keeps the depth. -/
theorem Writer.write_eq {code : Code} (lined : code.Lined OneLine) (writer : Writer) :
    writer.write code =
      { writer with text := writer.text ++ Text.unlines (code.linesAt writer.depth) } := by
  induction code generalizing writer with
  | done => simp [write, Code.linesAt]
  | line text rest inductionHypothesis =>
      rw [write, inductionHypothesis lined.2, line_eq]
      simp [Code.linesAt, String.append_assoc]
  | blank rest inductionHypothesis =>
      rw [write, inductionHypothesis lined]
      simp [blank, Code.linesAt, String.append_assoc]
  | raw text rest => exact absurd lined id
  | block header body rest bodyHypothesis inductionHypothesis =>
      obtain ⟨-, bodyLined, restLined⟩ := lined
      rw [write, inductionHypothesis restLined, bodyHypothesis bodyLined, line_eq]
      simp [deeper, shallower, Code.linesAt, String.append_assoc]
  | inset body rest bodyHypothesis inductionHypothesis =>
      -- The text of the body falls into the very lines that it was written from.
      have insideLines : Text.lines (empty.write body).text = body.linesAt 0 := by
        rw [bodyHypothesis lined.1]
        simpa [empty] using Text.lines_unlines (lined.1.oneLine 0)
      rw [write, inset, insideLines, foldl_line, inductionHypothesis lined.2]
      simp [Code.linesAt, String.append_assoc]

/-- The lines of rendered code. -/
theorem Code.lines_render {code : Code} (lined : code.Lined OneLine) :
    Text.lines code.render = code.linesAt 0 := by
  rw [render, Writer.write_eq lined]
  simpa [Writer.empty] using Text.lines_unlines (lined.oneLine 0)

/-- Lines that are rendered before other code are followed by its lines, whatever they
contain. -/
theorem Code.lines_render_append {texts : List String} (notEmpty : texts ≠ []) {code : Code}
    (lined : code.Lined OneLine) :
    Text.lines (Code.lines texts ++ code).render =
      Text.lines (Text.unlines texts) ++ code.linesAt 0 := by
  have written : forall (texts : List String) (writer : Writer), writer.depth = 0 ->
      writer.write (Code.lines texts ++ code) =
        (Writer.mk (writer.text ++ Text.unlines texts) 0).write code := by
    intro texts
    induction texts with
    | nil =>
        rintro ⟨text, depth⟩ rfl
        simp [Code.lines]
    | cons first others inductionHypothesis =>
        intro writer atStart
        show (writer.line first).write (Code.lines others ++ code) = _
        rw [inductionHypothesis _ (by simpa [Writer.line_eq] using atStart), Writer.line_eq,
          atStart, indented_zero]
        simp [String.append_assoc]
  rw [render, written texts Writer.empty rfl, Writer.write_eq lined]
  simp only [Writer.empty, String.empty_append]
  rw [Text.lines_append_of_ended notEmpty, Text.lines_unlines (lined.oneLine 0)]

/-! ## Pieces of code -/

namespace Code

variable {property : String -> Prop}

@[simp]
theorem linesAt_append (depth : Nat) (first second : Code) :
    (first ++ second).linesAt depth = first.linesAt depth ++ second.linesAt depth := by
  show (first.append second).linesAt depth = _
  induction first with
  | done => rfl
  | _ => simp_all [append, linesAt]

@[simp]
theorem linesAt_concat (depth : Nat) (pieces : List Code) :
    (concat pieces).linesAt depth = pieces.flatMap (·.linesAt depth) := by
  induction pieces with
  | nil => rfl
  | cons first rest inductionHypothesis =>
      rw [List.flatMap_cons, <- inductionHypothesis, <- linesAt_append]
      rfl

@[simp]
theorem linesAt_lines (depth : Nat) (texts : List String) :
    (lines texts).linesAt depth = texts.map (indented depth) := by
  induction texts with
  | nil => rfl
  | cons first rest inductionHypothesis => exact congrArg (_ :: ·) inductionHypothesis

@[simp]
theorem lined_append {first second : Code} :
    (first ++ second).Lined property ↔ first.Lined property ∧ second.Lined property := by
  show (first.append second).Lined property ↔ _
  induction first with
  | done => simp [append, Lined]
  | _ => simp_all [append, Lined, and_assoc]

@[simp]
theorem lined_concat {pieces : List Code} :
    (concat pieces).Lined property ↔ forall piece, piece ∈ pieces -> piece.Lined property := by
  induction pieces with
  | nil => simp [concat, Lined]
  | cons first rest inductionHypothesis =>
      rw [List.forall_mem_cons, <- inductionHypothesis, <- lined_append]
      rfl

@[simp]
theorem lined_lines {texts : List String} :
    (lines texts).Lined property ↔ forall text, text ∈ texts -> property text := by
  induction texts with
  | nil => simp [lines, Lined]
  | cons first rest inductionHypothesis =>
      rw [List.forall_mem_cons, <- inductionHypothesis]
      rfl

/-- What holds of every text with one property holds of every text with another that
follows from it. -/
theorem Lined.imp {code : Code} {weaker : String -> Prop} (lined : code.Lined property)
    (implies : forall text, property text -> weaker text) : code.Lined weaker := by
  induction code with
  | done => trivial
  | line text rest inductionHypothesis => exact ⟨implies text lined.1, inductionHypothesis lined.2⟩
  | blank rest inductionHypothesis => exact inductionHypothesis lined
  | raw text rest => exact lined
  | block header body rest bodyHypothesis inductionHypothesis =>
      exact ⟨implies header lined.1, bodyHypothesis lined.2.1, inductionHypothesis lined.2.2⟩
  | inset body rest bodyHypothesis inductionHypothesis =>
      exact ⟨bodyHypothesis lined.1, inductionHypothesis lined.2⟩

/-- Code that is written deeper is indented more. -/
theorem linesAt_add (code : Code) (depth more : Nat) :
    code.linesAt (depth + more) = (code.linesAt depth).map (indented more) := by
  induction code generalizing depth with
  | done => rfl
  | line text rest inductionHypothesis =>
      simp only [linesAt, List.map_cons, indented_add depth more, inductionHypothesis]
  | blank rest inductionHypothesis =>
      simp only [linesAt, List.map_cons, indented_empty, inductionHypothesis]
  | raw text rest inductionHypothesis => exact inductionHypothesis depth
  | block header body rest bodyHypothesis inductionHypothesis =>
      simp only [linesAt, List.map_cons, List.map_append, indented_add depth more,
        inductionHypothesis, <- bodyHypothesis, Nat.add_right_comm]
  | inset body rest _ inductionHypothesis =>
      simp only [linesAt, List.map_append, List.map_map, inductionHypothesis]
      congr 2
      funext line
      exact indented_add depth more line

end Code

end XdrPack
