import Mathlib.Data.List.Chain
import XdrPack.Proofs.Rendering

/-!
# Indentation

The lines of a text that say something, those that are neither blank nor comments, are
well indented if a block that is opened by a line is never empty and is one level deeper
than the line, and if nothing else is deeper than the line before it. Code is rendered as
such a text if its lines start at the margin and its blocks have something to say.
-/

namespace XdrPack

/-! ## Lines -/

/-- The number of spaces in front of a line. -/
def indentation (line : String) : Nat := (line.toList.takeWhile (· == ' ')).length

/-- Whether a line is neither blank nor a comment. -/
def isStatement (line : String) : Bool :=
  (line.toList.dropWhile (· == ' ')).head?.any (· != '#')

/-- Whether a line ends in a colon. -/
def opensBlock (line : String) : Bool := line.toList.getLast? == some ':'

/-- The lines of a text that are neither blank nor comments. -/
def statementLines (text : String) : List String := (Text.lines text).filter isStatement

/-- The indentation of a text shows blocks that are not empty, each behind the line that
opens it. -/
structure WellIndented (text : String) : Prop where
  levels : forall line, line ∈ Text.lines text -> 4 ∣ indentation line
  margin : forall line, line ∈ (statementLines text).head? -> indentation line = 0
  /-- Only the body of a block is deeper than the line before it, by one level. -/
  deeper : forall before previous next after,
    statementLines text = before ++ previous :: next :: after ->
      indentation previous < indentation next ->
        opensBlock previous = true ∧ indentation next = indentation previous + 4
  /-- A block has a body. -/
  filled : forall before header after, statementLines text = before ++ header :: after ->
    opensBlock header = true ->
      ∃ first rest, after = first :: rest ∧ indentation first = indentation header + 4

/-- A line can stand behind another: inside it if that one opens a block, and not deeper if
it does not. -/
def Follows (previous next : String) : Prop :=
  if opensBlock previous then indentation next = indentation previous + 4
  else indentation next ≤ indentation previous

instance (previous next : String) : Decidable (Follows previous next) :=
  inferInstanceAs (Decidable (if opensBlock previous then
    indentation next = indentation previous + 4 else indentation next ≤ indentation previous))

/-- The lines are a sequence of statements at a depth, with the blocks that they open. -/
structure Nested (depth : Nat) (lines : List String) : Prop where
  levels : forall line, line ∈ lines -> 4 ∣ indentation line
  inside : forall line, line ∈ lines.filter isStatement -> 4 * depth ≤ indentation line
  starts : forall line, line ∈ (lines.filter isStatement).head? -> indentation line = 4 * depth
  chained : (lines.filter isStatement).IsChain Follows
  closed : forall line, line ∈ (lines.filter isStatement).getLast? -> opensBlock line = false

instance (depth : Nat) (lines : List String) : Decidable (Nested depth lines) :=
  let statements := lines.filter isStatement
  decidable_of_iff ((forall line, line ∈ lines -> 4 ∣ indentation line) ∧
      (forall line, line ∈ statements -> 4 * depth ≤ indentation line) ∧
      (forall line, line ∈ statements.head?.toList -> indentation line = 4 * depth) ∧
      statements.IsChain Follows ∧
      forall line, line ∈ statements.getLast?.toList -> opensBlock line = false)
    ⟨fun ⟨levels, inside, starts, chained, closed⟩ =>
      ⟨levels, inside, fun line first => starts line (Option.mem_toList.mpr first), chained,
        fun line last => closed line (Option.mem_toList.mpr last)⟩,
    fun nested => ⟨nested.levels, nested.inside,
      fun line first => nested.starts line (Option.mem_toList.mp first), nested.chained,
      fun line last => nested.closed line (Option.mem_toList.mp last)⟩⟩

/-- A text of such lines is well indented. -/
theorem Nested.wellIndented {text : String} (nested : Nested 0 (Text.lines text)) :
    WellIndented text where
  levels := nested.levels
  margin := nested.starts
  deeper := by
    intro before previous next after split less
    have chained := nested.chained
    rw [<- statementLines, split] at chained
    have follows : Follows previous next :=
      (List.isChain_cons_cons.mp (List.isChain_append.mp chained).2.1).1
    unfold Follows at follows
    split at follows
    · next opens => exact ⟨opens, follows⟩
    · omega
  filled := by
    intro before header after split opens
    cases after with
    | nil =>
        have last : header ∈ (statementLines text).getLast? := by simp [split]
        rw [nested.closed header last] at opens
        cases opens
    | cons first rest =>
        have chained := nested.chained
        rw [<- statementLines, split] at chained
        have follows : Follows header first :=
          (List.isChain_cons_cons.mp (List.isChain_append.mp chained).2.1).1
        rw [Follows, if_pos opens] at follows
        exact ⟨first, rest, rfl, follows⟩

/-- No lines form a sequence at any depth. -/
theorem nested_nil (depth : Nat) : Nested depth [] := by
  constructor <;> simp

/-- One sequence behind another is a sequence. -/
theorem Nested.append {depth : Nat} {first second : List String} (nestedFirst : Nested depth first)
    (nestedSecond : Nested depth second) : Nested depth (first ++ second) := by
  constructor
  · exact List.forall_mem_append.mpr ⟨nestedFirst.levels, nestedSecond.levels⟩
  · rw [List.filter_append]
    exact List.forall_mem_append.mpr ⟨nestedFirst.inside, nestedSecond.inside⟩
  · intro line isFirst
    rw [List.filter_append, List.head?_append] at isFirst
    rcases Option.or_eq_some_iff.mp isFirst with inFirst | ⟨-, inSecond⟩
    · exact nestedFirst.starts line inFirst
    · exact nestedSecond.starts line inSecond
  · rw [List.filter_append, List.isChain_append]
    refine ⟨nestedFirst.chained, nestedSecond.chained, fun previous isLast next isFirst => ?_⟩
    -- The second part starts at the depth, and the first is nowhere less deep.
    have within := nestedFirst.inside previous (List.mem_of_getLast? isLast)
    have starts := nestedSecond.starts next isFirst
    rw [Follows, nestedFirst.closed previous isLast, if_neg Bool.false_ne_true]
    omega
  · intro line isLast
    rw [List.filter_append, List.getLast?_append] at isLast
    rcases Option.or_eq_some_iff.mp isLast with inSecond | ⟨-, inFirst⟩
    · exact nestedSecond.closed line inSecond
    · exact nestedFirst.closed line inFirst

/-- A line that says nothing is a sequence at every depth. -/
theorem nested_silent {line : String} (silent : isStatement line = false)
    (level : 4 ∣ indentation line) (depth : Nat) : Nested depth [line] := by
  constructor <;> simp [silent, level]

/-- A comment at the margin is a sequence at every depth. -/
theorem nested_comment {line : String} (isComment : line.toList.head? = some '#') (depth : Nat) :
    Nested depth [line] := by
  obtain ⟨rest, chars⟩ := List.head?_eq_some_iff.mp isComment
  refine nested_silent ?_ ?_ depth
  · simp [isStatement, chars]
  · simp [indentation, chars]

/-- A line that opens no block is a sequence at its depth. -/
theorem nested_statement {depth : Nat} {line : String} (closed : opensBlock line = false)
    (level : indentation line = 4 * depth) : Nested depth [line] := by
  cases states : isStatement line with
  | false => exact nested_silent states ⟨depth, level⟩ depth
  | true =>
      refine ⟨List.forall_mem_singleton.mpr ⟨depth, level⟩, ?_, ?_, ?_, ?_⟩ <;>
        simp [states, closed, level]

/-- A line with its block is a sequence. -/
theorem nested_block {depth : Nat} {header : String} {body : List String}
    (states : isStatement header = true) (opens : opensBlock header = true)
    (level : indentation header = 4 * depth) (nested : Nested (depth + 1) body)
    (filled : body.any isStatement = true) : Nested depth (header :: body) := by
  have statements : (header :: body).filter isStatement = header :: body.filter isStatement := by
    simp [states]
  obtain ⟨line, listed, lineStates⟩ := List.any_eq_true.mp filled
  have notEmpty : body.filter isStatement ≠ [] :=
    List.ne_nil_of_mem (List.mem_filter.mpr ⟨listed, lineStates⟩)
  constructor
  · refine List.forall_mem_cons.mpr ⟨?_, nested.levels⟩
    omega
  · rw [statements]
    refine List.forall_mem_cons.mpr ⟨level.ge, fun each isBody => ?_⟩
    have within := nested.inside each isBody
    omega
  · rw [statements]
    rintro each ⟨⟩
    exact level
  · rw [statements, List.isChain_cons]
    refine ⟨fun first isFirst => ?_, nested.chained⟩
    have starts := nested.starts first isFirst
    rw [Follows, if_pos opens]
    omega
  · intro each isLast
    rw [statements, List.getLast?_cons, Option.mem_def, Option.some.injEq] at isLast
    refine nested.closed each ?_
    cases last : (body.filter isStatement).getLast? with
    | none => exact absurd (List.getLast?_eq_none_iff.mp last) notEmpty
    | some final =>
        rw [last, Option.getD_some] at isLast
        rw [isLast]
        rfl

/-! ## Texts of lines -/

/-- Whether a text starts with a character other than a space. -/
def isFlush (text : String) : Bool := text.toList.head?.any (· != ' ')

/-- Whether a text starts with a statement. -/
def startsStatement (text : String) : Bool :=
  text.toList.head?.any fun c => c != ' ' && c != '#'

/-- What starts a statement has no indentation. -/
theorem isFlush_of_startsStatement {text : String} (starts : startsStatement text = true) :
    isFlush text = true := by
  unfold startsStatement at starts
  unfold isFlush
  cases first : text.toList.head? <;> simp_all

/-- What starts a statement is one. -/
theorem isStatement_of_startsStatement {text : String} (starts : startsStatement text = true) :
    isStatement text = true := by
  unfold startsStatement at starts
  unfold isStatement
  cases chars : text.toList <;> simp_all

@[simp]
theorem startsStatement_append {left right : String} :
    startsStatement (left ++ right) = true ↔
      startsStatement left = true ∨ left = "" ∧ startsStatement right = true := by
  by_cases empty : left = ""
  · simp [empty, startsStatement]
  · have notEmpty : left.toList ≠ [] := by simpa using empty
    cases chars : left.toList with
    | nil => exact absurd chars notEmpty
    | cons first rest => simp [startsStatement, chars, empty]

/-- What ends a text decides whether it opens a block. -/
@[simp]
theorem opensBlock_append (left right : String) :
    opensBlock (left ++ right) = if right = "" then opensBlock left else opensBlock right := by
  by_cases empty : right = ""
  · rw [if_pos empty, empty, String.append_empty]
  · rw [if_neg empty]
    have notEmpty : right.toList ≠ [] := by simpa using empty
    rw [opensBlock, opensBlock, String.toList_append, List.getLast?_append,
      List.getLast?_eq_some_getLast notEmpty, Option.some_or]

/-- A text without a colon does not open a block. -/
theorem opensBlock_of_not_mem {text : String} (absent : ':' ∉ text.toList) :
    opensBlock text = false := by
  rw [opensBlock, beq_eq_false_iff_ne]
  exact fun last => absent (List.mem_of_getLast? last)

/-- A statement that opens no block. -/
structure IsPlain (text : String) : Prop where
  starts : startsStatement text = true
  closed : opensBlock text = false

@[simp]
theorem isStatement_indented (depth : Nat) (text : String) :
    isStatement (indented depth text) = isStatement text := by
  by_cases empty : text = ""
  · rw [empty, indented_empty]
  · have spaces : forall c, c ∈ List.replicate (4 * depth) ' ' -> (c == ' ') = true := by
      simp
    rw [isStatement, isStatement, toList_indented empty, List.dropWhile_append_of_pos spaces]

@[simp]
theorem opensBlock_indented (depth : Nat) (text : String) :
    opensBlock (indented depth text) = opensBlock text := by
  by_cases empty : text = ""
  · rw [empty, indented_empty]
  · have notEmpty : text.toList ≠ [] := by simpa using empty
    rw [opensBlock, opensBlock, toList_indented empty, List.getLast?_append,
      List.getLast?_eq_some_getLast notEmpty, Option.some_or]

/-- The spaces in front of a line are those of its depth. -/
theorem indentation_indented {text : String} (flush : isFlush text = true) (depth : Nat) :
    indentation (indented depth text) = 4 * depth := by
  have notEmpty : text ≠ "" := by
    rintro rfl
    cases flush
  have spaces : forall c, c ∈ List.replicate (4 * depth) ' ' -> (c == ' ') = true := by
    simp
  have ends : text.toList.takeWhile (· == ' ') = [] := by
    unfold isFlush at flush
    cases chars : text.toList <;> simp_all
  rw [indentation, toList_indented notEmpty, List.takeWhile_append_of_pos spaces, ends,
    List.append_nil, List.length_replicate]

/-! ## Code -/

namespace Code

/-- Whether the code says anything. -/
def speaks (code : Code) : Bool := (code.linesAt 0).any isStatement

/-- The lines of the code start at the margin, and only what opens a block that says
something ends in a colon. -/
def Indentable : Code -> Prop
  | done => True
  | line text rest =>
      isFlush text = true ∧ (isStatement text = true -> opensBlock text = false) ∧ rest.Indentable
  | blank rest => rest.Indentable
  | raw _ _ => False
  | block header body rest =>
      startsStatement header = true ∧ opensBlock header = true ∧ body.speaks = true ∧
        body.Indentable ∧ rest.Indentable
  | inset body rest => body.Indentable ∧ rest.Indentable

/-- Whether code says something does not depend on how deep it is written. -/
theorem any_linesAt (code : Code) (depth : Nat) :
    (code.linesAt depth).any isStatement = code.speaks := by
  have deeper := code.linesAt_add 0 depth
  rw [Nat.zero_add] at deeper
  rw [deeper, List.any_map, speaks]
  congr 1
  funext line
  exact isStatement_indented depth line

/-- Such code is rendered as a sequence of lines at its depth. -/
theorem Indentable.nested {code : Code} (indentable : code.Indentable) (depth : Nat) :
    Nested depth (code.linesAt depth) := by
  induction code generalizing depth with
  | done => exact nested_nil depth
  | line text rest inductionHypothesis =>
      obtain ⟨flush, closed, restIndentable⟩ := indentable
      have level := indentation_indented flush depth
      suffices nested : Nested depth [indented depth text] from
        nested.append (inductionHypothesis restIndentable depth)
      cases states : isStatement text with
      | false => exact nested_silent (by simpa using states) ⟨depth, level⟩ depth
      | true => exact nested_statement (by simpa using closed states) level
  | blank rest inductionHypothesis =>
      have nested : Nested depth [""] := nested_silent rfl (by decide) depth
      exact nested.append (inductionHypothesis indentable depth)
  | raw text rest => exact absurd indentable id
  | block header body rest bodyHypothesis inductionHypothesis =>
      obtain ⟨starts, opens, speaks, bodyIndentable, restIndentable⟩ := indentable
      refine Nested.append ?_ (inductionHypothesis restIndentable depth)
      refine nested_block ?_ ?_ ?_ (bodyHypothesis bodyIndentable (depth + 1)) ?_
      · simpa using isStatement_of_startsStatement starts
      · simpa using opens
      · exact indentation_indented (isFlush_of_startsStatement starts) depth
      · rw [any_linesAt, speaks]
  | inset body rest bodyHypothesis inductionHypothesis =>
      -- What is written on its own first comes out as if written at the depth.
      have moved := body.linesAt_add 0 depth
      rw [Nat.zero_add] at moved
      rw [linesAt, <- moved]
      exact (bodyHypothesis indentable.1 depth).append (inductionHypothesis indentable.2 depth)

@[simp]
theorem speaks_append (first second : Code) :
    (first ++ second).speaks = (first.speaks || second.speaks) := by
  simp [speaks]

@[simp]
theorem speaks_concat (pieces : List Code) : (concat pieces).speaks = pieces.any speaks := by
  rw [speaks, linesAt_concat, List.any_flatMap]
  rfl

/-- What is written on its own first says what it says. -/
theorem speaks_inset (body : Code) : (inset body done).speaks = body.speaks := by
  rw [speaks, linesAt, linesAt, List.append_nil, List.any_map, speaks]
  congr 1
  funext line
  exact isStatement_indented 0 line

@[simp]
theorem speaks_lines (texts : List String) : (lines texts).speaks = texts.any isStatement := by
  rw [speaks, linesAt_lines, List.any_map]
  congr 1
  funext text
  exact isStatement_indented 0 text

@[simp]
theorem indentable_append {first second : Code} :
    (first ++ second).Indentable ↔ first.Indentable ∧ second.Indentable := by
  show (first.append second).Indentable ↔ _
  induction first with
  | done => simp [append, Indentable]
  | _ => simp_all [append, Indentable, and_assoc]

@[simp]
theorem indentable_concat {pieces : List Code} :
    (concat pieces).Indentable ↔ forall piece, piece ∈ pieces -> piece.Indentable := by
  induction pieces with
  | nil => simp [concat, Indentable]
  | cons first rest inductionHypothesis =>
      rw [List.forall_mem_cons, <- inductionHypothesis, <- indentable_append]
      rfl

@[simp]
theorem indentable_lines {texts : List String} :
    (lines texts).Indentable ↔ forall text, text ∈ texts ->
      isFlush text = true ∧ (isStatement text = true -> opensBlock text = false) := by
  induction texts with
  | nil => simp [lines, Indentable]
  | cons first rest inductionHypothesis =>
      rw [List.forall_mem_cons, <- inductionHypothesis, and_assoc]
      rfl

/-- Plain statements can be indented. -/
theorem indentable_of_plain {texts : List String}
    (plain : forall text, text ∈ texts -> IsPlain text) : (lines texts).Indentable := by
  refine indentable_lines.mpr fun text listed => ?_
  obtain ⟨starts, closed⟩ := plain text listed
  exact ⟨isFlush_of_startsStatement starts, fun _ => closed⟩

/-- Plain statements say something. -/
theorem speaks_of_plain {texts : List String} {text : String} (listed : text ∈ texts)
    (plain : IsPlain text) : (lines texts).speaks = true := by
  rw [speaks_lines]
  exact List.any_eq_true.mpr ⟨text, listed, isStatement_of_startsStatement plain.starts⟩

/-- A plain statement can be indented. -/
theorem indentable_line {text : String} (plain : IsPlain text) : (line text done).Indentable :=
  ⟨isFlush_of_startsStatement plain.starts, fun _ => plain.closed, trivial⟩

/-- Code that starts with a statement says something. -/
theorem speaks_line {text : String} (starts : startsStatement text = true) (rest : Code) :
    (line text rest).speaks = true := by
  simp [speaks, linesAt, isStatement_of_startsStatement starts]

/-- Code that starts with a block says something. -/
theorem speaks_block {header : String} (starts : startsStatement header = true)
    (body rest : Code) : (block header body rest).speaks = true := by
  simp [speaks, linesAt, isStatement_of_startsStatement starts]

/-- A single block can be indented. -/
theorem indentable_single {header : String} {body : Code} (starts : startsStatement header = true)
    (opens : opensBlock header = true) (speaks : body.speaks = true)
    (indentable : body.Indentable) : (single header body).Indentable :=
  ⟨starts, opens, speaks, indentable, trivial⟩

end Code

end XdrPack
