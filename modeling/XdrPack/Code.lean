/-!
# Indented code

Code is a sequence of lines and blocks. A writer turns it into text: it keeps
the text written so far and the depth of indentation, which only a block
changes, and only for its own body.

In a text, a line feed, or a carriage return with a line feed after it, ends a
line. What follows the last line end is a line only if it is not empty.
-/

namespace XdrPack

namespace Text

/-- Puts a character in front of the first line, which may not be there yet. -/
def extendFirst (c : Char) : List (List Char) -> List (List Char)
  | [] => [[c]]
  | line :: rest => (c :: line) :: rest

/-- The lines of a text given as characters. -/
def linesOf : List Char -> List (List Char)
  | [] => []
  | '\n' :: rest => [] :: linesOf rest
  | '\r' :: '\n' :: rest => [] :: linesOf rest
  | c :: rest => extendFirst c (linesOf rest)

/-- The lines of a text. -/
def lines (text : String) : List String :=
  (linesOf text.toList).map String.ofList

end Text

/-- A sequence of lines and blocks. -/
inductive Code where
  | done
  /-- A line at the current depth. -/
  | line (text : String) (rest : Code)
  /-- An empty line. -/
  | blank (rest : Code)
  /-- A text that is written as it is. -/
  | raw (text : String) (rest : Code)
  /-- A header line with a deeper body. -/
  | block (header : String) (body rest : Code)
  /-- Code that is written on its own first, and whose lines are then written at
  the current depth. -/
  | inset (body rest : Code)
  deriving DecidableEq, Repr

namespace Code

/-- One piece of code after the other. -/
def append : Code -> Code -> Code
  | done, next => next
  | line text rest, next => line text (rest.append next)
  | blank rest, next => blank (rest.append next)
  | raw text rest, next => raw text (rest.append next)
  | block header body rest, next => block header body (rest.append next)
  | inset body rest, next => inset body (rest.append next)

instance : Append Code := ⟨append⟩

@[simp]
theorem done_append (code : Code) : done ++ code = code := rfl

@[simp]
theorem append_done (code : Code) : code ++ done = code := by
  show code.append done = code
  induction code with
  | done => rfl
  | line text rest inductionHypothesis => simp [append, inductionHypothesis]
  | blank rest inductionHypothesis => simp [append, inductionHypothesis]
  | raw text rest inductionHypothesis => simp [append, inductionHypothesis]
  | block header body rest _ inductionHypothesis => simp [append, inductionHypothesis]
  | inset body rest _ inductionHypothesis => simp [append, inductionHypothesis]

/-- Several pieces of code, one after the other. -/
def concat (pieces : List Code) : Code := pieces.foldr append done

/-- Several lines. -/
def lines (texts : List String) : Code := texts.foldr line done

/-- A single block. -/
def single (header : String) (body : Code) : Code := block header body done

end Code

/-- The text written so far and the depth of indentation. -/
structure Writer where
  text : String
  depth : Nat
  deriving DecidableEq, Repr

namespace Writer

/-- A writer that has written nothing. -/
def empty : Writer := ⟨"", 0⟩

/-- The indentation at a depth. -/
def indent (depth : Nat) : String := "".pushn ' ' (4 * depth)

/-- Writes a line. An empty line is not indented. -/
def line (writer : Writer) (text : String) : Writer :=
  if text.isEmpty then
    { writer with text := writer.text ++ "\n" }
  else
    { writer with text := writer.text ++ indent writer.depth ++ text ++ "\n" }

/-- Writes an empty line. -/
def blank (writer : Writer) : Writer := { writer with text := writer.text ++ "\n" }

/-- Writes a text as it is. -/
def raw (writer : Writer) (text : String) : Writer :=
  { writer with text := writer.text ++ text }

/-- Writes the lines of a text at the current depth. -/
def inset (writer : Writer) (text : String) : Writer :=
  (Text.lines text).foldl line writer

/-- One level deeper. -/
def deeper (writer : Writer) : Writer := { writer with depth := writer.depth + 1 }

/-- One level back. -/
def shallower (writer : Writer) : Writer := { writer with depth := writer.depth - 1 }

/-- Writes code. -/
def write (writer : Writer) : Code -> Writer
  | .done => writer
  | .line text rest => (writer.line text).write rest
  | .blank rest => writer.blank.write rest
  | .raw text rest => (writer.raw text).write rest
  | .block header body rest =>
      ((writer.line header).deeper.write body).shallower.write rest
  | .inset body rest => (writer.inset (empty.write body).text).write rest

/-- The writer after each step of writing code. A block has a step for its
header, the steps of its body, and a step for its end; an inset is one step. -/
def steps (writer : Writer) : Code -> List Writer
  | .done => []
  | .line text rest => writer.line text :: (writer.line text).steps rest
  | .blank rest => writer.blank :: writer.blank.steps rest
  | .raw text rest => writer.raw text :: (writer.raw text).steps rest
  | .block header body rest =>
      let inside := (writer.line header).deeper
      let closed := (inside.write body).shallower
      inside :: inside.steps body ++ closed :: closed.steps rest
  | .inset body rest =>
      let after := writer.inset (empty.write body).text
      after :: after.steps rest

end Writer

/-- The text of code. -/
def Code.render (code : Code) : String := (Writer.empty.write code).text

end XdrPack
