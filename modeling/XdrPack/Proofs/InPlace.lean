import XdrPack.Proofs.Rendering

/-!
# Writing in place

Code that is inserted is written by a writer of its own first; its text is then split into
lines and these are indented once more. Nothing of this shows: a writer at any depth is left as
if the code had been written to it directly. Every text stands behind the indentation of the
writer and of the blocks around it, whichever of them belong to an inserted piece, and empty
lines have none.
-/

namespace XdrPack

namespace Code

/-- The texts of code in order, each with its level, where inserted code stands at the level of
its place. An empty line has an empty text. -/
def leveled (level : Nat) : Code -> List (Nat × String)
  | done => []
  | line text rest => (level, text) :: rest.leveled level
  | blank rest => (level, "") :: rest.leveled level
  | raw _ rest => rest.leveled level
  | block header body rest => (level, header) :: body.leveled (level + 1) ++ rest.leveled level
  | inset body rest => body.leveled level ++ rest.leveled level

/-- The lines of code are its texts, each indented by its own level and the depth of all. -/
theorem linesAt_eq_leveled (code : Code) (depth level : Nat) :
    code.linesAt (depth + level) =
      (code.leveled level).map fun (each, text) => indented (depth + each) text := by
  induction code generalizing level with
  | done => rfl
  | line text rest inductionHypothesis =>
      rw [linesAt, leveled, List.map_cons, inductionHypothesis]
  | blank rest inductionHypothesis => exact congrArg ("" :: ·) (inductionHypothesis level)
  | raw text rest inductionHypothesis => exact inductionHypothesis level
  | block header body rest bodyHypothesis inductionHypothesis =>
      rw [linesAt, leveled, Nat.add_assoc, bodyHypothesis, inductionHypothesis, List.cons_append,
        List.cons_append, List.map_cons, List.map_append]
  | inset body rest bodyHypothesis inductionHypothesis =>
      -- The lines of the inserted code are indented once for its own blocks and once for its place.
      have again := body.linesAt_add 0 (depth + level)
      rw [Nat.zero_add] at again
      rw [linesAt, leveled, <- again, bodyHypothesis, inductionHypothesis, List.map_append]

end Code

namespace Writer

/-- Inserting code leaves a writer as it is left by writing the code to it directly: at the same
depth as before, with each text of the code on a line of its own, indented by the depth of the
writer and the level of the text unless it is empty. -/
theorem inset_eq_write (code : Code) (lined : code.Lined OneLine) (writer : Writer) :
    writer.inset (empty.write code).text = writer.write code ∧
    (writer.write code).depth = writer.depth ∧
    (writer.write code).text = writer.text ++ Text.unlines
      ((code.leveled 0).map fun (level, text) => indented (writer.depth + level) text) := by
  have direct := write_eq lined writer
  have lines : Text.lines (empty.write code).text = code.linesAt 0 := Code.lines_render lined
  refine ⟨?_, ?_, ?_⟩
  · rw [inset, lines, foldl_line, <- Code.linesAt_add, Nat.zero_add, direct]
  · rw [direct]
  · rw [direct, <- Code.linesAt_eq_leveled, Nat.add_zero]

/-- A block with an empty line, a line of blanks and an inserted block, written at depth two. -/
theorem inset_eq_write_deep :
    let inner : Code := .block "def g(self):" (.line "pass" .done) .done
    let code : Code := .line "a = 1" (.block "class B:"
      (.blank (.line "  " (.inset inner (.line "" .done)))) (.line "b" .done))
    code.Lined OneLine ∧
    (Writer.mk "x" 2).inset (empty.write code).text =
      ⟨"x        a = 1\n        class B:\n\n              \n            def g(self):\n"
        ++ "                pass\n\n        b\n", 2⟩ := by
  intro inner code
  have lined : code.Lined OneLine := by
    refine ⟨⟨?_, ?_⟩, ⟨?_, ?_⟩, ⟨⟨?_, ?_⟩, ⟨⟨⟨?_, ?_⟩, ⟨⟨?_, ?_⟩, trivial⟩, trivial⟩, ⟨?_, ?_⟩,
      trivial⟩⟩, ⟨?_, ?_⟩, trivial⟩ <;> decide
  obtain ⟨inPlace, -, -⟩ := inset_eq_write code lined ⟨"x", 2⟩
  refine ⟨lined, ?_⟩
  rw [inPlace]
  decide

/-- A line that ends in a carriage return would lose it, as it belongs to the line end then. -/
example : (empty.inset (empty.write (.line "a\r" .done)).text).text = "a\n" := by decide

end Writer

end XdrPack
