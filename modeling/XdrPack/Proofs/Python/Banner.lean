import XdrPack.Build
import XdrPack.Proofs.Acceptance
import XdrPack.Proofs.Rendering

/-!
# The first line of generated modules

The module of record classes and the module of coding routines start with a comment that mentions
the interface file, and the name of the file stands nowhere else. It is written there as it is.
So the modules for two names are the same but for their first lines if and only if the names are
the same from their first line ends on. A name that has a line end is not kept in the comment, and
what is behind the line end becomes code.
-/

namespace XdrPack

/-! ## Writing behind a text -/

namespace Writer

/-- The writer, if another text stands in front of what it has written. -/
def behind (front : String) (writer : Writer) : Writer :=
  { writer with text := front ++ writer.text }

/-- A line is written behind any text. -/
theorem behind_line (front text : String) (writer : Writer) :
    (writer.behind front).line text = (writer.line text).behind front := by
  simp [line_eq, behind, String.append_assoc]

/-- Lines that were written on their own are written behind any text. -/
theorem behind_inset (front text : String) (writer : Writer) :
    (writer.behind front).inset text = (writer.inset text).behind front := by
  simp [inset, foldl_line, behind, String.append_assoc]

/-- What is written does not depend on what stands in front of it. -/
theorem behind_write (front : String) (writer : Writer) (code : Code) :
    (writer.behind front).write code = (writer.write code).behind front := by
  induction code generalizing writer with
  | done => rfl
  | line text rest inductionHypothesis => rw [write, write, behind_line, inductionHypothesis]
  | blank rest inductionHypothesis =>
      have step : (writer.behind front).blank = writer.blank.behind front := by
        simp [blank, behind, String.append_assoc]
      rw [write, write, step, inductionHypothesis]
  | raw text rest inductionHypothesis =>
      have step : (writer.behind front).raw text = (writer.raw text).behind front := by
        simp [raw, behind, String.append_assoc]
      rw [write, write, step, inductionHypothesis]
  | block header body rest bodyHypothesis inductionHypothesis =>
      have inside : ((writer.behind front).line header).deeper =
          (writer.line header).deeper.behind front := by
        rw [behind_line]
        rfl
      have closed : forall each : Writer, (each.behind front).shallower =
          each.shallower.behind front := fun _ => rfl
      rw [write, write, inside, bodyHypothesis, closed, inductionHypothesis]
  | inset body rest _ inductionHypothesis =>
      rw [write, write, behind_inset, inductionHypothesis]

end Writer

/-- A line is written in front of the rest. -/
theorem Code.render_line (text : String) (rest : Code) :
    (Code.line text rest).render = text ++ "\n" ++ rest.render := by
  have first : Writer.empty.line text = Writer.empty.behind (text ++ "\n") := by
    simp [Writer.line_eq, Writer.behind, Writer.empty, indented_zero]
  rw [render, Writer.write, first, Writer.behind_write]
  rfl

/-! ## First lines -/

/-- The characters that end a line: a line feed, and for the readers of a module a carriage return
as well. -/
def lineEnds : List (List Char) := [['\n'], ['\n', '\r']]

/-- What is left of a text from the end of its first line on. -/
def behindFirstLine (ends : List Char) (text : String) : List Char :=
  text.toList.dropWhile (· ∉ ends)

/-- What is left of two lists that end alike is the same if what is left of their starts is,
provided that something of the common end is skipped. -/
theorem dropWhile_append_inj {α : Type} {skip : α -> Bool} {first second rest : List α}
    (shorter : (rest.dropWhile skip).length < rest.length) :
    (first ++ rest).dropWhile skip = (second ++ rest).dropWhile skip ↔
      first.dropWhile skip = second.dropWhile skip := by
  have apart : forall left : List α, rest.dropWhile skip ≠ left ++ rest := by
    intro left same
    have lengths := congrArg List.length same
    rw [List.length_append] at lengths
    omega
  rw [List.dropWhile_append, List.dropWhile_append]
  cases first.dropWhile skip with
  | nil =>
      cases second.dropWhile skip with
      | nil => simp
      | cons c left => simpa using apart (c :: left)
  | cons c left =>
      cases second.dropWhile skip with
      | nil => simpa using (apart (c :: left)).symm
      | cons d right => simp

namespace Python

/-- The text is the first line of a module and a text that is the same for the other name. -/
def DifferInBanner (naming other : Naming) (first second : String) : Prop :=
  ∃ rest, first = banner naming ++ "\n" ++ rest ∧ second = banner other ++ "\n" ++ rest

/-- Both texts start with a comment, and they are the same from the end of the first line on. -/
structure DifferInComment (ends : List Char) (first second : String) : Prop where
  firstComment : first.toList.head? = some '#'
  secondComment : second.toList.head? = some '#'
  behind : behindFirstLine ends first = behindFirstLine ends second

/-- Behind the first line of a module there is what follows the name of the source, up to the
first line end in either of them. -/
theorem behindFirstLine_banner {ends : List Char} (isEnd : ends ∈ lineEnds) (naming : Naming)
    (rest : String) :
    behindFirstLine ends (banner naming ++ "\n" ++ rest) =
      (naming.sourceName.toList ++ (". Do not edit.\n".toList ++ rest.toList)).dropWhile
        (· ∉ ends) := by
  have passed : forall c, c ∈ "# Generated by rpcgen from ".toList -> decide (c ∉ ends) = true := by
    have all : lineEnds.all (fun ends =>
        "# Generated by rpcgen from ".toList.all (· ∉ ends)) = true := by
      decide
    exact List.all_eq_true.mp (List.all_eq_true.mp all ends isEnd)
  unfold banner
  rw [behindFirstLine]
  simp only [String.toList_append, List.append_assoc]
  rw [List.dropWhile_append_of_pos passed]
  rfl

/-- Modules that differ in their banners differ in a comment if and only if the names in the banners
are the same from their first line ends on. -/
theorem DifferInBanner.differInComment_iff {naming other : Naming} {first second : String}
    (differ : DifferInBanner naming other first second) {ends : List Char}
    (isEnd : ends ∈ lineEnds) :
    DifferInComment ends first second ↔
      behindFirstLine ends naming.sourceName = behindFirstLine ends other.sourceName := by
  obtain ⟨rest, rfl, rfl⟩ := differ
  have starts : forall naming : Naming,
      (banner naming ++ "\n" ++ rest).toList.head? = some '#' := by
    intro naming
    unfold banner
    simp
  have shorter : ((". Do not edit.\n".toList ++ rest.toList).dropWhile (· ∉ ends)).length <
      (". Do not edit.\n".toList ++ rest.toList).length := by
    have noEnd : forall ends, ends ∈ lineEnds -> '.' ∉ ends := by decide
    have dot : ". Do not edit.\n".toList = '.' :: " Do not edit.\n".toList := by decide
    rw [dot, List.cons_append, List.dropWhile_cons_of_pos (by simpa using noEnd ends isEnd)]
    exact Nat.lt_succ_of_le (List.dropWhile_sublist _).length_le
  have same : behindFirstLine ends (banner naming ++ "\n" ++ rest) =
      behindFirstLine ends (banner other ++ "\n" ++ rest) ↔
        behindFirstLine ends naming.sourceName = behindFirstLine ends other.sourceName := by
    rw [behindFirstLine_banner isEnd, behindFirstLine_banner isEnd]
    exact dropWhile_append_inj shorter
  rw [<- same]
  exact ⟨DifferInComment.behind, fun behind => ⟨starts naming, starts other, behind⟩⟩

end Python

namespace Compiler

/-- Which source texts are accepted does not depend on the names in the modules. -/
theorem compile_of_naming {compiler final : Compiler} {naming : Naming} {source : String}
    {compilation : Compilation}
    (success : compiler.compile (Python.backend naming) source = (.ok compilation, final))
    (other : Naming) :
    compilation.artifacts = Python.artifacts naming final.emissions ∧
      compiler.compile (Python.backend other) source =
        (.ok ⟨Python.artifacts other final.emissions, compilation.errors⟩, final) := by
  have sameWords : (Python.backend other).isReserved = (Python.backend naming).isReserved := rfl
  have finished (each : Naming) (emissions : List Emission) :
      (Python.backend each).finish emissions = .ok (Python.artifacts each emissions) := rfl
  simp only [compile, sameWords, finish, finished, Except.map] at success ⊢
  generalize compiler.defineAll (Python.backend naming).isReserved (Lexing.ofText source).stream =
    reply at success ⊢
  obtain ⟨outcome, state, rest⟩ := reply
  cases outcome with
  | error failure => cases success
  | ok done =>
      obtain ⟨isCompilation, rfl⟩ := Prod.mk.inj success
      obtain rfl := Except.ok.inj isCompilation
      have same := state.emissions_finish (Python.backend naming)
      dsimp only [finish] at same
      rw [same]
      exact ⟨rfl, rfl⟩

end Compiler

namespace Python

/-- Code that differs in its first line is rendered as texts that do so. -/
theorem differInBanner_render (naming other : Naming) (rest : Code) :
    DifferInBanner naming other (Code.line (banner naming) rest).render
      (Code.line (banner other) rest).render :=
  ⟨rest.render, Code.render_line _ _, Code.render_line _ _⟩

section

variable (naming : Naming) (name : String) (emissions : List Emission)

/-- The module of record classes depends on the name of the source in its first line only. -/
theorem types_differInBanner :
    DifferInBanner naming { naming with sourceName := name } (artifacts naming emissions).types
      (artifacts { naming with sourceName := name } emissions).types := by
  have start : forall each : Naming, typesCode each emissions = .line (banner each)
      (.lines (typesPreamble each).tail ++ .concat ((emissions.flatMap classes).map (·.code))) :=
    fun _ => rfl
  have same : (typesPreamble { naming with sourceName := name }).tail =
      (typesPreamble naming).tail := rfl
  simp only [artifacts, start, same]
  exact differInBanner_render _ _ _

/-- The module of routines depends on the name of the source in its first line only. -/
theorem packer_differInBanner :
    DifferInBanner naming { naming with sourceName := name } (artifacts naming emissions).packer
      (artifacts { naming with sourceName := name } emissions).packer := by
  have start : forall each : Naming, packerCode each emissions = .line (banner each)
      (.lines (packerPreamble each).tail
        ++ routinesCode ("class " ++ each.classPrefix ++ "Packer(rpc.Packer):")
          ((emissions.flatMap routines).map (·.packCode))
        ++ .blank (.blank .done)
        ++ routinesCode ("class " ++ each.classPrefix ++ "Unpacker(rpc.Unpacker):")
          ((emissions.flatMap routines).map (·.unpackCode))) :=
    fun _ => rfl
  have same : (packerPreamble { naming with sourceName := name }).tail =
      (packerPreamble naming).tail := rfl
  simp only [artifacts, start, same]
  exact differInBanner_render _ _ _

end

end Python

namespace Compiler

/-- What changes in a compilation if the interface file has another name. -/
theorem compile_renamed {naming : Naming} {source : String} {compilation : Compilation}
    {final : Compiler}
    (success : start.compile (Python.backend naming) source = (.ok compilation, final))
    (name : String) :
    let other := { naming with sourceName := name }
    ∃ renamed, start.compile (Python.backend other) source = (.ok renamed, final) ∧
      renamed.errors = compilation.errors ∧
      renamed.artifacts.constants = compilation.artifacts.constants ∧
      Python.DifferInBanner naming other compilation.artifacts.types renamed.artifacts.types ∧
      Python.DifferInBanner naming other compilation.artifacts.packer
        renamed.artifacts.packer := by
  intro other
  obtain ⟨rendered, renamed⟩ := compile_of_naming success other
  refine ⟨_, renamed, rfl, ?_⟩
  rw [rendered]
  exact ⟨rfl, Python.types_differInBanner naming name _, Python.packer_differInBanner naming name _⟩

/-- A source text is accepted whatever the interface file is called, with the same lexical errors
and the same module of constants. The other two modules are the same behind a first line that
quotes the name. They differ in a comment at most if and only if the names are the same from their
first line ends on, as they are if neither has a line end. -/
theorem compile_sourceName (naming : Naming) (name source : String) (compilation : Compilation)
    (final : Compiler)
    (success : start.compile (Python.backend naming) source = (.ok compilation, final)) :
    let other := { naming with sourceName := name }
    ∃ renamed, start.compile (Python.backend other) source = (.ok renamed, final) ∧
      renamed.errors = compilation.errors ∧
      renamed.artifacts.constants = compilation.artifacts.constants ∧
      Python.DifferInBanner naming other compilation.artifacts.types renamed.artifacts.types ∧
      Python.DifferInBanner naming other compilation.artifacts.packer renamed.artifacts.packer ∧
      forall ends, ends ∈ lineEnds ->
        (Python.DifferInComment ends compilation.artifacts.types renamed.artifacts.types ↔
          behindFirstLine ends naming.sourceName = behindFirstLine ends name) ∧
        (Python.DifferInComment ends compilation.artifacts.packer renamed.artifacts.packer ↔
          behindFirstLine ends naming.sourceName = behindFirstLine ends name) := by
  intro other
  obtain ⟨renamed, accepted, errors, constants, types, packer⟩ := compile_renamed success name
  refine ⟨renamed, accepted, errors, constants, types, packer, fun ends isEnd => ?_⟩
  exact ⟨types.differInComment_iff isEnd, packer.differInComment_iff isEnd⟩

/-- Two names without line ends, one with signs that mean something in code. -/
theorem compile_sourceName_quoted :
    let source := "const A = 1;"
    let other := { Naming.standard with sourceName := "\"\"\" # a\\.x" }
    ∃ compilation renamed final,
      start.compile (Python.backend .standard) source = (.ok compilation, final) ∧
      start.compile (Python.backend other) source = (.ok renamed, final) ∧
      forall ends, ends ∈ lineEnds ->
        Python.DifferInComment ends compilation.artifacts.types renamed.artifacts.types ∧
        Python.DifferInComment ends compilation.artifacts.packer renamed.artifacts.packer := by
  intro source other
  obtain ⟨compilation, final, success⟩ : ∃ compilation final,
      start.compile (Python.backend .standard) source = (.ok compilation, final) :=
    exists_of_isOk (by decide +kernel)
  have same : forall ends, ends ∈ lineEnds ->
      behindFirstLine ends Naming.standard.sourceName = behindFirstLine ends other.sourceName := by
    decide +kernel
  obtain ⟨renamed, accepted, -, -, -, -, comments⟩ :=
    compile_sourceName .standard other.sourceName source compilation final success
  refine ⟨compilation, renamed, final, success, accepted, fun ends isEnd => ?_⟩
  obtain ⟨types, packer⟩ := comments ends isEnd
  exact ⟨types.mpr (same ends isEnd), packer.mpr (same ends isEnd)⟩

/-- Asks for the modules of an interface file with a line feed in its name. -/
def brokenNameRequest : BuildRequest := ⟨⟨"p\nimport os #.x"⟩, none, none⟩

/-- What stands behind a line feed in the name of an interface file becomes a line of code. -/
theorem compile_sourceName_broken :
    let naming := brokenNameRequest.naming
    ∃ compilation renamed final,
      start.compile (Python.backend naming) "const A = 1;" = (.ok compilation, final) ∧
      start.compile (Python.backend { naming with sourceName := "p.x" }) "const A = 1;" =
        (.ok renamed, final) ∧
      (∃ rest, compilation.artifacts.types =
        "# Generated by rpcgen from p\nimport os #.x. Do not edit.\n" ++ rest) ∧
      (∃ rest, renamed.artifacts.types =
        "# Generated by rpcgen from p.x. Do not edit.\n" ++ rest) ∧
      ¬ Python.DifferInComment ['\n'] compilation.artifacts.types renamed.artifacts.types := by
  intro naming
  obtain ⟨compilation, final, success⟩ : ∃ compilation final,
      start.compile (Python.backend naming) "const A = 1;" = (.ok compilation, final) :=
    exists_of_isOk (by decide +kernel)
  obtain ⟨renamed, accepted, -, -, types, -⟩ := compile_renamed success "p.x"
  have broken : Python.banner naming ++ "\n" =
      "# Generated by rpcgen from p\nimport os #.x. Do not edit.\n" := by
    decide +kernel
  have whole : Python.banner { naming with sourceName := "p.x" } ++ "\n" =
      "# Generated by rpcgen from p.x. Do not edit.\n" := by
    decide +kernel
  have differs : behindFirstLine ['\n'] naming.sourceName ≠ behindFirstLine ['\n'] "p.x" := by
    decide +kernel
  have comments := types.differInComment_iff List.mem_cons_self
  obtain ⟨rest, first, second⟩ := types
  rw [broken] at first
  rw [whole] at second
  exact ⟨compilation, renamed, final, success, accepted, ⟨rest, first⟩, ⟨rest, second⟩,
    mt comments.mp differs⟩

end Compiler

end XdrPack
