import Mathlib.Control.Monad.Basic
import XdrPack.Python.Module
import XdrPack.Proofs.Acceptance
import XdrPack.Proofs.Relocation.Compiler

/-!
# The layout of a source text

Blanks, line ends, comments, directives and what is skipped as illegal decide where
tokens are, and nothing else. No place reaches the generated code. So what is generated
depends on the kinds of the tokens alone, and so does a failure but for its line.
-/

namespace XdrPack

/-! ## Generated code shows no lines -/

namespace Python

variable (move : Relocation)

/-- Lines are not part of constants. -/
theorem constants_moved (emission : Emission) :
    constants (emission.moved move) = constants emission := by
  cases emission with
  | enum name members =>
      simp only [Emission.moved, constants, List.map_map]
      rfl
  | typedef | primitive | constant | struct | union => rfl

/-- Lines are not part of routines. -/
theorem routines_moved (emission : Emission) :
    routines (emission.moved move) = routines emission := by
  cases emission <;> rfl

/-- The fields that hold a value stay the same ones. -/
theorem Struct.valued_moved (fields : List Field) :
    valued (fields.map (Field.moved move)) = (valued fields).map (Field.moved move) :=
  List.filter_map

/-- Lines are not part of the class of a structure. -/
theorem Struct.code_moved (name : String) (fields : List Field) :
    Struct.code name (fields.map (Field.moved move)) = Struct.code name fields := by
  have lines : forall fields : List Field,
      definitionLines name (fields.map (Field.moved move)) = definitionLines name fields := by
    intro fields
    simp only [definitionLines, List.map_map]
    rfl
  have names : forall fields : List Field,
      (fields.map (Field.moved move)).map (·.name) = fields.map (·.name) := by
    intro fields
    rw [List.map_map]
    rfl
  have packing : forall fields : List Field,
      packActions (fields.map (Field.moved move)) = packActions fields := by
    intro fields
    simp only [packActions, List.map_map]
    rfl
  have unpacking : forall fields : List Field,
      unpackBody (fields.map (Field.moved move)) = unpackBody fields := by
    intro fields
    simp only [unpackBody, unpackActions, List.map_map, List.isEmpty_map]
    rfl
  unfold Struct.code
  simp only [Struct.valued_moved, lines, names, packing, unpacking]

/-- Which fields come first under their names does not depend on lines. -/
theorem firstOfEachName_moved (seen : List String) (fields : List Field) :
    UnionLayout.firstOfEachName seen (fields.map (Field.moved move)) =
      (UnionLayout.firstOfEachName seen fields).map (Field.moved move) := by
  induction fields generalizing seen with
  | nil => rfl
  | cons field rest inductionHypothesis =>
      have void : (field.moved move).isVoid = field.isVoid := rfl
      have name : (field.moved move).name = field.name := rfl
      simp only [List.map_cons, UnionLayout.firstOfEachName, void, name, inductionHypothesis]
      split <;> rfl

/-- Lines are not part of the attributes of a union. -/
theorem Union.attributes_moved (layout : UnionLayout) :
    attributes (layout.moved move) = attributes layout := by
  have bodies : (layout.moved move).bodies = layout.bodies.map (Field.moved move) := by
    obtain ⟨discriminant, arms, fallback⟩ := layout
    cases fallback <;> simp [UnionLayout.moved, UnionLayout.bodies, UnionArm.moved]
  have name : (layout.moved move).discriminant.name = layout.discriminant.name := rfl
  simp only [attributes, UnionLayout.members, bodies, name, firstOfEachName_moved, List.map_map]
  rfl

/-- Lines are not part of the definition that the class of a union shows. -/
theorem Union.definitionLines_moved (name : String) (layout : UnionLayout) :
    definitionLines name (layout.moved move) = definitionLines name layout := by
  obtain ⟨discriminant, arms, fallback⟩ := layout
  have lines : (arms.map (UnionArm.moved move)).flatMap armLines = arms.flatMap armLines := by
    rw [List.flatMap_map]
    rfl
  simp only [definitionLines, UnionLayout.moved, lines]
  cases fallback <;> rfl

/-- A choice of an arm is the same if the actions of each body are. -/
theorem Union.choice_moved {body : Field -> List Action}
    (same : forall field, body (field.moved move) = body field) (layout : UnionLayout) :
    choice body (layout.moved move) = choice body layout := by
  obtain ⟨discriminant, arms, fallback⟩ := layout
  have branches : (arms.map (UnionArm.moved move)).map
      (fun arm => (⟨arm.labels, body arm.body⟩ : Branch)) =
      arms.map fun arm => ⟨arm.labels, body arm.body⟩ := by
    rw [List.map_map]
    exact List.map_congr_left fun arm _ => congrArg (Branch.mk arm.labels) (same arm.body)
  simp only [choice, UnionLayout.moved, branches]
  cases fallback with
  | none => rfl
  | some field =>
      rw [Option.map_some]
      simp only [same]
      rfl

/-- Lines are not part of the class of a union. -/
theorem Union.code_moved (name : String) (layout : UnionLayout) :
    Union.code name (layout.moved move) = Union.code name layout := by
  unfold Union.code
  rw [definitionLines_moved, attributes_moved, choice_moved move (fun _ => rfl),
    choice_moved move (fun _ => rfl)]
  rfl

/-- Lines are not part of the classes of an emission. -/
theorem classes_moved (emission : Emission) :
    (classes (emission.moved move)).map (·.code) = (classes emission).map (·.code) := by
  cases emission with
  | struct name fields => exact congrArg (· :: []) (Struct.code_moved move name fields)
  | union name layout => exact congrArg (· :: []) (Union.code_moved move name layout)
  | enum | primitive | constant => rfl
  | typedef name target =>
      obtain ⟨declaration, coding⟩ := target
      cases coding <;> rfl

/-- The generated modules do not show where anything was written. -/
theorem artifacts_moved (naming : Naming) (emissions : List Emission) :
    artifacts naming (emissions.map (Emission.moved move)) = artifacts naming emissions := by
  have constantsSame : (emissions.map (Emission.moved move)).flatMap constants =
      emissions.flatMap constants := by
    rw [List.flatMap_map]
    exact congrArg (emissions.flatMap ·) (funext (constants_moved move))
  have routinesSame : (emissions.map (Emission.moved move)).flatMap routines =
      emissions.flatMap routines := by
    rw [List.flatMap_map]
    exact congrArg (emissions.flatMap ·) (funext (routines_moved move))
  have classesSame : ((emissions.map (Emission.moved move)).flatMap classes).map (·.code) =
      (emissions.flatMap classes).map (·.code) := by
    rw [List.flatMap_map, List.map_flatMap, List.map_flatMap]
    exact congrArg (emissions.flatMap ·) (funext (classes_moved move))
  simp only [artifacts, constantsCode, typesCode, packerCode, constantsSame, routinesSame,
    classesSame]

end Python

/-- Similar compilers have the same modules generated. -/
theorem Compiler.Similar.artifacts {left right : Compiler} (similar : left.Similar right)
    (naming : Naming) :
    Python.artifacts naming left.emissions =
      Python.artifacts naming right.emissions := by
  rw [<- Python.artifacts_moved .away, similar.emissions, Python.artifacts_moved]

namespace Failure

/-- The root of a failure moves with it. -/
theorem root_moved (move : Relocation) (failure : Failure) :
    (failure.moved move).root = failure.root.moved move := by
  induction failure with
  | afterErrors cause errors inductionHypothesis => exact inductionHypothesis
  | syntactic | refused | file => rfl

end Failure

/-- With all places forgotten, tokens of the same kinds are the same tokens. -/
theorem TokenStream.away_eq_of_kinds {left right : TokenStream}
    (kinds : left.unread.map (·.kind) = right.unread.map (·.kind)) :
    left.moved .away = right.moved .away := by
  have tokens : forall stream : TokenStream, stream.unread.map (Token.moved .away) =
      (stream.unread.map (·.kind)).map (fun kind => ⟨kind, 0, 0⟩) := by
    intro stream
    rw [List.map_map]
    rfl
  simp only [moved, tokens, kinds]
  rfl

namespace Compiler

/-- Compiling replies with what submitting the definitions of the text comes to. -/
theorem fst_compile (compiler : Compiler) (naming : Naming) (source : String) :
    (compiler.compile (Python.backend naming) source).1 =
      match compiler.defineAll (.fixed Python.isReserved) (Lexing.ofText source).stream with
      | (.error failure, _, rest) =>
          .error (failure.after ((Lexing.ofText source).errorsSeen rest.unread.length))
      | (.ok (), final, rest) =>
          .ok ⟨Python.artifacts naming final.emissions,
            (Lexing.ofText source).errorsSeen rest.unread.length⟩ := by
  have isReserved : (Python.backend naming).isReserved = .fixed Python.isReserved := rfl
  rcases submitted :
    compiler.defineAll (.fixed Python.isReserved) (Lexing.ofText source).stream with
    ⟨failure | done, final, rest⟩
  · simp only [compile, isReserved, submitted]
  · rw [compile_of_defineAll (isReserved ▸ submitted)]
    rfl

/-- Whatever is compiled on top of, two texts with the same kinds of tokens compile
alike: if one of them gives modules, the other one gives the same modules, and if one of
them fails, the other one fails by the same cause, which may be on another line. -/
theorem compile_layout (compiler : Compiler) (naming : Naming) (left right : String)
    (kinds : (Lexing.ofText left).tokens.map (·.kind) =
      (Lexing.ofText right).tokens.map (·.kind)) :
    let backend := Python.backend naming
    (forall compilation, (compiler.compile backend left).1 = .ok compilation ->
      ∃ other, (compiler.compile backend right).1 = .ok other ∧
        other.artifacts = compilation.artifacts) ∧
    forall failure, (compiler.compile backend left).1 = .error failure ->
      ∃ other, (compiler.compile backend right).1 = .error other ∧
        other.root.moved .away = failure.root.moved .away := by
  intro backend
  -- Both runs come to the same as the one over the tokens without places.
  have same : (Lexing.ofText left).stream.moved .away = (Lexing.ofText right).stream.moved .away :=
    TokenStream.away_eq_of_kinds kinds
  have ignores := Reservation.ignoresLines_fixed Python.isReserved
  have ofLeft := (Similar.refl compiler).defineAll ignores .away (Lexing.ofText left).stream
  have ofRight := (Similar.refl compiler).defineAll ignores .away (Lexing.ofText right).stream
  rw [same] at ofLeft
  obtain ⟨leftOutcome, leftSimilar, -⟩ := ofLeft
  obtain ⟨rightOutcome, rightSimilar, -⟩ := ofRight
  have outcomes := leftOutcome.symm.trans rightOutcome
  have artifacts := (leftSimilar.artifacts naming).trans (rightSimilar.artifacts naming).symm
  rw [fst_compile, fst_compile]
  generalize compiler.defineAll _ (Lexing.ofText left).stream = one at outcomes artifacts ⊢
  generalize compiler.defineAll _ (Lexing.ofText right).stream = two at outcomes artifacts ⊢
  obtain ⟨failure | done, final, rest⟩ := one <;> obtain ⟨other | done, last, remaining⟩ := two
  · have causes : failure.moved .away = other.moved .away := Except.error.inj outcomes
    refine ⟨by simp, ?_⟩
    rintro _ ⟨⟩
    refine ⟨_, rfl, ?_⟩
    rw [Failure.root_after, Failure.root_after, <- Failure.root_moved, <- Failure.root_moved,
      causes]
  · cases outcomes
  · cases outcomes
  · refine ⟨?_, by simp⟩
    rintro _ ⟨⟩
    exact ⟨_, rfl, artifacts.symm⟩

/-- A comment, a directive, an illegal character and line ends make no difference, in an
accepted text as in a refused one. -/
theorem compile_layout_spread :
    let backend := Python.backend ⟨"a.x", "a_", "A"⟩
    (∃ one other, backend.compile "struct p \x7b int x; \x7d;" = .ok one ∧
      backend.compile "%pass\nstruct p/* pair */\n\x7bint@ x;\n\x7d;" = .ok other ∧
      other.artifacts = one.artifacts) ∧
    (∃ one other, backend.compile "struct p \x7b q x; \x7d;" = .error one ∧
      one.root = .refused (.undeclaredType "q" 1) ∧
      backend.compile "struct p\n\x7b\nq x;\n\x7d;" = .error other ∧
      other.root.moved .away = one.root.moved .away) := by
  intro backend
  have spread := compile_layout start ⟨"a.x", "a_", "A"⟩ "struct p \x7b int x; \x7d;"
    "%pass\nstruct p/* pair */\n\x7bint@ x;\n\x7d;" (by decide +kernel)
  have refused := compile_layout start ⟨"a.x", "a_", "A"⟩ "struct p \x7b q x; \x7d;"
    "struct p\n\x7b\nq x;\n\x7d;" (by decide +kernel)
  constructor
  · obtain ⟨one, final, accepted⟩ : ∃ compilation final,
        start.compile backend "struct p \x7b int x; \x7d;" = (.ok compilation, final) :=
      exists_of_isOk (by decide +kernel)
    obtain ⟨other, alike, artifacts⟩ := spread.1 one (by rw [accepted])
    exact ⟨one, other, by rw [Backend.compile, accepted], alike, artifacts⟩
  · have failed : (start.compile backend "struct p \x7b q x; \x7d;").1 =
        .error (.refused (.undeclaredType "q" 1)) := by decide +kernel
    obtain ⟨other, alike, causes⟩ := refused.2 _ failed
    exact ⟨_, other, failed, rfl, alike, causes⟩

end Compiler

end XdrPack
