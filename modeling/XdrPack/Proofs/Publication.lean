import XdrPack.Proofs.Locations

/-!
# Putting modules in their places

A build touches the places of its modules only by moving finished texts there, and it moves
them one after the other. So a build that fails before the first move leaves the modules that
were there. One that fails at a move leaves the places from there on as they were, and new
modules in the places before. All of this holds of every store whose operations do what they do
to a file system, or else fail and do nothing: a store may refuse what a file system allows, as
one with access rights does.
-/

namespace XdrPack

/-! ## Staged texts -/

/-- The paths at which a text is written and put. -/
def Staged.paths (staged : Staged) : List Path := [staged.temporary, staged.target]

/-- The texts go to the places of the modules. -/
theorem OutputNames.map_target_staged (outputs : OutputNames) (artifacts : Artifacts) :
    (outputs.staged artifacts).map Staged.target = outputs.paths := rfl

/-- A text is written at one of its paths. -/
theorem Staged.temporary_mem {files : List Staged} {file : Staged} (mem : file ∈ files) :
    file.temporary ∈ files.flatMap Staged.paths :=
  List.mem_flatMap.mpr ⟨file, mem, List.mem_cons_self⟩

/-- A text is put at one of its paths. -/
theorem Staged.target_mem {files : List Staged} {file : Staged} (mem : file ∈ files) :
    file.target ∈ files.flatMap Staged.paths :=
  List.mem_flatMap.mpr ⟨file, mem, List.mem_cons_of_mem _ List.mem_cons_self⟩

/-- Texts are written at some of their paths. -/
theorem Staged.temporaries_subset (files : List Staged) :
    files.map Staged.temporary ⊆ files.flatMap Staged.paths := by
  intro path isTemporary
  obtain ⟨file, mem, rfl⟩ := List.mem_map.mp isTemporary
  exact Staged.temporary_mem mem

/-- No two of the paths at which texts are written and put lead to one place. -/
def Separate (files : List Staged) : Prop := (files.flatMap Staged.paths).Pairwise Path.Apart

namespace Separate

variable {file : Staged} {rest files : List Staged}

/-- The paths of the later texts are apart among themselves. -/
theorem tail (separate : Separate (file :: rest)) : Separate rest :=
  (List.pairwise_append.mp separate).2.1

/-- A text is not written in its place. -/
theorem apart_target (separate : Separate (file :: rest)) :
    file.temporary.Apart file.target := by
  have own := (List.pairwise_append.mp separate).1
  simpa [Staged.paths] using own

/-- The paths of one text are apart from those of the others. -/
theorem apart_later (separate : Separate (file :: rest)) {path other : Path}
    (mem : path ∈ file.paths) (later : other ∈ rest.flatMap Staged.paths) : path.Apart other :=
  (List.pairwise_append.mp separate).2.2 path mem other later

/-- What touches the paths of one text leaves the others as they are. -/
theorem nodeAt?_later (separate : Separate (file :: rest)) {before after : FileSystem}
    (framed : FileSystem.Framed file.paths before after) {path : Path}
    (later : path ∈ rest.flatMap Staged.paths) : after.nodeAt? path = before.nodeAt? path :=
  framed.nodeAt?_eq fun _ touched => (separate.apart_later touched later).symm

/-- What touches the paths of the other texts leaves those of the first as they are. -/
theorem nodeAt?_own (separate : Separate (file :: rest)) {before after : FileSystem}
    (framed : FileSystem.Framed (rest.flatMap Staged.paths) before after) {path : Path}
    (own : path ∈ file.paths) : after.nodeAt? path = before.nodeAt? path :=
  framed.nodeAt?_eq fun _ touched => separate.apart_later own touched

/-- What is staged behind a text stays staged when only the paths of that text are touched. -/
theorem holds_later (separate : Separate (file :: rest)) {before after : FileSystem}
    (framed : FileSystem.Framed file.paths before after)
    (holds : forall each, each ∈ file :: rest ->
      before.nodeAt? each.temporary = some (.file each.text.toUTF8)) :
    forall each, each ∈ rest -> after.nodeAt? each.temporary = some (.file each.text.toUTF8) := by
  intro each mem
  rw [separate.nodeAt?_later framed (Staged.temporary_mem mem)]
  exact holds each (List.mem_cons_of_mem _ mem)

/-- No place is a temporary file. -/
theorem target_apart (separate : Separate files) {target : Path}
    (isTarget : target ∈ files.map Staged.target) {temporary : Path}
    (isTemporary : temporary ∈ files.map Staged.temporary) : target.Apart temporary := by
  induction files with
  | nil => cases isTarget
  | cons file rest inductionHypothesis =>
      rw [List.map_cons, List.mem_cons] at isTarget isTemporary
      rcases isTarget with rfl | laterTarget
      · rcases isTemporary with rfl | laterTemporary
        · exact separate.apart_target.symm
        · obtain ⟨other, mem, rfl⟩ := List.mem_map.mp laterTemporary
          exact separate.apart_later (by simp [Staged.paths]) (Staged.temporary_mem mem)
      · rcases isTemporary with rfl | laterTemporary
        · obtain ⟨other, mem, rfl⟩ := List.mem_map.mp laterTarget
          exact (separate.apart_later (by simp [Staged.paths]) (Staged.target_mem mem)).symm
        · exact inductionHypothesis separate.tail laterTarget laterTemporary

end Separate

/-- A build writes at six different places. -/
theorem separate_staged (request : BuildRequest) (artifacts : Artifacts) :
    Separate (request.outputs.staged artifacts) := by
  have ends := fileName?_outputs request
  simp only [OutputNames.paths, outputEndings, List.map_cons, List.map_nil, List.cons.injEq,
    and_true] at ends
  obtain ⟨constants, types, packer⟩ := ends
  have names : ((request.outputs.staged artifacts).flatMap Staged.paths).map Path.fileName? =
      ((outputEndings.flatMap fun ending => [ending ++ ".tmp", ending]).map
        (request.input.moduleStem ++ ·)).map some := by
    simp [OutputNames.staged, Staged.paths, Staged.temporary, outputEndings, constants, types,
      packer, Path.fileName?_temporary constants, Path.fileName?_temporary types,
      Path.fileName?_temporary packer, String.append_assoc]
  apply Path.pairwise_apart names
  have distinct : (outputEndings.flatMap fun ending => [ending ++ ".tmp", ending]).Nodup := by
    decide
  rw [List.Nodup, List.pairwise_map]
  exact distinct.imp fun differs equal =>
    differs ((String.append_right_inj request.input.moduleStem).mp equal)

/-! ## Stores -/

/-- What may come of an operation on a file system: what the operation gives, or an error and no
change. -/
def FileSystem.Attempt (system : FileSystem) (operation : Except FileError FileSystem)
    (result : Except FileError Unit) (after : FileSystem) : Prop :=
  match result with
  | .ok () => operation = .ok after
  | .error _ => after = system

/-- What an operation touches at most, whatever comes of it. -/
theorem FileSystem.Attempt.framed {system after : FileSystem}
    {operation : Except FileError FileSystem} {result : Except FileError Unit}
    (attempt : system.Attempt operation result after) {paths : List Path}
    (framed : forall next, operation = .ok next -> Framed paths system next) :
    Framed paths system after := by
  cases result with
  | ok => exact framed after attempt
  | error cause =>
      have unchanged : after = system := attempt
      rw [unchanged]
      exact .refl paths system

/-- A store with a file system in its states. Reading gives the text of a file or fails, and
changes nothing. The other operations do what they do to a file system, or fail and change
nothing. -/
structure FileStore.Obeys {σ : Type} (store : FileStore (StateM σ)) (view : σ -> FileSystem) :
    Prop where
  readText {path : Path} {state next : σ} {result : Except FileError String}
    (ran : (store.readText path).run state = (result, next)) :
    view next = view state ∧
      forall text, result = .ok text -> (view state).readText path = .ok text
  write {path : Path} {text : String} {state next : σ} {result : Except FileError Unit}
    (ran : (store.write path text).run state = (result, next)) :
    (view state).Attempt ((view state).write path text.toUTF8) result (view next)
  rename {source target : Path} {state next : σ} {result : Except FileError Unit}
    (ran : (store.rename source target).run state = (result, next)) :
    (view state).Attempt ((view state).rename source target) result (view next)
  remove {path : Path} {state next : σ} {result : Except FileError Unit}
    (ran : (store.remove path).run state = (result, next)) :
    (view state).Attempt ((view state).remove path) result (view next)

namespace FileSystem

/-- Changing a file system by an operation is one of the things that may come of it. -/
theorem attempt_change {operation : FileSystem -> Except FileError FileSystem}
    {system next : FileSystem} {result : Except FileError Unit}
    (ran : (change operation).run system = (result, next)) :
    system.Attempt (operation system) result next := by
  unfold StateT.run change at ran
  split at ran
  · obtain ⟨rfl, rfl⟩ := Prod.mk.inj ran
    rfl
  · next success =>
      obtain ⟨rfl, rfl⟩ := Prod.mk.inj ran
      exact success

/-- A file system is a store, which refuses nothing that it could do. -/
theorem store_obeys : store.Obeys id where
  readText ran := by
    obtain ⟨rfl, rfl⟩ := Prod.mk.inj ran
    exact ⟨rfl, fun _ => id⟩
  write := attempt_change
  rename := attempt_change
  remove := attempt_change

end FileSystem

/-! ## Runs -/

namespace FileStore

section

variable {m : Type -> Type} [Monad m] (store : FileStore m)

/-- Writes texts and moves them to their places, up to the first failure. -/
def place (files : List Staged) : m (List Progress × Except Failure Unit) := do
  match <- store.stage files with
  | .error failure => pure ([], .error failure)
  | .ok () => store.publish [] files

/-- Removes the temporary files of texts, and says what comes of each. -/
def removals : List Staged -> m (List (Except FileError Unit))
  | [] => pure []
  | staged :: rest => do
      let result <- store.remove staged.temporary
      let results <- removals rest
      pure (result :: results)

end

variable {σ : Type} (store : FileStore (StateM σ))

/-- A run after another goes on from where it ends. -/
theorem run_bind_of_run {α β : Type} {first : StateM σ α} {second : α -> StateM σ β}
    {state next : σ} {result : α} (ran : first.run state = (result, next)) :
    (first >>= second).run state = (second result).run next := by
  rw [StateT.run_bind, ran]
  rfl

/-- Staging stops at the first text that cannot be written. -/
theorem stage_cons (file : Staged) (rest : List Staged) (state : σ) :
    (store.stage (file :: rest)).run state =
      match (store.write file.temporary file.text).run state with
      | (.error error, next) => (.error (.file file.temporary error), next)
      | (.ok (), next) => (store.stage rest).run next := by
  rcases written : (store.write file.temporary file.text).run state with ⟨error | _, next⟩ <;>
    exact run_bind_of_run written

/-- Publishing stops at the first text that cannot be moved. -/
theorem publish_cons (notes : List Progress) (file : Staged) (rest : List Staged) (state : σ) :
    (store.publish notes (file :: rest)).run state =
      match (store.rename file.temporary file.target).run state with
      | (.error error, next) =>
          ((notes ++ [.writing file.target], .error (.file file.target error)), next)
      | (.ok (), next) => (store.publish (notes ++ [.writing file.target]) rest).run next := by
  rcases moved : (store.rename file.temporary file.target).run state with ⟨error | _, next⟩ <;>
    exact run_bind_of_run moved

/-- Removing goes on whatever comes of it. -/
theorem removals_cons (file : Staged) (rest : List Staged) (state : σ) :
    (store.removals (file :: rest)).run state =
      let (result, next) := (store.remove file.temporary).run state
      let (results, last) := (store.removals rest).run next
      (result :: results, last) := rfl

/-- Discarding texts removes their temporary files, and forgets what comes of it. -/
theorem run_discard (files : List Staged) (state : σ) :
    ((store.discard files).run state).2 = ((store.removals files).run state).2 := by
  induction files generalizing state with
  | nil => rfl
  | cons file rest inductionHypothesis =>
      exact inductionHypothesis ((store.remove file.temporary).run state).2

/-- Texts that cannot be written are not moved. -/
theorem run_place (files : List Staged) (state : σ) :
    (store.place files).run state =
      match (store.stage files).run state with
      | (.error failure, staged) => (([], .error failure), staged)
      | (.ok (), staged) => (store.publish [] files).run staged := by
  rcases stagedRun : (store.stage files).run state with ⟨failure | _, staged⟩ <;>
    exact run_bind_of_run stagedRun

/-- A failure to put texts in their places discards what was staged. -/
theorem run_writeAll (files : List Staged) (state : σ) :
    (store.writeAll files).run state =
      match (store.place files).run state with
      | ((notes, .error failure), stopped) =>
          ((notes, .error failure), ((store.removals files).run stopped).2)
      | ((notes, .ok ()), placed) => ((notes, .ok ()), placed) := by
  rw [run_place, writeAll]
  rcases stagedRun : (store.stage files).run state with ⟨failure | _, staged⟩
  · rw [run_bind_of_run stagedRun]
    dsimp only
    rw [<- run_discard]
    rfl
  · rw [run_bind_of_run stagedRun]
    dsimp only
    rcases publishedRun : (store.publish [] files).run staged with
      ⟨⟨notes, failure | _⟩, published⟩
    · rw [run_bind_of_run publishedRun]
      dsimp only
      rw [<- run_discard]
      rfl
    · exact run_bind_of_run publishedRun

/-- A build reads the interface file, compiles it and puts the modules in their places, up to the
first of these that fails. -/
theorem run_build (request : BuildRequest) (state : σ) :
    (store.build request).run state =
      match (store.readText request.input).run state with
      | (.error error, opened) => (⟨[], .error (.file request.input error)⟩, opened)
      | (.ok source, opened) =>
          match Compiler.start.compile (Python.backend request.naming) source with
          | (.error failure, compiler) => (⟨compiler.notes.toList, .error failure⟩, opened)
          | (.ok compilation, compiler) =>
              match (store.writeAll (request.outputs.staged compilation.artifacts)).run opened with
              | ((notes, .error failure), after) =>
                  (⟨compiler.notes.toList ++ notes, .error failure⟩, after)
              | ((notes, .ok ()), after) =>
                  (⟨compiler.notes.toList ++ notes, .ok ⟨request.outputs, compilation.errors⟩⟩,
                    after) := by
  rcases read : (store.readText request.input).run state with ⟨error | source, opened⟩
  · exact run_bind_of_run read
  · rw [build, run_bind_of_run read]
    rcases compiled : Compiler.start.compile (Python.backend request.naming) source with
      ⟨failure | compilation, compiler⟩
    · simp only [compiled]
      rfl
    · simp only [compiled]
      rcases written :
          (store.writeAll (request.outputs.staged compilation.artifacts)).run opened with
        ⟨⟨notes, failure | _⟩, after⟩ <;>
      exact run_bind_of_run written

namespace Obeys

variable {store} {view : σ -> FileSystem} (obeys : store.Obeys view)

include obeys

/-! ## What a run touches -/

/-- Writing a file touches its path only. -/
theorem write_framed {path : Path} {text : String} {state next : σ}
    {result : Except FileError Unit} (ran : (store.write path text).run state = (result, next)) :
    FileSystem.Framed [path] (view state) (view next) :=
  (obeys.write ran).framed fun _ done => (FileSystem.write_eq_ok done).1

/-- Moving a file touches the path that it leaves and the one that it gets. -/
theorem rename_framed {source target : Path} {state next : σ} {result : Except FileError Unit}
    (ran : (store.rename source target).run state = (result, next)) :
    FileSystem.Framed [source, target] (view state) (view next) :=
  (obeys.rename ran).framed fun _ done => (FileSystem.rename_eq_ok done).1

/-- Removing a file touches its path only. -/
theorem remove_framed {path : Path} {state next : σ} {result : Except FileError Unit}
    (ran : (store.remove path).run state = (result, next)) :
    FileSystem.Framed [path] (view state) (view next) :=
  (obeys.remove ran).framed fun _ done => (FileSystem.remove_eq_ok done).1

/-- Staging touches temporary files only. -/
theorem stage_framed (files : List Staged) (state : σ) :
    FileSystem.Framed (files.map Staged.temporary) (view state)
      (view ((store.stage files).run state).2) := by
  induction files generalizing state with
  | nil => exact .refl _ _
  | cons file rest inductionHypothesis =>
      rw [stage_cons]
      rcases written : (store.write file.temporary file.text).run state with ⟨error | _, next⟩
      · exact (obeys.write_framed written).widen (by simp)
      · exact ((obeys.write_framed written).widen (by simp)).trans
          ((inductionHypothesis next).widen (by simp))

/-- Publishing touches temporary files and places. -/
theorem publish_framed (notes : List Progress) (files : List Staged) (state : σ) :
    FileSystem.Framed (files.flatMap Staged.paths) (view state)
      (view ((store.publish notes files).run state).2) := by
  induction files generalizing notes state with
  | nil => exact .refl _ _
  | cons file rest inductionHypothesis =>
      rw [publish_cons]
      rcases moved : (store.rename file.temporary file.target).run state with ⟨error | _, next⟩
      · exact (obeys.rename_framed moved).widen (by simp [Staged.paths])
      · exact ((obeys.rename_framed moved).widen (by simp [Staged.paths])).trans
          ((inductionHypothesis _ next).widen (by simp))

/-- Removing temporary files touches these only. -/
theorem removals_framed (files : List Staged) (state : σ) :
    FileSystem.Framed (files.map Staged.temporary) (view state)
      (view ((store.removals files).run state).2) := by
  induction files generalizing state with
  | nil => exact .refl _ _
  | cons file rest inductionHypothesis =>
      rw [removals_cons]
      rcases removed : (store.remove file.temporary).run state with ⟨result, next⟩
      exact ((obeys.remove_framed removed).widen (by simp)).trans
        ((inductionHypothesis next).widen (by simp))

/-- Putting texts in their places touches temporary files and places. -/
theorem place_framed (files : List Staged) (state : σ) :
    FileSystem.Framed (files.flatMap Staged.paths) (view state)
      (view ((store.place files).run state).2) := by
  have staging := (obeys.stage_framed files state).widen (Staged.temporaries_subset files)
  rw [run_place]
  rcases stagedRun : (store.stage files).run state with ⟨failure | _, staged⟩
  · rwa [stagedRun] at staging
  · rw [stagedRun] at staging
    exact staging.trans (obeys.publish_framed [] files staged)

/-! ## What a run leaves -/

/-- After staging, the temporary files hold the texts. -/
theorem stage_holds {files : List Staged} (separate : Separate files) {state : σ}
    (success : ((store.stage files).run state).1 = .ok ()) {file : Staged} (mem : file ∈ files) :
    (view ((store.stage files).run state).2).nodeAt? file.temporary =
      some (.file file.text.toUTF8) := by
  induction files generalizing state with
  | nil => cases mem
  | cons first rest inductionHypothesis =>
      rw [stage_cons] at success ⊢
      rcases written : (store.write first.temporary first.text).run state with ⟨error | _, next⟩
      · rw [written] at success
        cases success
      · rw [written] at success
        rcases List.mem_cons.mp mem with rfl | later
        · -- The texts behind it go to other places.
          have behind := (obeys.stage_framed rest next).widen (Staged.temporaries_subset rest)
          have held := (FileSystem.write_eq_ok (obeys.write written)).2
          exact (separate.nodeAt?_own behind List.mem_cons_self).trans held
        · exact inductionHypothesis separate.tail success later

end Obeys

end FileStore

namespace FileSystem

/-- Texts are in their places up to one that could not be moved. From there on the places are
as they were. -/
def BrokenOff (files : List Staged) (before after : FileSystem) (failure : Failure) : Prop :=
  ∃ placed refused later error,
    files = placed ++ refused :: later ∧
    failure = .file refused.target error ∧
    (forall file, file ∈ placed ->
      after.nodeAt? file.target = some (.file file.text.toUTF8)) ∧
    forall file, file ∈ refused :: later -> after.nodeAt? file.target = before.nodeAt? file.target

/-- Touching temporary files leaves the places as they are. -/
theorem Framed.target_eq {files : List Staged} (separate : Separate files)
    {before after : FileSystem} (framed : Framed (files.map Staged.temporary) before after)
    {file : Staged} (mem : file ∈ files) :
    after.nodeAt? file.target = before.nodeAt? file.target :=
  framed.nodeAt?_eq fun _ isTemporary =>
    separate.target_apart (List.mem_map_of_mem mem) isTemporary

/-- Touching temporary files before and after makes no difference to where putting texts in
their places broke off. -/
theorem BrokenOff.around {files : List Staged} (separate : Separate files)
    {before staged published after : FileSystem} {failure : Failure}
    (broken : BrokenOff files staged published failure)
    (first : Framed (files.map Staged.temporary) before staged)
    (last : Framed (files.map Staged.temporary) published after) :
    BrokenOff files before after failure := by
  obtain ⟨placed, refused, later, error, split, isRefusal, areNew, areOld⟩ := broken
  refine ⟨placed, refused, later, error, split, isRefusal, ?_, ?_⟩
  · intro file mem
    rw [last.target_eq separate (by simp [split, mem]), areNew file mem]
  · intro file mem
    have memFiles : file ∈ files := split ▸ List.mem_append_right _ mem
    rw [last.target_eq separate memFiles, areOld file mem, first.target_eq separate memFiles]

end FileSystem

namespace FileStore.Obeys

variable {σ : Type} {store : FileStore (StateM σ)} {view : σ -> FileSystem}
  (obeys : store.Obeys view)

include obeys

/-- Publishing that fails has put the texts before the failure in their places. -/
theorem publish_brokenOff {files : List Staged} (separate : Separate files)
    {notes reported : List Progress} {state after : σ} {failure : Failure}
    (holds : forall file, file ∈ files ->
      (view state).nodeAt? file.temporary = some (.file file.text.toUTF8))
    (failed : (store.publish notes files).run state = ((reported, .error failure), after)) :
    FileSystem.BrokenOff files (view state) (view after) failure := by
  induction files generalizing notes state with
  | nil => cases failed
  | cons file rest inductionHypothesis =>
      rw [publish_cons] at failed
      rcases moved : (store.rename file.temporary file.target).run state with ⟨cause | _, next⟩
      · rw [moved] at failed
        obtain ⟨isFailure, rfl⟩ := Prod.mk.inj failed
        cases isFailure
        have unchanged : view next = view state := obeys.rename moved
        rw [unchanged]
        exact ⟨[], file, rest, cause, rfl, rfl, by simp, fun _ _ => rfl⟩
      · rw [moved] at failed
        dsimp only at failed
        obtain ⟨framed, arrived, -⟩ := FileSystem.rename_eq_ok (obeys.rename moved)
        have behind : FileSystem.BrokenOff rest (view next) (view after) failure :=
          inductionHypothesis separate.tail (separate.holds_later framed holds) failed
        have kept : (view after).nodeAt? file.target = (view next).nodeAt? file.target := by
          have later := obeys.publish_framed (notes ++ [.writing file.target]) rest next
          rw [failed] at later
          exact separate.nodeAt?_own later (by simp [Staged.paths])
        obtain ⟨placed, refused, later, cause, split, isRefusal, areNew, areOld⟩ := behind
        subst split
        refine ⟨file :: placed, refused, later, cause, rfl, isRefusal, ?_, ?_⟩
        · intro other mem
          rcases List.mem_cons.mp mem with rfl | mem
          · rw [kept, arrived, holds other List.mem_cons_self]
          · exact areNew other mem
        · intro other mem
          rw [areOld other mem]
          exact separate.nodeAt?_later framed (Staged.target_mem (List.mem_append_right _ mem))

/-- Texts that could not all be put in their places are in none of them, unless all of them
were staged. -/
theorem writeAll_error {files : List Staged} (separate : Separate files)
    {notes : List Progress} {state after : σ} {failure : Failure}
    (failed : (store.writeAll files).run state = ((notes, .error failure), after)) :
    (((store.stage files).run state).1 ≠ .ok () ∧
      forall file, file ∈ files ->
        (view after).nodeAt? file.target = (view state).nodeAt? file.target) ∨
    (((store.stage files).run state).1 = .ok () ∧
      FileSystem.BrokenOff files (view state) (view after) failure) := by
  rw [run_writeAll, run_place] at failed
  have stagedFrame := obeys.stage_framed files state
  rcases stagedRun : (store.stage files).run state with ⟨cause | _, staged⟩
  · rw [stagedRun] at failed stagedFrame
    obtain ⟨-, rfl⟩ := Prod.mk.inj failed
    refine .inl ⟨by simp, fun file mem => ?_⟩
    exact (stagedFrame.trans (obeys.removals_framed files staged)).target_eq separate mem
  · rw [stagedRun] at failed stagedFrame
    have holds : forall file, file ∈ files ->
        (view staged).nodeAt? file.temporary = some (.file file.text.toUTF8) := by
      intro file mem
      have held := obeys.stage_holds separate (by rw [stagedRun]) mem
      rwa [stagedRun] at held
    dsimp only at failed
    rcases publishedRun : (store.publish [] files).run staged with ⟨⟨_, cause | _⟩, published⟩
    · rw [publishedRun] at failed
      obtain ⟨isFailure, rfl⟩ := Prod.mk.inj failed
      cases isFailure
      exact .inr ⟨rfl, (obeys.publish_brokenOff separate holds publishedRun).around separate
        stagedFrame (obeys.removals_framed files published)⟩
    · rw [publishedRun] at failed
      cases failed

end FileStore.Obeys

/-! ## Builds that fail -/

/-- The interface file can be read and compiles to the texts, and the store goes on from the
state in which it has been read. -/
def BuildRequest.Prepares {σ : Type} (request : BuildRequest) (store : FileStore (StateM σ))
    (state : σ) (files : List Staged) (opened : σ) : Prop :=
  ∃ source compilation, (store.readText request.input).run state = (.ok source, opened) ∧
    (Compiler.start.compile (Python.backend request.naming) source).1 = .ok compilation ∧
    files = request.outputs.staged compilation.artifacts

/-- All texts that are prepared can be written to temporary files. -/
def BuildRequest.Stages {σ : Type} (request : BuildRequest) (store : FileStore (StateM σ))
    (state : σ) (files : List Staged) : Prop :=
  ∃ opened, request.Prepares store state files opened ∧
    ((store.stage files).run opened).1 = .ok ()

namespace BuildRequest.Prepares

variable {σ : Type} {request : BuildRequest} {store : FileStore (StateM σ)}
  {state opened again : σ} {files others : List Staged}

/-- What is prepared is determined by the state. -/
theorem unique (first : request.Prepares store state files opened)
    (second : request.Prepares store state others again) : files = others ∧ opened = again := by
  obtain ⟨source, compilation, read, compiled, rfl⟩ := first
  obtain ⟨sourceToo, compilationToo, readToo, compiledToo, rfl⟩ := second
  obtain ⟨same, rfl⟩ := Prod.mk.inj (read.symm.trans readToo)
  obtain rfl := Except.ok.inj same
  obtain rfl := Except.ok.inj (compiled.symm.trans compiledToo)
  exact ⟨rfl, rfl⟩

/-- Texts that are prepared are written and put at different places. -/
theorem separate (prepared : request.Prepares store state files opened) : Separate files := by
  obtain ⟨source, compilation, -, -, rfl⟩ := prepared
  exact separate_staged request compilation.artifacts

/-- Texts that are prepared go to the places of the modules. -/
theorem targets (prepared : request.Prepares store state files opened) :
    files.map Staged.target = request.outputs.paths := by
  obtain ⟨source, compilation, -, -, rfl⟩ := prepared
  exact request.outputs.map_target_staged compilation.artifacts

end BuildRequest.Prepares

namespace FileSystem

variable {σ : Type} {store : FileStore (StateM σ)} {view : σ -> FileSystem}

/-- A build that fails has prepared nothing and left everything, or could not put in their
places the texts that it prepared. -/
theorem build_eq_error (obeys : store.Obeys view) {request : BuildRequest} {state after : σ}
    {report : BuildReport} {failure : Failure}
    (ran : (store.build request).run state = (report, after))
    (failed : report.outcome = .error failure) :
    ((forall files opened, ¬ request.Prepares store state files opened) ∧
      view after = view state) ∨
    ∃ files opened notes, request.Prepares store state files opened ∧ view opened = view state ∧
      (store.writeAll files).run opened = ((notes, .error failure), after) := by
  rw [FileStore.run_build] at ran
  rcases read : (store.readText request.input).run state with ⟨cause | source, opened⟩
  · rw [read] at ran
    obtain ⟨-, rfl⟩ := Prod.mk.inj ran
    refine .inl ⟨?_, (obeys.readText read).1⟩
    rintro files reopened ⟨source, compilation, readToo, -⟩
    cases read.symm.trans readToo
  · rw [read] at ran
    dsimp only at ran
    have unchanged := (obeys.readText read).1
    rcases compiled : Compiler.start.compile (Python.backend request.naming) source with
      ⟨cause | compilation, compiler⟩
    · rw [compiled] at ran
      obtain ⟨-, rfl⟩ := Prod.mk.inj ran
      refine .inl ⟨?_, unchanged⟩
      rintro files reopened ⟨sourceToo, compilation, readToo, compiledToo, -⟩
      obtain ⟨same, -⟩ := Prod.mk.inj (read.symm.trans readToo)
      obtain rfl := Except.ok.inj same
      rw [compiled] at compiledToo
      cases compiledToo
    · rw [compiled] at ran
      dsimp only at ran
      refine .inr ⟨request.outputs.staged compilation.artifacts, opened, ?_⟩
      rcases written :
          (store.writeAll (request.outputs.staged compilation.artifacts)).run opened with
        ⟨⟨notes, cause | _⟩, last⟩
      · rw [written] at ran
        cases ran
        cases failed
        exact ⟨notes, ⟨source, compilation, read, by rw [compiled], rfl⟩, unchanged, rfl⟩
      · rw [written] at ran
        cases ran
        cases failed

/-- With any store that obeys the laws of a file system: a build that fails before all modules
are staged leaves what was in their places. One that fails later has put the first modules in
their places and leaves what was in the others. -/
theorem build_error_outputs (obeys : store.Obeys view) {request : BuildRequest}
    {state after : σ} {report : BuildReport} {failure : Failure}
    (ran : (store.build request).run state = (report, after))
    (failed : report.outcome = .error failure) :
    ((forall files, ¬ request.Stages store state files) ∧
      forall path, path ∈ request.outputs.paths ->
        (view after).nodeAt? path = (view state).nodeAt? path) ∨
    ∃ files, request.Stages store state files ∧
      files.map Staged.target = request.outputs.paths ∧
      BrokenOff files (view state) (view after) failure := by
  rcases build_eq_error obeys ran failed with
    ⟨unprepared, unchanged⟩ | ⟨files, opened, notes, prepared, read, written⟩
  · refine .inl ⟨?_, fun _ _ => by rw [unchanged]⟩
    rintro files ⟨opened, prepared, -⟩
    exact unprepared files opened prepared
  · rcases obeys.writeAll_error prepared.separate written with
      ⟨unstaged, unchanged⟩ | ⟨staged, broken⟩
    · refine .inl ⟨?_, ?_⟩
      · rintro others ⟨reopened, preparedToo, staged⟩
        obtain ⟨rfl, rfl⟩ := prepared.unique preparedToo
        exact unstaged staged
      · intro path mem
        rw [<- prepared.targets] at mem
        obtain ⟨file, memFile, rfl⟩ := List.mem_map.mp mem
        rw [unchanged file memFile, read]
    · rw [read] at broken
      exact .inr ⟨files, ⟨opened, prepared, staged⟩, prepared.targets, broken⟩

/-- An interface file, an old module, and a directory in the place of another module. -/
def obstructed : FileSystem where
  nodes := [
    (["scratch"], .directory),
    (["scratch", "nfs4.x"], .file "const A = 1;".toUTF8),
    (["scratch", "nfs4constants.py"], .file "old".toUTF8),
    (["scratch", "nfs4types.py"], .directory)]
  workingDirectory := ["scratch"]

/-- Asks for the modules of the interface file beside it. -/
def obstructedRequest : BuildRequest := ⟨⟨"nfs4.x"⟩, none, none⟩

/-- The build that finds a directory in the place of its second module. -/
theorem build_error_outputs_obstructed :
    let ran := (FileSystem.store.build obstructedRequest).run obstructed
    ran.1.outcome = .error (.file ⟨"nfs4types.py"⟩ .isDirectory) ∧
      (((forall files, ¬ obstructedRequest.Stages FileSystem.store obstructed files) ∧
        forall path, path ∈ obstructedRequest.outputs.paths ->
          ran.2.nodeAt? path = obstructed.nodeAt? path) ∨
      ∃ files, obstructedRequest.Stages FileSystem.store obstructed files ∧
        files.map Staged.target = obstructedRequest.outputs.paths ∧
        BrokenOff files obstructed ran.2 (.file ⟨"nfs4types.py"⟩ .isDirectory)) := by
  have failed : ((FileSystem.store.build obstructedRequest).run obstructed).1.outcome =
      .error (.file ⟨"nfs4types.py"⟩ .isDirectory) := by decide +kernel
  exact ⟨failed, build_error_outputs store_obeys (Prod.eta _).symm failed⟩

/-- A build that fails can replace a module. -/
theorem build_error_replaces :
    let ran := (FileSystem.store.build obstructedRequest).run obstructed
    ran.1.outcome = .error (.file ⟨"nfs4types.py"⟩ .isDirectory) ∧
      obstructed.nodeAt? obstructedRequest.outputs.constants = some (.file "old".toUTF8) ∧
      ran.2.nodeAt? obstructedRequest.outputs.constants = some (.file "A = 1\n".toUTF8) := by
  decide +kernel

end FileSystem

end XdrPack
