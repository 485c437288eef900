import XdrPack.Proofs.Publication

/-!
# What a build changes

A build works at six paths: the places of its modules and the temporary files beside them.
Wherever it stops, nothing else is different afterwards. When it succeeds, the places hold the
new modules and the temporary files are gone. When it stops on the way, it tries to remove the
temporary files, whether they were written or not, and does not look at what comes of it. So a
temporary file is left exactly where there was one that could not be removed: where the store
refuses to, or where the path is too long for one that could lead there.
-/

namespace XdrPack

namespace FileSystem

/-- What is at a path after its file has been removed, or has not. -/
def remains (before : FileSystem) (path : Path) : Except FileError Unit -> Option Node
  | .ok () => none
  | .error _ => before.nodeAt? path

end FileSystem

namespace FileStore.Obeys

variable {σ : Type} {store : FileStore (StateM σ)} {view : σ -> FileSystem}
  (obeys : store.Obeys view)

include obeys

/-! ## Staging and removing -/

/-- Texts that are staged are written where no directory is in the way. -/
theorem stage_writable {files : List Staged} {state : σ}
    (success : ((store.stage files).run state).1 = .ok ()) {file : Staged} (mem : file ∈ files) :
    (view state).Writable file.temporary := by
  induction files generalizing state with
  | nil => cases mem
  | cons first rest inductionHypothesis =>
      rw [stage_cons] at success
      rcases written : (store.write first.temporary first.text).run state with ⟨error | _, next⟩
      · rw [written] at success
        cases success
      · rw [written] at success
        have done := obeys.write written
        rcases List.mem_cons.mp mem with rfl | later
        · exact FileSystem.exists_write_iff.mp ⟨_, done⟩
        · exact (FileSystem.write_eq_ok done).1.writable_iff.mp (inductionHypothesis success later)

/-- Each temporary file is gone exactly if it could be removed. -/
theorem removals_leave {files : List Staged} (separate : Separate files) {before : FileSystem}
    {state : σ} (same : forall file, file ∈ files ->
      (view state).nodeAt? file.temporary = before.nodeAt? file.temporary) :
    List.Forall₂
      (fun file result => (view ((store.removals files).run state).2).nodeAt? file.temporary =
        before.remains file.temporary result)
      files ((store.removals files).run state).1 := by
  induction files generalizing state with
  | nil => exact .nil
  | cons file rest inductionHypothesis =>
      rw [removals_cons]
      rcases removed : (store.remove file.temporary).run state with ⟨result, next⟩
      have attempt := obeys.remove removed
      have own : (view next).nodeAt? file.temporary = before.remains file.temporary result := by
        cases result with
        | ok => exact (FileSystem.remove_eq_ok attempt).2
        | error cause =>
            have unchanged : view next = view state := attempt
            rw [unchanged]
            exact same file List.mem_cons_self
      have touched : FileSystem.Framed file.paths (view state) (view next) :=
        (obeys.remove_framed removed).widen (by simp [Staged.paths])
      have kept := (obeys.removals_framed rest next).widen (Staged.temporaries_subset rest)
      refine .cons ?_ (inductionHypothesis separate.tail fun each mem => ?_)
      · exact (separate.nodeAt?_own kept List.mem_cons_self).trans own
      · rw [separate.nodeAt?_later touched (Staged.temporary_mem mem)]
        exact same each (List.mem_cons_of_mem _ mem)

/-! ## Publishing -/

/-- Texts are moved where no directory is in the way. -/
theorem publish_writable {files : List Staged} {notes : List Progress} {state : σ}
    (success : ((store.publish notes files).run state).1.2 = .ok ()) {file : Staged}
    (mem : file ∈ files) : (view state).Writable file.target := by
  induction files generalizing notes state with
  | nil => cases mem
  | cons first rest inductionHypothesis =>
      rw [publish_cons] at success
      rcases moved : (store.rename first.temporary first.target).run state with ⟨error | _, next⟩
      · rw [moved] at success
        cases success
      · rw [moved] at success
        have done := obeys.rename moved
        rcases List.mem_cons.mp mem with rfl | later
        · exact FileSystem.writable_of_rename done
        · exact (FileSystem.rename_eq_ok done).1.writable_iff.mp
            (inductionHypothesis success later)

/-- Texts that are moved are in their places, and nothing is where they were staged. -/
theorem publish_places {files : List Staged} (separate : Separate files)
    {notes : List Progress} {state : σ}
    (holds : forall file, file ∈ files ->
      (view state).nodeAt? file.temporary = some (.file file.text.toUTF8))
    (success : ((store.publish notes files).run state).1.2 = .ok ()) {file : Staged}
    (mem : file ∈ files) :
    let after := view ((store.publish notes files).run state).2
    after.nodeAt? file.target = some (.file file.text.toUTF8) ∧
      after.nodeAt? file.temporary = none := by
  induction files generalizing notes state with
  | nil => cases mem
  | cons first rest inductionHypothesis =>
      rw [publish_cons] at success ⊢
      rcases moved : (store.rename first.temporary first.target).run state with ⟨error | _, next⟩
      · rw [moved] at success
        cases success
      · rw [moved] at success
        obtain ⟨framed, arrived, vacated⟩ := FileSystem.rename_eq_ok (obeys.rename moved)
        rcases List.mem_cons.mp mem with rfl | later
        · have kept := obeys.publish_framed (notes ++ [.writing file.target]) rest next
          refine ⟨?_, ?_⟩
          · rw [separate.nodeAt?_own kept (by simp [Staged.paths]), arrived, holds file mem]
          · rw [separate.nodeAt?_own kept (by simp [Staged.paths]), vacated separate.apart_target]
        · exact inductionHypothesis separate.tail (separate.holds_later framed holds) success
            later

/-! ## Putting texts in their places -/

/-- Texts that are put in their places are there and nowhere else, and all their paths could be
written. -/
theorem place_ok {files : List Staged} (separate : Separate files) {notes : List Progress}
    {state placed : σ} (ran : (store.place files).run state = ((notes, .ok ()), placed)) :
    (forall path, path ∈ files.flatMap Staged.paths -> (view state).Writable path) ∧
    forall file, file ∈ files ->
      (view placed).nodeAt? file.target = some (.file file.text.toUTF8) ∧
        (view placed).nodeAt? file.temporary = none := by
  have framed := obeys.stage_framed files state
  rw [run_place] at ran
  rcases stagedRun : (store.stage files).run state with ⟨failure | _, staged⟩
  · rw [stagedRun] at ran
    cases ran
  · have success : ((store.stage files).run state).1 = .ok () := by rw [stagedRun]
    have holds : forall file, file ∈ files ->
        (view staged).nodeAt? file.temporary = some (.file file.text.toUTF8) := by
      intro file mem
      have held := obeys.stage_holds separate success mem
      rwa [stagedRun] at held
    rw [stagedRun] at ran framed
    have published : ((store.publish [] files).run staged).1.2 = .ok () := by
      show ((store.publish [] files).run staged).1.2 = _
      dsimp only at ran
      rw [ran]
    refine ⟨?_, ?_⟩
    · intro path touched
      obtain ⟨file, mem, isPath⟩ := List.mem_flatMap.mp touched
      rcases List.mem_pair.mp isPath with rfl | rfl
      · exact obeys.stage_writable success mem
      · exact framed.writable_iff.mp (obeys.publish_writable published mem)
    · intro file mem
      have places := obeys.publish_places separate holds published mem
      dsimp only at ran
      rwa [ran] at places

end FileStore.Obeys

namespace FileStore

variable {σ : Type} (store : FileStore (StateM σ))

/-- Staging fails at the path of a temporary file. -/
theorem stage_error {files : List Staged} {state : σ} {failure : Failure}
    (failed : ((store.stage files).run state).1 = .error failure) :
    ∃ path error, path ∈ files.flatMap Staged.paths ∧ failure = .file path error := by
  induction files generalizing state with
  | nil => cases failed
  | cons file rest inductionHypothesis =>
      rw [stage_cons] at failed
      rcases written : (store.write file.temporary file.text).run state with ⟨error | _, next⟩
      · rw [written] at failed
        cases failed
        exact ⟨_, error, Staged.temporary_mem List.mem_cons_self, rfl⟩
      · rw [written] at failed
        obtain ⟨path, error, touched, isFailure⟩ := inductionHypothesis failed
        exact ⟨path, error, List.mem_append_right _ touched, isFailure⟩

/-- Publishing fails at one of the places. -/
theorem publish_error {files : List Staged} {notes : List Progress} {state : σ}
    {failure : Failure} (failed : ((store.publish notes files).run state).1.2 = .error failure) :
    ∃ path error, path ∈ files.flatMap Staged.paths ∧ failure = .file path error := by
  induction files generalizing notes state with
  | nil => cases failed
  | cons file rest inductionHypothesis =>
      rw [publish_cons] at failed
      rcases moved : (store.rename file.temporary file.target).run state with ⟨error | _, next⟩
      · rw [moved] at failed
        cases failed
        exact ⟨_, error, Staged.target_mem List.mem_cons_self, rfl⟩
      · rw [moved] at failed
        obtain ⟨path, error, touched, isFailure⟩ := inductionHypothesis failed
        exact ⟨path, error, List.mem_append_right _ touched, isFailure⟩

/-- A failure to put texts in their places is about one of their paths. -/
theorem place_error {files : List Staged} {state : σ} {failure : Failure}
    (failed : ((store.place files).run state).1.2 = .error failure) :
    ∃ path error, path ∈ files.flatMap Staged.paths ∧ failure = .file path error := by
  rw [run_place] at failed
  rcases stagedRun : (store.stage files).run state with ⟨cause | _, staged⟩
  · rw [stagedRun] at failed
    cases failed
    exact store.stage_error (by rw [stagedRun])
  · rw [stagedRun] at failed
    exact store.publish_error failed

/-- A build that has read and compiled the interface file puts the modules in their places. If
this fails it removes the temporary files. -/
theorem run_build_of_compiled {request : BuildRequest} {state opened : σ} {source : String}
    {compilation : Compilation} {compiler : Compiler}
    (read : (store.readText request.input).run state = (.ok source, opened))
    (compiled : Compiler.start.compile (Python.backend request.naming) source =
      (.ok compilation, compiler)) :
    (store.build request).run state =
      match (store.place (request.outputs.staged compilation.artifacts)).run opened with
      | ((notes, .error failure), stopped) =>
          (⟨compiler.notes.toList ++ notes, .error failure⟩,
            ((store.removals (request.outputs.staged compilation.artifacts)).run stopped).2)
      | ((notes, .ok ()), placed) =>
          (⟨compiler.notes.toList ++ notes, .ok ⟨request.outputs, compilation.errors⟩⟩,
            placed) := by
  rw [run_build, read]
  dsimp only
  rw [compiled]
  dsimp only
  rw [run_writeAll]
  rcases (store.place (request.outputs.staged compilation.artifacts)).run opened with
    ⟨⟨notes, failure | _⟩, stopped⟩ <;> rfl

end FileStore

/-! ## Builds -/

/-- Texts are put in the places of the modules, and written beside them. -/
theorem flatMap_paths_staged (outputs : OutputNames) (artifacts : Artifacts) :
    (outputs.staged artifacts).flatMap Staged.paths =
      outputs.paths.flatMap fun path => [path.temporary, path] := rfl

namespace FileSystem

section

variable {σ : Type} {store : FileStore (StateM σ)} {view : σ -> FileSystem}

/-- Modules that are put in their places are there and nowhere beside. -/
theorem modules_placed (obeys : store.Obeys view) {request : BuildRequest}
    {artifacts : Artifacts} {notes : List Progress} {state placed : σ}
    (ran : (store.place (request.outputs.staged artifacts)).run state = ((notes, .ok ()), placed)) :
    (forall path, path ∈ request.outputs.paths.flatMap (fun path => [path.temporary, path]) ->
      (view state).Writable path) ∧
    (view placed).nodeAt? request.outputs.constants = some (.file artifacts.constants.toUTF8) ∧
    (view placed).nodeAt? request.outputs.types = some (.file artifacts.types.toUTF8) ∧
    (view placed).nodeAt? request.outputs.packer = some (.file artifacts.packer.toUTF8) ∧
    forall path, path ∈ request.outputs.paths -> (view placed).nodeAt? path.temporary = none := by
  obtain ⟨writable, holds⟩ := obeys.place_ok (separate_staged request artifacts) ran
  rw [flatMap_paths_staged] at writable
  refine ⟨writable, ?_, ?_, ?_, ?_⟩
  · exact (holds ⟨_, _⟩ (by simp [OutputNames.staged])).1
  · exact (holds ⟨_, _⟩ (by simp [OutputNames.staged])).1
  · exact (holds ⟨_, _⟩ (by simp [OutputNames.staged])).1
  · intro path mem
    rw [<- request.outputs.map_target_staged artifacts] at mem
    obtain ⟨file, memFile, rfl⟩ := List.mem_map.mp mem
    exact (holds file memFile).2

/-- Of modules that could not all be put in their places, what could be removed is gone. -/
theorem modules_removed (obeys : store.Obeys view) (request : BuildRequest)
    (artifacts : Artifacts) (stopped : σ) :
    let files := request.outputs.staged artifacts
    List.Forall₂
      (fun path result => (view ((store.removals files).run stopped).2).nodeAt? path.temporary =
        (view stopped).remains path.temporary result)
      request.outputs.paths ((store.removals files).run stopped).1 := by
  intro files
  rw [<- request.outputs.map_target_staged artifacts, List.forall₂_map_left_iff]
  exact obeys.removals_leave (separate_staged request artifacts) fun _ _ => rfl

/-- A build touches the places of the modules and the temporary files beside them at most. -/
theorem build_framed (obeys : store.Obeys view) (request : BuildRequest) (state : σ) :
    Framed (request.outputs.paths.flatMap fun path => [path.temporary, path]) (view state)
      (view ((store.build request).run state).2) := by
  rcases read : (store.readText request.input).run state with ⟨error | source, opened⟩
  · rw [FileStore.run_build, read]
    exact (obeys.readText read).1 ▸ .refl _ _
  · rcases compiled : Compiler.start.compile (Python.backend request.naming) source with
      ⟨failure | compilation, compiler⟩
    · rw [FileStore.run_build, read]
      dsimp only
      rw [compiled]
      exact (obeys.readText read).1 ▸ .refl _ _
    · rw [store.run_build_of_compiled read compiled, <- (obeys.readText read).1,
        <- flatMap_paths_staged request.outputs compilation.artifacts]
      have placing := obeys.place_framed (request.outputs.staged compilation.artifacts) opened
      rcases ran : (store.place (request.outputs.staged compilation.artifacts)).run opened with
        ⟨⟨notes, failure | _⟩, stopped⟩
      · rw [ran] at placing
        exact placing.trans ((obeys.removals_framed _ stopped).widen (Staged.temporaries_subset _))
      · rwa [ran] at placing

/-- With any store that obeys the laws of a file system: a build that cannot read or compile the
interface file changes nothing. Otherwise it touches the places of the modules and the temporary
files beside them alone. If it succeeds, the modules are in their places and nothing is beside
them. If it fails, it has failed at one of these paths, and has then tried to remove the
temporary files one after the other: each is gone if it could be removed, and otherwise what was
there when the build stopped is there still. -/
theorem build_effect (obeys : store.Obeys view) (request : BuildRequest) (state : σ) :
    let ran := (store.build request).run state
    let before := view state
    let after := view ran.2
    let touched := request.outputs.paths.flatMap fun path => [path.temporary, path]
    match (store.readText request.input).run state with
    | (.error error, _) =>
        ran.1.outcome = .error (.file request.input error) ∧ after = before
    | (.ok source, opened) =>
        before.readText request.input = .ok source ∧
        match (Compiler.start.compile (Python.backend request.naming) source).1 with
        | .error failure => ran.1.outcome = .error failure ∧ after = before
        | .ok compilation =>
            Framed touched before after ∧
            match ran.1.outcome with
            | .ok built =>
                built = ⟨request.outputs, compilation.errors⟩ ∧
                (forall path, path ∈ touched -> before.Writable path) ∧
                after.nodeAt? request.outputs.constants =
                  some (.file compilation.artifacts.constants.toUTF8) ∧
                after.nodeAt? request.outputs.types =
                  some (.file compilation.artifacts.types.toUTF8) ∧
                after.nodeAt? request.outputs.packer =
                  some (.file compilation.artifacts.packer.toUTF8) ∧
                forall path, path ∈ request.outputs.paths -> after.nodeAt? path.temporary = none
            | .error failure =>
                let files := request.outputs.staged compilation.artifacts
                let stopped := ((store.place files).run opened).2
                (∃ path error, path ∈ touched ∧ failure = .file path error) ∧
                List.Forall₂
                  (fun path result => after.nodeAt? path.temporary =
                    (view stopped).remains path.temporary result)
                  request.outputs.paths ((store.removals files).run stopped).1 := by
  have framed := build_framed obeys request state
  generalize isRun : (store.build request).run state = ran at framed
  intro ran before after touched
  rcases read : (store.readText request.input).run state with ⟨error | source, opened⟩
  · rw [FileStore.run_build, read] at isRun
    subst isRun
    exact ⟨rfl, (obeys.readText read).1⟩
  · obtain ⟨unchanged, isText⟩ := obeys.readText read
    refine ⟨isText source rfl, ?_⟩
    dsimp only
    rcases compiled : Compiler.start.compile (Python.backend request.naming) source with
      ⟨failure | compilation, compiler⟩
    · rw [FileStore.run_build, read] at isRun
      dsimp only at isRun
      rw [compiled] at isRun
      subst isRun
      exact ⟨rfl, unchanged⟩
    · refine ⟨framed, ?_⟩
      rw [store.run_build_of_compiled read compiled] at isRun
      rcases placing :
          (store.place (request.outputs.staged compilation.artifacts)).run opened with
        ⟨⟨notes, failure | _⟩, stopped⟩
      · rw [placing] at isRun
        subst isRun
        have failed := store.place_error (by rw [placing])
        rw [flatMap_paths_staged] at failed
        exact ⟨failed, modules_removed obeys request compilation.artifacts stopped⟩
      · rw [placing] at isRun
        subst isRun
        have placed := modules_placed obeys placing
        rw [unchanged] at placed
        exact ⟨rfl, placed⟩

/-- A build that cannot look up any of its paths fails and leaves everything as it is. -/
theorem build_unreachable (obeys : store.Obeys view) {request : BuildRequest} {state opened : σ}
    {source : String} {compilation : Compilation} {compiler : Compiler}
    (read : (store.readText request.input).run state = (.ok source, opened))
    (compiled : Compiler.start.compile (Python.backend request.naming) source =
      (.ok compilation, compiler))
    (unreachable : forall path,
      path ∈ request.outputs.paths.flatMap (fun path => [path.temporary, path]) ->
        forall location, (view state).locate path ≠ .ok location) :
    (∃ path error, ((store.build request).run state).1.outcome = .error (.file path error)) ∧
      forall path, (view ((store.build request).run state).2).nodeAt? path =
        (view state).nodeAt? path := by
  constructor
  · rw [store.run_build_of_compiled read compiled]
    rcases placing : (store.place (request.outputs.staged compilation.artifacts)).run opened with
      ⟨⟨notes, failure | _⟩, stopped⟩
    · obtain ⟨path, error, -, rfl⟩ := store.place_error (by rw [placing])
      exact ⟨path, error, rfl⟩
    · have mem : request.outputs.constants ∈
          request.outputs.paths.flatMap (fun path => [path.temporary, path]) := by
        simp [OutputNames.paths]
      obtain ⟨location, located, -⟩ := (modules_placed obeys placing).1 _ mem
      rw [(obeys.readText read).1] at located
      exact absurd located (unreachable _ mem location)
  · intro path
    have framed := build_framed obeys request state
    have untouched : Framed [] (view state) (view ((store.build request).run state).2) :=
      ⟨framed.workingDirectory, framed.directories, fun location _ =>
        framed.elsewhere location fun path mem => unreachable path mem location⟩
    exact untouched.nodeAt?_eq (by simp)

end

/-! ## Builds in a file system -/

/-- In a file system a change that can happen does. -/
theorem run_change {operation : FileSystem -> Except FileError FileSystem}
    {system next : FileSystem} (success : operation system = .ok next) :
    (change operation).run system = (.ok (), next) := by
  unfold StateT.run change
  rw [success]

/-- In a file system a change that cannot happen leaves everything as it is. -/
theorem run_change_error {operation : FileSystem -> Except FileError FileSystem}
    {system : FileSystem} {error : FileError} (failure : operation system = .error error) :
    (change operation).run system = (.error error, system) := by
  unfold StateT.run change
  rw [failure]

/-- A file system stages all texts unless a directory is in the way of one. -/
theorem store_stage_error {files : List Staged} {system : FileSystem} {failure : Failure}
    (failed : ((store.stage files).run system).1 = .error failure) :
    ∃ file, file ∈ files ∧ ¬ system.Writable file.temporary := by
  induction files generalizing system with
  | nil => cases failed
  | cons file rest inductionHypothesis =>
      by_cases writable : system.Writable file.temporary
      · obtain ⟨next, written⟩ := exists_write_iff.mpr writable
        have ran : (store.write file.temporary file.text).run system = (.ok (), next) :=
          run_change written
        rw [FileStore.stage_cons, ran] at failed
        obtain ⟨other, mem, obstructed⟩ := inductionHypothesis failed
        rw [(write_eq_ok written).1.writable_iff] at obstructed
        exact ⟨other, List.mem_cons_of_mem _ mem, obstructed⟩
      · exact ⟨file, List.mem_cons_self, writable⟩

/-- A file system moves all texts that are staged unless a directory is in the place of one. -/
theorem store_publish_error {files : List Staged} (separate : Separate files)
    {notes : List Progress} {system : FileSystem} {failure : Failure}
    (writable : forall file, file ∈ files -> system.Writable file.temporary)
    (holds : forall file, file ∈ files ->
      system.nodeAt? file.temporary = some (.file file.text.toUTF8))
    (failed : ((store.publish notes files).run system).1.2 = .error failure) :
    ∃ file, file ∈ files ∧ ¬ system.Writable file.target := by
  induction files generalizing notes system with
  | nil => cases failed
  | cons file rest inductionHypothesis =>
      by_cases free : system.Writable file.target
      · obtain ⟨origin, located, -⟩ := writable file List.mem_cons_self
        have isFile := holds file List.mem_cons_self
        rw [nodeAt?_of_locate located] at isFile
        obtain ⟨next, moved⟩ := (exists_rename_iff located isFile).mpr free
        have ran : (store.rename file.temporary file.target).run system = (.ok (), next) :=
          run_change moved
        have framed := (rename_eq_ok moved).1
        rw [FileStore.publish_cons, ran] at failed
        obtain ⟨other, mem, obstructed⟩ := inductionHypothesis separate.tail
          (fun each mem => framed.writable_iff.mpr (writable each (List.mem_cons_of_mem _ mem)))
          (separate.holds_later framed holds) failed
        rw [framed.writable_iff] at obstructed
        exact ⟨other, List.mem_cons_of_mem _ mem, obstructed⟩
      · exact ⟨file, List.mem_cons_self, free⟩

/-- A file system puts all texts in their places unless a directory is in the way of one. -/
theorem store_place_error {files : List Staged} (separate : Separate files)
    {system : FileSystem} {failure : Failure}
    (failed : ((store.place files).run system).1.2 = .error failure) :
    ∃ path, path ∈ files.flatMap Staged.paths ∧ ¬ system.Writable path := by
  have framed := store_obeys.stage_framed files system
  rw [FileStore.run_place] at failed
  rcases staging : (store.stage files).run system with ⟨cause | _, staged⟩
  · obtain ⟨file, mem, obstructed⟩ := store_stage_error (by rw [staging])
    exact ⟨_, Staged.temporary_mem mem, obstructed⟩
  · have success : ((store.stage files).run system).1 = .ok () := by rw [staging]
    have holds (file : Staged) (mem : file ∈ files) :=
      store_obeys.stage_holds separate success mem
    rw [staging] at failed framed holds
    obtain ⟨file, mem, obstructed⟩ := store_publish_error separate
      (fun file mem => framed.writable_iff.mpr (store_obeys.stage_writable success mem)) holds
      failed
    exact ⟨_, Staged.target_mem mem, fun free => obstructed (framed.writable_iff.mpr free)⟩

/-- A file system removes all temporary files that it can look up. -/
theorem store_removals_leave {files : List Staged} (separate : Separate files)
    {system : FileSystem} {file : Staged} (mem : file ∈ files) {contents : ByteArray}
    (left : ((store.removals files).run system).2.nodeAt? file.temporary =
      some (.file contents)) :
    ∃ cause, system.locate file.temporary = .error cause := by
  induction files generalizing system with
  | nil => cases mem
  | cons first rest inductionHypothesis =>
      have kept (next : FileSystem) := separate.nodeAt?_own
        ((store_obeys.removals_framed rest next).widen (Staged.temporaries_subset rest))
        List.mem_cons_self
      rw [FileStore.removals_cons] at left
      cases removed : system.remove first.temporary with
      | error cause =>
          have ran : (store.remove first.temporary).run system = (.error cause, system) :=
            run_change_error removed
          rw [ran] at left
          rcases List.mem_cons.mp mem with rfl | later
          · exact remove_eq_error removed ((kept system).symm.trans left)
          · exact inductionHypothesis separate.tail later left
      | ok next =>
          have ran : (store.remove first.temporary).run system = (.ok (), next) :=
            run_change removed
          obtain ⟨framed, vacant⟩ := remove_eq_ok removed
          rw [ran] at left
          rcases List.mem_cons.mp mem with rfl | later
          · cases vacant.symm.trans ((kept next).symm.trans left)
          · obtain ⟨cause, unlocated⟩ := inductionHypothesis separate.tail later left
            exact framed.locate_eq_error unlocated

/-- Of modules that could not all be put in their places, a temporary file is left only where it
cannot be looked up. -/
theorem store_modules_removed {request : BuildRequest} {artifacts : Artifacts}
    {system stopped : FileSystem}
    (framed : Framed ((request.outputs.staged artifacts).flatMap Staged.paths) system stopped)
    {path : Path} (mem : path ∈ request.outputs.paths) {contents : ByteArray}
    (left : ((store.removals (request.outputs.staged artifacts)).run stopped).2.nodeAt?
      path.temporary = some (.file contents)) :
    ∃ cause, system.locate path.temporary = .error cause := by
  rw [<- request.outputs.map_target_staged artifacts] at mem
  obtain ⟨file, memFile, rfl⟩ := List.mem_map.mp mem
  obtain ⟨cause, unlocated⟩ := store_removals_leave (separate_staged request artifacts) memFile left
  exact framed.locate_eq_error unlocated

/-- In a file system a build that can read and compile the interface file succeeds exactly if all
its paths can be written. If it fails, a temporary file is left only where it cannot be looked
up. -/
theorem store_build_effect {request : BuildRequest} {system : FileSystem} {source : String}
    {compilation : Compilation} (read : system.readText request.input = .ok source)
    (compiled : (Compiler.start.compile (Python.backend request.naming) source).1 =
      .ok compilation) :
    let ran := (store.build request).run system
    let touched := request.outputs.paths.flatMap fun path => [path.temporary, path]
    match ran.1.outcome with
    | .ok _ => forall path, path ∈ touched -> system.Writable path
    | .error _ =>
        (∃ path, path ∈ touched ∧ ¬ system.Writable path) ∧
        forall path, path ∈ request.outputs.paths -> forall contents,
          ran.2.nodeAt? path.temporary = some (.file contents) ->
            ∃ cause, system.locate path.temporary = .error cause := by
  generalize isRun : (store.build request).run system = ran
  intro ran touched
  have separate := separate_staged request compilation.artifacts
  have reading : (store.readText request.input).run system = (.ok source, system) :=
    congrArg (·, system) read
  rcases compiling : Compiler.start.compile (Python.backend request.naming) source with
    ⟨result, compiler⟩
  rw [compiling] at compiled
  obtain rfl : result = .ok compilation := compiled
  rw [store.run_build_of_compiled reading compiling] at isRun
  have framed := store_obeys.place_framed (request.outputs.staged compilation.artifacts) system
  rcases placing : (store.place (request.outputs.staged compilation.artifacts)).run system with
    ⟨⟨notes, failure | _⟩, stopped⟩
  · rw [placing] at isRun framed
    subst isRun
    obtain ⟨path, isTouched, obstructed⟩ := store_place_error separate (by rw [placing])
    rw [flatMap_paths_staged] at isTouched
    refine ⟨⟨path, isTouched, obstructed⟩, ?_⟩
    intro path mem contents left
    dsimp only [ran] at left
    exact store_modules_removed framed mem left
  · rw [placing] at isRun
    subst isRun
    exact (modules_placed store_obeys placing).1

/-! ## Stores that refuse -/

/-- An operation that is refused in some file systems. -/
def guarded (refused : FileSystem -> Bool)
    (operation : FileSystem -> Except FileError FileSystem) (system : FileSystem) :
    Except FileError FileSystem :=
  if refused system then .error (.other "Permission denied (os error 13)") else operation system

/-- Refusing an operation is one of the things that may come of it. -/
theorem attempt_guarded {refused : FileSystem -> Bool}
    {operation : FileSystem -> Except FileError FileSystem} {system next : FileSystem}
    {result : Except FileError Unit}
    (ran : (change (guarded refused operation)).run system = (result, next)) :
    system.Attempt (operation system) result next := by
  have attempt := attempt_change ran
  cases result with
  | error cause => exact attempt
  | ok =>
      have success : guarded refused operation system = .ok next := attempt
      unfold guarded at success
      split at success
      · cases success
      · exact success

/-- Whether a path leads into one of the directories. -/
def leadsInto (directories : List Location) (path : Path) (system : FileSystem) : Bool :=
  match system.follow path with
  | .ok location => directories.contains location.dropLast
  | .error _ => false

/-- A file system with locked directories. What is in them can be read and written, but nothing
can be added, moved or removed. -/
def lockedStore (locked : List Location) : FileStore (StateM FileSystem) where
  readText := FileSystem.store.readText
  write path text := change (guarded
    (fun system => system.nodeAt? path = none && leadsInto locked path system)
    (·.write path text.toUTF8))
  rename source target := change (guarded
    (fun system => leadsInto locked source system || leadsInto locked target system)
    (·.rename source target))
  remove path := change (guarded (leadsInto locked path) (·.remove path))

/-- A file system with locked directories obeys the laws. -/
theorem lockedStore_obeys (locked : List Location) : (lockedStore locked).Obeys id where
  readText := store_obeys.readText
  write := attempt_guarded
  rename := attempt_guarded
  remove := attempt_guarded

/-- An interface file, and a directory with a temporary file that an earlier build left. -/
def littered : FileSystem where
  nodes := [
    (["scratch"], .directory),
    (["scratch", "nfs4.x"], .file "const A = 1;".toUTF8),
    (["scratch", "out"], .directory),
    (["scratch", "out", "nfs4constants.py.tmp"], .file "old".toUTF8)]
  workingDirectory := ["scratch"]

/-- Asks for the modules of the interface file in that directory. -/
def litteredRequest : BuildRequest := ⟨⟨"nfs4.x"⟩, some ⟨"out"⟩, none⟩

/-- The interface file can be read. -/
theorem readText_littered : littered.readText litteredRequest.input = .ok "const A = 1;" := by
  decide +kernel

/-- The interface file can be compiled. -/
theorem compile_littered : ∃ compilation compiler,
    Compiler.start.compile (Python.backend litteredRequest.naming) "const A = 1;" =
      (.ok compilation, compiler) :=
  Compiler.exists_of_isOk (by decide +kernel)

/-- The build in the locked directory. -/
theorem build_effect_locked :
    let store := lockedStore [["scratch", "out"]]
    let ran := (store.build litteredRequest).run littered
    store.Obeys id ∧
      ran.1.outcome = .error (.file ⟨"out/nfs4types.py.tmp"⟩
        (.other "Permission denied (os error 13)")) ∧
      Framed (litteredRequest.outputs.paths.flatMap fun path => [path.temporary, path])
        littered ran.2 := by
  intro store ran
  have obeys : store.Obeys id := lockedStore_obeys _
  have outcome : ran.1.outcome = .error (.file ⟨"out/nfs4types.py.tmp"⟩
      (.other "Permission denied (os error 13)")) := by decide +kernel
  have effect := build_effect obeys litteredRequest littered
  have read : (store.readText litteredRequest.input).run littered =
      (.ok "const A = 1;", littered) := congrArg (·, littered) readText_littered
  rw [read] at effect
  obtain ⟨-, effect⟩ := effect
  obtain ⟨compilation, compiler, compiled⟩ := compile_littered
  rw [compiled] at effect
  exact ⟨obeys, outcome, effect.1⟩

/-! ## Paths that are too long -/

/-- A path to a directory that goes there and back some times before it stays. -/
def winding : Nat -> Path
  | 0 => ⟨"out"⟩
  | turns + 1 => ⟨"out/../" ++ (winding turns).text⟩

/-- Every turn is two pieces. -/
theorem pieces_winding (turns : Nat) :
    (winding (turns + 1)).pieces = "out" :: ".." :: (winding turns).pieces := by
  have turn : "out/../".toList = "out".toList ++ '/' :: ("..".toList ++ ['/']) := by decide
  rw [winding, Path.pieces, String.toList_append, turn, List.append_assoc, List.cons_append,
    List.append_assoc, List.singleton_append, Path.splitPieces_append_slash,
    Path.splitPieces_append_slash]
  rfl

/-- A path that winds ends in the name of the directory. -/
theorem getLast?_pieces_winding (turns : Nat) :
    (winding turns).pieces.getLast? = some "out" := by
  induction turns with
  | zero => decide
  | succ turns inductionHypothesis =>
      rw [pieces_winding, List.getLast?_cons, List.getLast?_cons, inductionHypothesis]
      rfl

/-- Every turn makes the path longer. -/
theorem size_winding (turns : Nat) :
    (winding turns).text.utf8ByteSize = 7 * turns + 3 := by
  induction turns with
  | zero => decide
  | succ turns inductionHypothesis =>
      have turn : "out/../".utf8ByteSize = 7 := by decide
      rw [winding, String.utf8ByteSize_append, inductionHypothesis, turn]
      omega

/-- A path that winds starts at the working directory. -/
theorem isAbsolute_winding (turns : Nat) : (winding turns).isAbsolute = false := by
  rw [Bool.eq_false_iff, ne_eq, Path.isAbsolute_iff_pieces]
  have starts : (winding turns).pieces.head? = some "out" := by
    cases turns with
    | zero => decide
    | succ turns => rw [pieces_winding, List.head?_cons]
  rintro ⟨next, rest, split⟩
  rw [split] at starts
  exact absurd (Option.some.inj starts) (by decide)

/-- The directory at the end has the name of a file. -/
theorem isFileName_out : Path.IsFileName "out" :=
  Path.isFileName_of_length (by decide) (by decide)

/-- What is joined to a path that winds long enough cannot be looked up. -/
theorem locate_winding_join {system : FileSystem} {turns : Nat}
    (long : longestPath < 7 * turns + 3) {name : String} (isName : Path.IsFileName name)
    (location : Location) : system.locate ((winding turns).join ⟨name⟩) ≠ .ok location := by
  apply locate_of_long
  rw [Path.text_join (getLast?_pieces_winding turns) isFileName_out isName,
    String.utf8ByteSize_append, String.utf8ByteSize_append, size_winding]
  omega

/-- A path that winds leads to the directory. -/
theorem walk_winding (turns : Nat) :
    littered.walk ["scratch"] (winding turns).pieces = .ok ["scratch", "out"] := by
  induction turns with
  | zero => decide
  | succ turns inductionHypothesis =>
      have turn : littered.walk ["scratch"] ["out", ".."] = .ok ["scratch"] := by decide
      rw [pieces_winding]
      exact walk_append_iff.mpr ⟨["scratch"], turn, inductionHypothesis⟩

/-- If the path to the directory winds long enough, none of the paths of the modules can be looked
up. -/
theorem locate_outputs_winding {request : BuildRequest} {turns : Nat}
    (isDirectory : request.outputDirectory = winding turns)
    (long : longestPath < 7 * turns + 3) {system : FileSystem} {path : Path}
    (mem : path ∈ request.outputs.paths.flatMap fun path => [path.temporary, path])
    (location : Location) : system.locate path ≠ .ok location := by
  obtain ⟨target, isTarget, isPath⟩ := List.mem_flatMap.mp mem
  rw [request.paths_outputs, isDirectory] at isTarget
  obtain ⟨role, isRole, rfl⟩ := List.mem_map.mp isTarget
  have isName := isFileName_output request.input isRole
  rcases List.mem_pair.mp isPath with isTemporary | isOutput
  · rw [isTemporary, Path.temporary_join (getLast?_pieces_winding turns) isFileName_out isName]
    exact locate_winding_join long isName.temporary location
  · rw [isOutput]
    exact locate_winding_join long isName location

/-- A file in the directory is found along every path that winds. -/
theorem follow_winding_join (turns : Nat) {name : String} (isName : Path.IsFileName name)
    (short : name.utf8ByteSize <= longestName) :
    littered.follow ((winding turns).join ⟨name⟩) = .ok ["scratch", "out", name] := by
  have last : littered.walk ["scratch", "out"] [name] = .ok ["scratch", "out", name] := by
    rw [walk_cons_eq_ok, if_neg (by simp [isName.notIdle]), if_neg isName.notParent]
    exact ⟨by decide, short, rfl⟩
  obtain ⟨-, -, -, start⟩ := (winding turns).exists_pieces_join isName
  rw [isAbsolute_winding] at start
  rw [follow, start, Path.pieces_join (getLast?_pieces_winding turns) isFileName_out isName]
  exact walk_append_iff.mpr ⟨_, walk_winding turns, last⟩

/-- Asks for the modules in the same directory by a path that winds. -/
def windingRequest (turns : Nat) : BuildRequest :=
  { litteredRequest with directory := some (winding turns) }

/-- The temporary file that an earlier build left is found along the path that winds. -/
theorem nodeAt?_windingRequest (turns : Nat) :
    littered.nodeAt? (windingRequest turns).outputs.constants.temporary =
      some (.file "old".toUTF8) := by
  have isName : Path.IsFileName "nfs4constants.py" :=
    Path.isFileName_of_length (by decide) (by decide)
  have name : litteredRequest.input.moduleStem ++ "constants" ++ "." ++ Python.extension =
    "nfs4constants.py" := by decide +kernel
  have isPath : (windingRequest turns).outputs.constants =
      (winding turns).join ⟨"nfs4constants.py"⟩ := by
    simp only [windingRequest, BuildRequest.outputs, OutputNames.derive,
      BuildRequest.outputDirectory, name]
  rw [isPath, Path.temporary_join (getLast?_pieces_winding turns) isFileName_out isName,
    nodeAt?_of_follow (follow_winding_join turns isName.temporary (by decide))]
  decide

/-- A build into a directory by a path that is too long fails, and leaves the temporary file that
an earlier build left there. -/
theorem build_winding {turns : Nat} (long : longestPath < 7 * turns + 3) :
    let ran := (store.build (windingRequest turns)).run littered
    (∃ path error, ran.1.outcome = .error (.file path error)) ∧
      ran.2.nodeAt? (windingRequest turns).outputs.constants.temporary =
        some (.file "old".toUTF8) := by
  have read : (store.readText (windingRequest turns).input).run littered =
      (.ok "const A = 1;", littered) := congrArg (·, littered) readText_littered
  have sameNames : (windingRequest turns).naming = litteredRequest.naming := rfl
  obtain ⟨compilation, compiler, compiled⟩ := compile_littered
  rw [<- sameNames] at compiled
  obtain ⟨failed, unchanged⟩ := build_unreachable store_obeys read compiled fun _ =>
    locate_outputs_winding rfl long
  exact ⟨failed, (unchanged _).trans (nodeAt?_windingRequest turns)⟩

/-- A build that fails can leave a temporary file: one that cannot be removed, since the directory
is locked or since the path is too long. -/
theorem build_error_leaves_temporary :
    let locked := ((lockedStore [["scratch", "out"]]).build litteredRequest).run littered
    let long := (store.build (windingRequest 600)).run littered
    (locked.1.outcome = .error (.file ⟨"out/nfs4types.py.tmp"⟩
        (.other "Permission denied (os error 13)")) ∧
      locked.2.nodeAt? litteredRequest.outputs.constants.temporary =
        some (.file "A = 1\n".toUTF8)) ∧
    (∃ path error, long.1.outcome = .error (.file path error)) ∧
      long.2.nodeAt? (windingRequest 600).outputs.constants.temporary =
        some (.file "old".toUTF8) :=
  ⟨⟨by decide +kernel, by decide +kernel⟩, build_winding (by decide)⟩

end FileSystem

end XdrPack
