import XdrPack.Proofs.BuildEffect
import XdrPack.Proofs.ModuleNames

/-!
# The input of a build

The files that a build writes stand directly in the directory that it writes to, under six names
none of which is the name of the interface file. In a file system where everything stands in a
directory, a path that leads to a file ends in the name of that file. So no build replaces or
removes the file that it reads, not even if it writes to the directory of that file.
-/

namespace XdrPack

namespace FileSystem

/-! ## Following what a path means -/

/-- The pieces of a path lead to a directory from a location. -/
def WalksToDirectory (system : FileSystem) (here : Location) (pieces : List String)
    (folder : Location) : Prop :=
  system.walk here pieces = .ok folder ∧ system.node? folder = some .directory

/-- Pieces lead to a directory from directories only. -/
theorem WalksToDirectory.isDirectory {system : FileSystem} {here folder : Location}
    {pieces : List String} (walks : system.WalksToDirectory here pieces folder) :
    system.node? here = some .directory := by
  obtain ⟨walked, isDirectory⟩ := walks
  cases pieces with
  | nil => rwa [Except.ok.inj walked]
  | cons piece rest => exact (walk_cons_eq_ok.mp walked).1

/-- On the way to a directory, pieces that mean nothing can be left out. -/
theorem walksToDirectory_meaning {system : FileSystem} {here folder : Location}
    {pieces : List String} :
    system.WalksToDirectory here (Path.meaning pieces) folder ↔
      system.WalksToDirectory here pieces folder := by
  induction pieces generalizing here with
  | nil => rfl
  | cons piece rest inductionHypothesis =>
      cases idle : Path.isIdle piece with
      | true =>
          have skipped : Path.meaning (piece :: rest) = Path.meaning rest := by
            simp [Path.meaning, idle]
          have step : system.WalksToDirectory here (piece :: rest) folder ↔
              system.node? here = some .directory ∧ system.WalksToDirectory here rest folder := by
            simp [WalksToDirectory, walk_cons_eq_ok, idle, and_assoc]
          rw [skipped, inductionHypothesis, step]
          exact ⟨fun walks => ⟨walks.isDirectory, walks⟩, fun walks => walks.2⟩
      | false =>
          have kept : Path.meaning (piece :: rest) = piece :: Path.meaning rest := by
            simp [Path.meaning, idle]
          rw [kept]
          simp only [WalksToDirectory] at inductionHypothesis ⊢
          simp only [walk_cons_eq_ok, idle, Bool.false_eq_true, if_false]
          split <;> simp [and_assoc, inductionHypothesis]

end FileSystem

/-- A path that ends in the given name and leads to that name directly in the directory, unless
the name is too long. -/
structure Path.LiesIn (directory path : Path) (name : String) : Prop where
  ends : path.fileName? = some name
  leads : forall (system : FileSystem) (location : Location),
    system.follow path = .ok location ↔
      name.utf8ByteSize <= FileSystem.longestName ∧
        ∃ folder, system.follow directory = .ok folder ∧
          system.node? folder = some .directory ∧ location = folder ++ [name]

/-- A name that is joined to a path with the meaning of a directory lies in that directory. -/
theorem Path.liesIn_join {base directory : Path} {name : String} (isName : IsFileName name)
    (same : meaning base.pieces = meaning directory.pieces)
    (sameStart : base.isAbsolute = directory.isAbsolute) :
    LiesIn directory (base.join ⟨name⟩) name where
  ends := fileName?_join base isName
  leads system location := by
    obtain ⟨front, split, means, start⟩ := base.exists_pieces_join isName
    have folders : forall here folder, system.WalksToDirectory here front folder ↔
        system.WalksToDirectory here directory.pieces folder := by
      intro here folder
      rw [<- FileSystem.walksToDirectory_meaning, means, same, FileSystem.walksToDirectory_meaning]
    have last : forall middle, system.walk middle [name] = .ok location ↔
        system.node? middle = some .directory ∧ name.utf8ByteSize <= FileSystem.longestName ∧
          location = middle ++ [name] := by
      intro middle
      rw [FileSystem.walk_cons_eq_ok]
      simp [isName.notIdle, isName.notParent, FileSystem.walk, eq_comm]
    rw [FileSystem.follow, FileSystem.follow, start, sameStart, split, FileSystem.walk_append_iff]
    simp only [last]
    constructor
    · rintro ⟨folder, walked, isDirectory, short, rfl⟩
      obtain ⟨walkedToo, -⟩ := (folders _ _).mp ⟨walked, isDirectory⟩
      exact ⟨short, folder, walkedToo, isDirectory, rfl⟩
    · rintro ⟨short, folder, walked, isDirectory, rfl⟩
      obtain ⟨walkedToo, -⟩ := (folders _ _).mpr ⟨walked, isDirectory⟩
      exact ⟨folder, walkedToo, isDirectory, short, rfl⟩

/-- The path beside a file in a directory lies in that directory too. -/
theorem Path.liesIn_temporary (directory : Path) {name : String} (isName : IsFileName name)
    (isTemporary : IsFileName (name ++ ".tmp")) :
    LiesIn directory (directory.join ⟨name⟩).temporary (name ++ ".tmp") := by
  obtain ⟨front, split, means, start⟩ := directory.exists_pieces_join isName
  obtain ⟨parentMeans, parentStart⟩ := meaning_parent split isName
  rw [temporary, withFileName, fileName?_join directory isName]
  exact liesIn_join isTemporary (parentMeans.trans means) (parentStart.trans start)

/-- A generated file and the path beside it lie in the directory that it is generated into. -/
theorem liesIn_output (input directory : Path) {role : String} (slashFree : '/' ∉ role.toList) :
    let name := input.moduleStem ++ (role ++ ".py")
    List.Forall₂ directory.LiesIn [(directory.join ⟨name⟩).temporary, directory.join ⟨name⟩]
      [input.moduleStem ++ (role ++ ".py" ++ ".tmp"), name] := by
  intro name
  have isFile : forall ending : String, '/' ∉ ending.toList -> 2 < ending.length ->
      Path.IsFileName (input.moduleStem ++ (role ++ ending)) := by
    intro ending free long
    refine isFileName_moduleStem input (by simp [slashFree, free]) ?_
    rw [String.length_append]
    exact Nat.lt_of_lt_of_le long (Nat.le_add_left _ _)
  have isName : Path.IsFileName name := isFile ".py" (by decide) (by decide)
  have isTemporary : Path.IsFileName (input.moduleStem ++ (role ++ ".py" ++ ".tmp")) := by
    rw [String.append_assoc]
    exact isFile (".py" ++ ".tmp") (by decide) (by decide)
  have output : directory.LiesIn (directory.join ⟨name⟩) name := Path.liesIn_join isName rfl rfl
  rw [<- String.append_assoc] at isTemporary ⊢
  exact .cons (Path.liesIn_temporary directory isName isTemporary) (.cons output .nil)

/-- All files that a build writes lie in the directory that it writes to. -/
theorem BuildRequest.written_liesIn (request : BuildRequest) :
    List.Forall₂ request.outputDirectory.LiesIn request.outputs.written request.writtenNames := by
  have slashFree : forall role, role ∈ outputRoles -> '/' ∉ role.toList := by decide
  rw [writtenNames, writtenEndings, outputEndings_eq, List.flatMap_map, List.map_flatMap,
    OutputNames.written, request.paths_outputs, List.flatMap_map]
  generalize outputRoles = roles at slashFree
  induction roles with
  | nil => exact .nil
  | cons role others inductionHypothesis =>
      obtain ⟨free, othersFree⟩ := List.forall_mem_cons.mp slashFree
      rw [List.flatMap_cons, List.flatMap_cons]
      exact List.rel_append (liesIn_output request.input request.outputDirectory free)
        (inductionHypothesis othersFree)

namespace FileSystem

/-! ## Trees -/

/-- Whatever stands somewhere stands in a directory. -/
def IsTree (system : FileSystem) : Prop :=
  forall entry, entry ∈ system.nodes -> system.node? entry.1.dropLast = some .directory

instance decidableIsTree (system : FileSystem) : Decidable system.IsTree :=
  decidable_of_iff
    (system.nodes.all (fun entry => system.node? entry.1.dropLast = some .directory) = true)
    (by simp [IsTree])

/-- What exists in a tree lies in a directory. -/
theorem IsTree.isDirectory {system : FileSystem} (tree : system.IsTree) {location : Location}
    (stands : system.node? location ≠ none) : system.node? location.dropLast = some .directory := by
  unfold node? at stands
  split at stands
  · next root =>
      subst root
      rfl
  · obtain ⟨node, found⟩ := Option.ne_none_iff_exists'.mp stands
    obtain ⟨before, after, split, -⟩ := List.lookup_eq_some_iff.mp found
    exact tree (location, node) (by simp [split])

/-- In a tree, a path that leads to a file ends in a name. Everything else that a path can end
in leads to a directory. -/
theorem IsTree.exists_fileName? {system : FileSystem} (tree : system.IsTree) {path : Path}
    {location : Location} {contents : ByteArray} (located : system.locate path = .ok location)
    (isFile : system.node? location = some (.file contents)) :
    ∃ name, path.fileName? = some name := by
  have walked := follow_of_locate located
  have notEmpty : path.pieces ≠ [] := by simp [Path.pieces, Path.splitPieces_ne_nil]
  obtain ⟨front, last, split⟩ := (List.eq_nil_or_concat' path.pieces).resolve_left notEmpty
  rw [follow, split, walk_append_iff] at walked
  obtain ⟨middle, -, behind⟩ := walked
  obtain ⟨isDirectory, followed⟩ := walk_cons_eq_ok.mp behind
  split at followed
  · obtain rfl := Except.ok.inj followed
    rw [isDirectory] at isFile
    cases isFile
  · next notIdle =>
      split at followed
      · obtain rfl := Except.ok.inj followed
        rw [tree.isDirectory (by simp [isDirectory])] at isFile
        cases isFile
      · next notParent =>
          have mem : last ∈ path.pieces := by simp [split]
          obtain ⟨chars, isPiece, rfl⟩ := List.mem_map.mp mem
          refine ⟨_, Path.fileName?_of_pieces front ⟨?_, by simpa using notIdle, notParent⟩ split⟩
          rw [String.toList_ofList]
          exact Path.slash_not_mem_splitPieces isPiece

/-! ## Builds -/

/-- A text is read from a file only. -/
theorem readText_eq_ok {system : FileSystem} {path : Path} {text : String}
    (read : system.readText path = .ok text) :
    ∃ location contents, system.locate path = .ok location ∧
      system.node? location = some (.file contents) := by
  obtain ⟨contents, found, -⟩ := bind_eq_ok.mp read
  obtain ⟨location, located, found⟩ := bind_eq_ok.mp found
  split at found
  · cases found
  · cases found
  · next isFile => exact ⟨location, _, located, isFile⟩

/-- A build leaves the file that it reads as it is. -/
theorem IsTree.build_nodeAt?_input {σ : Type} {store : FileStore (StateM σ)}
    {view : σ -> FileSystem} (obeys : store.Obeys view) {state : σ} (tree : (view state).IsTree)
    (request : BuildRequest) :
    (view ((store.build request).run state).2).nodeAt? request.input =
      (view state).nodeAt? request.input := by
  rcases reading : (store.readText request.input).run state with ⟨error | source, opened⟩
  · rw [FileStore.run_build, reading]
    exact congrArg (·.nodeAt? request.input) (obeys.readText reading).1
  · obtain ⟨location, contents, located, isFile⟩ :=
      readText_eq_ok ((obeys.readText reading).2 source rfl)
    obtain ⟨own, ends⟩ := tree.exists_fileName? located isFile
    refine (build_framed obeys request state).nodeAt?_eq fun path written => ?_
    obtain ⟨name, isWritten, lies⟩ := exists_of_forall₂ request.written_liesIn.flip written
    refine Path.apart_of_fileName? ends lies.ends ?_
    rintro rfl
    exact request.fileName?_not_written isWritten ends

/-- The start of the names of the modules is a name that a module can have, and an interface file
with that name would give its modules the same. The six files that a build writes have different
names and lie directly in the directory that it writes to, and none has the name of the interface
file. So with any store that obeys the laws of a file system, a build leaves the interface file as
it is, whatever it is called and wherever the modules go. -/
theorem build_keeps_input (request : BuildRequest) :
    IsModuleName request.input.moduleStem ∧
    Path.moduleStem ⟨request.input.moduleStem ++ ".x"⟩ = request.input.moduleStem ∧
    List.Forall₂ (Path.LiesIn request.outputDirectory) request.outputs.written
      request.writtenNames ∧
    request.writtenNames.Nodup ∧
    (forall name, name ∈ request.writtenNames -> request.input.fileName? ≠ some name) ∧
    forall (σ : Type) (store : FileStore (StateM σ)) (view : σ -> FileSystem),
      store.Obeys view -> forall state, (view state).IsTree ->
        (view ((store.build request).run state).2).nodeAt? request.input =
          (view state).nodeAt? request.input := by
  have isName := isModuleName_moduleStem request.input
  exact ⟨isName, isName.moduleStem_eq, request.written_liesIn, request.nodup_writtenNames,
    fun _ => request.fileName?_not_written,
    fun _ _ _ obeys _ tree => tree.build_nodeAt?_input obeys request⟩

/-- An interface file that is called like a file on its way to becoming a module. -/
def lookalike : FileSystem where
  nodes := [
    (["scratch"], .directory),
    (["scratch", "nfs4constants.py"], .file "old".toUTF8),
    (["scratch", "nfs4constants.py.tmp"], .file "const A = 1;".toUTF8)]
  workingDirectory := ["scratch"]

/-- Asks for the modules of the interface file beside it. -/
def lookalikeRequest : BuildRequest := ⟨⟨"nfs4constants.py.tmp"⟩, none, none⟩

/-- The file that is called like a temporary one keeps its text, and its module has another
name. -/
theorem build_keeps_input_lookalike :
    let after := ((store.build lookalikeRequest).run lookalike).2
    lookalike.IsTree ∧ lookalikeRequest.input.moduleStem = "nfs4constants_py" ∧
      after.nodeAt? ⟨"nfs4constants_pyconstants.py"⟩ = some (.file "A = 1\n".toUTF8) ∧
      after.nodeAt? ⟨"nfs4constants.py.tmp"⟩ = some (.file "const A = 1;".toUTF8) := by
  have tree : lookalike.IsTree := by decide +kernel
  have built : ((store.build lookalikeRequest).run lookalike).2.nodeAt?
      ⟨"nfs4constants_pyconstants.py"⟩ = some (.file "A = 1\n".toUTF8) := by
    decide +kernel
  have before : lookalike.nodeAt? ⟨"nfs4constants.py.tmp"⟩ =
      some (.file "const A = 1;".toUTF8) := by
    decide +kernel
  obtain ⟨-, -, -, -, -, kept⟩ := build_keeps_input lookalikeRequest
  exact ⟨tree, by decide +kernel, built, (kept _ store id store_obeys lookalike tree).trans before⟩

end FileSystem

end XdrPack
