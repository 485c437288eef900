import XdrPack.Proofs.Acceptance
import XdrPack.Proofs.FileNames

/-!
# Places in a file system

What an operation on files does is said by the paths that it touches: elsewhere everything
is as it was, and directories neither come nor go. So every path leads to the same place
before and after, and what it leads to changes only if a touched path leads there too.
Paths that end in different names lead to different places.
-/

namespace XdrPack

namespace FileSystem

/-! ## Nodes -/

/-- Removing a location from the nodes hides it and no other. -/
theorem lookup_filter_ne (nodes : List (Location × Node)) (location other : Location) :
    (nodes.filter fun entry => entry.1 != location).lookup other =
      if other = location then none else nodes.lookup other := by
  induction nodes with
  | nil => simp
  | cons entry rest inductionHypothesis =>
      obtain ⟨place, node⟩ := entry
      by_cases removed : place = location
      · subst removed
        rw [List.filter_cons_of_neg (by simp), inductionHypothesis, List.lookup_cons]
        by_cases same : other = place
        · simp [same]
        · have differs : (other == place) = false := by simpa using same
          simp [differs]
      · rw [List.filter_cons_of_pos (by simpa using removed), List.lookup_cons, List.lookup_cons,
          inductionHypothesis]
        by_cases same : other = place
        · simp [same, removed]
        · have differs : (other == place) = false := by simpa using same
          simp [differs]

/-- Erasing a location changes what is there and nothing else. -/
theorem node?_erase (system : FileSystem) {location : Location} (notRoot : location ≠ [])
    (other : Location) :
    (system.erase location).node? other =
      if other = location then none else system.node? other := by
  simp only [node?, erase, lookup_filter_ne]
  by_cases root : other = []
  · subst root
    simp [notRoot.symm]
  · simp [root]

/-- Putting something at a location changes what is there and nothing else. -/
theorem node?_put (system : FileSystem) {location : Location} (notRoot : location ≠ [])
    (node : Node) (other : Location) :
    (system.put location node).node? other =
      if other = location then some node else system.node? other := by
  by_cases same : other = location
  · subst same
    simp [put, node?, notRoot]
  · have differs : (other == location) = false := by simpa using same
    have behind := system.node?_erase notRoot other
    rw [if_neg same] at behind ⊢
    rw [<- behind]
    simp [put, node?, List.lookup_cons, differs]

/-- The root directory is a directory. -/
theorem ne_root {system : FileSystem} {location : Location}
    (notDirectory : system.node? location ≠ some .directory) : location ≠ [] := by
  rintro rfl
  exact notDirectory rfl

/-! ## Following paths -/

/-- A piece is followed in a directory only. -/
theorem walk_cons_eq_ok {system : FileSystem} {here location : Location} {piece : String}
    {rest : List String} :
    system.walk here (piece :: rest) = .ok location ↔
      system.node? here = some .directory ∧
        if Path.isIdle piece then system.walk here rest = .ok location
        else if piece = ".." then system.walk here.dropLast rest = .ok location
        else piece.utf8ByteSize <= longestName ∧
          system.walk (here ++ [piece]) rest = .ok location := by
  rw [walk]
  split
  · next absent => simp [absent]
  · next isFile => simp [isFile]
  · next isDirectory =>
      rw [isDirectory]
      split
      · simp
      · split
        · simp
        · split
          · next tooLong => simp [Nat.not_le.mpr tooLong]
          · next fits => simp [Nat.not_lt.mp fits]

/-- The last pieces of a path are followed from where the others lead. -/
theorem walk_append_iff {system : FileSystem} {here location : Location}
    {front rest : List String} :
    system.walk here (front ++ rest) = .ok location ↔
      ∃ middle, system.walk here front = .ok middle ∧ system.walk middle rest = .ok location := by
  induction front generalizing here with
  | nil => simp [walk]
  | cons piece front inductionHypothesis =>
      rw [List.cons_append]
      simp only [walk_cons_eq_ok]
      split
      · simp [inductionHypothesis, and_assoc]
      · split <;> simp [inductionHypothesis, and_assoc]

/-- Pieces that lead nowhere do not leave the location. -/
theorem walk_idle_eq_ok {system : FileSystem} {here location : Location} {idle : List String}
    (allIdle : forall piece, piece ∈ idle -> Path.isIdle piece = true)
    (success : system.walk here idle = .ok location) : location = here := by
  induction idle with
  | nil => exact (Except.ok.inj success).symm
  | cons piece rest inductionHypothesis =>
      obtain ⟨-, followed⟩ := walk_cons_eq_ok.mp success
      rw [if_pos (allIdle piece List.mem_cons_self)] at followed
      exact inductionHypothesis (fun other mem => allIdle other (List.mem_cons_of_mem _ mem))
        followed

/-- A path is looked up where its pieces lead. -/
theorem follow_of_locate {system : FileSystem} {path : Path} {location : Location}
    (located : system.locate path = .ok location) : system.follow path = .ok location := by
  unfold locate at located
  split at located
  · cases located
  · split at located
    · cases located
    · split at located
      · cases located
      · exact located

/-- A path that is too long cannot be looked up. -/
theorem locate_of_long {system : FileSystem} {path : Path}
    (long : longestPath < path.text.utf8ByteSize) (location : Location) :
    system.locate path ≠ .ok location := by
  intro located
  unfold locate at located
  rw [if_pos long] at located
  split at located
  · cases located
  · split at located <;> cases located

/-- A path that ends in a name leads to a place of that name. -/
theorem getLast?_of_follow {system : FileSystem} {path : Path} {location : Location}
    {name : String} (followed : system.follow path = .ok location)
    (ends : path.fileName? = some name) : location.getLast? = some name := by
  obtain ⟨isName, front, idle, split, allIdle⟩ := Path.fileName?_eq_some ends
  rw [follow, split] at followed
  obtain ⟨middle, -, behind⟩ := walk_append_iff.mp followed
  obtain ⟨-, followed⟩ := walk_cons_eq_ok.mp behind
  rw [if_neg (by simp [isName.notIdle]), if_neg isName.notParent] at followed
  obtain rfl := walk_idle_eq_ok allIdle followed.2
  exact List.getLast?_concat

/-- What stands where a path leads, be the path too long to be looked up or not. -/
def nodeAt? (system : FileSystem) (path : Path) : Option Node :=
  match system.follow path with
  | .ok location => system.node? location
  | .error _ => none

/-- What stands at the location that a path leads to. -/
theorem nodeAt?_of_follow {system : FileSystem} {path : Path} {location : Location}
    (followed : system.follow path = .ok location) :
    system.nodeAt? path = system.node? location := by
  rw [nodeAt?, followed]

/-- What stands at the location at which a path is looked up. -/
theorem nodeAt?_of_locate {system : FileSystem} {path : Path} {location : Location}
    (located : system.locate path = .ok location) :
    system.nodeAt? path = system.node? location :=
  nodeAt?_of_follow (follow_of_locate located)

end FileSystem

/-! ## Paths to different places -/

/-- In no file system do the paths lead to one place. -/
def Path.Apart (first second : Path) : Prop :=
  forall (system : FileSystem) (location : Location),
    system.follow first = .ok location -> system.follow second ≠ .ok location

/-- Being apart goes both ways. -/
theorem Path.Apart.symm {first second : Path} (apart : first.Apart second) : second.Apart first :=
  fun system location leadsSecond leadsFirst => apart system location leadsFirst leadsSecond

/-- Paths that end in different names are apart. -/
theorem Path.apart_of_fileName? {first second : Path} {name other : String}
    (endsFirst : first.fileName? = some name) (endsSecond : second.fileName? = some other)
    (differs : name ≠ other) : first.Apart second := by
  intro system location leadsFirst leadsSecond
  have same := FileSystem.getLast?_of_follow leadsFirst endsFirst
  rw [FileSystem.getLast?_of_follow leadsSecond endsSecond] at same
  exact differs (Option.some.inj same).symm

/-- Paths with different file names are apart from each other. -/
theorem Path.pairwise_apart {paths : List Path} {names : List String}
    (ends : paths.map Path.fileName? = names.map some) (distinct : names.Nodup) :
    paths.Pairwise Path.Apart := by
  have distinctEnds : (paths.map Path.fileName?).Pairwise (· ≠ ·) := by
    rw [ends, List.pairwise_map]
    exact distinct.imp fun differs equal => differs (Option.some.inj equal)
  refine (List.pairwise_map.mp distinctEnds).imp_of_mem ?_
  intro first second memFirst memSecond differs
  have named : forall path, path ∈ paths -> ∃ name, path.fileName? = some name := by
    intro path mem
    have isName : path.fileName? ∈ names.map some := ends ▸ List.mem_map_of_mem mem
    obtain ⟨name, -, isEnd⟩ := List.mem_map.mp isName
    exact ⟨name, isEnd.symm⟩
  obtain ⟨name, endsFirst⟩ := named first memFirst
  obtain ⟨other, endsSecond⟩ := named second memSecond
  refine apart_of_fileName? endsFirst endsSecond ?_
  rintro rfl
  exact differs (endsFirst.trans endsSecond.symm)

namespace FileSystem

/-! ## Touched paths -/

/-- Only where some of the paths lead is anything different, and no directory has come or
gone. -/
structure Framed (paths : List Path) (before after : FileSystem) : Prop where
  workingDirectory : after.workingDirectory = before.workingDirectory
  directories : forall location,
    after.node? location = some .directory ↔ before.node? location = some .directory
  elsewhere : forall location, (forall path, path ∈ paths -> before.locate path ≠ .ok location) ->
    after.node? location = before.node? location

namespace Framed

variable {paths more : List Path} {before middle after : FileSystem}

/-- A path leads to the same place where the same directories are. -/
theorem walk_eq_ok_iff (framed : Framed paths before after) {here location : Location}
    {pieces : List String} :
    after.walk here pieces = .ok location ↔ before.walk here pieces = .ok location := by
  induction pieces generalizing here with
  | nil => rfl
  | cons piece rest inductionHypothesis =>
      simp only [walk_cons_eq_ok, framed.directories, inductionHypothesis]

/-- A path leads to the same place before and after. -/
theorem follow_eq_ok_iff (framed : Framed paths before after) {path : Path}
    {location : Location} :
    after.follow path = .ok location ↔ before.follow path = .ok location := by
  simp only [follow, framed.workingDirectory]
  exact framed.walk_eq_ok_iff

/-- A path is looked up at the same place before and after. -/
theorem locate_eq_ok_iff (framed : Framed paths before after) {path : Path}
    {location : Location} :
    after.locate path = .ok location ↔ before.locate path = .ok location := by
  simp only [locate]
  split
  · rfl
  · split
    · rfl
    · split
      · rfl
      · exact framed.follow_eq_ok_iff

/-- A path that cannot be looked up afterwards could not be looked up before. -/
theorem locate_eq_error (framed : Framed paths before after) {path : Path} {error : FileError}
    (failure : after.locate path = .error error) :
    ∃ cause, before.locate path = .error cause := by
  cases located : before.locate path with
  | error cause => exact ⟨cause, rfl⟩
  | ok location =>
      rw [framed.locate_eq_ok_iff.mpr located] at failure
      cases failure

/-- A system that did not change is framed by any paths. -/
theorem refl (paths : List Path) (system : FileSystem) : Framed paths system system :=
  ⟨rfl, fun _ => Iff.rfl, fun _ _ => rfl⟩

/-- What is framed step by step is framed. -/
theorem trans (first : Framed paths before middle) (second : Framed paths middle after) :
    Framed paths before after where
  workingDirectory := second.workingDirectory.trans first.workingDirectory
  directories location := (second.directories location).trans (first.directories location)
  elsewhere location untouched := by
    rw [second.elsewhere location, first.elsewhere location untouched]
    intro path mem locatedNow
    exact untouched path mem (first.locate_eq_ok_iff.mp locatedNow)

/-- More paths than needed may frame a change. -/
theorem widen (framed : Framed paths before after) (wider : paths ⊆ more) :
    Framed more before after where
  workingDirectory := framed.workingDirectory
  directories := framed.directories
  elsewhere location untouched :=
    framed.elsewhere location fun path mem => untouched path (wider mem)

/-- A path apart from the touched ones leads to what it led to. -/
theorem nodeAt?_eq (framed : Framed paths before after) {path : Path}
    (apart : forall touched, touched ∈ paths -> path.Apart touched) :
    after.nodeAt? path = before.nodeAt? path := by
  cases followed : before.follow path with
  | ok location =>
      rw [nodeAt?_of_follow followed, nodeAt?_of_follow (framed.follow_eq_ok_iff.mpr followed)]
      exact framed.elsewhere location fun touched mem located =>
        apart touched mem before location followed (follow_of_locate located)
  | error cause =>
      rw [nodeAt?, nodeAt?, followed]
      cases followedNow : after.follow path with
      | ok location =>
          rw [framed.follow_eq_ok_iff.mp followedNow] at followed
          cases followed
      | error _ => rfl

end Framed

/-! ## Operations -/

variable {system next : FileSystem} {path : Path} {location : Location}

/-- Writing a file is framed by its path. -/
theorem framed_put (located : system.locate path = .ok location)
    (notDirectory : system.node? location ≠ some .directory) (contents : ByteArray) :
    Framed [path] system (system.put location (.file contents)) where
  workingDirectory := rfl
  directories other := by
    rw [node?_put system (ne_root notDirectory)]
    split
    · next same => simp [same, notDirectory]
    · rfl
  elsewhere other untouched := by
    rw [node?_put system (ne_root notDirectory), if_neg]
    rintro rfl
    exact untouched path List.mem_cons_self located

/-- Removing a file is framed by its path. -/
theorem framed_erase (located : system.locate path = .ok location)
    (notDirectory : system.node? location ≠ some .directory) :
    Framed [path] system (system.erase location) where
  workingDirectory := rfl
  directories other := by
    rw [node?_erase system (ne_root notDirectory)]
    split
    · next same => simp [same, notDirectory]
    · rfl
  elsewhere other untouched := by
    rw [node?_erase system (ne_root notDirectory), if_neg]
    rintro rfl
    exact untouched path List.mem_cons_self located

/-- Writing a file touches its path, which then leads to the contents. -/
theorem write_eq_ok {contents : ByteArray} (success : system.write path contents = .ok next) :
    Framed [path] system next ∧ next.nodeAt? path = some (.file contents) := by
  obtain ⟨location, located, written⟩ := bind_eq_ok.mp success
  split at written
  · cases written
  · next notDirectory =>
      cases written
      have framed := framed_put located notDirectory contents
      refine ⟨framed, ?_⟩
      rw [nodeAt?_of_locate (framed.locate_eq_ok_iff.mpr located),
        node?_put system (ne_root notDirectory), if_pos rfl]

/-- Moving a file touches both paths. The second leads to what the first led to, and then the
first leads to nothing unless it is the second. -/
theorem rename_eq_ok {source target : Path} (success : system.rename source target = .ok next) :
    Framed [source, target] system next ∧ next.nodeAt? target = system.nodeAt? source ∧
      (source.Apart target -> next.nodeAt? source = none) := by
  obtain ⟨origin, locatedOrigin, moved⟩ := bind_eq_ok.mp success
  obtain ⟨goal, locatedGoal, moved⟩ := bind_eq_ok.mp moved
  split at moved
  · cases moved
  · cases moved
  · cases moved
  · next _ _ contents isFile notDirectory =>
      cases moved
      have originNotDirectory : system.node? origin ≠ some .directory := by simp [isFile]
      have erased : Framed [source] system (system.erase origin) :=
        framed_erase locatedOrigin originNotDirectory
      have locatedStill : (system.erase origin).locate target = .ok goal :=
        erased.locate_eq_ok_iff.mpr locatedGoal
      have notDirectoryStill : (system.erase origin).node? goal ≠ some .directory :=
        mt (erased.directories goal).mp notDirectory
      have put := framed_put locatedStill notDirectoryStill contents
      have framed : Framed [source, target] system
          ((system.erase origin).put goal (.file contents)) :=
        (erased.widen (by simp)).trans (put.widen (by simp))
      refine ⟨framed, ?_, fun apart => ?_⟩
      · rw [nodeAt?_of_locate (put.locate_eq_ok_iff.mpr locatedStill),
          node?_put _ (ne_root notDirectoryStill), if_pos rfl, nodeAt?_of_locate locatedOrigin,
          isFile]
      · have differs : origin ≠ goal := by
          rintro rfl
          exact apart system origin (follow_of_locate locatedOrigin) (follow_of_locate locatedGoal)
        rw [nodeAt?_of_locate (framed.locate_eq_ok_iff.mpr locatedOrigin),
          node?_put _ (ne_root notDirectoryStill), if_neg differs,
          node?_erase _ (ne_root originNotDirectory), if_pos rfl]

/-- Removing a file touches its path, which then leads to nothing. -/
theorem remove_eq_ok (success : system.remove path = .ok next) :
    Framed [path] system next ∧ next.nodeAt? path = none := by
  obtain ⟨location, located, removed⟩ := bind_eq_ok.mp success
  split at removed
  · cases removed
  · cases removed
  · next isFile =>
      cases removed
      have notDirectory : system.node? location ≠ some .directory := by simp [isFile]
      have framed := framed_erase located notDirectory
      refine ⟨framed, ?_⟩
      rw [nodeAt?_of_locate (framed.locate_eq_ok_iff.mpr located),
        node?_erase system (ne_root notDirectory), if_pos rfl]

/-- A file that cannot be removed is one whose path cannot be looked up. -/
theorem remove_eq_error {error : FileError} (failure : system.remove path = .error error)
    {contents : ByteArray} (isFile : system.nodeAt? path = some (.file contents)) :
    ∃ cause, system.locate path = .error cause := by
  cases located : system.locate path with
  | error cause => exact ⟨cause, rfl⟩
  | ok location =>
      rw [nodeAt?_of_locate located] at isFile
      simp [remove, located, isFile, bind, Except.bind] at failure

/-! ## Places that can be written -/

/-- The path leads to a place where there is no directory. -/
def Writable (system : FileSystem) (path : Path) : Prop :=
  ∃ location, system.locate path = .ok location ∧ system.node? location ≠ some .directory

/-- Directories are in the way before as they are afterwards. -/
theorem Framed.writable_iff {paths : List Path} (framed : Framed paths system next) :
    next.Writable path ↔ system.Writable path := by
  simp only [Writable, framed.locate_eq_ok_iff, ne_eq, framed.directories]

/-- A file can be written unless a directory is in the way. -/
theorem exists_write_iff {contents : ByteArray} :
    (∃ next, system.write path contents = .ok next) ↔ system.Writable path := by
  constructor
  · rintro ⟨next, success⟩
    obtain ⟨location, located, written⟩ := bind_eq_ok.mp success
    refine ⟨location, located, ?_⟩
    split at written
    · cases written
    · assumption
  · rintro ⟨location, located, notDirectory⟩
    refine ⟨system.put location (.file contents), bind_eq_ok.mpr ⟨location, located, ?_⟩⟩
    split
    · next isDirectory => exact absurd isDirectory notDirectory
    · rfl

/-- A file is moved where no directory is in the way. -/
theorem writable_of_rename {source target : Path}
    (success : system.rename source target = .ok next) : system.Writable target := by
  obtain ⟨origin, -, moved⟩ := bind_eq_ok.mp success
  obtain ⟨goal, located, moved⟩ := bind_eq_ok.mp moved
  refine ⟨goal, located, ?_⟩
  split at moved
  · cases moved
  · cases moved
  · cases moved
  · assumption

/-- A file can be moved unless a directory is in the way. -/
theorem exists_rename_iff {source target : Path} {origin : Location} {contents : ByteArray}
    (locatedOrigin : system.locate source = .ok origin)
    (isFile : system.node? origin = some (.file contents)) :
    (∃ next, system.rename source target = .ok next) ↔ system.Writable target := by
  constructor
  · rintro ⟨next, success⟩
    exact writable_of_rename success
  · rintro ⟨goal, located, notDirectory⟩
    refine ⟨(system.erase origin).put goal (.file contents),
      bind_eq_ok.mpr ⟨origin, locatedOrigin, bind_eq_ok.mpr ⟨goal, located, ?_⟩⟩⟩
    rw [isFile]
    split
    · next impossible => cases impossible
    · next impossible => cases impossible
    · next isDirectory => exact absurd isDirectory notDirectory
    · next same _ =>
        cases same
        rfl

end FileSystem

end XdrPack
