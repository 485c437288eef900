import XdrPack.Proofs.FileNames

/-!
# Names of modules

The name of an interface file, less its extension, becomes the start of the names of its modules.
Whatever the file is called, this start is a name that a module can have, and a file that is named
after such a name keeps it. What follows it makes the name of every file that a build writes
longer than the name it started from, so no build writes a file with the name of its own input.
-/

namespace XdrPack

/-- A name that a module can have: letters, digits and underscores, and no digit in front. -/
structure IsModuleName (name : String) : Prop where
  notEmpty : name ≠ ""
  chars : forall c, c ∈ name.toList -> c.isAlphanum = true ∨ c = '_'
  start : forall c, name.toList.head? = some c -> c.isDigit = false

/-! ## Replaced characters -/

/-- Letters, digits and the underscore may stand in the name of a module. -/
theorem isModuleChar_iff (c : Char) : isModuleChar c = true ↔ c.isAlphanum = true ∨ c = '_' := by
  simp [isModuleChar]

/-- A module has a name that is not empty. -/
theorem moduleName_ne_nil (name : List Char) : moduleName name ≠ [] := by
  unfold moduleName
  split
  · exact List.cons_ne_nil _ _
  · split <;> exact List.cons_ne_nil _ _

/-- A digit in front gets an underscore before it. -/
theorem isDigit_head_moduleName {name : List Char} {c : Char}
    (first : (moduleName name).head? = some c) : c.isDigit = false := by
  unfold moduleName at first
  split at first
  · cases first
    decide
  · split at first
    · cases first
      decide
    · next notDigit =>
        cases first
        simpa using notDigit

/-- Characters are replaced, and none is lost. -/
theorem length_moduleName (name : List Char) : name.length <= (moduleName name).length := by
  have kept : (name.map fun c => if isModuleChar c then c else '_').length = name.length :=
    List.length_map _
  unfold moduleName
  split
  · next empty =>
      rw [empty] at kept
      exact kept ▸ Nat.zero_le _
  · next first rest equal =>
      rw [equal] at kept
      split
      · exact kept ▸ Nat.le_succ _
      · exact kept ▸ Nat.le_refl _

/-- A name that a module can have is kept. -/
theorem moduleName_eq_self {name : String} (isName : IsModuleName name) :
    moduleName name.toList = name.toList := by
  have kept : (name.toList.map fun c => if isModuleChar c then c else '_') = name.toList := by
    refine (List.map_congr_left fun c listed => ?_).trans (List.map_id name.toList)
    exact if_pos ((isModuleChar_iff c).mpr (isName.chars c listed))
  unfold moduleName
  rw [kept]
  split
  · next empty => exact absurd (by simpa using empty) isName.notEmpty
  · next first rest equal =>
      have notDigit := isName.start first (by rw [equal]; rfl)
      rw [if_neg (by simp [notDigit]), equal]

/-! ## Extensions -/

/-- What stands in front of the last dot of a name stands there in any longer name that ends in
it. -/
theorem Path.withoutExtension_append {front ending stem : List Char}
    (cut : ending.reverse.dropWhile (· != '.') = '.' :: stem.reverse)
    (notEmpty : front ++ stem ≠ []) : withoutExtension (front ++ ending) = front ++ stem := by
  have dropped : (front ++ ending).reverse.dropWhile (· != '.') =
      '.' :: (stem.reverse ++ front.reverse) := by
    rw [List.reverse_append, List.dropWhile_append, cut]
    rfl
  unfold withoutExtension
  rw [dropped, List.tail_cons, <- List.reverse_append, List.reverse_reverse]
  split
  · next empty => exact absurd empty notEmpty
  · rfl

/-! ## The start of the names of modules -/

/-- The stem of a module is made of the file name without its extension. -/
theorem toList_moduleStem {input : Path} {name : String} (ends : input.fileName? = some name) :
    input.moduleStem.toList = moduleName (Path.withoutExtension name.toList) := by
  simp [Path.moduleStem, Path.stem?, ends]

/-- The stem of a module is a name that a module can have. -/
theorem isModuleName_moduleStem (input : Path) : IsModuleName input.moduleStem where
  notEmpty := by
    simpa [Path.moduleStem, <- String.toList_inj] using moduleName_ne_nil _
  chars c listed := by
    rw [Path.moduleStem, String.toList_ofList] at listed
    exact (isModuleChar_iff c).mp (isModuleChar_of_mem_moduleName listed)
  start c first := by
    rw [Path.moduleStem, String.toList_ofList] at first
    exact isDigit_head_moduleName first

/-- Other characters do not occur in the name of a module. -/
theorem IsModuleName.not_mem {name : String} (isName : IsModuleName name) {c : Char}
    (other : isModuleChar c = false) : c ∉ name.toList := by
  intro listed
  rw [(isModuleChar_iff c).mpr (isName.chars c listed)] at other
  cases other

/-- An interface file that is named after a module gives its modules that name. -/
theorem IsModuleName.moduleStem_eq {name : String} (isName : IsModuleName name) :
    Path.moduleStem ⟨name ++ ".x"⟩ = name := by
  have slashFree : '/' ∉ (name ++ ".x").toList := by
    simp [isName.not_mem (c := '/') (by decide)]
  have notEmpty : name.toList ≠ [] := by simpa using isName.notEmpty
  have isFile : Path.IsFileName (name ++ ".x") := by
    refine Path.isFileName_of_length slashFree ?_
    have positive := List.length_pos_iff.mpr notEmpty
    rw [String.length_append]
    exact Nat.lt_add_of_pos_left positive
  have ends : Path.fileName? ⟨name ++ ".x"⟩ = some (name ++ ".x") :=
    Path.fileName?_of_pieces [] isFile
      (by rw [Path.pieces, Path.splitPieces_of_slash_free slashFree]; simp)
  have stem : Path.withoutExtension (name ++ ".x").toList = name.toList ++ [] := by
    rw [String.toList_append]
    exact Path.withoutExtension_append (by decide) (by simpa using isName.notEmpty)
  rw [<- String.toList_inj, toList_moduleStem ends, stem, List.append_nil,
    moduleName_eq_self isName]

/-! ## Names of written files -/

/-- What follows the start of the names of modules in the names of all files that a build
writes. -/
def writtenEndings : List String := outputEndings.flatMap fun ending => [ending ++ ".tmp", ending]

/-- The paths at which a build writes. -/
def OutputNames.written (outputs : OutputNames) : List Path :=
  outputs.paths.flatMap fun path => [path.temporary, path]

/-- The names of the files that a build writes. -/
def BuildRequest.writtenNames (request : BuildRequest) : List String :=
  writtenEndings.map (request.input.moduleStem ++ ·)

/-- A build writes files with different names. -/
theorem BuildRequest.nodup_writtenNames (request : BuildRequest) : request.writtenNames.Nodup := by
  have distinct : writtenEndings.Nodup := by decide
  rw [writtenNames, List.Nodup, List.pairwise_map]
  exact distinct.imp fun differs same =>
    differs ((String.append_right_inj request.input.moduleStem).mp same)

/-- Something stands in front of the last dot of every ending. -/
theorem exists_dot_of_writtenEnding {ending : String} (listed : ending ∈ writtenEndings) :
    ∃ stem, stem ≠ [] ∧ ending.toList.reverse.dropWhile (· != '.') = '.' :: stem.reverse := by
  have cut : writtenEndings.all (fun ending =>
      (ending.toList.reverse.dropWhile (· != '.')).head? == some '.' &&
        !(ending.toList.reverse.dropWhile (· != '.')).tail.isEmpty) = true := by
    decide
  have own := List.all_eq_true.mp cut ending listed
  generalize ending.toList.reverse.dropWhile (· != '.') = dropped at own ⊢
  cases dropped with
  | nil => cases own
  | cons first rest => exact ⟨rest.reverse, by simp_all, by simp_all⟩

/-- A file does not have the name of a file that is written for it. Its name less the extension
would be longer than what the name starts with, which is no shorter. -/
theorem BuildRequest.fileName?_not_written (request : BuildRequest) {name : String}
    (isWritten : name ∈ request.writtenNames) : request.input.fileName? ≠ some name := by
  obtain ⟨ending, listed, rfl⟩ := List.mem_map.mp isWritten
  intro same
  obtain ⟨stem, notEmpty, cut⟩ := exists_dot_of_writtenEnding listed
  have without : Path.withoutExtension (request.input.moduleStem ++ ending).toList =
      request.input.moduleStem.toList ++ stem := by
    rw [String.toList_append]
    exact Path.withoutExtension_append cut (by simp [notEmpty])
  have start : request.input.moduleStem.toList =
      moduleName (request.input.moduleStem.toList ++ stem) := by
    rw [<- without]
    exact toList_moduleStem same
  have longer := length_moduleName (request.input.moduleStem.toList ++ stem)
  rw [<- start, List.length_append] at longer
  have positive := List.length_pos_iff.mpr notEmpty
  omega

end XdrPack
