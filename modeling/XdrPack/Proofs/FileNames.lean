import Mathlib.Data.List.Basic
import XdrPack.Build

/-!
# File names

A path and a name joined make a path that ends in the name, and the path beside it ends
in the name with an ending. So the paths at which a build writes end in six different
names, all of which are file names and lie in the directory for the modules. What a path means
are its pieces, less those that lead nowhere.
-/

namespace XdrPack

namespace Path

/-! ## Pieces -/

/-- No piece has a slash. -/
theorem slash_not_mem_splitPieces {text piece : List Char} (mem : piece ∈ splitPieces text) :
    '/' ∉ piece := by
  fun_induction splitPieces text generalizing piece with
  | case1 =>
      obtain rfl := List.mem_singleton.mp mem
      exact List.not_mem_nil
  | case2 rest inductionHypothesis =>
      rcases List.mem_cons.mp mem with rfl | later
      · exact List.not_mem_nil
      · exact inductionHypothesis later
  | case3 c rest notSlash first pieces equal inductionHypothesis =>
      rw [equal] at inductionHypothesis
      rcases List.mem_cons.mp mem with rfl | later
      · have behind := inductionHypothesis List.mem_cons_self
        simp [behind, Ne.symm notSlash]
      · exact inductionHypothesis (List.mem_cons_of_mem _ later)
  | case4 c rest notSlash equal inductionHypothesis =>
      obtain rfl := List.mem_singleton.mp mem
      simpa using Ne.symm notSlash

/-- There is always a piece, though it may be empty. -/
theorem splitPieces_ne_nil (text : List Char) : splitPieces text ≠ [] := by
  fun_cases splitPieces text <;> simp

/-- A slash separates what is before it from what is behind it. -/
theorem splitPieces_append_slash (front rest : List Char) :
    splitPieces (front ++ '/' :: rest) = splitPieces front ++ splitPieces rest := by
  induction front with
  | nil => simp [splitPieces]
  | cons c front inductionHypothesis =>
      by_cases slash : c = '/'
      · subst slash
        simp [splitPieces, inductionHypothesis]
      · rw [List.cons_append, splitPieces, splitPieces, if_neg slash, if_neg slash,
          inductionHypothesis]
        cases split : splitPieces front with
        | nil => exact absurd split (splitPieces_ne_nil front)
        | cons piece pieces => rfl

/-- A text without slashes is one piece. -/
theorem splitPieces_of_slash_free {text : List Char} (slashFree : '/' ∉ text) :
    splitPieces text = [text] := by
  induction text with
  | nil => rfl
  | cons c rest inductionHypothesis =>
      obtain ⟨notSlash, behind⟩ := not_or.mp (mt List.mem_cons.mpr slashFree)
      rw [splitPieces, if_neg (Ne.symm notSlash), inductionHypothesis behind]

/-! ## The name that a path ends in -/

/-- A name that a file can have. -/
structure IsFileName (name : String) : Prop where
  slashFree : '/' ∉ name.toList
  notIdle : isIdle name = false
  notParent : name ≠ ".."

/-- A name with more than two characters and without a slash is a file name. -/
theorem isFileName_of_length {name : String} (slashFree : '/' ∉ name.toList)
    (long : 2 < name.length) : IsFileName name where
  slashFree := slashFree
  notIdle := by
    have notEmpty : name ≠ "" := by
      rintro rfl
      exact absurd long (by decide)
    have notDot : name ≠ "." := by
      rintro rfl
      exact absurd long (by decide)
    simp [isIdle, notEmpty, notDot]
  notParent := by
    rintro rfl
    exact absurd long (by decide)

/-- Behind the trimmed pieces there is nothing that means anything. -/
theorem exists_trimPieces_append (pieces : List String) :
    ∃ idle, pieces = trimPieces pieces ++ idle ∧
      forall piece, piece ∈ idle -> isIdle piece = true := by
  cases pieces with
  | nil => exact ⟨[], rfl, by simp⟩
  | cons first rest =>
      refine ⟨(rest.reverse.takeWhile isIdle).reverse, ?_, ?_⟩
      · rw [trimPieces, List.cons_append, <- List.reverse_append, List.takeWhile_append_dropWhile,
          List.reverse_reverse]
      · intro piece mem
        exact List.all_eq_true.mp List.all_takeWhile piece (List.mem_reverse.mp mem)

/-- Nothing is trimmed behind a piece that leads somewhere. -/
theorem trimPieces_concat {front : List String} {name : String} (notIdle : isIdle name = false) :
    trimPieces (front ++ [name]) = front ++ [name] := by
  cases front with
  | nil => rfl
  | cons first rest => simp [trimPieces, notIdle]

/-- A path ends in a name if only pieces that mean nothing are behind it. -/
theorem fileName?_eq_some {path : Path} {name : String} (ends : path.fileName? = some name) :
    IsFileName name ∧ ∃ front idle, path.pieces = front ++ name :: idle ∧
      forall piece, piece ∈ idle -> isIdle piece = true := by
  unfold fileName? at ends
  split at ends
  · cases ends
  · next last isLast =>
      split at ends
      · cases ends
      · next isName =>
          obtain rfl := Option.some.inj ends
          obtain ⟨idle, split, allIdle⟩ := exists_trimPieces_append path.pieces
          obtain ⟨front, trimmed⟩ := List.getLast?_eq_some_iff.mp isLast
          rw [trimmed, List.append_assoc, List.singleton_append] at split
          refine ⟨⟨?_, by simp_all, by simp_all⟩, front, idle, split, allIdle⟩
          have mem : last ∈ path.pieces := by simp [split]
          obtain ⟨piece, isPiece, rfl⟩ := List.mem_map.mp mem
          rw [String.toList_ofList]
          exact slash_not_mem_splitPieces isPiece

/-- The last piece is the file name of a path if it is one. -/
theorem fileName?_of_pieces {path : Path} (front : List String) {name : String}
    (isName : IsFileName name) (split : path.pieces = front ++ [name]) :
    path.fileName? = some name := by
  simp [fileName?, split, trimPieces_concat isName.notIdle, isName.notIdle, isName.notParent]

/-- A path joined with a name ends in the name. -/
theorem fileName?_join (path : Path) {name : String} (isName : IsFileName name) :
    (path.join ⟨name⟩).fileName? = some name := by
  have onePiece := splitPieces_of_slash_free isName.slashFree
  unfold join
  split
  · exact fileName?_of_pieces [] isName (by simp [pieces, onePiece])
  · split
    · next ends =>
        rw [<- String.endsWith_toSlice, String.Slice.endsWith_string_iff,
          String.copy_toSlice] at ends
        obtain ⟨front, split⟩ := ends
        refine fileName?_of_pieces ((splitPieces front).map String.ofList) isName ?_
        rw [pieces, String.toList_append, <- split, List.append_assoc]
        exact (congrArg _ (splitPieces_append_slash front name.toList)).trans
          (by simp [onePiece])
    · refine fileName?_of_pieces path.pieces isName ?_
      rw [pieces, String.toList_append, String.toList_append, List.append_assoc]
      exact (congrArg _ (splitPieces_append_slash path.text.toList name.toList)).trans
        (by simp [onePiece, pieces])

/-- The name of a file with the ending of a temporary file is the name of a file. -/
theorem IsFileName.temporary {name : String} (isName : IsFileName name) :
    IsFileName (name ++ ".tmp") := by
  apply isFileName_of_length
  · simp [isName.slashFree]
  · rw [String.length_append]
    exact Nat.lt_of_lt_of_le (by decide) (Nat.le_add_left _ _)

/-- The path beside a file ends in the name of the file with an ending. -/
theorem fileName?_temporary {path : Path} {name : String} (ends : path.fileName? = some name) :
    path.temporary.fileName? = some (name ++ ".tmp") := by
  have isName := (fileName?_eq_some ends).1
  rw [temporary, withFileName, ends, Option.getD_some]
  exact fileName?_join _ isName.temporary

/-! ## What a path means -/

/-- The pieces that mean something. -/
def meaning (pieces : List String) : List String := pieces.filter fun piece => !isIdle piece

/-- A path is absolute exactly if its text starts with a slash. -/
theorem isAbsolute_iff_head (path : Path) :
    path.isAbsolute = true ↔ path.text.toList.head? = some '/' := by
  have starts : path.isAbsolute = true ↔ ['/'] <+: path.text.toList := String.startsWith_string_iff
  rw [starts]
  cases path.text.toList <;> simp [eq_comm]

/-- A path starts at the root directory if its first piece is empty and not the only one. -/
theorem isAbsolute_iff_pieces (path : Path) :
    path.isAbsolute = true ↔ ∃ next rest, path.pieces = "" :: next :: rest := by
  rw [isAbsolute_iff_head, pieces]
  cases path.text.toList with
  | nil => simp [splitPieces]
  | cons c text =>
      by_cases slash : c = '/'
      · subst slash
        obtain ⟨next, rest, split⟩ := List.exists_cons_of_ne_nil (splitPieces_ne_nil text)
        simp [splitPieces, split]
      · rw [splitPieces, if_neg slash]
        cases splitPieces text <;> simp [slash, <- String.toList_inj]

/-- A name is one piece. -/
theorem pieces_name {name : String} (isName : IsFileName name) : pieces ⟨name⟩ = [name] := by
  rw [pieces, splitPieces_of_slash_free isName.slashFree]
  simp

/-- A name does not start at the root directory. -/
theorem isAbsolute_name {name : String} (isName : IsFileName name) :
    isAbsolute ⟨name⟩ = false := by
  rw [Bool.eq_false_iff, ne_eq, isAbsolute_iff_pieces, pieces_name isName]
  simp

/-- A name that is joined to a path is the last piece, behind what the path means. -/
theorem exists_pieces_join (path : Path) {name : String} (isName : IsFileName name) :
    ∃ front, (path.join ⟨name⟩).pieces = front ++ [name] ∧ meaning front = meaning path.pieces ∧
      (path.join ⟨name⟩).isAbsolute = path.isAbsolute := by
  have onePiece := pieces_name isName
  have relative := isAbsolute_name isName
  unfold join
  by_cases empty : path.text = ""
  · refine ⟨[], ?_, ?_, ?_⟩
    · rw [if_pos (by simp [empty]), onePiece]
      rfl
    · rw [pieces, empty]
      decide
    · rw [if_pos (by simp [empty]), relative, isAbsolute, empty]
      decide
  · have sameStart : forall rest : String, isAbsolute ⟨path.text ++ rest⟩ = path.isAbsolute := by
      intro rest
      have notEmpty : path.text.toList ≠ [] := by simpa using empty
      rw [Bool.eq_iff_iff, isAbsolute_iff_head, isAbsolute_iff_head, String.toList_append,
        List.head?_append_of_ne_nil _ notEmpty]
    rw [if_neg (by simp [relative, empty])]
    split
    · next ends =>
        rw [<- String.endsWith_toSlice, String.Slice.endsWith_string_iff,
          String.copy_toSlice] at ends
        obtain ⟨front, split⟩ := ends
        have slash : "/".toList = ['/'] := rfl
        rw [slash] at split
        refine ⟨(splitPieces front).map String.ofList, ?_, ?_, sameStart name⟩
        · rw [pieces, String.toList_append, <- split, List.append_assoc, List.singleton_append,
            splitPieces_append_slash, splitPieces_of_slash_free isName.slashFree]
          simp
        · rw [pieces, <- split, splitPieces_append_slash, meaning, meaning]
          simp [splitPieces, isIdle]
    · refine ⟨path.pieces, ?_, rfl, ?_⟩
      · rw [pieces, String.toList_append, String.toList_append, List.append_assoc]
        exact (congrArg _ (splitPieces_append_slash path.text.toList name.toList)).trans
          (by simp [splitPieces_of_slash_free isName.slashFree, pieces])
      · rw [String.append_assoc]
        exact sameStart ("/" ++ name)

/-- Pieces without slashes are found again between slashes. -/
theorem pieces_intercalate {first : String} {rest : List String}
    (slashFree : forall piece, piece ∈ first :: rest -> '/' ∉ piece.toList) :
    pieces ⟨"/".intercalate (first :: rest)⟩ = first :: rest := by
  induction rest generalizing first with
  | nil =>
      rw [pieces, String.intercalate_singleton,
        splitPieces_of_slash_free (slashFree first List.mem_cons_self)]
      simp
  | cons second more inductionHypothesis =>
      obtain ⟨own, others⟩ := List.forall_mem_cons.mp slashFree
      have later : (splitPieces ("/".intercalate (second :: more)).toList).map String.ofList =
          second :: more :=
        inductionHypothesis others
      rw [pieces, String.intercalate_cons_cons, String.toList_append, String.toList_append,
        show "/".toList = ['/'] from rfl, List.append_assoc, List.singleton_append,
        splitPieces_append_slash, List.map_append, later, splitPieces_of_slash_free own]
      simp

/-- Pieces that are put together mean what they meant, and start at the root directory if the
first is empty. -/
theorem meaning_ofPieces {first : String} {rest : List String}
    (slashFree : forall piece, piece ∈ first :: rest -> '/' ∉ piece.toList) :
    meaning (ofPieces (first :: rest)).pieces = meaning (first :: rest) ∧
      ((ofPieces (first :: rest)).isAbsolute = true ↔ first = "") := by
  unfold ofPieces
  split
  · next root =>
      cases root
      decide +kernel
  · next notRoot =>
      rw [isAbsolute_iff_pieces, pieces_intercalate slashFree]
      refine ⟨rfl, ?_⟩
      cases rest <;> simp_all

/-- Trimming keeps what the pieces of a path mean. -/
theorem meaning_trimPieces (pieces : List String) :
    meaning (trimPieces pieces) = meaning pieces := by
  obtain ⟨idle, split, allIdle⟩ := exists_trimPieces_append pieces
  have nothing : meaning idle = [] := by simpa [meaning, List.filter_eq_nil_iff] using allIdle
  calc meaning (trimPieces pieces)
    _ = meaning (trimPieces pieces) ++ meaning idle := by rw [nothing, List.append_nil]
    _ = meaning (trimPieces pieces ++ idle) := (List.filter_append _ _).symm
    _ = meaning pieces := by rw [<- split]

/-- The path without a name at its end. -/
theorem parent?_of_pieces {path : Path} {first name : String} {rest : List String}
    (split : path.pieces = first :: rest ++ [name]) (isName : IsFileName name) :
    path.parent? = some (ofPieces (trimPieces (first :: rest))) := by
  have goesOn : rest ++ [name] ≠ [] :=
    List.append_ne_nil_of_right_ne_nil rest (List.cons_ne_nil name [])
  obtain ⟨second, more, behind⟩ := List.exists_cons_of_ne_nil goesOn
  rw [parent?, split, trimPieces_concat isName.notIdle, List.cons_append, behind]
  show some (ofPieces (trimPieces (first :: second :: more).dropLast)) = _
  rw [<- behind, <- List.cons_append, List.dropLast_concat]

/-- The path without its last piece means what stands in front of that piece. -/
theorem meaning_parent {path : Path} {front : List String} {name : String}
    (split : path.pieces = front ++ [name]) (isName : IsFileName name) :
    meaning (path.parent?.getD ⟨""⟩).pieces = meaning front ∧
      (path.parent?.getD ⟨""⟩).isAbsolute = path.isAbsolute := by
  cases front with
  | nil =>
      have trimmed : trimPieces path.pieces = [name] := by rw [split]; rfl
      have notEmpty : name ≠ "" := by
        rintro rfl
        exact absurd isName.notIdle (by decide)
      have noParent : path.parent?.getD ⟨""⟩ = ⟨""⟩ := by
        rw [parent?, trimmed]
        simp [notEmpty]
      have relative : path.isAbsolute = false := by
        rw [Bool.eq_false_iff, ne_eq, isAbsolute_iff_pieces, split]
        simp
      rw [noParent, relative]
      decide
  | cons first rest =>
      have slashFree : forall piece, piece ∈ first :: rest -> '/' ∉ piece.toList := by
        intro piece listed
        have mem : piece ∈ path.pieces := split ▸ List.mem_append_left _ listed
        obtain ⟨chars, isPiece, rfl⟩ := List.mem_map.mp mem
        rw [String.toList_ofList]
        exact slash_not_mem_splitPieces isPiece
      have parent : path.parent?.getD ⟨""⟩ = ofPieces (trimPieces (first :: rest)) := by
        rw [parent?_of_pieces split isName, Option.getD_some]
      have absolute : path.isAbsolute = true ↔ first = "" := by
        rw [isAbsolute_iff_pieces, split]
        cases rest <;> simp
      obtain ⟨idle, kept, -⟩ := exists_trimPieces_append (first :: rest)
      have stillFree : forall piece, piece ∈ trimPieces (first :: rest) -> '/' ∉ piece.toList :=
        fun piece listed => slashFree piece (kept ▸ List.mem_append_left _ listed)
      obtain ⟨means, start⟩ := meaning_ofPieces stillFree
      rw [parent, Bool.eq_iff_iff, absolute]
      exact ⟨means.trans (meaning_trimPieces (first :: rest)), start⟩

/-! ## Paths in a directory -/

/-- Cutting a text at its slashes loses nothing. -/
theorem intercalate_splitPieces (text : List Char) :
    ['/'].intercalate (splitPieces text) = text := by
  fun_induction splitPieces text with
  | case1 => rfl
  | case2 rest inductionHypothesis =>
      obtain ⟨first, others, split⟩ := List.exists_cons_of_ne_nil (splitPieces_ne_nil rest)
      rw [split] at inductionHypothesis ⊢
      rw [List.intercalate_cons_cons, inductionHypothesis]
      rfl
  | case3 c rest notSlash first pieces equal inductionHypothesis =>
      rw [equal] at inductionHypothesis
      subst inductionHypothesis
      cases pieces with
      | nil => simp
      | cons second others => simp [List.intercalate_cons_cons]
  | case4 c rest notSlash impossible => exact absurd impossible (splitPieces_ne_nil rest)

/-- A path is its pieces with slashes between them. -/
theorem intercalate_pieces (path : Path) : "/".intercalate path.pieces = path.text := by
  have same : String.toList ∘ String.ofList = id := by
    funext chars
    exact String.toList_ofList
  rw [<- String.toList_inj, String.toList_intercalate, pieces, List.map_map, same, List.map_id]
  exact intercalate_splitPieces path.text.toList

section

variable {directory : Path} {last name : String} (ends : directory.pieces.getLast? = some last)
  (isLast : IsFileName last)

include ends isLast

/-- What is joined to a path that ends in a name stands behind a slash. -/
theorem text_join (isName : IsFileName name) :
    (directory.join ⟨name⟩).text = directory.text ++ "/" ++ name := by
  -- Nothing or a slash at the end would make an empty piece the last one.
  have notBehindSlash : directory.pieces.getLast? ≠ some "" := by
    rw [ends, ne_eq, Option.some.injEq]
    rintro rfl
    exact absurd isLast.notIdle (by decide)
  have notEmpty : directory.text ≠ "" := by
    intro empty
    apply notBehindSlash
    rw [pieces, empty]
    rfl
  have notClosed : ¬ directory.text.endsWith "/" = true := by
    intro closed
    rw [<- String.endsWith_toSlice, String.Slice.endsWith_string_iff, String.copy_toSlice] at closed
    obtain ⟨front, split⟩ := closed
    have slash : "/".toList = ['/'] := rfl
    rw [slash] at split
    apply notBehindSlash
    rw [pieces, <- split, splitPieces_append_slash]
    simp [splitPieces]
  rw [join, if_neg (by simp [isAbsolute_name isName, notEmpty]), if_neg notClosed]

/-- What is joined to a path that ends in a name is one more piece. -/
theorem pieces_join (isName : IsFileName name) :
    (directory.join ⟨name⟩).pieces = directory.pieces ++ [name] := by
  have slash : "/".toList = ['/'] := rfl
  rw [pieces, text_join ends isLast isName, String.toList_append, String.toList_append, slash,
    List.append_assoc, List.singleton_append, splitPieces_append_slash, List.map_append,
    splitPieces_of_slash_free isName.slashFree]
  simp [pieces]

/-- In a directory whose path ends in a name, the path beside a file is in that directory. -/
theorem temporary_join (isName : IsFileName name) :
    (directory.join ⟨name⟩).temporary = directory.join ⟨name ++ ".tmp"⟩ := by
  obtain ⟨front, split⟩ := List.getLast?_eq_some_iff.mp ends
  have joined := pieces_join ends isLast isName
  rw [split] at joined
  have whole : ofPieces (trimPieces (front ++ [last])) = directory := by
    rw [trimPieces_concat isLast.notIdle, ofPieces, <- split, intercalate_pieces, if_neg]
    intro empty
    rw [empty] at ends
    cases ends
    exact absurd isLast.notIdle (by decide)
  have parent : (directory.join ⟨name⟩).parent?.getD ⟨""⟩ = directory := by
    obtain ⟨first, rest, goesOn⟩ : ∃ first rest, front ++ [last] = first :: rest :=
      List.exists_cons_of_ne_nil (by simp)
    rw [goesOn] at joined whole
    rw [parent?_of_pieces joined isName, whole, Option.getD_some]
  rw [temporary, withFileName, fileName?_join directory isName, Option.getD_some]
  exact congrArg (Path.join · ⟨name ++ ".tmp"⟩) parent

end

end Path

/-! ## The names of the generated files -/

/-- The name of a module consists of characters that are allowed in it. -/
theorem isModuleChar_of_mem_moduleName {name : List Char} {c : Char} (mem : c ∈ moduleName name) :
    isModuleChar c = true := by
  have replaced : forall c, c ∈ (name.map fun c => if isModuleChar c then c else '_') ->
      isModuleChar c = true := by
    intro c mem
    obtain ⟨original, -, rfl⟩ := List.mem_map.mp mem
    split
    · assumption
    · decide
  unfold moduleName at mem
  split at mem
  · obtain rfl := List.mem_singleton.mp mem
    decide
  · next first rest equal =>
      rw [equal] at replaced
      split at mem
      · rcases List.mem_cons.mp mem with rfl | behind
        · decide
        · exact replaced c behind
      · exact replaced c mem

/-- The name of a module with an ending is the name of a file. -/
theorem isFileName_moduleStem (input : Path) {ending : String} (slashFree : '/' ∉ ending.toList)
    (long : 2 < ending.length) : Path.IsFileName (input.moduleStem ++ ending) := by
  apply Path.isFileName_of_length
  · rw [String.toList_append, List.mem_append, not_or]
    refine ⟨fun mem => ?_, slashFree⟩
    rw [Path.moduleStem, String.toList_ofList] at mem
    exact absurd (isModuleChar_of_mem_moduleName mem) (by decide)
  · rw [String.length_append]
    exact Nat.lt_of_lt_of_le long (Nat.le_add_left _ _)

/-- The paths of the generated files. -/
def OutputNames.paths (outputs : OutputNames) : List Path :=
  [outputs.constants, outputs.types, outputs.packer]

/-- What follows the name of the module in the names of the generated files. -/
def outputEndings : List String := ["constants.py", "types.py", "packer.py"]

/-- What the generated files are for, as their names say it. -/
def outputRoles : List String := ["constants", "types", "packer"]

/-- The endings of outputs are their roles with the extension. -/
theorem outputEndings_eq : outputEndings = outputRoles.map (· ++ ".py") := by decide

/-- The paths of derived names, one for each role. -/
theorem OutputNames.paths_derive (input directory : Path) (extension : String) :
    (OutputNames.derive input directory extension).paths =
      outputRoles.map fun role =>
        directory.join ⟨input.moduleStem ++ role ++ "." ++ extension⟩ := by
  simp only [derive, paths, outputRoles, List.map_cons, List.map_nil]

/-- The outputs of a request, one for each role. -/
theorem BuildRequest.paths_outputs (request : BuildRequest) :
    request.outputs.paths = outputRoles.map fun role =>
      request.outputDirectory.join ⟨request.input.moduleStem ++ (role ++ ".py")⟩ := by
  have dotted : "." ++ Python.extension = ".py" := by decide
  simp only [outputs, OutputNames.paths_derive, String.append_assoc, dotted]

/-- A generated file has the name of a file. -/
theorem isFileName_output (input : Path) {role : String} (isRole : role ∈ outputRoles) :
    Path.IsFileName (input.moduleStem ++ (role ++ ".py")) := by
  have slashFree : forall role, role ∈ outputRoles -> '/' ∉ role.toList := by decide
  have long : 2 < (role ++ ".py").length := by
    rw [String.length_append]
    exact Nat.lt_of_lt_of_le (by decide) (Nat.le_add_left _ _)
  exact isFileName_moduleStem input (by simp [slashFree role isRole]) long

/-- The generated files are called by the module and what they are for. -/
theorem fileName?_outputs (request : BuildRequest) :
    request.outputs.paths.map Path.fileName? =
      outputEndings.map fun ending => some (request.input.moduleStem ++ ending) := by
  have joined (role : String) (isRole : role ∈ outputRoles) :=
    Path.fileName?_join request.outputDirectory (isFileName_output request.input isRole)
  simp only [request.paths_outputs, outputEndings_eq, List.map_map, List.map_inj_left,
    Function.comp_apply]
  exact joined

end XdrPack
