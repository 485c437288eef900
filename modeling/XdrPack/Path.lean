import XdrPack.Text.Utf8

/-!
# Paths

A path is a text in which slashes separate pieces. Empty pieces and single dots
behind the first piece mean nothing, and are passed over when a path is taken
apart at its end.
-/

namespace XdrPack

/-- A path, as written. -/
structure Path where
  text : String
  deriving DecidableEq, Repr

namespace Path

/-- The path that bytes stand for. What cannot be read as text is replaced. -/
def ofBytes (bytes : List UInt8) : Path := ⟨Text.decodeLossy bytes⟩

/-- Cuts a text at its slashes. -/
def splitPieces : List Char -> List (List Char)
  | [] => [[]]
  | c :: rest =>
      if c = '/' then
        [] :: splitPieces rest
      else
        match splitPieces rest with
        | piece :: pieces => (c :: piece) :: pieces
        | [] => [[c]]

/-- The pieces of a path between its slashes. -/
def pieces (path : Path) : List String :=
  (splitPieces path.text.toList).map String.ofList

/-- Whether a piece behind the first one means nothing. -/
def isIdle (piece : String) : Bool := piece == "" || piece == "."

/-- The pieces without those at the end that mean nothing. The first piece always
stays. -/
def trimPieces : List String -> List String
  | [] => []
  | first :: rest => first :: (rest.reverse.dropWhile isIdle).reverse

/-- Whether a path starts at the root directory. -/
def isAbsolute (path : Path) : Bool := path.text.startsWith "/"

/-- The name of the file that a path ends in, unless it ends in no name. -/
def fileName? (path : Path) : Option String :=
  match (trimPieces path.pieces).getLast? with
  | none => none
  | some last => if isIdle last || last == ".." then none else some last

/-- The text of the pieces, which is a slash for the root directory alone. -/
def ofPieces (pieces : List String) : Path :=
  if pieces = [""] then ⟨"/"⟩ else ⟨"/".intercalate pieces⟩

/-- The path without its last piece. The root directory and the empty path have
no last piece. -/
def parent? (path : Path) : Option Path :=
  match trimPieces path.pieces with
  | [] => none
  | [piece] => if piece = "" then none else some ⟨""⟩
  | pieces => some (ofPieces (trimPieces pieces.dropLast))

/-- A path followed by another. An absolute path stands alone. -/
def join (path next : Path) : Path :=
  if next.isAbsolute || path.text = "" then next
  else if path.text.endsWith "/" then ⟨path.text ++ next.text⟩
  else ⟨path.text ++ "/" ++ next.text⟩

/-- The path with another name at its end. -/
def withFileName (path : Path) (name : String) : Path :=
  match path.fileName? with
  | some _ => (path.parent?.getD ⟨""⟩).join ⟨name⟩
  | none => path.join ⟨name⟩

/-- A file name without its last extension. A dot at the start of the name does
not begin an extension. -/
def withoutExtension (name : List Char) : List Char :=
  match (name.reverse.dropWhile (· != '.')).tail.reverse with
  | [] => name
  | stem => stem

/-- The name at the end of a path without its last extension. -/
def stem? (path : Path) : Option String :=
  path.fileName?.map fun name => String.ofList (withoutExtension name.toList)

end Path

end XdrPack
