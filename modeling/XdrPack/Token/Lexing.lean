import XdrPack.Text.Hidden
import XdrPack.Token.Segment

/-!
# Lexing a source text

The segments of a text give its tokens and its lexical errors. Lexing always
reaches the end of the text: what cannot be a token is reported and skipped.
Each token comes with the errors met on the way to it, so that a reader who
stops early knows which errors have been seen.

A numeral is an optional minus sign followed by a hexadecimal, octal or decimal
number. A leading zero makes a number octal, so a decimal number starts with
another digit.
-/

namespace XdrPack

namespace Numeral

/-- Whether a character is an octal digit. -/
def isOctalDigit (c : Char) : Bool := '0' <= c && c <= '7'

/-- Whether a character is a hexadecimal digit of either case. -/
def isHexDigit (c : Char) : Bool :=
  c.isDigit || ('a' <= c && c <= 'f') || ('A' <= c && c <= 'F')

/-- Whether a text is a number without a sign. -/
def isUnsigned : List Char -> Bool
  | [] => false
  | '0' :: 'x' :: digits => !digits.isEmpty && digits.all isHexDigit
  | '0' :: 'X' :: digits => !digits.isEmpty && digits.all isHexDigit
  | '0' :: digits => digits.all isOctalDigit
  | first :: digits => first.isDigit && digits.all Char.isDigit

/-- Whether a text is a numeral. -/
def isNumeral : List Char -> Bool
  | '-' :: digits => isUnsigned digits
  | digits => isUnsigned digits

end Numeral

/-- A place between two characters: the line it is on, and how many characters
of that line precede it. -/
structure Cursor where
  line : Int
  column : Int
  deriving DecidableEq, Repr

namespace Cursor

/-- The place before the first character of a text. -/
def start : Cursor := ⟨1, 0⟩

/-- The place after one more character. -/
def step (cursor : Cursor) (c : Char) : Cursor :=
  if c = '\n' then ⟨cursor.line + 1, 0⟩ else ⟨cursor.line, cursor.column + 1⟩

/-- The place after more characters. -/
def advance (cursor : Cursor) (text : List Char) : Cursor :=
  text.foldl step cursor

end Cursor

/-- Why a stretch of source text is no token. The line is that of its first
character. -/
inductive LexicalError where
  | illegalCharacter (c : Char) (line : Int)
  | malformedNumber (text : String) (line : Int)
  | unclosedComment (line : Int)
  deriving DecidableEq, Repr

/-- The start of a message about a line. -/
def atLine (line : Int) (text : String) : String :=
  "line " ++ toString line ++ ": " ++ text

/-- The wording of a lexical error. -/
def LexicalError.message : LexicalError -> String
  | illegalCharacter c line => atLine line ("illegal character " ++ Text.quoted c)
  | malformedNumber text line => atLine line ("malformed number " ++ Token.backquoted text)
  | unclosedComment line => atLine line "comment is never closed"

namespace Segment

/-- The kind of token that a segment is, if it is one. -/
def kind? : Segment -> Option Token.Kind
  | mark sign => some (.mark sign)
  | word text =>
      match Keyword.ofText? (String.ofList text) with
      | some keyword => some (.keyword keyword)
      | none => some (.identifier (String.ofList text))
  | numeral text =>
      if Numeral.isNumeral text then some (.number (String.ofList text)) else none
  | _ => none

/-- The token that a segment is, if it is one, when it begins at the cursor. -/
def token? (cursor : Cursor) (segment : Segment) : Option Token :=
  segment.kind?.map fun kind => ⟨kind, cursor.line, cursor.column + 1⟩

/-- The error that a segment is, if it is one, when it begins at the cursor. -/
def error? (cursor : Cursor) : Segment -> Option LexicalError
  | openComment _ => some (.unclosedComment cursor.line)
  | numeral text =>
      if Numeral.isNumeral text then none
      else some (.malformedNumber (String.ofList text) cursor.line)
  | illegal c => some (.illegalCharacter c cursor.line)
  | _ => none

end Segment

/-- A token and the errors met between the token before it and itself. -/
structure Lexeme where
  skipped : List LexicalError
  token : Token
  deriving DecidableEq, Repr

/-- All that lexing finds in a text: the tokens, the errors after the last of
them, and the place where the text ends. -/
structure Lexing where
  lexemes : List Lexeme
  trailing : List LexicalError
  finish : Cursor
  deriving DecidableEq, Repr

namespace Lexing

/-- The same lexing after an error, which is met on the way to the first token
or, if there is none, to the end. -/
def afterError (error : LexicalError) (lexing : Lexing) : Lexing :=
  match lexing.lexemes with
  | [] => { lexing with trailing := error :: lexing.trailing }
  | first :: rest =>
      { lexing with lexemes := { first with skipped := error :: first.skipped } :: rest }

/-- The same lexing after a token. -/
def afterToken (token : Token) (lexing : Lexing) : Lexing :=
  { lexing with lexemes := ⟨[], token⟩ :: lexing.lexemes }

/-- Reads segments from the cursor on. -/
def ofSegments (cursor : Cursor) : List Segment -> Lexing
  | [] => ⟨[], [], cursor⟩
  | segment :: rest =>
      let remaining := ofSegments (cursor.advance segment.chars) rest
      match segment.token? cursor, segment.error? cursor with
      | some token, _ => remaining.afterToken token
      | none, some error => remaining.afterError error
      | none, none => remaining

/-- Lexes a source text. -/
def ofText (source : String) : Lexing :=
  ofSegments .start (Segment.split true source.toList)

/-- The tokens of the text, the end of the input not among them. -/
def tokens (lexing : Lexing) : List Token := lexing.lexemes.map (·.token)

/-- The lexical errors of the text. -/
def errors (lexing : Lexing) : List LexicalError :=
  lexing.lexemes.flatMap (·.skipped) ++ lexing.trailing

/-- The token that stands for the end of the input, as often as it is asked for. -/
def endToken (lexing : Lexing) : Token :=
  ⟨.endOfInput, lexing.finish.line, lexing.finish.column⟩

/-- The errors that have been met once all but `unread` tokens are consumed and
the one after them has been looked at. -/
def errorsSeen (lexing : Lexing) (unread : Nat) : List LexicalError :=
  if unread = 0 then lexing.errors
  else (lexing.lexemes.take (lexing.lexemes.length - unread + 1)).flatMap (·.skipped)

end Lexing

end XdrPack
