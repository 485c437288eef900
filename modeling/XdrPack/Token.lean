/-!
# Tokens

The words and marks of the interface language. A token keeps the text of its
identifier or number and the position of its first character; lines count from
one and columns count characters from one.
-/

namespace XdrPack

/-- The words with a meaning of their own. -/
inductive Keyword where
  | enum
  | struct
  | union
  | typedef
  | const
  | switch
  | caseOf
  | default
  | void
  | unsigned
  | int
  | hyper
  | float
  | double
  | quadruple
  | bool
  | opaqueBytes
  | string
  | program
  | version
  deriving DecidableEq, Repr

namespace Keyword

/-- Every keyword. -/
def all : List Keyword := [
  .enum, .struct, .union, .typedef, .const, .switch, .caseOf, .default, .void, .unsigned,
  .int, .hyper, .float, .double, .quadruple, .bool, .opaqueBytes, .string, .program, .version]

/-- The spelling of a keyword. -/
def text : Keyword -> String
  | enum => "enum"
  | struct => "struct"
  | union => "union"
  | typedef => "typedef"
  | const => "const"
  | switch => "switch"
  | caseOf => "case"
  | default => "default"
  | void => "void"
  | unsigned => "unsigned"
  | int => "int"
  | hyper => "hyper"
  | float => "float"
  | double => "double"
  | quadruple => "quadruple"
  | bool => "bool"
  | opaqueBytes => "opaque"
  | string => "string"
  | program => "program"
  | version => "version"

/-- The keyword that a word spells, if any. Case matters. -/
def ofText? (word : String) : Option Keyword :=
  all.find? fun keyword => keyword.text == word

end Keyword

/-- The punctuation marks, each a single character. -/
inductive Mark where
  | openParen
  | closeParen
  | openBrace
  | closeBrace
  | openBracket
  | closeBracket
  | openAngle
  | closeAngle
  | star
  | equals
  | semicolon
  | colon
  | comma
  deriving DecidableEq, Repr

namespace Mark

/-- Every punctuation mark. -/
def all : List Mark := [
  .openParen, .closeParen, .openBrace, .closeBrace, .openBracket, .closeBracket, .openAngle,
  .closeAngle, .star, .equals, .semicolon, .colon, .comma]

/-- The character of a mark. -/
def char : Mark -> Char
  | openParen => '('
  | closeParen => ')'
  | openBrace => '\x7b'
  | closeBrace => '\x7d'
  | openBracket => '['
  | closeBracket => ']'
  | openAngle => '<'
  | closeAngle => '>'
  | star => '*'
  | equals => '='
  | semicolon => ';'
  | colon => ':'
  | comma => ','

/-- The mark that a character is, if any. -/
def ofChar? (c : Char) : Option Mark :=
  all.find? fun mark => mark.char == c

end Mark

namespace Token

/-- What a token is. The two last kinds stand for the edges of the input. -/
inductive Kind where
  | keyword (keyword : Keyword)
  | mark (mark : Mark)
  | identifier (name : String)
  | number (text : String)
  | startOfInput
  | endOfInput
  deriving DecidableEq, Repr

/-- A text between backquotes. -/
def backquoted (text : String) : String := "`" ++ text ++ "`"

/-- How messages name a kind of token. -/
def Kind.describe : Kind -> String
  | keyword word => backquoted word.text
  | mark sign => backquoted (String.singleton sign.char)
  | identifier name => "identifier " ++ backquoted name
  | number text => "number " ++ backquoted text
  | startOfInput => "start of input"
  | endOfInput => "end of input"

end Token

/-- A token with the position of its first character. -/
structure Token where
  kind : Token.Kind
  line : Int
  column : Int
  deriving DecidableEq, Repr

end XdrPack
