import XdrPack.Definition.Parser
import XdrPack.FileSystem

/-!
# Failures

Why a definition is refused, and why a whole run fails. Every cause has one
wording.
-/

namespace XdrPack

/-- What a name is used for where it must not be a reserved word, in the words of
messages. -/
structure NameRole where
  text : String
  deriving DecidableEq, Repr

namespace NameRole

/-- The name of a constant. -/
def constant : NameRole := ⟨"a constant name"⟩

/-- The name of a type. -/
def type : NameRole := ⟨"a type name"⟩

/-- The name of a member of an enumeration. -/
def enumMember : NameRole := ⟨"an enum member"⟩

/-- The name of a field. -/
def field : NameRole := ⟨"a field name"⟩

/-- A constant that labels a case. -/
def caseLabel : NameRole := ⟨"a case label"⟩

end NameRole

/-- Where a value is needed, in the words of messages. -/
structure ValueSite where
  text : String
  deriving DecidableEq, Repr

namespace ValueSite

/-- The target of a type definition. -/
def typedef : ValueSite := ⟨"a typedef"⟩

/-- The discriminant of a union. -/
def discriminant : ValueSite := ⟨"a union discriminant"⟩

end ValueSite

/-- Why a definition is refused. The line is that of the part at fault. -/
inductive DefinitionError where
  | reservedName (name : String) (role : NameRole) (line : Int)
  | undeclaredType (name : String) (line : Int)
  | redefinition (name : String) (line : Int)
  | danglingCase (label : String) (line : Int)
  | misplacedVoid (site : ValueSite) (line : Int)
  deriving DecidableEq, Repr

/-- The wording of a refusal. -/
def DefinitionError.message : DefinitionError -> String
  | reservedName name role line =>
      atLine line (Token.backquoted name ++ " is a reserved word and cannot be used as "
        ++ role.text)
  | undeclaredType name line =>
      atLine line ("type " ++ Token.backquoted name ++ " is used before it is declared")
  | redefinition name line =>
      atLine line ("type " ++ Token.backquoted name ++ " is already declared")
  | danglingCase label line =>
      atLine line (Token.backquoted ("case " ++ label)
        ++ " has no declaration to fall through to")
  | misplacedVoid site line =>
      atLine line ("void cannot be used as " ++ site.text)

/-- Why a run fails. A failure after lexical errors carries them along. -/
inductive Failure where
  | syntactic (error : SyntaxError)
  | refused (error : DefinitionError)
  | file (path : Path) (error : FileError)
  | afterErrors (cause : Failure) (errors : List LexicalError)
  deriving DecidableEq, Repr

namespace Failure

/-- The wording of a failure. -/
def message : Failure -> String
  | syntactic error => error.message
  | refused error => error.message
  | file path error => path.text ++ ": " ++ error.message
  | afterErrors cause errors =>
      cause.message ++ " (" ++ toString errors.length ++ " lexical error(s) before it)"

/-- The failure itself, without the lexical errors that preceded it. -/
def root : Failure -> Failure
  | afterErrors cause _ => cause.root
  | failure => failure

/-- The lexical errors that preceded a failure. -/
def precedingErrors : Failure -> List LexicalError
  | afterErrors _ errors => errors
  | _ => []

/-- Attaches lexical errors to a failure, if there are any. -/
def after (errors : List LexicalError) (failure : Failure) : Failure :=
  if errors.isEmpty then failure else afterErrors failure errors

@[simp]
theorem root_after (errors : List LexicalError) (failure : Failure) :
    (failure.after errors).root = failure.root := by
  cases errors <;> rfl

end Failure

end XdrPack
