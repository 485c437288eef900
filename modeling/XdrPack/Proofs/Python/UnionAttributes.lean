import XdrPack.Proofs.Python.FieldNames

/-!
# Attributes of union records

The constructor of a union has a parameter for the discriminant and one for each member, and sets
an attribute from each. The methods of the class use attributes: the discriminant to choose an arm,
the member that the arm holds, and what the helper of the module sets. Which attributes are
assigned and which are used is read off the symbols of all lines, without regard to the statements
that they belong to. What is used has been set, although different arms may name the same member,
and an arm may have the name of the discriminant, as long as the constructor reaches the helper. A
member or a class with the name of the helper is in its way.
-/

namespace XdrPack

open Grammar

namespace Python

/-! ## Attributes in lines -/

/-- The attributes of the record that symbols mention. -/
def ownAttributes : List Symbol -> List String
  | .name "self" :: .sign '.' :: .name member :: rest => member :: ownAttributes rest
  | _ :: rest => ownAttributes rest
  | [] => []

/-- Those of them that encoding a value needs. A record encodes itself. -/
def contextAttributes : Coding -> List String
  | .void | .record _ => []
  | .recordArray _ _ => ["ncl"]
  | .routine _ | .text | .fixedBytes _ | .bytes | .array _ _ => ["packer"]

namespace Union

/-- Those of them that encoding a union needs. -/
def context (layout : UnionLayout) : List String :=
  ((layout.discriminant :: layout.bodies).filter fun field => !field.isVoid).flatMap
    fun field => contextAttributes field.coding

end Union

/-! ## Attributes of statements -/

/-- The attributes that an operand mentions. -/
def Operand.attributes : Operand -> List String
  | plain _ => []
  | member name => [name]
  | method owner _ => [owner]

/-- The attributes that a call uses. -/
def Call.attributes (call : Call) : List String :=
  call.callee.attributes ++ call.arguments.flatMap (·.value.attributes)

/-- The attributes that a statement uses. -/
def Statement.attributes : Statement -> List String
  | pass => []
  | perform call | raise call | keep _ call => call.attributes
  | point _ source => source.attributes

/-- The attributes of an operand before a sign other than a dot. -/
theorem Operand.ownAttributes_symbols (operand : Operand) {c : Char} (notDot : c ≠ '.')
    (rest : List Symbol) :
    ownAttributes (operand.symbols ++ .sign c :: rest) =
      operand.attributes ++ ownAttributes rest := by
  cases operand <;> simp [symbols, attributes, ownAttributes, notDot]

/-- The attributes of an argument before a sign other than a dot. -/
theorem Argument.ownAttributes_symbols (argument : Argument) {c : Char} (notDot : c ≠ '.')
    (rest : List Symbol) :
    ownAttributes (argument.symbols ++ .sign c :: rest) =
      argument.value.attributes ++ ownAttributes rest := by
  obtain ⟨key, value⟩ := argument
  cases key with
  | none => exact value.ownAttributes_symbols notDot rest
  | some key =>
      rw [<- value.ownAttributes_symbols notDot rest]
      simp [symbols, ownAttributes]

/-- The attributes of the arguments of a call. -/
theorem Argument.ownAttributes_inside (arguments : List Argument) :
    ownAttributes (inside arguments) = arguments.flatMap (·.value.attributes) := by
  have closes : ')' ≠ '.' := by decide
  have separates : ',' ≠ '.' := by decide
  induction arguments with
  | nil => rfl
  | cons first others inductionHypothesis =>
      cases others with
      | nil =>
          rw [inside, first.ownAttributes_symbols closes]
          rfl
      | cons second more =>
          rw [inside, first.ownAttributes_symbols separates, inductionHypothesis]
          rfl

/-- The attributes of a call. -/
theorem Call.ownAttributes_symbols (call : Call) :
    ownAttributes call.symbols = call.attributes := by
  have opens : '(' ≠ '.' := by decide
  rw [symbols, call.callee.ownAttributes_symbols opens, Argument.ownAttributes_inside, attributes]

namespace Action

/-- The attributes that the statements of an action use. -/
def used (action : Action) : List String := action.written.flatMap (·.attributes)

/-- The attributes of the record that an action is about. -/
def fields : Action -> List String
  | assertSet names => names
  | encode name _ | decode name _ | refuse name => [name]
  | setArm name => name.toList

end Action

/-- The attributes that the lines of a branch use. -/
def Branch.used (discriminant : String) (branch : Branch) : List String :=
  branch.labels.map (fun _ => discriminant) ++ branch.actions.flatMap (·.used)

section

variable (naming : Naming) {emissions : List Emission}
  (lined : forall each, each ∈ emissions.flatMap classes -> each.code.Lined Unbroken)
  (areWords : forall each, each ∈ emissions.flatMap classes -> IsWord each.name)

include lined areWords

end

/-! ## Unions -/

namespace Union

section

variable {layout : UnionLayout} (readable : ReadableLayout layout)
  {body : Field -> List Action}
  (named : forall field, field ∈ layout.bodies -> Action.Named (body field))

include readable named

end

end Union

end Python

namespace Compiler

end Compiler

end XdrPack
