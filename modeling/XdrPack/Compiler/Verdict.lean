import XdrPack.Emission
import XdrPack.Failure

/-!
# The verdict on a definition

A definition is judged against the names that are reserved and the types known
so far. The verdict says whether it is accepted and what is emitted for it. A
structure or union is known by its name as soon as that name is accepted, so
that it may refer to itself; it remains known when the rest is refused. Judging
also makes the notes that a run reports about itself while it works.
-/

namespace XdrPack

/-- A step of a run that is worth a note. -/
inductive Progress where
  | typedefPackers (name : String)
  | structClass (name : String)
  | unionClass (name : String)
  | programSkipped (name : String)
  | writing (path : Path)
  deriving DecidableEq, Repr

/-- The wording of a note. -/
def Progress.message : Progress -> String
  | typedefPackers name => "Creating packers for typedef " ++ name
  | structClass name => "Creating class for struct " ++ name
  | unionClass name => "Creating class for union " ++ name
  | programSkipped name => "Skipping program " ++ name
  | writing path => "Writing " ++ path.text

/-- The outcome of judging a definition. -/
structure Verdict where
  /-- The type that is known from now on. -/
  binding : Option (String × TypeRef)
  /-- The note that is made. -/
  note : Option Progress
  /-- What is emitted, unless the definition is refused. -/
  result : Except DefinitionError (Option Emission)

/-- A verdict that leaves no trace but its result. -/
def Verdict.plain (result : Except DefinitionError (Option Emission)) : Verdict :=
  ⟨none, none, result⟩

/-- Refuses a reserved name. -/
def checkName (isReserved : String -> Bool) (name : String) (role : NameRole) (line : Int) :
    Except DefinitionError Unit :=
  if isReserved name then .error (.reservedName name role line) else .ok ()

/-- Refuses the name of a new type if it is reserved or already taken. -/
def checkTypeName (isReserved : String -> Bool) (registry : Registry) (name : String)
    (line : Int) : Except DefinitionError Unit := do
  checkName isReserved name .type line
  if registry.contains name then .error (.redefinition name line) else .ok ()

/-- Completes the type of a declaration and chooses its coding. -/
def Declaration.complete (registry : Registry) (declaration : Declaration) :
    Except DefinitionError Field :=
  match registry.complete? declaration.type with
  | none => .error (.undeclaredType declaration.type.base declaration.line)
  | some type => .ok ⟨{ declaration with type }, Coding.choose registry type⟩

/-- Completes a declaration inside a structure or union. -/
def Declaration.completeMember (isReserved : String -> Bool) (registry : Registry)
    (declaration : Declaration) : Except DefinitionError Field := do
  if declaration.isVoid then
    declaration.complete registry
  else
    checkName isReserved declaration.name .field declaration.line
    declaration.complete registry

/-- The groups and the default body of a switch. Labels at its end that no body
follows belong to the default, and without a default they are refused. -/
def Switch.collapse (switch : Switch) :
    Except DefinitionError (List CaseGroup × Option Declaration) :=
  match switch.dangling, switch.defaultBody with
  | first :: _, none => .error (.danglingCase first.label.text first.line)
  | _, fallback => .ok (switch.groups, fallback)

/-- Refuses a label that refers to a constant of a reserved name. -/
def checkLabel (isReserved : String -> Bool) (line : Int) : Value -> Except DefinitionError Unit
  | .constant name => checkName isReserved name .caseLabel line
  | .number _ => .ok ()

/-- Completes a group of labels. -/
def CaseGroup.complete (isReserved : String -> Bool) (registry : Registry) (group : CaseGroup) :
    Except DefinitionError UnionArm := do
  group.labels.forM (checkLabel isReserved group.body.line)
  let body <- group.body.completeMember isReserved registry
  .ok ⟨group.labels, body⟩

/-- Completes the body of a default, if there is one. -/
def completeDefault (isReserved : String -> Bool) (registry : Registry) :
    Option Declaration -> Except DefinitionError (Option Field)
  | none => .ok none
  | some declaration => some <$> declaration.completeMember isReserved registry

/-- Lays out a union. -/
def UnionLayout.build (isReserved : String -> Bool) (registry : Registry)
    (discriminant : Declaration) (switch : Switch) : Except DefinitionError UnionLayout := do
  let discriminant <- discriminant.completeMember isReserved registry
  let (groups, fallback) <- switch.collapse
  let arms <- groups.mapM (·.complete isReserved registry)
  let fallback <- completeDefault isReserved registry fallback
  .ok ⟨discriminant, arms, fallback⟩

namespace Verdict

variable (isReserved : String -> Bool) (registry : Registry)

/-- The verdict on a constant. -/
def onConstant (name : String) (value : Value) (line : Int) : Verdict :=
  .plain do
    checkName isReserved name .constant line
    .ok (some (.constant name value))

/-- The verdict on an enumeration, which is known as a type that is coded like
every enumeration. -/
def onEnum (name : String) (members : List EnumMember) (line : Int) : Verdict :=
  let checked := do
    checkTypeName isReserved registry name line
    members.forM fun member => checkName isReserved member.name .enumMember member.line
    Declaration.complete registry ⟨name, .named "enum", line⟩
  match checked with
  | .error error => .plain (.error error)
  | .ok field => ⟨some (name, field.declaration.type), none, .ok (some (.enum name members))⟩

/-- The verdict on a type definition. -/
def onTypedef (declaration : Declaration) : Verdict :=
  if declaration.isVoid then
    .plain (.error (.misplacedVoid .typedef declaration.line))
  else
    match checkTypeName isReserved registry declaration.name declaration.line with
    | .error error => .plain (.error error)
    | .ok () =>
        let note := some (.typedefPackers declaration.name)
        match declaration.complete registry with
        | .error error => ⟨none, note, .error error⟩
        | .ok target =>
            ⟨some (declaration.name, target.declaration.type), note,
              .ok (some (.typedef declaration.name target))⟩

/-- The verdict on a structure. -/
def onStruct (name : String) (fields : List Declaration) (line : Int) : Verdict :=
  match checkTypeName isReserved registry name line with
  | .error error => .plain (.error error)
  | .ok () =>
      let known := registry.insert name (.record name)
      ⟨some (name, .record name), some (.structClass name), do
        let fields <- fields.mapM (·.completeMember isReserved known)
        .ok (some (.struct name fields))⟩

/-- The verdict on a union. -/
def onUnion (name : String) (discriminant : Declaration) (switch : Switch) (line : Int) :
    Verdict :=
  match checkTypeName isReserved registry name line with
  | .error error => .plain (.error error)
  | .ok () =>
      let note := some (.unionClass name)
      if discriminant.isVoid then
        ⟨none, note, .error (.misplacedVoid .discriminant discriminant.line)⟩
      else
        let known := registry.insert name (.record name)
        ⟨some (name, .record name), note, do
          let layout <- UnionLayout.build isReserved known discriminant switch
          .ok (some (.union name layout))⟩

/-- The verdict on a program, for which nothing is generated. -/
def onProgram (program : Program) : Verdict :=
  ⟨none, some (.programSkipped program.name), .ok none⟩

/-- The verdict on a definition. -/
def judge : Definition -> Verdict
  | .constant name value line => onConstant isReserved name value line
  | .enum name members line => onEnum isReserved registry name members line
  | .typedef declaration => onTypedef isReserved registry declaration
  | .struct name fields line => onStruct isReserved registry name fields line
  | .union name discriminant switch line =>
      onUnion isReserved registry name discriminant switch line
  | .program program => onProgram program

end Verdict

end XdrPack
