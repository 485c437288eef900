import XdrPack.Proofs.Choice
import XdrPack.Proofs.Fallthrough
import XdrPack.Proofs.Wire

/-!
# Records with finite values

A record is known before its fields are looked at, so it may refer to itself. Where it does so
through an array whose length varies, the array may be empty and a value comes to an end. Where
it holds itself, alone or in a fixed array, every value would have to hold another one, and
there is none. A union has a value all the same if it is not itself that is reached for every
discriminant. No other record can be without values, since all else that a record refers to
is known before it.
-/

namespace XdrPack

/-! ## Finite values -/

/-- Whether an array of the shape may be empty. -/
def Shape.mayBeEmpty : Shape -> Bool
  | .varying _ => true
  | .scalar | .fixed _ => false

/-- A type, declared with a shape, has a finite value. Constants have no values here, so `possible`
says which labels a value of a discriminant can be equal to. -/
inductive HasFiniteValue (possible : Declaration -> (Value -> Bool) -> Prop)
    (definitions : List Definition) : String -> Shape -> Prop where
  | primitive {name routine} (builtin : (name, routine) ∈ Registry.primitives) :
      HasFiniteValue possible definitions name .scalar
  | enum {name members line} (defined : .enum name members line ∈ definitions) :
      HasFiniteValue possible definitions name .scalar
  | typedef {name declaration} (defined : .typedef declaration ∈ definitions)
      (named : declaration.name = name)
      (finite : HasFiniteValue possible definitions declaration.type.base declaration.type.shape) :
      HasFiniteValue possible definitions name .scalar
  /-- Every field must have a finite value. -/
  | struct {name fields line} (defined : .struct name fields line ∈ definitions)
      (finite : forall field, field ∈ fields -> field.isVoid = false ->
        HasFiniteValue possible definitions field.type.base field.type.shape) :
      HasFiniteValue possible definitions name .scalar
  /-- The discriminant must have a finite value, and so must one body that can be reached. -/
  | union {name discriminant switch line equals body}
      (defined : .union name discriminant switch line ∈ definitions)
      (selector :
        HasFiniteValue possible definitions discriminant.type.base discriminant.type.shape)
      (reachable : possible discriminant equals) (reached : switch.fallthrough equals = some body)
      (finite : body.isVoid = false ->
        HasFiniteValue possible definitions body.type.base body.type.shape) :
      HasFiniteValue possible definitions name .scalar
  | fixedArray {base length} (finite : HasFiniteValue possible definitions base .scalar) :
      HasFiniteValue possible definitions base (.fixed length)
  | array {base bound} : HasFiniteValue possible definitions base (.varying bound)

/-- A value of the declaration holds a value of the named type. -/
structure Declaration.Embeds (name : String) (declaration : Declaration) : Prop where
  declares : declaration.isVoid = false
  named : declaration.type.base = name
  nonempty : declaration.type.shape.mayBeEmpty = false

/-- Every value of the record would have to hold another one. -/
def Definition.Endless (possible : Declaration -> (Value -> Bool) -> Prop) : Definition -> Prop
  | .struct name fields _ => ∃ field, field ∈ fields ∧ field.Embeds name
  | .union name discriminant switch _ =>
      discriminant.Embeds name ∨ forall equals body, possible discriminant equals ->
        switch.fallthrough equals = some body -> body.Embeds name
  | .constant _ _ _ | .enum _ _ _ | .typedef _ | .program _ => False

/-- The name of the record that a definition introduces. -/
def Definition.recordName : Definition -> Option String
  | .struct name _ _ => some name
  | .union name _ _ _ => some name
  | .constant _ _ _ | .enum _ _ _ | .typedef _ | .program _ => none

variable {possible : Declaration -> (Value -> Bool) -> Prop} {definitions : List Definition}
  {registry : Registry}

/-- What a bare name has a finite value for has one in every shape. -/
theorem HasFiniteValue.shaped {base : String}
    (finite : HasFiniteValue possible definitions base .scalar) (shape : Shape) :
    HasFiniteValue possible definitions base shape := by
  cases shape with
  | scalar => exact finite
  | fixed length => exact .fixedArray finite
  | varying bound => exact .array

/-- An array that may be empty has a finite value. -/
theorem HasFiniteValue.of_mayBeEmpty {base : String} {shape : Shape}
    (mayBeEmpty : shape.mayBeEmpty = true) : HasFiniteValue possible definitions base shape := by
  cases shape with
  | scalar | fixed => cases mayBeEmpty
  | varying bound => exact .array

/-! ## Records that hold themselves -/

/-- A type that is introduced by an endless record has a finite value only as part of an array
that may be empty. -/
theorem Definition.Endless.mayBeEmpty
    (distinct : (Registry.primitives.map (·.1)
      ++ definitions.filterMap Definition.typeName).Nodup)
    {base : String} {shape : Shape} (finite : HasFiniteValue possible definitions base shape)
    {definition : Definition} (defined : definition ∈ definitions)
    (named : definition.typeName = some base) (endless : definition.Endless possible) :
    shape.mayBeEmpty = true := by
  obtain ⟨-, once, -⟩ := List.nodup_append.mp distinct
  -- A derivation for the record needs one for a declaration that holds it, which is in no array
  -- that may be empty.
  induction finite with
  | primitive builtin => exact (Expands.not_builtin distinct defined named builtin).elim
  | enum isEnum =>
      obtain rfl := eq_of_same_name once defined isEnum named rfl
      exact endless.elim
  | typedef isTypedef isName =>
      obtain rfl := eq_of_same_name once defined isTypedef named (congrArg some isName)
      exact endless.elim
  | struct isStruct finite inductionHypothesis =>
      obtain rfl := eq_of_same_name once defined isStruct named rfl
      obtain ⟨field, listed, embeds⟩ := endless
      have inside := inductionHypothesis field listed embeds.declares (by rw [embeds.named]; rfl)
      exact absurd inside (by simp [embeds.nonempty])
  | union isUnion selector reachable reached finite selectorHypothesis bodyHypothesis =>
      obtain rfl := eq_of_same_name once defined isUnion named rfl
      rcases endless with embeds | embedding
      · have inside := selectorHypothesis (by rw [embeds.named]; rfl)
        exact absurd inside (by simp [embeds.nonempty])
      · have embeds := embedding _ _ reachable reached
        have inside := bodyHypothesis embeds.declares (by rw [embeds.named]; rfl)
        exact absurd inside (by simp [embeds.nonempty])
  | fixedArray finite inductionHypothesis => cases inductionHypothesis named
  | array => rfl

/-! ## The other records -/

/-- All types that are known have finite values. -/
def Registry.AllFinite (possible : Declaration -> (Value -> Bool) -> Prop)
    (definitions : List Definition) (registry : Registry) : Prop :=
  forall name entry, registry.lookup name = some entry ->
    HasFiniteValue possible definitions name .scalar

/-- All built-in types have finite values. -/
theorem Registry.allFinite_builtin : builtin.AllFinite possible definitions := by
  intro name entry found
  rcases builtin_cases name with ⟨routine, listed, -⟩ | ⟨-, unknown⟩
  · exact .primitive listed
  · cases unknown.symm.trans found

namespace Registry.AllFinite

variable (finite : registry.AllFinite possible definitions)

include finite

/-- What refers to a known type has finite values. -/
theorem of_completes {declaration : Declaration} {field : Field}
    (declares : declaration.isVoid = false) (completes : declaration.Completes registry field) :
    HasFiniteValue possible definitions declaration.type.base declaration.type.shape := by
  obtain ⟨entry, known, -⟩ := complete?_eq_some declares completes.known
  exact (finite _ entry known).shaped declaration.type.shape

/-- What is declared inside a record has finite values unless it holds the record. -/
theorem of_member {declaration : Declaration} {name : String} {field : Field}
    (declares : declaration.isVoid = false)
    (completes : declaration.Completes (registry.insert name (.record name)) field)
    (apart : ¬ declaration.Embeds name) :
    HasFiniteValue possible definitions declaration.type.base declaration.type.shape := by
  obtain ⟨entry, known, -⟩ := complete?_eq_some declares completes.known
  rw [lookup_insert] at known
  split at known
  · next own =>
      refine .of_mayBeEmpty ?_
      by_contra nonempty
      exact apart ⟨declares, own, by simpa using nonempty⟩
  · exact (finite _ entry known).shaped declaration.type.shape

/-- What an accepted definition introduces has a finite value unless it is endless. -/
theorem of_accepted {isReserved : String -> Bool} {definition : Definition}
    {binding : Option (String × TypeRef)} {emission : Option Emission}
    (accepted : Verdict.Accepted isReserved registry definition binding emission)
    (written : definition.Written) (defined : definition ∈ definitions)
    (ends : ¬ definition.Endless possible) {name : String}
    (named : definition.typeName = some name) :
    HasFiniteValue possible definitions name .scalar := by
  cases accepted with
  | constant | program => cases named
  | enum =>
      cases named
      exact .enum defined
  | typedef declares new completed =>
      cases named
      exact .typedef defined rfl (finite.of_completes declares completed)
  | struct new completed =>
      cases named
      refine .struct defined fun field listed declares => ?_
      obtain ⟨member, -, completes⟩ := exists_of_forall₂ completed.flip listed
      exact finite.of_member declares completes.toCompletes fun embeds =>
        ends ⟨field, listed, embeds⟩
  | @union name discriminant switch line layout new declares completed =>
      cases named
      obtain ⟨selects, ends⟩ := not_or.mp ends
      push Not at ends
      obtain ⟨equals, body, reachable, reached, apart⟩ := ends
      refine .union defined (finite.of_member declares completed.selector.toCompletes selects)
        reachable reached fun declaresBody => ?_
      have chosen := taken_choice completed (fun _ => []) equals
      rw [Switch.choose_groups written.2.labelled, reached] at chosen
      obtain ⟨field, completes, -⟩ := chosen
      exact finite.of_member declaresBody completes.toCompletes apart

/-- The step: an accepted definition that is not endless keeps all types finite. -/
theorem extend {isReserved : String -> Bool} {definition : Definition}
    {binding : Option (String × TypeRef)} {emission : Option Emission}
    (accepted : Verdict.Accepted isReserved registry definition binding emission)
    (written : definition.Written) (defined : definition ∈ definitions)
    (ends : ¬ definition.Endless possible) :
    (registry.extend binding).AllFinite possible definitions := by
  intro name entry found
  by_cases named : definition.typeName = some name
  · exact finite.of_accepted accepted written defined ends named
  · rw [accepted.lookup_other named] at found
    exact finite name entry found

end Registry.AllFinite

/-- The run: as long as no definition is endless, all that is introduced has finite values. -/
theorem Run.finiteValues {isReserved : String -> Bool} {final : Registry}
    {run earlier later : List Definition} {emissions : List Emission}
    (runs : Run isReserved registry run final emissions)
    (finite : registry.AllFinite possible definitions)
    (written : forall definition, definition ∈ run -> definition.Written)
    (defined : run ⊆ definitions) (split : run = earlier ++ later)
    (ends : forall definition, definition ∈ earlier -> ¬ definition.Endless possible)
    {definition : Definition} (listed : definition ∈ earlier) {name : String}
    (named : definition.typeName = some name) :
    HasFiniteValue possible definitions name .scalar := by
  induction runs generalizing earlier with
  | done =>
      obtain ⟨rfl, -⟩ := List.nil_eq_append_iff.mp split
      cases listed
  | step accepted rest inductionHypothesis =>
      obtain ⟨firstWritten, restWritten⟩ := List.forall_mem_cons.mp written
      obtain ⟨firstDefined, restDefined⟩ := List.cons_subset.mp defined
      cases earlier with
      | nil => cases listed
      | cons first others =>
          obtain ⟨rfl, splitRest⟩ := List.cons.inj split
          obtain ⟨firstEnds, othersEnd⟩ := List.forall_mem_cons.mp ends
          rcases List.mem_cons.mp listed with rfl | isOther
          · exact finite.of_accepted accepted firstWritten firstDefined firstEnds named
          · exact inductionHypothesis (finite.extend accepted firstWritten firstDefined firstEnds)
              restWritten restDefined splitRest othersEnd isOther

/-! ## Sources that compile -/

/-- A record is a type of the same name. -/
theorem Definition.typeName_of_recordName {definition : Definition} {name : String}
    (named : definition.recordName = some name) : definition.typeName = some name := by
  cases definition with
  | struct | union => exact named
  | constant | enum | typedef | program => cases named

/-- Only records are endless. -/
theorem Definition.Endless.recordName {definition : Definition}
    (endless : definition.Endless possible) : ∃ name, definition.recordName = some name := by
  cases definition with
  | struct name | union name => exact ⟨name, rfl⟩
  | constant | enum | typedef | program => cases endless

namespace Compiler

/-- In a source that compiles, an endless record has no finite value. -/
theorem not_hasFiniteValue {backend : Backend} {source : String}
    (accepted : (start.compile backend source).1.isOk = true)
    (parsed : (Lexing.ofText source).stream.parse = .ok definitions)
    {definition : Definition} (listed : definition ∈ definitions)
    (endless : definition.Endless possible) {name : String}
    (named : definition.typeName = some name) :
    ¬ HasFiniteValue possible definitions name .scalar := by
  intro finite
  obtain ⟨compilation, final, success⟩ := exists_of_isOk accepted
  obtain ⟨others, emissions, parsedToo, run, -, -⟩ :=
    compile_eq_ok backend.isReserved.includes_none success
  obtain rfl := Except.ok.inj (parsed.symm.trans parsedToo)
  cases endless.mayBeEmpty run.nodup_all_names finite listed named

/-- In a source that compiles, up to any place in it, all records have finite values if and
only if none of them is endless. -/
theorem finiteValues_iff_not_endless {backend : Backend} {source : String}
    {definitions : List Definition} (accepted : (start.compile backend source).1.isOk = true)
    (parsed : (Lexing.ofText source).stream.parse = .ok definitions)
    (possible : Declaration -> (Value -> Bool) -> Prop) {earlier later : List Definition}
    (split : definitions = earlier ++ later) :
    (forall definition, definition ∈ earlier -> forall name, definition.recordName = some name ->
      HasFiniteValue possible definitions name .scalar) ↔
    forall definition, definition ∈ earlier -> ¬ definition.Endless possible := by
  constructor
  · intro finite definition listed endless
    obtain ⟨name, named⟩ := endless.recordName
    have defined : definition ∈ definitions := split ▸ List.mem_append_left _ listed
    exact not_hasFiniteValue accepted parsed defined endless
      (Definition.typeName_of_recordName named) (finite definition listed name named)
  · intro ends definition listed name named
    obtain ⟨compilation, final, success⟩ := exists_of_isOk accepted
    obtain ⟨others, emissions, parsedToo, run, -, -⟩ :=
    compile_eq_ok backend.isReserved.includes_none success
    obtain rfl := Except.ok.inj (parsed.symm.trans parsedToo)
    exact run.finiteValues Registry.allFinite_builtin (TokenStream.written_of_parse parsed)
      (List.Subset.refl _) split ends listed (Definition.typeName_of_recordName named)

/-- A list that points at its rest and a tree that can hold another one have finite values,
where a discriminant is equal to the label that shows its number. -/
theorem finiteValues_iff_not_endless_tree :
    let source := "struct entry \x7b int id; entry *next; \x7d; " ++
      "union tree switch (int kind) \x7b case 0: tree inner; default: entry leaf; \x7d;"
    let inner : Declaration := ⟨"inner", .named "tree", 1⟩
    let leaf : Declaration := ⟨"leaf", .named "entry", 1⟩
    let entry := Definition.struct "entry" [⟨"id", .named "int", 1⟩,
      ⟨"next", .shaped "entry" (.varying (some (.number "1"))), 1⟩] 1
    let tree := Definition.union "tree" ⟨"kind", .named "int", 1⟩
      ⟨⟨.value (.number "0"), some inner, 1⟩, [], some ⟨.default, some leaf, 1⟩⟩ 1
    let possible : Declaration -> (Value -> Bool) -> Prop :=
      fun _ equals => ∃ number, equals = fun label => label == .number number
    (start.compile (Backend.silent []) source).1.isOk = true ∧
      (Lexing.ofText source).stream.parse = .ok [entry, tree] ∧
      HasFiniteValue possible [entry, tree] "entry" .scalar ∧
      HasFiniteValue possible [entry, tree] "tree" .scalar := by
  intro source inner leaf entry tree possible
  have accepted : (start.compile (Backend.silent []) source).1.isOk = true := by decide +kernel
  have parsed : (Lexing.ofText source).stream.parse = .ok [entry, tree] := by decide +kernel
  have entryEnds : ¬ entry.Endless possible := by
    rintro ⟨field, listed, embeds⟩
    rcases List.mem_pair.mp listed with rfl | rfl
    · exact absurd embeds.named (by decide)
    · cases embeds.nonempty
  have treeEnds : ¬ tree.Endless possible := by
    rintro (embeds | embedding)
    · exact absurd embeds.named (by decide)
    · have embeds := embedding _ leaf ⟨"1", rfl⟩ (by decide +kernel)
      exact absurd embeds.named (by decide)
  have finite := (finiteValues_iff_not_endless accepted parsed possible
    (List.append_nil _).symm).mpr (by simp [entryEnds, treeEnds])
  exact ⟨accepted, parsed, finite entry (by simp) "entry" rfl, finite tree (by simp) "tree" rfl⟩

/-- A structure that holds itself compiles, and it has no finite value. -/
theorem compile_endless_struct :
    let source := "struct S \x7b S s; \x7d;"
    let endless := Definition.struct "S" [⟨"s", .named "S", 1⟩] 1
    (start.compile (Backend.silent []) source).1.isOk = true ∧
      (Lexing.ofText source).stream.parse = .ok [endless] ∧
      forall possible, ¬ HasFiniteValue possible [endless] "S" .scalar := by
  intro source endless
  have accepted : (start.compile (Backend.silent []) source).1.isOk = true := by decide +kernel
  have parsed : (Lexing.ofText source).stream.parse = .ok [endless] := by decide +kernel
  refine ⟨accepted, parsed, fun possible => ?_⟩
  have holdsItself : endless.Endless possible := ⟨_, List.mem_singleton_self _, ⟨rfl, rfl, rfl⟩⟩
  exact not_hasFiniteValue accepted parsed (List.mem_singleton_self _) holdsItself rfl

end Compiler

end XdrPack
