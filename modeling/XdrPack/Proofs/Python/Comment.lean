import XdrPack.Proofs.Python.References
import XdrPack.Proofs.Python.Unbroken

/-!
# The comments of record classes

Every class of a structure or a union shows its definition in a comment. The comment is
read back from the text of the generated module: behind the last statement that
defines the class, with the indentation and the signs of the comment taken away. What is
left can be lexed and parsed, and gives the definition that the class was generated for.
-/

namespace XdrPack

open Grammar

/-! ## Accepted definitions -/

namespace Python

section

variable {isReserved : String -> Bool} {registry : Registry} {property : Field -> Prop}
  (holds : forall {declaration field}, Declaration.CompletesMember isReserved registry declaration
    field -> Lexed DeclarationPhrase declaration.unlined -> declaration.Written -> property field)

include holds

/-- What holds of each declaration that was read holds of all fields of a record. -/
theorem forall_members {declarations : List Declaration} {fields : List Field}
    (completed : List.Forall₂ (Declaration.CompletesMember isReserved registry) declarations fields)
    (lexed : forall declaration, declaration ∈ declarations ->
      Lexed DeclarationPhrase declaration.unlined)
    (written : forall declaration, declaration ∈ declarations -> declaration.Written) :
    forall field, field ∈ fields -> property field := by
  intro field listed
  obtain ⟨declaration, declared, completes⟩ := exists_of_forall₂ completed listed
  exact holds completes (lexed declaration declared) (written declaration declared)

/-- What holds of each declaration that was read holds of all fields of a union. -/
theorem forall_layout {discriminant : Declaration} {switch : Switch} {layout : UnionLayout}
    (completed : layout.Completes isReserved registry discriminant switch)
    (selects : Lexed DeclarationPhrase discriminant.unlined) (lexed : switch.Lexed)
    (written : discriminant.Written ∧ switch.Written) :
    forall field, field ∈ layout.discriminant :: layout.bodies -> property field := by
  refine List.forall_mem_cons.mpr ⟨holds completed.selector selects written.1, ?_⟩
  refine List.forall_mem_append.mpr ⟨?_, ?_⟩
  · refine forall_members holds (completed.bodies written.2) ?_ fun _ => written.2.written_of_mem
    rw [<- written.2.bodies_groups]
    exact List.forall_mem_map.mpr fun group => lexed.body_groups
  · refine forall_members holds completed.fallback ?_ fun _ => written.2.written_defaultBody
    exact fun declaration present => lexed.defaultBody (Option.mem_toList.mp present)

end

/-- The labels of a union that was read. -/
theorem lexed_labels {isReserved : String -> Bool} {registry : Registry}
    {discriminant : Declaration} {switch : Switch} {layout : UnionLayout}
    (completed : layout.Completes isReserved registry discriminant switch) (lexed : switch.Lexed)
    {arm : UnionArm} (listed : arm ∈ layout.arms) :
    arm.labels ≠ [] ∧ forall label, label ∈ arm.labels -> Lexed ValuePhrase label := by
  obtain ⟨group, isGroup, completes⟩ := exists_of_forall₂ completed.arms listed
  rw [completes.labels]
  exact ⟨Switch.labels_ne_nil_of_mem isGroup, lexed.labels_groups isGroup⟩

/-- A field that was read has no line ends. -/
theorem unbroken_field {isReserved : String -> Bool} {registry : Registry}
    {declaration : Declaration} {field : Field}
    (completes : declaration.CompletesMember isReserved registry field)
    (lexed : Lexed DeclarationPhrase declaration.unlined) (written : declaration.Written) :
    UnbrokenField field :=
  (Declaration.unbroken_of_lexed lexed).field completes.toCompletes written

/-- The layout of a union that was read has no line ends. -/
theorem unbroken_layout {isReserved : String -> Bool} {registry : Registry}
    {discriminant : Declaration} {switch : Switch} {layout : UnionLayout}
    (completed : layout.Completes isReserved registry discriminant switch)
    (selects : Lexed DeclarationPhrase discriminant.unlined) (lexed : switch.Lexed)
    (written : discriminant.Written ∧ switch.Written) : UnbrokenLayout layout := by
  obtain ⟨selector, bodies⟩ :=
    List.forall_mem_cons.mp (forall_layout unbroken_field completed selects lexed written)
  refine ⟨selector, fun arm listed label member => ?_, bodies⟩
  exact holds_value unbroken_words ((lexed_labels completed lexed listed).2 label member)

/-- The code of the classes that are generated for an accepted definition is made of
lines. -/
theorem lined_of_accepted {isReserved : String -> Bool} {registry : Registry}
    {definition : Definition} {binding : Option (String × TypeRef)} {emission : Option Emission}
    (accepted : Verdict.Accepted isReserved registry definition binding emission)
    (lexed : Lexed DefinitionPhrase definition.unlined) (written : definition.Written) :
    forall each, each ∈ (emission.toList.flatMap classes) -> each.code.Lined Unbroken := by
  cases accepted with
  | constant | enum | program => simp [classes]
  | @typedef declaration target declares new completed =>
      have unbroken := Declaration.unbroken_of_lexed (Lexed.typedef lexed)
      have field := unbroken.field completed written
      cases coding : target.coding with
      | record other =>
          have named : Unbroken other := field.coding other (by simp [coding, mentioned])
          simp +decide [classes, coding, ClassBinding.code, Code.Lined, unbroken.name, named]
      | _ => simp [classes, coding]
  | struct new completed =>
      obtain ⟨isName, fields⟩ := Lexed.struct lexed
      refine List.forall_mem_singleton.mpr (Struct.lined_code (unbroken_identifier isName) ?_)
      exact forall_members unbroken_field completed fields written
  | union new declares completed =>
      obtain ⟨isName, selects, switch⟩ := Lexed.union lexed
      refine List.forall_mem_singleton.mpr (Union.lined_code (unbroken_identifier isName) ?_)
      exact unbroken_layout completed selects switch written

end Python

namespace Run

variable {isReserved : String -> Bool} {registry final : Registry} {definitions : List Definition}
  {emissions : List Emission}

/-- Every emission of a run is that of an accepted definition. -/
theorem exists_definition (run : Run isReserved registry definitions final emissions)
    {emission : Emission} (listed : emission ∈ emissions) :
    ∃ definition known binding, definition ∈ definitions ∧
      Verdict.Accepted isReserved known definition binding (some emission) := by
  induction run with
  | done => cases listed
  | @step registry definition binding own definitions final emissions accepted rest
      inductionHypothesis =>
      rcases List.mem_append.mp listed with isOwn | later
      · obtain rfl : own = some emission := Option.mem_toList.mp isOwn
        exact ⟨definition, registry, binding, List.mem_cons_self, accepted⟩
      · obtain ⟨other, known, bound, isDefinition, acceptedOther⟩ := inductionHypothesis later
        exact ⟨other, known, bound, List.mem_cons_of_mem _ isDefinition, acceptedOther⟩

/-- Every definition of a run is accepted with what is known at its place, which stays known,
and what is emitted for it is among the emissions. -/
theorem exists_place (run : Run isReserved registry definitions final emissions)
    {definition : Definition} (listed : definition ∈ definitions) :
    ∃ known binding emission, Verdict.Accepted isReserved known definition binding emission ∧
      (forall each, emission = some each -> each ∈ emissions) ∧
      forall name entry, known.lookup name = some entry -> final.lookup name = some entry := by
  induction run with
  | done => cases listed
  | @step registry first binding own definitions final emissions accepted rest
      inductionHypothesis =>
      rcases List.mem_cons.mp listed with rfl | later
      · refine ⟨registry, binding, own, accepted, ?_, ?_⟩
        · rintro each rfl
          exact List.mem_append_left _ (by simp)
        · exact fun name entry found => rest.lookup_final (accepted.lookup_extend found)
      · obtain ⟨known, bound, emission, acceptedOther, emitted, kept⟩ := inductionHypothesis later
        exact ⟨known, bound, emission, acceptedOther,
          fun each isOwn => List.mem_append_right _ (emitted each isOwn), kept⟩

/-- Every definition of a run is accepted, and what is emitted for it is among the
emissions. -/
theorem exists_accepted (run : Run isReserved registry definitions final emissions)
    {definition : Definition} (listed : definition ∈ definitions) :
    ∃ known binding emission,
      Verdict.Accepted isReserved known definition binding emission ∧
        forall each, emission = some each -> each ∈ emissions := by
  obtain ⟨known, binding, emission, accepted, emitted, -⟩ := run.exists_place listed
  exact ⟨known, binding, emission, accepted, emitted⟩

end Run

/-! ## Reading a comment -/

namespace Python

/-- What is behind the last occurrence of a line. -/
def behindLast? (last : String) (lines : List String) : Option (List String) :=
  if last ∈ lines then some (lines.rtakeWhile (· != last)) else none

/-- What is behind the first occurrence of a line. -/
def behindFirst? (first : String) : List String -> Option (List String)
  | [] => none
  | line :: rest => if line = first then some rest else behindFirst? first rest

/-- What comes up to the first occurrence of a line, which is included. -/
def upTo? (last : String) : List String -> Option (List String)
  | [] => none
  | line :: rest => if line = last then some [line] else (upTo? last rest).map (line :: ·)

/-- A line without its indentation. -/
def outdented (line : String) : String := String.ofList (line.toList.dropWhile (· == ' '))

/-- What a line of a comment says, if it is one. -/
def remark? (line : String) : Option String :=
  (textAfter? "# ".toList line.toList).map String.ofList

/-- The definition that the class of a name shows: what its comment says behind its
heading and up to the end of the definition. -/
def shownDefinition? (name types : String) : Option String := do
  let body <- behindLast? ("class " ++ name ++ ":") (Text.lines types)
  let comment <- behindFirst? "# XDR definition:" (body.map outdented)
  let shown <- upTo? "# \x7d;" comment
  let texts <- shown.mapM remark?
  some ("\n".intercalate texts)

/-- What is behind the last occurrence of a line is found if the line does not come again. -/
theorem behindLast?_eq {last : String} {after : List String} (absent : last ∉ after)
    (before : List String) : behindLast? last (before ++ last :: after) = some after := by
  have kept : after.rtakeWhile (· != last) = after := by
    refine List.rtakeWhile_eq_self_iff.mpr fun line listed => ?_
    have differs : line ≠ last := fun same => absent (same ▸ listed)
    simpa using differs
  rw [behindLast?, if_pos (by simp), Switch.rtakeWhile_append_cons (by simp), kept]

/-- A text is taken up to the first occurrence of a line. -/
theorem upTo?_eq {last : String} {before : List String} (absent : last ∉ before)
    (after : List String) : upTo? last (before ++ last :: after) = some (before ++ [last]) := by
  induction before with
  | nil => simp [upTo?]
  | cons line rest inductionHypothesis =>
      have differs : line ≠ last := by
        rintro rfl
        exact absent List.mem_cons_self
      rw [List.cons_append, upTo?, if_neg differs,
        inductionHypothesis fun listed => absent (List.mem_cons_of_mem _ listed)]
      rfl

/-- A line of a comment at depth one without its indentation. -/
theorem outdented_indented (text : String) :
    outdented (indented 1 ("# " ++ text)) = "# " ++ text := by
  have notEmpty : ("# " ++ text).isEmpty = false := by
    rw [Bool.eq_false_iff, ne_eq, String.isEmpty_iff, <- String.toList_inj]
    simp
  have chars : (indented 1 ("# " ++ text)).toList =
      List.replicate 4 ' ' ++ '#' :: ' ' :: text.toList := by
    simp [indented, notEmpty, toList_indent]
  have dropped : (List.replicate 4 ' ' ++ '#' :: ' ' :: text.toList).dropWhile (· == ' ') =
      '#' :: ' ' :: text.toList := rfl
  rw [outdented, chars, dropped, <- String.toList_inj]
  simp

/-- A line of a comment says what is behind the sign. -/
theorem remark?_eq (text : String) : remark? ("# " ++ text) = some text := by
  rw [remark?, String.toList_append, textAfter?_append]
  simp

/-- The lines of a comment say the texts that it was made of. -/
theorem mapM_remark? (texts : List String) :
    (texts.map fun text => "# " ++ text).mapM remark? = some texts :=
  mapM_of_inverse remark?_eq texts

/-- The lines of a comment at depth one without their indentation. -/
theorem outdented_comment (texts : List String) :
    ((commentCode texts).linesAt 1).map outdented = texts.map fun text => "# " ++ text := by
  simp [commentCode, Function.comp_def, outdented_indented]

/-- The comment of a class is found where the class is defined last. -/
theorem shownDefinition?_eq {name types : String} {shown after : List String}
    (found : behindLast? ("class " ++ name ++ ":") (Text.lines types) =
      some ((commentCode ("XDR definition:" :: (shown ++ ["\x7d;"]))).linesAt 1 ++ after))
    (inner : "\x7d;" ∉ shown) :
    shownDefinition? name types = some ("\n".intercalate (shown ++ ["\x7d;"])) := by
  have outdents : ((commentCode ("XDR definition:" :: (shown ++ ["\x7d;"]))).linesAt 1
      ++ after).map outdented = "# XDR definition:" ::
        ((shown.map fun text => "# " ++ text) ++ "# \x7d;" :: after.map outdented) := by
    rw [List.map_append, outdented_comment]
    simp only [List.map_cons, List.map_append, List.map_nil, List.cons_append, List.append_assoc,
      List.nil_append]
    rfl
  have innerRemarks : "# \x7d;" ∉ shown.map fun text => "# " ++ text := by
    intro listed
    obtain ⟨text, isShown, same⟩ := List.mem_map.mp listed
    obtain rfl : text = "\x7d;" := by
      have said := (remark?_eq text).symm.trans (congrArg remark? same)
      exact Option.some.inj (said.trans (remark?_eq "\x7d;"))
    exact inner isShown
  have remarks : ((shown.map fun text => "# " ++ text) ++ ["# \x7d;"]).mapM remark? =
      some (shown ++ ["\x7d;"]) := by
    have all := mapM_remark? (shown ++ ["\x7d;"])
    rwa [List.map_append] at all
  simp only [shownDefinition?, found, outdents, behindFirst?, if_true,
    upTo?_eq innerRemarks, remarks, Option.bind_eq_bind, Option.bind_some]

/-! ## The lines of a module -/

/-- A line that is empty or indented. -/
def IsInner (line : String) : Prop := line = "" ∨ line.toList.head? = some ' '

/-- A line that is indented is inside a block. -/
theorem isInner_indented (depth : Nat) (text : String) : IsInner (indented (depth + 1) text) := by
  unfold indented
  split
  · exact .inl rfl
  · right
    rw [String.toList_append, toList_indent]
    rfl

/-- The lines of code that is written inside a block. -/
theorem isInner_of_mem {code : Code} {depth : Nat} {line : String}
    (listed : line ∈ code.linesAt (depth + 1)) : IsInner line := by
  induction code generalizing depth with
  | done => cases listed
  | line text rest inductionHypothesis =>
      rcases List.mem_cons.mp listed with rfl | later
      · exact isInner_indented depth text
      · exact inductionHypothesis later
  | blank rest inductionHypothesis =>
      rcases List.mem_cons.mp listed with rfl | later
      · exact .inl rfl
      · exact inductionHypothesis later
  | raw text rest inductionHypothesis => exact inductionHypothesis listed
  | block header body rest bodyHypothesis inductionHypothesis =>
      rcases List.mem_append.mp listed with inBlock | later
      · rcases List.mem_cons.mp inBlock with rfl | inBody
        · exact isInner_indented depth header
        · exact bodyHypothesis inBody
      · exact inductionHypothesis later
  | inset body rest _ inductionHypothesis =>
      rcases List.mem_append.mp listed with inBody | later
      · obtain ⟨text, -, rfl⟩ := List.mem_map.mp inBody
        exact isInner_indented depth text
      · exact inductionHypothesis later

/-- The lines of code at depth zero are its statements and lines inside them. -/
theorem mem_statements_or_isInner {code : Code} {line : String} (listed : line ∈ code.linesAt 0) :
    line ∈ code.statements ∨ IsInner line := by
  induction code with
  | done => cases listed
  | line text rest inductionHypothesis =>
      rw [Code.linesAt, indented_zero] at listed
      rcases List.mem_cons.mp listed with rfl | later
      · exact .inl List.mem_cons_self
      · exact (inductionHypothesis later).imp_left (List.mem_cons_of_mem _)
  | blank rest inductionHypothesis =>
      rcases List.mem_cons.mp listed with rfl | later
      · exact .inr (.inl rfl)
      · exact inductionHypothesis later
  | raw text rest inductionHypothesis => exact inductionHypothesis listed
  | block header body rest _ inductionHypothesis =>
      rw [Code.linesAt, indented_zero] at listed
      rcases List.mem_append.mp listed with inBlock | later
      · rcases List.mem_cons.mp inBlock with rfl | inBody
        · exact .inl List.mem_cons_self
        · exact .inr (isInner_of_mem inBody)
      · exact (inductionHypothesis later).imp_left (List.mem_cons_of_mem _)
  | inset body rest bodyHypothesis inductionHypothesis =>
      rcases List.mem_append.mp listed with inBody | later
      · obtain ⟨text, isLine, same⟩ := List.mem_map.mp inBody
        rw [indented_zero] at same
        subst same
        exact (bodyHypothesis isLine).imp_left (List.mem_append_left _)
      · exact (inductionHypothesis later).imp_left (List.mem_append_right _)

/-- The head of a class is not inside another. -/
theorem not_isInner_class (name : String) : ¬ IsInner ("class " ++ name ++ ":") := by
  rintro (empty | inner)
  · have chars := congrArg String.toList empty
    simp at chars
  · simp at inner

/-- Only the class of a name has the head with that name. -/
theorem name_eq_of_mem {binding : ClassBinding} {name : String} (isWord : IsWord name)
    (bindingIsWord : IsWord binding.name)
    (listed : "class " ++ name ++ ":" ∈ binding.code.linesAt 0) : binding.name = name := by
  rcases mem_statements_or_isInner listed with isStatement | inner
  · have bound : name ∈ binding.code.statements.filterMap boundClass? :=
      List.mem_filterMap.mpr ⟨_, isStatement, boundClass?_class isWord⟩
    rw [boundClass?_code bindingIsWord, List.mem_singleton] at bound
    exact bound.symm
  · exact absurd inner (not_isInner_class name)

/-- The lines of the module of record classes are those of its start and of the
classes. -/
theorem lines_types (naming : Naming) {emissions : List Emission}
    (lined : forall each, each ∈ emissions.flatMap classes -> each.code.Lined Unbroken) :
    Text.lines (artifacts naming emissions).types =
      Text.lines (Text.unlines (typesPreamble naming))
        ++ (emissions.flatMap classes).flatMap (·.code.linesAt 0) := by
  have started : typesPreamble naming ≠ [] := by simp [typesPreamble]
  have allLined : (Code.concat ((emissions.flatMap classes).map (·.code))).Lined OneLine := by
    refine Code.lined_concat.mpr (List.forall_mem_map.mpr fun each listed => ?_)
    exact (lined each listed).imp fun _ => Unbroken.oneLine
  have rendered := Code.lines_render_append started allLined
  rwa [Code.linesAt_concat, List.flatMap_map] at rendered

/-- The body of a class is behind the last line that defines the class, if all classes are
made of lines and have different names. -/
theorem behindLast?_artifacts (naming : Naming) {emissions : List Emission}
    (lined : forall each, each ∈ emissions.flatMap classes -> each.code.Lined Unbroken)
    (distinct : (boundClasses emissions).Nodup)
    (areWords : forall name, name ∈ boundClasses emissions -> IsWord name)
    {binding : ClassBinding} (listed : binding ∈ emissions.flatMap classes) {body : Code}
    (code : binding.code = .single ("class " ++ binding.name ++ ":") body) :
    ∃ after, behindLast? ("class " ++ binding.name ++ ":")
        (Text.lines (artifacts naming emissions).types) = some (body.linesAt 1 ++ after) := by
  have ownLines : binding.code.linesAt 0 =
      ("class " ++ binding.name ++ ":") :: body.linesAt 1 := by
    rw [code]
    simp [Code.single, Code.linesAt, indented_zero]
  have isWord : forall each, each ∈ emissions.flatMap classes -> IsWord each.name :=
    fun each member => areWords each.name (List.mem_map_of_mem member)
  obtain ⟨before, after, split⟩ := List.append_of_mem listed
  have lines : Text.lines (artifacts naming emissions).types =
      (Text.lines (Text.unlines (typesPreamble naming)) ++ before.flatMap (·.code.linesAt 0))
        ++ ("class " ++ binding.name ++ ":") ::
          (body.linesAt 1 ++ after.flatMap (·.code.linesAt 0)) := by
    rw [lines_types naming lined, split, List.flatMap_append, List.flatMap_cons, ownLines,
      List.append_assoc, List.cons_append]
  have different : forall each, each ∈ after -> each.name ≠ binding.name := by
    intro each member same
    rw [boundClasses, split, List.map_append, List.map_cons] at distinct
    have notAfter := (List.nodup_cons.mp (List.nodup_append.mp distinct).2.1).1
    exact notAfter (same ▸ List.mem_map_of_mem member)
  refine ⟨after.flatMap (·.code.linesAt 0), ?_⟩
  rw [lines]
  refine behindLast?_eq ?_ _
  simp only [List.mem_append, not_or]
  refine ⟨fun inBody => not_isInner_class _ (isInner_of_mem inBody), fun inAfter => ?_⟩
  obtain ⟨each, member, inCode⟩ := List.mem_flatMap.mp inAfter
  have later : each ∈ emissions.flatMap classes := by simp [split, member]
  exact different each member (name_eq_of_mem (isWord binding listed) (isWord each later) inCode)

end Python

/-! ## Shown definitions -/

open Python

/-- The definition is shown in the module of record classes: the comment of its class is
lexed without errors and parsed to one definition, which is that of a structure with the
same fields but for those without a value, or that of a union with the same discriminant,
the same groups and the same default. -/
def Definition.ShownIn (types : String) : Definition -> Prop
  | .struct name fields _ =>
      (∃ field, field ∈ fields ∧ field.isVoid = false) ->
      ∃ shown again line, shownDefinition? name types = some shown ∧
        (Lexing.ofText shown).errors = [] ∧
        (Lexing.ofText shown).stream.parse = .ok [.struct name again line] ∧
        again.map Declaration.unlined =
          (fields.filter fun field => !field.isVoid).map Declaration.unlined
  | .union name discriminant switch _ =>
      switch.groups ≠ [] ->
      ∃ shown selector again line, shownDefinition? name types = some shown ∧
        (Lexing.ofText shown).errors = [] ∧
        (Lexing.ofText shown).stream.parse = .ok [.union name selector again line] ∧
        selector.unlined = discriminant.unlined ∧ switch.SameGroups again
  | _ => True

/-- The lines of the fields of a structure are those of its declarations. -/
theorem texts_valued {isReserved : String -> Bool} {registry : Registry}
    {declarations : List Declaration} {fields : List Field}
    (completed : List.Forall₂ (Declaration.CompletesMember isReserved registry) declarations fields)
    (written : forall declaration, declaration ∈ declarations -> declaration.Written) :
    (Struct.valued fields).map (·.declaration.text) =
      (declarations.filter fun declaration => !declaration.isVoid).map (·.text) := by
  induction completed with
  | nil => rfl
  | @cons declaration field declarations fields completes _ inductionHypothesis =>
      obtain ⟨firstWritten, restWritten⟩ := List.forall_mem_cons.mp written
      have later := inductionHypothesis restWritten
      have text := completes.toCompletes.text_eq firstWritten
      simp only [Struct.valued, List.filter_cons, completes.toCompletes.isVoid_eq] at later ⊢
      split
      · rw [List.map_cons, List.map_cons, text, later]
      · exact later

namespace Python

variable {isReserved : String -> Bool} {registry : Registry} {name : String}

/-- The definition in the class of a structure shows the fields that hold a value. -/
theorem shows_structLines {fields : List Declaration} {members : List Field}
    (completed : List.Forall₂ (Declaration.CompletesMember isReserved registry) fields members)
    (isName : (Token.Kind.identifier name).isLexical = true)
    (lexed : forall field, field ∈ fields -> Lexed DeclarationPhrase field.unlined)
    (written : forall field, field ∈ fields -> field.Written)
    (valued : ∃ field, field ∈ fields ∧ field.isVoid = false) :
    Shows DefinitionPhrase (Struct.definitionLines name (Struct.valued members))
      (.struct name ((fields.filter fun field => !field.isVoid).map Declaration.unlined) 0) := by
  have lines : Struct.definitionLines name (Struct.valued members) =
      ["struct " ++ name ++ " \x7b"]
        ++ (fields.filter fun field => !field.isVoid).map (fun field => "    " ++ field.text ++ ";")
        ++ ["\x7d;"] := by
    have texts := congrArg (List.map fun text => "    " ++ text ++ ";")
      (texts_valued completed written)
    rw [List.map_map, List.map_map] at texts
    exact congrArg (["struct " ++ name ++ " \x7b"] ++ · ++ ["\x7d;"]) texts
  rw [lines]
  refine shows_struct isName (fun field listed => ?_) ?_
  · exact Declaration.readable_of_lexed (lexed field (List.mem_of_mem_filter listed))
  · obtain ⟨field, listed, holds⟩ := valued
    exact List.ne_nil_of_mem (List.mem_filter.mpr ⟨listed, by simp [holds]⟩)

/-- The lines of the arms of a union are those of its groups. -/
theorem lines_arms {groups : List CaseGroup} {arms : List UnionArm}
    (completed : List.Forall₂ (CaseGroup.Completes isReserved registry) groups arms)
    (written : forall group, group ∈ groups -> group.body.Written) :
    arms.flatMap Union.armLines = groups.flatMap fun group =>
      group.labels.map (fun label => "    case " ++ label.text ++ ":")
        ++ ["        " ++ group.body.text ++ ";"] := by
  induction completed with
  | nil => rfl
  | cons completes _ inductionHypothesis =>
      obtain ⟨firstWritten, restWritten⟩ := List.forall_mem_cons.mp written
      rw [List.flatMap_cons, List.flatMap_cons, inductionHypothesis restWritten, Union.armLines,
        completes.labels, completes.body.toCompletes.text_eq firstWritten]

/-- The lines of the default of a union are those of its default body. -/
theorem lines_default {body : Option Declaration} {fallback : Option Field}
    (completed : List.Forall₂ (Declaration.CompletesMember isReserved registry) body.toList
      fallback.toList)
    (written : forall declaration, declaration ∈ body.toList -> declaration.Written) :
    Union.defaultLines fallback = shownDefault body := by
  cases body with
  | none =>
      cases fallback with
      | none => rfl
      | some field => cases completed
  | some declaration =>
      cases fallback with
      | none => cases completed
      | some field =>
          obtain ⟨completes, -⟩ := List.forall₂_cons.mp completed
          rw [Union.defaultLines, completes.toCompletes.text_eq (written declaration (by simp))]
          rfl

/-- The definition in the class of a union shows its discriminant, its groups and its
default. -/
theorem shows_unionLines {discriminant : Declaration} {switch : Switch} {layout : UnionLayout}
    (completed : layout.Completes isReserved registry discriminant switch)
    (isName : (Token.Kind.identifier name).isLexical = true)
    (selects : Lexed DeclarationPhrase discriminant.unlined) (lexed : switch.Lexed)
    (written : discriminant.Written ∧ switch.Written) {first : Case} {more : List Case}
    (cases : first :: more = (switch.groups.flatMap CaseGroup.shared).map LabelledCase.toCase) :
    Shows DefinitionPhrase (Union.definitionLines name layout)
      (.union name discriminant.unlined ⟨first, more, shownFallback switch.defaultBody⟩ 0) := by
  have bodiesWritten : forall group, group ∈ switch.groups -> group.body.Written := by
    intro group listed
    refine written.2.written_of_mem ?_
    rw [<- written.2.bodies_groups]
    exact List.mem_map_of_mem listed
  rw [Union.definitionLines, completed.selector.toCompletes.text_eq written.1,
    lines_arms completed.arms bodiesWritten,
    lines_default completed.fallback fun _ => written.2.written_defaultBody]
  refine shows_union isName (Declaration.readable_of_lexed selects) ?_ ?_ ?_ cases
  · exact fun group listed => ⟨Switch.labels_ne_nil_of_mem listed, lexed.labels_groups listed⟩
  · exact fun group listed => Declaration.readable_of_lexed (lexed.body_groups listed)
  · exact fun declaration present => Declaration.readable_of_lexed (lexed.defaultBody present)

/-- No line of a definition but its last is its end. -/
theorem end_not_mem {lines : List String}
    (starts : forall line, line ∈ lines -> line.toList.head? ≠ some '\x7d') : "\x7d;" ∉ lines :=
  fun listed => starts _ listed rfl

/-- No line before the end of a structure looks like its end. -/
theorem end_not_mem_struct (fields : List Field) :
    "\x7d;" ∉ ["struct " ++ name ++ " \x7b"]
      ++ fields.map (fun field => "    " ++ field.declaration.text ++ ";") := by
  refine end_not_mem (List.forall_mem_append.mpr ⟨by simp, ?_⟩)
  exact List.forall_mem_map.mpr fun field _ => by simp

/-- No line before the end of a union looks like its end. -/
theorem end_not_mem_union (selector : String) (arms : List UnionArm) (fallback : Option Field) :
    "\x7d;" ∉ ["union " ++ name ++ " switch (" ++ selector ++ ") \x7b"]
      ++ arms.flatMap Union.armLines ++ Union.defaultLines fallback := by
  refine end_not_mem ?_
  simp only [List.forall_mem_append]
  refine ⟨⟨by simp, List.forall_mem_flatMap.mpr fun arm _ => ?_⟩, ?_⟩
  · rw [Union.armLines, List.forall_mem_append]
    exact ⟨List.forall_mem_map.mpr fun label _ => by simp, by simp⟩
  · cases fallback <;> simp [Union.defaultLines]

/-- The built-in types have no classes. -/
theorem classes_start_append (emissions : List Emission) :
    (Compiler.start.emissions ++ emissions).flatMap classes = emissions.flatMap classes := by
  rw [List.flatMap_append]
  rfl

/-- All classes of a run are made of lines. -/
theorem lined_classes_of_run {definitions : List Definition} {final : Registry}
    {emissions : List Emission} {source : String}
    (run : Run isReserved registry definitions final emissions)
    (parsed : (Lexing.ofText source).stream.parse = .ok definitions) :
    forall each, each ∈ emissions.flatMap classes -> each.code.Lined Unbroken := by
  intro each member
  obtain ⟨emission, isEmission, isClass⟩ := List.mem_flatMap.mp member
  obtain ⟨definition, known, bound, isDefinition, accepted⟩ := run.exists_definition isEmission
  exact lined_of_accepted accepted (Lexing.lexed_of_parse parsed _ isDefinition)
    (TokenStream.written_of_parse parsed _ isDefinition) each (by simpa using isClass)

/-- The body of every class of a run is found. -/
theorem behindLast?_of_run (naming : Naming) {definitions : List Definition}
    {final : Registry} {emissions : List Emission} {source : String}
    (run : Run isReserved registry definitions final emissions)
    (parsed : (Lexing.ofText source).stream.parse = .ok definitions)
    {binding : ClassBinding} (listed : binding ∈ emissions.flatMap classes) {body : Code}
    (code : binding.code = .single ("class " ++ binding.name ++ ":") body) :
    ∃ after, behindLast? ("class " ++ binding.name ++ ":") (Text.lines
        (artifacts naming (Compiler.start.emissions ++ emissions)).types) =
      some (body.linesAt 1 ++ after) := by
  have bindings := classes_start_append emissions
  have named : (boundClasses emissions).Sublist (definitions.filterMap Definition.typeName) := by
    rw [<- run.emitted_names]
    exact boundClasses_sublist emissions
  refine behindLast?_artifacts naming ?_ ?_ ?_ (bindings ▸ listed) code
  · rw [bindings]
    exact lined_classes_of_run run parsed
  · rw [boundClasses, bindings]
    exact run.nodup_names.sublist named
  · rw [boundClasses, bindings]
    exact fun each isName => run.isWord_names parsed each (named.subset isName)

/-- The comment of every class of a run is read back. -/
theorem shownDefinition?_of_run (naming : Naming) {definitions : List Definition}
    {final : Registry} {emissions : List Emission} {source : String}
    (run : Run isReserved registry definitions final emissions)
    (parsed : (Lexing.ofText source).stream.parse = .ok definitions)
    {binding : ClassBinding} (listed : binding ∈ emissions.flatMap classes)
    {shown : List String} {methods : Code}
    (code : binding.code = .single ("class " ++ binding.name ++ ":")
      (commentCode ("XDR definition:" :: (shown ++ ["\x7d;"])) ++ methods))
    (inner : "\x7d;" ∉ shown) :
    shownDefinition? binding.name
        (artifacts naming (Compiler.start.emissions ++ emissions)).types =
      some ("\n".intercalate (shown ++ ["\x7d;"])) := by
  obtain ⟨after, found⟩ := behindLast?_of_run naming run parsed listed code
  rw [Code.linesAt_append, List.append_assoc] at found
  exact shownDefinition?_eq found inner

/-- Every structure that is emitted is shown. -/
theorem shownIn_struct (naming : Naming) {definitions : List Definition} {known : Registry}
    {final : Registry} {emissions : List Emission} {source : String}
    (run : Run isReserved registry definitions final emissions)
    (parsed : (Lexing.ofText source).stream.parse = .ok definitions)
    {fields : List Declaration} {line : Int} {members : List Field}
    (listed : .struct name fields line ∈ definitions) (emitted : .struct name members ∈ emissions)
    (completed : List.Forall₂ (Declaration.CompletesMember isReserved known) fields members) :
    (Definition.struct name fields line).ShownIn
      (artifacts naming (Compiler.start.emissions ++ emissions)).types := by
  intro valued
  obtain ⟨isName, lexed⟩ := Lexed.struct (Lexing.lexed_of_parse parsed _ listed)
  have written := TokenStream.written_of_parse parsed _ listed
  have isClass : ClassBinding.struct name members ∈ emissions.flatMap classes :=
    List.mem_flatMap.mpr ⟨_, emitted, List.mem_cons_self⟩
  have read := shownDefinition?_of_run naming run parsed isClass rfl
    (end_not_mem_struct (Struct.valued members))
  obtain ⟨noErrors, definition, again, isStruct⟩ :=
    (shows_structLines completed isName lexed written valued).parse
  cases definition with
  | struct other others line =>
      simp only [Definition.unlined, Definition.struct.injEq, and_true] at isStruct
      obtain ⟨rfl, same⟩ := isStruct
      exact ⟨_, others, line, read, noErrors, again, same⟩
  | _ => cases isStruct

/-- Every union that is emitted is shown. -/
theorem shownIn_union (naming : Naming) {definitions : List Definition} {known : Registry}
    {final : Registry} {emissions : List Emission} {source : String}
    (run : Run isReserved registry definitions final emissions)
    (parsed : (Lexing.ofText source).stream.parse = .ok definitions)
    {discriminant : Declaration} {switch : Switch} {line : Int} {layout : UnionLayout}
    (listed : .union name discriminant switch line ∈ definitions)
    (emitted : .union name layout ∈ emissions)
    (completed : layout.Completes isReserved known discriminant switch) :
    (Definition.union name discriminant switch line).ShownIn
      (artifacts naming (Compiler.start.emissions ++ emissions)).types := by
  intro grouped
  obtain ⟨isName, selects, lexed⟩ := Lexed.union (Lexing.lexed_of_parse parsed _ listed)
  have written := TokenStream.written_of_parse parsed _ listed
  have isClass : ClassBinding.union name layout ∈ emissions.flatMap classes :=
    List.mem_flatMap.mpr ⟨_, emitted, List.mem_cons_self⟩
  have read := shownDefinition?_of_run naming run parsed isClass rfl
    (end_not_mem_union layout.discriminant.declaration.text layout.arms layout.fallback)
  obtain ⟨first, more, cases⟩ := Switch.exists_shared grouped
  obtain ⟨noErrors, definition, again, isUnion⟩ :=
    (shows_unionLines completed isName selects lexed written cases).parse
  cases definition with
  | union other selector shown line =>
      simp only [Definition.unlined, Definition.union.injEq, and_true] at isUnion
      obtain ⟨rfl, sameSelector, sameSwitch⟩ := isUnion
      refine ⟨_, selector, shown, line, read, noErrors, again, sameSelector, ?_⟩
      refine Switch.sameGroups_of_shared completed.closed ?_ ?_
      · rw [sameSwitch, <- cases]
        rfl
      · rw [sameSwitch]
  | _ => cases isUnion

end Python

/-! ## Accepted source texts -/

/-- Every structure and union of an accepted source text is shown in the generated module
of record classes. -/
theorem Compiler.compile_shown (naming : Naming) (source : String) (compilation : Compilation)
    (final : Compiler)
    (success : Compiler.start.compile (Python.backend naming) source = (.ok compilation, final)) :
    ∃ definitions, (Lexing.ofText source).stream.parse = .ok definitions ∧
      forall definition, definition ∈ definitions ->
        definition.ShownIn compilation.artifacts.types := by
  obtain ⟨definitions, emissions, parsed, run, emitted, rendered⟩ := compile_modules success
  refine ⟨definitions, parsed, fun definition listed => ?_⟩
  rw [rendered, emitted]
  obtain ⟨known, bound, emission, accepted, among⟩ := run.exists_accepted listed
  cases accepted with
  | constant | enum | typedef | program => trivial
  | struct new completed =>
      exact shownIn_struct naming run parsed listed (among _ rfl) completed
  | union new declares completed =>
      exact shownIn_union naming run parsed listed (among _ rfl) completed

/-- A structure with an optional field and one without a value, and a union whose last
label falls through to a default without a body, are shown. -/
theorem Compiler.compile_shown_pick :
    let source := "struct link \x7b unsigned id; void; link *next; \x7d; " ++
      "union pick switch (int k) \x7b case 0: case -1: link l; case 2: default: \x7d;"
    let fields : List Declaration := [⟨"id", .named "unsigned_int", 1⟩, .void 1,
      ⟨"next", .shaped "link" (.varying (some (.number "1"))), 1⟩]
    let switch : Switch := ⟨⟨.value (.number "0"), none, 1⟩,
      [⟨.value (.number "-1"), some ⟨"l", .named "link", 1⟩, 1⟩, ⟨.value (.number "2"), none, 1⟩],
      some ⟨.default, none, 1⟩⟩
    ∃ compilation final,
      Compiler.start.compile (Python.backend .standard) source = (.ok compilation, final) ∧
      (∃ field, field ∈ fields ∧ field.isVoid = false) ∧
      (Definition.struct "link" fields 1).ShownIn compilation.artifacts.types ∧
      switch.groups ≠ [] ∧
      (Definition.union "pick" ⟨"k", .named "int", 1⟩ switch 1).ShownIn
        compilation.artifacts.types := by
  intro source fields switch
  obtain ⟨compilation, final, success⟩ : ∃ compilation final,
      Compiler.start.compile (Python.backend .standard) source = (.ok compilation, final) :=
    exists_of_isOk (by decide +kernel)
  obtain ⟨definitions, parsed, shown⟩ :=
    compile_shown .standard source compilation final success
  have known : (Lexing.ofText source).stream.parse = .ok [.struct "link" fields 1,
      .union "pick" ⟨"k", .named "int", 1⟩ switch 1] := by decide +kernel
  obtain rfl := Except.ok.inj (known.symm.trans parsed)
  exact ⟨compilation, final, success, by decide, shown _ (by simp), by decide, shown _ (by simp)⟩

end XdrPack
