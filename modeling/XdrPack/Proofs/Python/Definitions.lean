import XdrPack.Proofs.Fallthrough
import XdrPack.Proofs.Printing

/-!
# Definitions shown in classes

The class of a structure or a union shows its definition. What is shown is a definition
in the interface language again: for a structure with the fields that hold a value, and
for a union with one case for each label that has a body to share, in the same groups
and with the same default.
-/

namespace XdrPack

open Grammar

/-! ## Shown trees -/

/-- The lines spell a phrase that stands for the tree. -/
def Shows {τ : Type} (grammar : Grammar τ) (lines : List String) (tree : τ) : Prop :=
  ∃ phrase, SpellsLines phrase lines ∧ grammar phrase tree

/-- What is shown for each item of a list is shown for all of them. -/
theorem Shows.flatMap {α τ : Type} {item : Grammar τ} {items : List α}
    {lines : α -> List String} {trees : α -> List τ}
    (each : forall one, one ∈ items -> Shows (Each item) (lines one) (trees one)) :
    Shows (Each item) (items.flatMap lines) (items.flatMap trees) := by
  induction items with
  | nil => exact ⟨[], .nil, .nil⟩
  | cons first rest inductionHypothesis =>
      obtain ⟨firstShown, restShown⟩ := List.forall_mem_cons.mp each
      obtain ⟨phrase, spelled, derived⟩ := firstShown
      obtain ⟨others, spelledOthers, derivedOthers⟩ := inductionHypothesis restShown
      exact ⟨phrase ++ others, spelled.append spelledOthers, derived.append derivedOthers⟩

/-- A shown definition lexes without errors and parses to that definition alone. -/
theorem Shows.parse {lines : List String} {tree : Definition}
    (shown : Shows DefinitionPhrase lines tree) :
    (Lexing.ofText ("\n".intercalate lines)).errors = [] ∧
      ∃ definition, (Lexing.ofText ("\n".intercalate lines)).stream.parse = .ok [definition] ∧
        definition.unlined = tree := by
  obtain ⟨phrase, spelled, derived⟩ := shown
  obtain ⟨noErrors, kinds⟩ := spelled.joined.lexing trivial
  refine ⟨noErrors, ?_⟩
  have file : FilePhrase phrase [tree] := by simpa using FilePhrase.define derived .empty
  obtain ⟨definitions, parsed, unlined⟩ :=
    TokenStream.exists_parse_of_filePhrase file kinds
      (Lexing.ofText ("\n".intercalate lines)).finish
  obtain ⟨definition, rfl, isTree⟩ := List.map_eq_singleton_iff.mp unlined
  exact ⟨definition, parsed, isTree⟩

/-! ## Margins -/

/-- The indentation of a field spells nothing. -/
theorem Spells.margin : Spells AnyText "    " [] :=
  ((Spells.space.andThen .space).andThen .space).andThen .space

/-- The indentation of the body of a case spells nothing. -/
theorem Spells.deepMargin : Spells AnyText "        " [] :=
  Spells.margin.andThen .margin

/-- A keyword before a name. -/
theorem Spells.introduced (word : Keyword) {name : String}
    (isName : (Token.Kind.identifier name).isLexical = true) :
    Spells EndsWord (word.text ++ " " ++ name) [.keyword word, .identifier name] := by
  have separated : Spells AnyText (word.text ++ " ") [.keyword word] :=
    (Spells.keyword word).append .space fun rest _ => endsWord_cons rfl rest
  exact separated.andThen (.identifier isName)

/-! ## Structures -/

/-- The first line of a structure. -/
theorem spells_structHead {name : String}
    (isName : (Token.Kind.identifier name).isLexical = true) :
    Spells AnyText ("struct " ++ name ++ " \x7b")
      [.keyword .struct, .identifier name, .mark .openBrace] := by
  have opening : Spells AnyText " \x7b" [.mark .openBrace] :=
    Spells.space.andThen (.mark .openBrace)
  exact (Spells.introduced .struct isName).append opening fun rest _ => endsWord_cons rfl rest

/-- The last line of a definition. -/
theorem spells_end : Spells AnyText "\x7d;" [.mark .closeBrace, .mark .semicolon] :=
  (Spells.mark .closeBrace).andThen (.mark .semicolon)

/-- The lines of a structure show it, if it has a field. -/
theorem shows_struct {name : String} {fields : List Declaration}
    (isName : (Token.Kind.identifier name).isLexical = true)
    (readable : forall field, field ∈ fields -> field.Readable) (nonempty : fields ≠ []) :
    Shows DefinitionPhrase
      (["struct " ++ name ++ " \x7b"]
        ++ fields.map (fun field => "    " ++ field.text ++ ";") ++ ["\x7d;"])
      (.struct name (fields.map Declaration.unlined) 0) := by
  have fieldsShown : Shows (Each FieldPhrase)
      (fields.map fun field => "    " ++ field.text ++ ";") (fields.map Declaration.unlined) := by
    rw [List.map_eq_flatMap, List.map_eq_flatMap]
    refine Shows.flatMap fun field listed => ?_
    obtain ⟨phrase, spelled, derived⟩ := (readable field listed).field .margin
    exact ⟨phrase, .single spelled, .single derived⟩
  obtain ⟨body, spelled, derived⟩ := fieldsShown
  refine ⟨_,
    ((Each.single (spells_structHead isName)).append spelled).append (.single spells_end), ?_⟩
  exact .struct name (derived.oneOrMore (by simpa using nonempty))

/-! ## The groups of a switch -/

namespace Switch.Lexed

variable {switch : Switch}

/-- The labelled cases of a switch that was read are all its cases. -/
theorem cases_eq (lexed : switch.Lexed) :
    switch.cases = switch.labelled.map LabelledCase.toCase := by
  refine cases_eq_map_labelled fun each listed => ?_
  obtain ⟨value, selects, -⟩ := lexed.labels each listed
  exact ⟨value, selects⟩

/-- The labels of the groups of a switch that was read. -/
theorem labels_groups (lexed : switch.Lexed) {group : CaseGroup} (listed : group ∈ switch.groups) :
    forall label, label ∈ group.labels -> Grammar.Lexed ValuePhrase label := by
  intro label inGroup
  have grouped := labels_groupsAndRest [] switch.labelled
  rw [List.nil_append] at grouped
  have inLabels : label ∈ switch.labelled.map LabelledCase.label := by
    rw [<- grouped]
    exact List.mem_append_left _ (List.mem_flatMap.mpr ⟨group, listed, inGroup⟩)
  obtain ⟨each, isCase, rfl⟩ := List.mem_map.mp inLabels
  have isCase : each.toCase ∈ switch.cases := by
    rw [lexed.cases_eq]
    exact List.mem_map_of_mem isCase
  obtain ⟨value, selects, lexedValue⟩ := lexed.labels _ isCase
  cases selects
  exact lexedValue

/-- The bodies of the groups of a switch that was read. -/
theorem body_groups (lexed : switch.Lexed) {group : CaseGroup} (listed : group ∈ switch.groups) :
    Grammar.Lexed DeclarationPhrase group.body.unlined := by
  have declared : group.body ∈ switch.labelled.filterMap (·.body) := by
    rw [<- bodies_groupsAndRest []]
    exact List.mem_map_of_mem listed
  obtain ⟨each, isCase, body⟩ := List.mem_filterMap.mp declared
  have isCase : each.toCase ∈ switch.cases := by
    rw [lexed.cases_eq]
    exact List.mem_map_of_mem isCase
  exact lexed.bodies _ isCase group.body body

/-- The default body of a switch that was read. Without a body, nothing is declared. -/
theorem defaultBody (lexed : switch.Lexed) {declaration : Declaration}
    (present : switch.defaultBody = some declaration) :
    Grammar.Lexed DeclarationPhrase declaration.unlined := by
  obtain ⟨each, isFallback, rfl⟩ := Option.map_eq_some_iff.mp present
  cases body : each.body with
  | none => exact ⟨_, .void, by decide⟩
  | some declared => exact lexed.fallback each isFallback declared body

end Switch.Lexed

/-! ## Unions -/

/-- The cases that are written for labels which share a body: all but the last are
left without one. -/
def LabelledCase.sharing (body : Declaration) : List Value -> List LabelledCase
  | [] => []
  | [label] => [⟨label, some body, 0⟩]
  | label :: more => ⟨label, none, 0⟩ :: sharing body more

/-- The cases of a group, without line numbers. -/
def CaseGroup.shared (group : CaseGroup) : List LabelledCase :=
  LabelledCase.sharing group.body.unlined group.labels

/-- The line of a label. -/
theorem spells_label {phrase : Phrase} {label : Value} (derived : ValuePhrase phrase label)
    (isLexical : forall kind, kind ∈ phrase -> kind.isLexical = true) :
    Spells AnyText ("    case " ++ label.text ++ ":")
      (.keyword .caseOf :: phrase ++ [.mark .colon]) := by
  have introduced : Spells AnyText "    case " [.keyword .caseOf] :=
    (Spells.margin.andThen (.keyword .caseOf)).append .space fun rest _ => endsWord_cons rfl rest
  exact (introduced.andThen (spells_value derived isLexical)).append (.mark .colon)
    fun rest _ => endsWord_cons rfl rest

/-- The lines of a group show its cases. -/
theorem shows_group {labels : List Value} {body : Declaration}
    (lexed : forall label, label ∈ labels -> Lexed ValuePhrase label) (readable : body.Readable)
    (nonempty : labels ≠ []) :
    Shows (Each CasePhrase)
      (labels.map (fun label => "    case " ++ label.text ++ ":")
        ++ ["        " ++ body.text ++ ";"])
      ((LabelledCase.sharing body.unlined labels).map LabelledCase.toCase) := by
  induction labels with
  | nil => exact absurd rfl nonempty
  | cons label more inductionHypothesis =>
      obtain ⟨⟨phrase, derived, isLexical⟩, moreLexed⟩ := List.forall_mem_cons.mp lexed
      have spelled := spells_label derived isLexical
      cases more with
      | nil =>
          obtain ⟨fieldPhrase, spelledField, field⟩ := readable.field .deepMargin
          refine ⟨_, .cons spelled (.single spelledField), ?_⟩
          have labelled := CasePhrase.labelled derived (.declared field)
          simpa [LabelledCase.sharing, LabelledCase.toCase] using Each.single labelled
      | cons second others =>
          obtain ⟨rest, spelledRest, derivedRest⟩ := inductionHypothesis moreLexed (by simp)
          refine ⟨_, .cons spelled spelledRest, ?_⟩
          exact .cons (CasePhrase.labelled derived .missing) derivedRest

/-- The first line of a union. -/
theorem spells_unionHead {name : String} {discriminant : Declaration}
    (isName : (Token.Kind.identifier name).isLexical = true) {selector : Phrase}
    (spelled : Spells EndsWord discriminant.text selector) :
    Spells AnyText ("union " ++ name ++ " switch (" ++ discriminant.text ++ ") \x7b")
      (.keyword .union :: .identifier name :: .keyword .switch :: .mark .openParen :: selector
        ++ [.mark .closeParen, .mark .openBrace]) := by
  have switch : Spells AnyText " switch (" [.keyword .switch, .mark .openParen] :=
    ((Spells.space.andThen (.keyword .switch)).append .space
      fun rest _ => endsWord_cons rfl rest).andThen (.mark .openParen)
  have opening : Spells AnyText ") \x7b" [.mark .closeParen, .mark .openBrace] :=
    ((Spells.mark .closeParen).andThen .space).andThen (.mark .openBrace)
  have introduced := (Spells.introduced .union isName).append switch
    fun rest _ => endsWord_cons rfl rest
  exact (introduced.andThen spelled).append opening fun rest _ => endsWord_cons rfl rest

/-- The lines of a default. -/
def shownDefault : Option Declaration -> List String
  | none => []
  | some body => ["    default:", "        " ++ body.text ++ ";"]

/-- The case of a default, without line numbers. -/
def shownFallback (body : Option Declaration) : Option Case :=
  body.map fun declaration => ⟨.default, some declaration.unlined, 0⟩

/-- The lines of a default show it. -/
theorem shows_default {body : Option Declaration}
    (readable : forall declaration, body = some declaration -> declaration.Readable) :
    Shows DefaultPhrase (shownDefault body) (shownFallback body) := by
  cases body with
  | none => exact ⟨[], .nil, .missing⟩
  | some declaration =>
      obtain ⟨phrase, spelled, field⟩ := (readable declaration rfl).field .deepMargin
      have word : Spells AnyText "    default:" [.keyword .default, .mark .colon] :=
        (Spells.margin.andThen (.keyword .default)).append (.mark .colon)
          fun rest _ => endsWord_cons rfl rest
      exact ⟨_, .cons word (.single spelled), .present (.declared field)⟩

/-- The lines of a union show it, if it has a group. -/
theorem shows_union {name : String} {discriminant : Declaration} {groups : List CaseGroup}
    {fallback : Option Declaration} (isName : (Token.Kind.identifier name).isLexical = true)
    (selects : discriminant.Readable)
    (labels : forall group, group ∈ groups -> group.labels ≠ [] ∧
      forall label, label ∈ group.labels -> Lexed ValuePhrase label)
    (bodies : forall group, group ∈ groups -> group.body.Readable)
    (defaulted : forall declaration, fallback = some declaration -> declaration.Readable)
    {first : Case} {more : List Case}
    (cases : first :: more = (groups.flatMap CaseGroup.shared).map LabelledCase.toCase) :
    Shows DefinitionPhrase
      (["union " ++ name ++ " switch (" ++ discriminant.text ++ ") \x7b"]
        ++ groups.flatMap (fun group =>
          group.labels.map (fun label => "    case " ++ label.text ++ ":")
            ++ ["        " ++ group.body.text ++ ";"])
        ++ shownDefault fallback ++ ["\x7d;"])
      (.union name discriminant.unlined ⟨first, more, shownFallback fallback⟩ 0) := by
  obtain ⟨selector, spelled, derived⟩ := selects
  have casesShown : Shows (Each CasePhrase) (groups.flatMap fun group =>
      group.labels.map (fun label => "    case " ++ label.text ++ ":")
        ++ ["        " ++ group.body.text ++ ";"]) (first :: more) := by
    rw [cases, List.map_flatMap]
    refine Shows.flatMap fun group listed => ?_
    obtain ⟨nonempty, lexed⟩ := labels group listed
    exact shows_group lexed (bodies group listed) nonempty
  obtain ⟨body, spelledCases, derivedCases⟩ := casesShown
  obtain ⟨otherwise, spelledDefault, derivedDefault⟩ := shows_default defaulted
  refine ⟨_, (((Each.single (spells_unionHead isName spelled)).append spelledCases).append
    spelledDefault).append (.single spells_end), ?_⟩
  have union :=
    DefinitionPhrase.union name derived (derivedCases.oneOrMore (by simp)) derivedDefault
  simpa using union

/-! ## Grouping again -/

namespace Switch

/-- The cases of labels that share a body are one group with the cases that wait for a
body before them. -/
theorem groupsAndRest_sharing (body : Declaration) {labels : List Value} (labelled : labels ≠ [])
    (pending rest : List LabelledCase) :
    groupsAndRest pending (LabelledCase.sharing body labels ++ rest) =
      (⟨pending.map (·.label) ++ labels, body⟩ :: (groupsAndRest [] rest).1,
        (groupsAndRest [] rest).2) := by
  induction labels generalizing pending with
  | nil => exact absurd rfl labelled
  | cons label more inductionHypothesis =>
      cases more with
      | nil => simp [LabelledCase.sharing, groupsAndRest]
      | cons second others =>
          rw [LabelledCase.sharing, List.cons_append, groupsAndRest]
          · rw [inductionHypothesis (by simp)]
            simp
          · simp

/-- A switch with a group has a case to write for it. -/
theorem exists_shared {switch : Switch} (grouped : switch.groups ≠ []) :
    ∃ first more,
      first :: more = (switch.groups.flatMap CaseGroup.shared).map LabelledCase.toCase := by
  obtain ⟨group, listed⟩ := List.exists_mem_of_ne_nil _ grouped
  have labelled := labels_ne_nil_of_mem listed
  have shared : group.shared ≠ [] := by
    unfold CaseGroup.shared
    cases labels : group.labels with
    | nil => exact absurd labels labelled
    | cons label more => cases more <;> simp [LabelledCase.sharing]
  obtain ⟨each, isShared⟩ := List.exists_mem_of_ne_nil _ shared
  have nonempty := List.ne_nil_of_mem
    (List.mem_map_of_mem (f := LabelledCase.toCase)
      (List.mem_flatMap.mpr ⟨group, listed, isShared⟩))
  obtain ⟨first, more, cases⟩ := List.exists_cons_of_ne_nil nonempty
  exact ⟨first, more, cases.symm⟩

/-- Groups that are written out are found again, and no case is left over. -/
theorem groupsAndRest_shared {groups : List CaseGroup}
    (labelled : forall group, group ∈ groups -> group.labels ≠ []) :
    groupsAndRest [] (groups.flatMap CaseGroup.shared) =
      (groups.map fun group => ⟨group.labels, group.body.unlined⟩, []) := by
  induction groups with
  | nil => rfl
  | cons first rest inductionHypothesis =>
      obtain ⟨firstLabelled, restLabelled⟩ := List.forall_mem_cons.mp labelled
      rw [List.flatMap_cons, CaseGroup.shared, groupsAndRest_sharing _ firstLabelled,
        inductionHypothesis restLabelled]
      rfl

end Switch

/-- A group without the line of its body. -/
def CaseGroup.unlined (group : CaseGroup) : CaseGroup :=
  { group with body := group.body.unlined }

/-- A labelled case without its line and that of its body. -/
def LabelledCase.unlined (each : LabelledCase) : LabelledCase :=
  { each with body := each.body.map Declaration.unlined, line := 0 }

namespace Switch

/-- Lines do not matter to which cases are labelled. -/
theorem labelled_unlined (switch : Switch) :
    switch.unlined.labelled = switch.labelled.map LabelledCase.unlined := by
  have cases : switch.unlined.cases = switch.cases.map Case.unlined := rfl
  rw [labelled, labelled, cases, List.filterMap_map, List.map_filterMap]
  refine List.filterMap_congr fun each _ => ?_
  obtain ⟨label, body, line⟩ := each
  cases label <;> rfl

/-- Lines do not matter to grouping. -/
theorem groupsAndRest_unlined (pending cases : List LabelledCase) :
    groupsAndRest (pending.map LabelledCase.unlined) (cases.map LabelledCase.unlined) =
      ((groupsAndRest pending cases).1.map CaseGroup.unlined,
        (groupsAndRest pending cases).2.map LabelledCase.unlined) := by
  induction cases generalizing pending with
  | nil => rfl
  | cons each rest inductionHypothesis =>
      cases declared : each.body with
      | none =>
          have extended := inductionHypothesis (pending ++ [each])
          simpa [groupsAndRest, declared, LabelledCase.unlined] using extended
      | some body =>
          have later := inductionHypothesis []
          rw [List.map_nil] at later
          simp [groupsAndRest, declared, LabelledCase.unlined, CaseGroup.unlined, later]

/-- The groups of a switch do not depend on lines. -/
theorem groups_unlined (switch : Switch) :
    switch.unlined.groups = switch.groups.map CaseGroup.unlined := by
  rw [groups, labelled_unlined]
  exact congrArg Prod.fst (groupsAndRest_unlined [] switch.labelled)

/-- The labels that are left over do not depend on lines. -/
theorem dangling_unlined (switch : Switch) :
    switch.unlined.dangling = switch.dangling.map LabelledCase.unlined := by
  rw [dangling, labelled_unlined]
  exact congrArg Prod.snd (groupsAndRest_unlined [] switch.labelled)

/-- The body of the default does not depend on lines. -/
theorem defaultBody_unlined (switch : Switch) :
    switch.unlined.defaultBody = switch.defaultBody.map Declaration.unlined := by
  obtain ⟨first, more, fallback⟩ := switch
  cases fallback with
  | none => rfl
  | some each =>
      obtain ⟨label, body, line⟩ := each
      cases body <;> rfl

/-- The switches have the same groups and the same default, line numbers aside. -/
def SameGroups (left right : Switch) : Prop :=
  ∃ groups fallback others otherwise,
    left.collapse = .ok (groups, fallback) ∧ right.collapse = .ok (others, otherwise) ∧
      groups.map CaseGroup.unlined = others.map CaseGroup.unlined ∧
      fallback.map Declaration.unlined = otherwise.map Declaration.unlined

/-- A switch that is written out of the groups and the default of another has the same
groups and the same default. -/
theorem sameGroups_of_shared {switch shown : Switch}
    (closed : switch.dangling = [] ∨ switch.defaultBody.isSome = true)
    (cases : shown.unlined.cases =
      (switch.groups.flatMap CaseGroup.shared).map LabelledCase.toCase)
    (fallback : shown.unlined.fallback = shownFallback switch.defaultBody) :
    switch.SameGroups shown := by
  have labelled : shown.unlined.labelled = switch.groups.flatMap CaseGroup.shared := by
    rw [Switch.labelled, cases, List.filterMap_map]
    exact List.filterMap_some
  have regrouped := groupsAndRest_shared
    (fun group listed => labels_ne_nil_of_mem (listed : group ∈ switch.groups))
  rw [<- labelled] at regrouped
  have sameGroups : shown.groups.map CaseGroup.unlined = switch.groups.map CaseGroup.unlined := by
    rw [<- groups_unlined]
    exact congrArg Prod.fst regrouped
  have noneDangling : shown.dangling = [] := by
    rw [<- List.map_eq_nil_iff, <- dangling_unlined]
    exact congrArg Prod.snd regrouped
  have sameDefault : shown.defaultBody.map Declaration.unlined =
      switch.defaultBody.map Declaration.unlined := by
    rw [<- defaultBody_unlined, defaultBody, fallback, shownFallback]
    cases switch.defaultBody <;> rfl
  exact ⟨_, _, _, _, collapse_of_closed closed, collapse_of_closed (.inl noneDangling),
    sameGroups.symm, sameDefault.symm⟩

end Switch

end XdrPack
