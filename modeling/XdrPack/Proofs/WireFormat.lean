import XdrPack.Proofs.Choice
import XdrPack.Proofs.Wire

/-!
# The wire format of compiled files

For every declaration of an accepted file, the coding that was emitted for it
puts the same thing on the wire as the definitions say. The registry is what ties
the two sides together: what a name is bound to says whether it stands for a
record class or for routines, and either of them means what the definition of the
name means.
-/

namespace XdrPack

/-- A declaration and the field emitted for it have one and the same form on the
wire. -/
structure SameWire (definitions : List Definition) (emissions : List Emission)
    (declaration : Declaration) (field : Field) : Prop where
  named : field.declaration.name = declaration.name
  agrees : ∃ wire, (forall other, declaration.Expands definitions other ↔ other = wire) ∧
    forall other, field.coding.Means emissions other ↔ other = wire

/-- Whether nothing is emitted for a definition. -/
def Definition.isProgram : Definition -> Bool
  | .program _ => true
  | _ => false

/-- What is emitted for a definition is of the same kind and name, and every
declaration of it is coded as the definitions say. -/
inductive Faithful (definitions : List Definition) (emissions : List Emission) :
    Definition -> Emission -> Prop where
  | constant {name value line} :
      Faithful definitions emissions (.constant name value line) (.constant name value)
  | enum {name members line} :
      Faithful definitions emissions (.enum name members line) (.enum name members)
  | typedef {declaration target} (same : SameWire definitions emissions declaration target) :
      Faithful definitions emissions (.typedef declaration) (.typedef declaration.name target)
  | struct {name fields line members}
      (same : List.Forall₂ (SameWire definitions emissions) fields members) :
      Faithful definitions emissions (.struct name fields line) (.struct name members)
  | union {name discriminant switch line layout}
      (selector : SameWire definitions emissions discriminant layout.discriminant)
      (arms : List.Forall₂ (SameWire definitions emissions) switch.bodies
        (layout.arms.map (·.body)))
      (fallback : List.Forall₂ (SameWire definitions emissions) switch.defaultBody.toList
        layout.fallback.toList) :
      Faithful definitions emissions (.union name discriminant switch line) (.union name layout)

/-! ## What the registry knows -/

/-- What is bound to a name says whether the name is that of a record class or of
routines, and either means what the definitions say. -/
inductive Grounding (definitions : List Definition) (emissions : List Emission) (name : String)
    (entry : TypeRef) : Prop where
  | record {record} (isRecord : entry.namesRecord = true) (reaches : Reaches emissions name record)
      (expands : Expands definitions name .scalar (.record record))
  | routines {wire} (notRecord : entry.namesRecord = false)
      (means : (Coding.routine name).Means emissions wire)
      (expands : Expands definitions name .scalar wire)

/-- Every name in the registry is grounded in the definitions and emissions. -/
def Registry.Grounded (definitions : List Definition) (emissions : List Emission)
    (registry : Registry) : Prop :=
  forall name entry, registry.lookup name = some entry ->
    entry.isVoid = false ∧ Grounding definitions emissions name entry

namespace Registry.Grounded

variable {definitions : List Definition} {emissions : List Emission} {registry : Registry}

/-- A further type that is grounded keeps the registry grounded. -/
theorem insert (grounded : registry.Grounded definitions emissions) {name : String}
    {type : TypeRef} (notVoid : type.isVoid = false)
    (grounding : Grounding definitions emissions name type) :
    (registry.insert name type).Grounded definitions emissions := by
  intro other entry found
  rw [lookup_insert] at found
  split at found
  · next same =>
      cases found
      exact same ▸ ⟨notVoid, grounding⟩
  · exact grounded other entry found

/-- A chosen coding means what the definitions say. -/
theorem exists_wire_of_chosen (grounded : registry.Grounded definitions emissions) {base : String}
    {entry : TypeRef} (found : registry.lookup base = some entry) {shape : Shape} {coding : Coding}
    (chosen : Chosen base entry shape coding) :
    ∃ wire, Expands definitions base shape wire ∧ coding.Means emissions wire := by
  obtain ⟨-, grounding⟩ := grounded base entry found
  cases grounding with
  | record isRecord reaches expands =>
      cases chosen with
      | routine routines | array _ _ routines | fixedArray _ _ routines =>
          rw [isRecord] at routines
          cases routines
      | record => exact ⟨_, expands, .record reaches⟩
      | text isString bounded => exact ⟨_, .string isString bounded, .text⟩
      | fixedBytes isOpaque => exact ⟨_, .fixedBytes isOpaque, .fixedBytes⟩
      | bytes isOpaque => exact ⟨_, .bytes isOpaque, .bytes⟩
      | recordArray notString notOpaque =>
          exact ⟨_, .array notString notOpaque expands, .recordArray reaches⟩
      | fixedRecordArray notString notOpaque =>
          exact ⟨_, .fixedArray notString notOpaque expands, .fixedRecordArray reaches⟩
  | routines notRecord means expands =>
      cases chosen with
      | record isRecord | recordArray _ _ isRecord | fixedRecordArray _ _ isRecord =>
          rw [notRecord] at isRecord
          cases isRecord
      | routine => exact ⟨_, expands, means⟩
      | text isString bounded => exact ⟨_, .string isString bounded, .text⟩
      | fixedBytes isOpaque => exact ⟨_, .fixedBytes isOpaque, .fixedBytes⟩
      | bytes isOpaque => exact ⟨_, .bytes isOpaque, .bytes⟩
      | array notString notOpaque => exact ⟨_, .array notString notOpaque expands, .array means⟩
      | fixedArray notString notOpaque =>
          exact ⟨_, .fixedArray notString notOpaque expands, .fixedArray means⟩

/-- A completed declaration means what the definitions say. -/
theorem exists_wire (grounded : registry.Grounded definitions emissions)
    {declaration : Declaration} {field : Field} (written : declaration.Written)
    (completes : declaration.Completes registry field) :
    ∃ wire, declaration.Expands definitions wire ∧ field.coding.Means emissions wire := by
  cases isVoid : declaration.isVoid with
  | true =>
      rw [completes.coding_of_void isVoid]
      exact ⟨.void, by simp [Declaration.Expands, isVoid], .void⟩
  | false =>
      obtain ⟨entry, found, chosen⟩ := completes.chosen written isVoid
      simp only [Declaration.Expands, isVoid, Bool.false_eq_true, if_false]
      exact grounded.exists_wire_of_chosen found chosen

/-- The name that a type definition introduces is grounded in its declaration. -/
theorem of_typedef (grounded : registry.Grounded definitions emissions)
    {declaration : Declaration} {target : Field} (written : declaration.Written)
    (declares : declaration.isVoid = false) (completes : declaration.Completes registry target)
    (defined : .typedef declaration ∈ definitions)
    (emitted : .typedef declaration.name target ∈ emissions) :
    target.declaration.type.isVoid = false ∧
      Grounding definitions emissions declaration.name target.declaration.type := by
  obtain ⟨entry, found, chosen⟩ := completes.chosen written declares
  obtain ⟨notVoid, names⟩ := completes.namesRecord declares found (grounded _ entry found).1
  refine ⟨notVoid, ?_⟩
  obtain ⟨wire, expands, means⟩ := grounded.exists_wire_of_chosen found chosen
  cases record : target.declaration.type.namesRecord with
  | false => exact .routines record (.typedef emitted means) (.typedef defined rfl expands)
  | true =>
      -- Only the bare name of a record class gives another name to that class.
      obtain ⟨bare, isRecord⟩ : declaration.type.shape.isArray = false ∧
          entry.namesRecord = true := by simpa [record] using names.symm
      have coded := chosen.eq_record bare isRecord
      rw [coded] at means
      cases means with
      | record reaches =>
          exact .record record (.renamed emitted coded reaches) (.typedef defined rfl expands)

end Registry.Grounded

/-! ## Steps and runs -/

section

variable {definitions : List Definition} {emissions : List Emission} {registry : Registry}
  (definedOnce : (Registry.primitives.map (·.1)
    ++ definitions.filterMap Definition.typeName).Nodup)
  (emittedOnce : (emissions.filterMap Emission.typeName).Nodup)

include definedOnce

/-- A declared value has one form on the wire. -/
theorem Declaration.Expands.unique {declaration : Declaration} {left right : Wire}
    (expandsLeft : declaration.Expands definitions left)
    (expandsRight : declaration.Expands definitions right) : left = right := by
  unfold Declaration.Expands at expandsLeft expandsRight
  split at expandsLeft
  · next isVoid =>
      rw [if_pos isVoid] at expandsRight
      rw [expandsLeft, expandsRight]
  · next declares =>
      rw [if_neg declares] at expandsRight
      exact XdrPack.Expands.unique definedOnce expandsLeft expandsRight

/-- An accepted definition keeps the registry grounded. -/
theorem Registry.Grounded.extend (grounded : registry.Grounded definitions emissions)
    {isReserved : String -> Bool} {definition : Definition} {binding : Option (String × TypeRef)}
    {emission : Option Emission}
    (accepted : Verdict.Accepted isReserved registry definition binding emission)
    (written : definition.Written) (defined : definition ∈ definitions)
    (emitted : emission.toList ⊆ emissions) :
    (registry.extend binding).Grounded definitions emissions := by
  cases accepted with
  | constant | program => exact grounded
  | @enum name members line target new allowed completed =>
      obtain ⟨entry, found, -⟩ := completed.chosen rfl rfl
      obtain ⟨entryNotVoid, grounding⟩ := grounded _ entry found
      obtain ⟨notVoid, names⟩ := completed.namesRecord rfl found entryNotVoid
      cases grounding with
      | record _ _ expands =>
          have builtin : ("enum", "enum") ∈ Registry.primitives := by decide
          cases expands.unique definedOnce (.primitive builtin)
      | routines notRecord =>
          rw [notRecord, Bool.and_false] at names
          exact grounded.insert notVoid
            (.routines names (.enum (emitted (List.mem_singleton_self _))) (.enum defined))
  | typedef declares new completed =>
      obtain ⟨notVoid, grounding⟩ :=
        grounded.of_typedef written declares completed defined (emitted (List.mem_singleton_self _))
      exact grounded.insert notVoid grounding
  | struct =>
      exact grounded.insert rfl
        (.record rfl (.struct (emitted (List.mem_singleton_self _))) (.struct defined))
  | union =>
      exact grounded.insert rfl
        (.record rfl (.union (emitted (List.mem_singleton_self _))) (.union defined))

include emittedOnce

/-- A completed declaration has the same form on the wire as before. -/
theorem Registry.Grounded.sameWire (grounded : registry.Grounded definitions emissions)
    {declaration : Declaration} {field : Field} (written : declaration.Written)
    (completes : declaration.Completes registry field) :
    SameWire definitions emissions declaration field := by
  obtain ⟨wire, expands, means⟩ := grounded.exists_wire written completes
  refine ⟨by rw [completes.declared], wire, fun other => ⟨fun again => ?_, ?_⟩,
    fun other => ⟨fun again => ?_, ?_⟩⟩
  · exact again.unique definedOnce expands
  · rintro rfl
    exact expands
  · exact again.unique emittedOnce means
  · rintro rfl
    exact means

/-- The same for each of several declarations inside a record. -/
theorem Registry.Grounded.sameWires (grounded : registry.Grounded definitions emissions)
    {isReserved : String -> Bool} {declarations : List Declaration} {fields : List Field}
    (written : forall declaration, declaration ∈ declarations -> declaration.Written)
    (completed : List.Forall₂ (Declaration.CompletesMember isReserved registry) declarations
      fields) :
    List.Forall₂ (SameWire definitions emissions) declarations fields := by
  refine ((List.forall₂_and_left _ _).mpr ⟨written, completed⟩).imp ?_
  rintro declaration field ⟨written, completes⟩
  exact grounded.sameWire definedOnce emittedOnce written completes.toCompletes

/-- What is emitted for an accepted definition is faithful to it. -/
theorem Registry.Grounded.faithful (grounded : registry.Grounded definitions emissions)
    {isReserved : String -> Bool} {definition : Definition} {binding : Option (String × TypeRef)}
    {emission : Emission}
    (accepted : Verdict.Accepted isReserved registry definition binding (some emission))
    (written : definition.Written) (defined : definition ∈ definitions)
    (emitted : emission ∈ emissions) : Faithful definitions emissions definition emission := by
  -- The fields of a record are completed once its name is known.
  have known := grounded.extend definedOnce accepted written defined (by simpa using emitted)
  cases accepted with
  | constant => exact .constant
  | enum => exact .enum
  | typedef declares new completed =>
      exact .typedef (grounded.sameWire definedOnce emittedOnce written completed)
  | struct new completed =>
      exact .struct (known.sameWires definedOnce emittedOnce written completed)
  | union new declares completed =>
      obtain ⟨selectorWritten, switchWritten⟩ := written
      have bodies := completed.bodies switchWritten
      obtain ⟨selector, -, fallback, -⟩ := completed
      exact .union (known.sameWire definedOnce emittedOnce selectorWritten selector.toCompletes)
        (known.sameWires definedOnce emittedOnce (fun _ => switchWritten.written_of_mem) bodies)
        (known.sameWires definedOnce emittedOnce (fun _ => switchWritten.written_defaultBody)
          fallback)

/-- What is emitted in a run is faithful to the definitions, programs left out. -/
theorem Run.faithful {isReserved : String -> Bool} {final : Registry} {run : List Definition}
    {added : List Emission} (runs : Run isReserved registry run final added)
    (grounded : registry.Grounded definitions emissions)
    (written : forall definition, definition ∈ run -> definition.Written)
    (defined : run ⊆ definitions) (emitted : added ⊆ emissions) :
    List.Forall₂ (Faithful definitions emissions) (run.filter (!·.isProgram)) added := by
  induction runs with
  | done => exact .nil
  | @step registry definition binding emission run final added accepted rest inductionHypothesis =>
      obtain ⟨firstWritten, restWritten⟩ := List.forall_mem_cons.mp written
      obtain ⟨firstDefined, restDefined⟩ := List.cons_subset.mp defined
      obtain ⟨firstEmitted, restEmitted⟩ := List.append_subset.mp emitted
      have others := inductionHypothesis
        (grounded.extend definedOnce accepted firstWritten firstDefined firstEmitted)
        restWritten restDefined restEmitted
      cases emission with
      | none =>
          obtain ⟨⟩ := accepted
          exact others
      | some emission =>
          have first := grounded.faithful definedOnce emittedOnce accepted firstWritten firstDefined
            (firstEmitted (List.mem_singleton_self _))
          have kept : definition.isProgram = false := by cases first <;> rfl
          simpa [List.filter_cons, kept] using List.Forall₂.cons first others

end

/-- The built-in types are grounded in what is emitted for them. -/
theorem Registry.grounded_builtin (definitions : List Definition) {emissions : List Emission}
    (emitted : Compiler.start.emissions ⊆ emissions) :
    Registry.builtin.Grounded definitions emissions := by
  intro name entry found
  rcases builtin_cases name with ⟨routine, listed, known⟩ | ⟨-, unknown⟩
  · obtain rfl : TypeRef.primitive name routine = entry := by simpa [known] using found
    have first : .primitive name routine ∈ Compiler.start.emissions := by
      rw [Compiler.emissions_start]
      exact List.mem_map.mpr ⟨(name, routine), listed, rfl⟩
    exact ⟨rfl, .routines rfl (.primitive (emitted first)) (.primitive listed)⟩
  · rw [unknown] at found
    cases found

/-- Every declaration of a file that compiles is coded as its definitions say: what
is emitted after the built-in types belongs to the definitions in order, programs
left out, and each declared value has exactly one form on the wire, which is also
the only one of the coding emitted for it. -/
theorem Compiler.compile_wireFormat (backend : Backend) (source : String)
    (compilation : Compilation) (final : Compiler)
    (success : Compiler.start.compile backend source = (.ok compilation, final)) :
    ∃ definitions emissions, (Lexing.ofText source).stream.parse = .ok definitions ∧
      final.emissions = Compiler.start.emissions ++ emissions ∧
      backend.finish final.emissions = .ok compilation.artifacts ∧
      List.Forall₂ (Faithful definitions final.emissions)
        (definitions.filter (!·.isProgram)) emissions := by
  obtain ⟨definitions, emissions, parsed, run, emitted, rendered⟩ :=
    compile_eq_ok backend.isReserved.includes_none success
  have definedOnce := run.nodup_all_names
  have emittedOnce : (final.emissions.filterMap Emission.typeName).Nodup := by
    rw [emitted, List.filterMap_append, run.emitted_names]
    exact definedOnce
  refine ⟨definitions, emissions, parsed, emitted, rendered, ?_⟩
  rw [emitted] at emittedOnce ⊢
  exact run.faithful definedOnce emittedOnce
    (Registry.grounded_builtin definitions (List.subset_append_left _ _))
    (TokenStream.written_of_parse parsed) (List.Subset.refl _) (List.subset_append_right _ _)

/-- A fixed array of counted arrays of records compiles, and so is coded as its
definitions say. -/
theorem Compiler.compile_wireFormat_grid :
    let source := "struct point \x7b int x; int y; \x7d; typedef point path<>; typedef path grid[2];"
    ∃ compilation final,
      Compiler.start.compile (Backend.silent []) source = (.ok compilation, final) ∧
      ∃ definitions emissions, (Lexing.ofText source).stream.parse = .ok definitions ∧
        final.emissions = Compiler.start.emissions ++ emissions ∧
        List.Forall₂ (Faithful definitions final.emissions)
          (definitions.filter (!·.isProgram)) emissions := by
  intro source
  obtain ⟨compilation, final, success⟩ : ∃ compilation final,
      Compiler.start.compile (Backend.silent []) source = (.ok compilation, final) :=
    exists_of_isOk (by decide +kernel)
  obtain ⟨definitions, emissions, parsed, emitted, -, faithful⟩ :=
    compile_wireFormat (Backend.silent []) source compilation final success
  exact ⟨compilation, final, success, definitions, emissions, parsed, emitted, faithful⟩

end XdrPack
