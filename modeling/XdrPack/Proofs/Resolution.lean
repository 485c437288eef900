import XdrPack.Proofs.Choice
import XdrPack.Proofs.Session

/-!
# Resolving a type in one step

A reference is completed from the one type that its name is bound to. That is
enough, because every type is completed before it is bound and no binding changes
afterwards: the result is the same as if the names that types refer to were
followed up to a built-in type or a record, with the first array shape that is
written on the way.
-/

namespace XdrPack

/-! ## Following names -/

/-- Following the names that types refer to from a name on: the names that are left
behind and the type at the end, which refers to itself. -/
inductive Registry.Walk (registry : Registry) : String -> List String -> TypeRef -> Prop where
  | ends {name entry} (found : registry.lookup name = some entry) (own : entry.base = name) :
      Walk registry name [] entry
  | follows {name entry path final} (found : registry.lookup name = some entry)
      (refers : entry.base ≠ name) (rest : Walk registry entry.base path final) :
      Walk registry name (name :: path) final

/-- A type that refers to itself: a built-in type or a record. -/
inductive TypeRef.Ground : TypeRef -> Prop where
  | primitive {name routine} (builtin : (name, routine) ∈ Registry.primitives) :
      Ground (.primitive name routine)
  | record (name : String) : Ground (.record name)

/-- The first shape that is an array. -/
def Shape.nearest (shapes : List Shape) : Shape := (shapes.find? (·.isArray)).getD .scalar

/-- The shape that a definition is written with. Only type definitions can have one. -/
def Definition.shape : Definition -> Shape
  | .typedef declaration => declaration.type.shape
  | _ => .scalar

/-- The shape that is written where a name is defined. -/
def shapeWritten (definitions : List Definition) (name : String) : Shape :=
  ((definitions.find? (·.typeName = some name)).map Definition.shape).getD .scalar

namespace Registry.Walk

variable {registry : Registry} {name : String} {path : List String} {final : TypeRef}

/-- There is only one way to go. -/
theorem unique (walk : registry.Walk name path final) {others : List String} {other : TypeRef}
    (again : registry.Walk name others other) : others = path ∧ other = final := by
  induction walk generalizing others other with
  | ends found own =>
      cases again with
      | ends sameFound => exact ⟨rfl, Option.some.inj (sameFound.symm.trans found)⟩
      | follows sameFound refers =>
          cases sameFound.symm.trans found
          exact absurd own refers
  | follows found refers _ inductionHypothesis =>
      cases again with
      | ends sameFound own =>
          cases sameFound.symm.trans found
          exact absurd own refers
      | follows sameFound _ rest =>
          cases sameFound.symm.trans found
          obtain ⟨rfl, rfl⟩ := inductionHypothesis rest
          exact ⟨rfl, rfl⟩

/-- A further type with a new name changes no way. -/
theorem extend (walk : registry.Walk name path final) {binding : Option (String × TypeRef)}
    (fresh : forall new type, binding = some (new, type) -> registry.lookup new = none) :
    (registry.extend binding).Walk name path final := by
  have kept : forall {other entry}, registry.lookup other = some entry ->
      (registry.extend binding).lookup other = some entry := by
    intro other entry found
    rwa [lookup_extend_ne]
    intro type new
    rw [fresh other type new] at found
    cases found
  induction walk with
  | ends found own => exact .ends (kept found) own
  | follows found refers _ inductionHypothesis =>
      exact .follows (kept found) refers inductionHypothesis

/-- Every name on the way is bound. -/
theorem bound (walk : registry.Walk name path final) :
    forall each, each ∈ path -> registry.lookup each ≠ none := by
  induction walk with
  | ends => simp
  | follows found _ _ inductionHypothesis =>
      rw [List.forall_mem_cons]
      exact ⟨by simp [found], inductionHypothesis⟩

end Registry.Walk

/-! ## Shapes -/

/-- A shape of its own is the nearest one, and without it the nearest of the others is. -/
theorem Shape.nearest_cons (shape : Shape) (shapes : List Shape) :
    nearest (shape :: shapes) = if shape.isArray then shape else nearest shapes := by
  unfold nearest
  rw [List.find?_cons]
  cases shape.isArray with
  | true => rfl
  | false => rfl

/-- Only a single value is no array. -/
theorem Shape.eq_scalar {shape : Shape} (single : shape.isArray = false) : shape = .scalar := by
  cases shape with
  | scalar => rfl
  | fixed | varying => cases single

/-- A definition says nothing about the shapes of other names. -/
theorem shapeWritten_concat_of_ne {definitions : List Definition} {definition : Definition}
    {name : String} (differs : definition.typeName ≠ some name) :
    shapeWritten (definitions ++ [definition]) name = shapeWritten definitions name := by
  simp [shapeWritten, List.find?_append, differs]

/-- The first definition of a name says what its shape is. -/
theorem shapeWritten_concat_of_new {definitions : List Definition} {definition : Definition}
    {name : String} (named : definition.typeName = some name)
    (new : forall each, each ∈ definitions -> each.typeName ≠ some name) :
    shapeWritten (definitions ++ [definition]) name = definition.shape := by
  have undefined : definitions.find? (·.typeName = some name) = none :=
    List.find?_eq_none.mpr fun each listed => by simpa using new each listed
  simp [shapeWritten, List.find?_append, undefined, named]

/-! ## Completed types -/

/-- What is bound to a name agrees with what is found by following names from it. -/
structure Registry.Settles (registry : Registry) (written : String -> Shape) (name : String)
    (entry : TypeRef) (path : List String) (final : TypeRef) : Prop where
  walk : registry.Walk name path final
  ground : final.Ground
  routine : entry.routine = final.routine
  shape : entry.shape = Shape.nearest (path.map written)

/-- A type as written is completed to what is found by following names. -/
theorem Registry.Settles.complete?_eq {registry : Registry} {written : String -> Shape}
    {type entry final : TypeRef} {path : List String}
    (settles : registry.Settles written type.base entry path final)
    (found : registry.lookup type.base = some entry) (declares : type.isVoid = false)
    (notInherited : type.inherited = false) :
    registry.complete? type =
      some { type with
        routine := final.routine
        shape := Shape.nearest (type.shape :: path.map written)
        inherited := Shape.nearest (type.shape :: path.map written) ≠ type.shape } := by
  obtain ⟨base, routine, shape, inherited, isVoid⟩ := type
  cases declares
  cases notInherited
  have completed : registry.complete? ⟨base, routine, shape, false, false⟩ =
      some (if !shape.isArray && entry.shape.isArray then
          ⟨base, entry.routine, entry.shape, true, false⟩
        else ⟨base, entry.routine, shape, false, false⟩) := by
    simp [complete?, inherited?, found]
  rw [completed, Shape.nearest_cons, <- settles.shape, settles.routine]
  cases own : shape.isArray with
  | true => simp
  | false =>
      cases Shape.eq_scalar own
      cases array : entry.shape.isArray with
      | true =>
          have differs : entry.shape ≠ .scalar := by
            intro same
            rw [same] at array
            cases array
          simp [differs]
      | false => simp [Shape.eq_scalar array]

/-! ## Steps and runs -/

/-- Everything in the registry of a session agrees with what is found by following
names, and what has been accepted is known. -/
structure Session.Settled (session : Session) : Prop where
  known : forall definition, definition ∈ session.accepted ->
    forall name, definition.typeName = some name -> session.compiler.registry.lookup name ≠ none
  settles : forall name entry, session.compiler.registry.lookup name = some entry ->
    ∃ path final,
      session.compiler.registry.Settles (shapeWritten session.accepted) name entry path final

/-- At the start only the built-in types are known. -/
theorem Session.settled_start : start.Settled where
  known := by simp [start]
  settles := by
    intro name entry found
    have found : Registry.builtin.lookup name = some entry := found
    rcases Registry.builtin_cases name with ⟨routine, listed, known⟩ | ⟨-, unknown⟩
    · obtain rfl : TypeRef.primitive name routine = entry := by simpa [known] using found
      exact ⟨[], _, .ends known rfl, .primitive listed, rfl, rfl⟩
    · rw [unknown] at found
      cases found

namespace Session.Settled

variable {session next : Session}

/-- A type that is completed and bound to a new name agrees with what is found from
that name. -/
theorem settles_completed (settled : session.Settled) {name : String} {type entry : TypeRef}
    (fresh : session.compiler.registry.lookup name = none) (declares : type.isVoid = false)
    (notInherited : type.inherited = false)
    (completed : session.compiler.registry.complete? type = some entry)
    {written : String -> Shape} (own : written name = type.shape)
    (others : forall other, other ≠ name -> written other = shapeWritten session.accepted other) :
    ∃ path final, (session.compiler.registry.insert name entry).Settles written name entry
      path final := by
  obtain ⟨base, found, -⟩ := Registry.complete?_eq_some declares completed
  obtain ⟨path, final, settles⟩ := settled.settles type.base base found
  have refers : type.base ≠ name := by
    intro same
    rw [same, fresh] at found
    cases found
  have shapes : path.map written = path.map (shapeWritten session.accepted) := by
    refine List.map_congr_left fun each onPath => others each ?_
    rintro rfl
    exact settles.walk.bound each onPath fresh
  rw [settles.complete?_eq found declares notInherited] at completed
  cases completed
  have bound : forall entry,
      (session.compiler.registry.insert name entry).lookup name = some entry :=
    fun entry => by rw [Registry.lookup_insert, if_pos rfl]
  refine ⟨name :: path, final, .follows (bound _) refers ?_, settles.ground, rfl, ?_⟩
  · show (session.compiler.registry.extend (some (name, _))).Walk _ _ _
    refine settles.walk.extend fun new type bound => ?_
    cases bound
    exact fresh
  · rw [List.map_cons, own, shapes]

/-- What agrees keeps agreeing when a further type becomes known, if its name is new
and the type agrees itself. -/
theorem extend (settled : session.Settled) {binding : Option (String × TypeRef)}
    (registry : next.compiler.registry = session.compiler.registry.extend binding)
    (fresh : forall name type, binding = some (name, type) ->
      session.compiler.registry.lookup name = none)
    (accepted : forall definition, definition ∈ next.accepted ->
      definition ∈ session.accepted ∨ definition.typeName = binding.map (·.1))
    (written : forall other, (forall type, binding ≠ some (other, type)) ->
      shapeWritten next.accepted other = shapeWritten session.accepted other)
    (settles : forall name type, binding = some (name, type) -> ∃ path final,
      (session.compiler.registry.insert name type).Settles (shapeWritten next.accepted) name type
        path final) :
    next.Settled where
  known := by
    intro definition listed name named
    rw [registry]
    by_cases new : ∃ type, binding = some (name, type)
    · obtain ⟨type, rfl⟩ := new
      simp [Registry.extend]
    · have differs : forall type, binding ≠ some (name, type) := fun type same => new ⟨type, same⟩
      rw [Registry.lookup_extend_ne differs]
      rcases accepted definition listed with before | same
      · exact settled.known definition before name named
      · obtain ⟨⟨other, type⟩, bound, rfl⟩ := Option.map_eq_some_iff.mp (same.symm.trans named)
        exact absurd bound (differs type)
  settles := by
    intro name entry found
    rw [registry] at found ⊢
    by_cases new : ∃ type, binding = some (name, type)
    · obtain ⟨type, rfl⟩ := new
      obtain rfl : type = entry := by simpa [Registry.extend] using found
      exact settles name type rfl
    · rw [Registry.lookup_extend_ne fun type same => new ⟨type, same⟩] at found
      obtain ⟨path, final, walk, ground, routine, shape⟩ := settled.settles name entry found
      refine ⟨path, final, walk.extend fresh, ground, routine, ?_⟩
      rw [shape, List.map_congr_left fun each onPath => (written each ?_).symm]
      intro type bound
      exact walk.bound each onPath (fresh each type bound)

/-- The record of a new name agrees with what is found from it, as it refers to
itself. -/
theorem settles_record (registry : Registry) (written : String -> Shape) (name : String) :
    ∃ path final, (registry.insert name (.record name)).Settles written name (.record name)
      path final := by
  refine ⟨[], .record name, .ends ?_ rfl, .record name, rfl, rfl⟩
  rw [Registry.lookup_insert, if_pos rfl]

/-- The type that an accepted definition binds to its name agrees with what is found
from that name. -/
theorem settles_bound (settled : session.Settled) {isReserved : String -> Bool}
    {definition : Definition} {name : String} {type : TypeRef} {emission : Option Emission}
    (verdict : Verdict.Accepted isReserved session.compiler.registry definition
      (some (name, type)) emission)
    (asWritten : definition.Written) {written : String -> Shape}
    (own : written name = definition.shape)
    (others : forall other, other ≠ name -> written other = shapeWritten session.accepted other) :
    ∃ path final, (session.compiler.registry.insert name type).Settles written name type
      path final := by
  have fresh := verdict.fresh_name verdict.bound_name.symm
  -- Only enumerations and type definitions refer to another type.
  cases verdict with
  | enum _ _ completed => exact settled.settles_completed fresh rfl rfl completed.known own others
  | typedef declares _ completed =>
      exact settled.settles_completed fresh declares asWritten completed.known own others
  | struct | union => exact settles_record _ _ _

/-- An accepted definition as written keeps a session settled. -/
theorem accept (settled : session.Settled) {isReserved : String -> Bool} {definition : Definition}
    {binding : Option (String × TypeRef)} {emission : Option Emission}
    (verdict : Verdict.Accepted isReserved session.compiler.registry definition binding emission)
    (written : definition.Written)
    (registry : next.compiler.registry = session.compiler.registry.extend binding)
    (accepted : next.accepted = session.accepted ++ [definition]) : next.Settled := by
  have others : forall other, definition.typeName ≠ some other ->
      shapeWritten next.accepted other = shapeWritten session.accepted other := by
    intro other differs
    rw [accepted]
    exact shapeWritten_concat_of_ne differs
  refine settled.extend registry ?_ ?_ ?_ ?_
  · rintro name type rfl
    exact verdict.fresh_name verdict.bound_name.symm
  · intro each listed
    rw [accepted, List.mem_append, List.mem_singleton] at listed
    rcases listed with before | rfl
    · exact .inl before
    · exact .inr verdict.bound_name.symm
  · intro other differs
    refine others other fun named => ?_
    obtain ⟨⟨same, type⟩, bound, rfl⟩ := Option.map_eq_some_iff.mp (verdict.bound_name.trans named)
    exact differs type bound
  · rintro name type rfl
    have named : definition.typeName = some name := verdict.bound_name.symm
    refine settled.settles_bound verdict written ?_ ?_
    · rw [accepted]
      refine shapeWritten_concat_of_new named fun each listed same => ?_
      exact settled.known each listed name same (verdict.fresh_name named)
    · intro other differs
      refine others other fun same => differs ?_
      exact Option.some.inj (same.symm.trans named)

/-- A refused definition keeps a session settled, also if it leaves a record behind. -/
theorem refuse (settled : session.Settled) {binding : Option (String × TypeRef)}
    (records : forall name type, binding = some (name, type) ->
      type = .record name ∧ session.compiler.registry.lookup name = none)
    (registry : next.compiler.registry = session.compiler.registry.extend binding)
    (accepted : next.accepted = session.accepted) : next.Settled := by
  refine settled.extend registry ?_ ?_ ?_ ?_
  · intro name type bound
    exact (records name type bound).2
  · intro each listed
    exact .inl (accepted ▸ listed)
  · intro other _
    rw [accepted]
  · intro name type bound
    obtain ⟨rfl, -⟩ := records name type bound
    exact settles_record _ _ _

/-- Every submission of a definition as written keeps a session settled. -/
theorem submit (settled : session.Settled) (isReserved : Reservation) {definition : Definition}
    (written : definition.Written) : (session.submit isReserved definition).Settled := by
  rcases session.submit_cases isReserved definition with
    ⟨accepted, submits⟩ | ⟨accepted, error, submits⟩
  · cases submits with
    | accepted verdict registry => exact settled.accept verdict written registry accepted
  · cases submits with
    | refused registry =>
        have registry : _ = session.compiler.registry.extend none := registry
        exact settled.refuse (by simp) registry accepted
    | @refusedRecord _ name named new registry =>
        have registry : _ = session.compiler.registry.extend (some (name, .record name)) := registry
        refine settled.refuse ?_ registry accepted
        rintro other type ⟨⟩
        exact ⟨rfl, new.fresh⟩

end Session.Settled

/-- Completing a type as written gives what is found by following the names that types
refer to, after any definitions have been submitted. -/
theorem Session.complete?_eq_walk (isReserved : Reservation) (definitions : List Definition)
    (parsed : forall definition, definition ∈ definitions -> definition.Parsed) (type : TypeRef)
    (typeParsed : type.Parsed) (declares : type.isVoid = false) :
    let session := Session.run isReserved definitions
    let registry := session.compiler.registry
    ((registry.complete? type).isSome ↔ registry.contains type.base) ∧
      (registry.contains type.base -> ∃ path final,
        registry.Walk type.base path final ∧ final.Ground ∧
        (forall others other, registry.Walk type.base others other ->
          others = path ∧ other = final) ∧
        let shape := Shape.nearest (type.shape :: path.map (shapeWritten session.accepted))
        registry.complete? type =
          some { type with routine := final.routine, shape, inherited := shape ≠ type.shape }) := by
  intro session registry
  have settled : session.Settled :=
    run_invariant isReserved settled_start
      (fun _ _ parsed settled => settled.submit isReserved parsed.written) definitions parsed
  refine ⟨?_, ?_⟩
  · simp [Registry.complete?, declares, Registry.inherited?, Registry.contains]
  · intro known
    obtain ⟨entry, found⟩ := Option.isSome_iff_exists.mp known
    obtain ⟨path, final, settles⟩ := settled.settles type.base entry found
    refine ⟨path, final, settles.walk, settles.ground,
      fun _ _ again => settles.walk.unique again, ?_⟩
    exact settles.complete?_eq found declares typeParsed.not_inherited

/-- A name of a name of an array type takes over that array, also after a structure
was refused. -/
theorem Session.complete?_eq_walk_handle :
    let blob := Definition.typedef ⟨"blob", .shaped "opaque" (.varying none), 1⟩
    let node := Definition.struct "node" [⟨"next", .named "missing", 1⟩] 1
    let handle := Definition.typedef ⟨"handle", .named "blob", 1⟩
    let type := TypeRef.named "handle"
    (forall definition, definition ∈ [blob, node, handle] -> definition.Parsed) ∧ type.Parsed ∧
      type.isVoid = false ∧
      let registry := (Session.run (.fixed fun _ => false) [blob, node, handle]).compiler.registry
      (∃ path final, registry.Walk "handle" path final ∧ final.Ground ∧
        some final.routine = (registry.complete? type).map (·.routine)) ∧
      registry.complete? type = some ⟨"handle", some "opaque", .varying none, true, false⟩ := by
  intro blob node handle type
  have parsed : forall definition, definition ∈ [blob, node, handle] -> definition.Parsed := by
    have blobParsed : blob.Parsed :=
      ⟨(Lexing.ofText "typedef opaque blob<>;").stream, ⟨[], ⟨1, 22⟩⟩, by decide +kernel⟩
    have nodeParsed : node.Parsed :=
      ⟨(Lexing.ofText "struct node \x7b missing next; \x7d;").stream, ⟨[], ⟨1, 30⟩⟩,
        by decide +kernel⟩
    have handleParsed : handle.Parsed :=
      ⟨(Lexing.ofText "typedef blob handle;").stream, ⟨[], ⟨1, 20⟩⟩, by decide +kernel⟩
    simp [blobParsed, nodeParsed, handleParsed]
  have typeParsed : type.Parsed :=
    .inr ⟨⟨[⟨.identifier "handle", 1, 1⟩], .start⟩, ⟨[], .start⟩, by decide +kernel⟩
  refine ⟨parsed, typeParsed, rfl, ?_, by decide +kernel⟩
  obtain ⟨-, agrees⟩ :=
    complete?_eq_walk (.fixed fun _ => false) [blob, node, handle] parsed type typeParsed rfl
  obtain ⟨path, final, walk, ground, -, completed⟩ := agrees (by decide +kernel)
  exact ⟨path, final, walk, ground, by rw [completed]; rfl⟩

end XdrPack
