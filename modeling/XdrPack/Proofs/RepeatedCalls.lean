import XdrPack.Proofs.Recognition

/-!
# Calling the parser again and again

The parser is asked for one definition after the other, also behind errors and behind the end
of the input. Every call consumes a token, and at most one of the tokens that it consumes is
the end. So an input of `n` tokens is exhausted after `n` calls, whatever these return, and all
further calls say that there is nothing left.

The end of the input follows the tokens for ever and a stream does not count how often it is
consumed. It is made to count by writing the end out a number of times: no parser can tell the
tokens that are written out from those that follow by themselves.
-/

namespace XdrPack

/-- What a parser returns, without what it leaves. -/
def Reply.outcome {α : Type} : Reply α -> Except SyntaxError α
  | accepted value _ => .ok value
  | rejected error _ => .error error

namespace TokenStream

/-- The end of the input, as a token. -/
def ending (stream : TokenStream) : Token :=
  ⟨.endOfInput, stream.finish.line, stream.finish.column⟩

/-- The stream with the end of its input written out a number of times. -/
def extended (stream : TokenStream) (ends : Nat) : TokenStream :=
  { stream with unread := stream.unread ++ List.replicate ends stream.ending }

/-- What is left before the call with the given number, counting from zero. -/
def before (stream : TokenStream) : Nat -> TokenStream
  | 0 => stream
  | index + 1 => (Parser.definition?.run (stream.before index)).rest

/-- What the call with the given number returns. -/
def outcomeAt (stream : TokenStream) (index : Nat) : Except SyntaxError (Option Definition) :=
  (Parser.definition?.run (stream.before index)).outcome

/-! ## Writing out the end -/

/-- Without more ends a stream stays the same. -/
theorem extended_zero (stream : TokenStream) : stream.extended 0 = stream := by
  simp [extended]

/-- The ends are behind all tokens. -/
theorem extended_after (stream : TokenStream) (tokens : List Token) (ends : Nat) :
    (stream.after tokens).extended ends = (stream.extended ends).after tokens := by
  simp [extended, after, ending]

/-- Writing out the end does not change what comes next. -/
theorem next_extended (stream : TokenStream) (ends : Nat) :
    (stream.extended ends).next = stream.next := by
  obtain ⟨unread, finish⟩ := stream
  cases unread with
  | cons token rest => rfl
  | nil => cases ends <;> rfl

/-- Behind all tokens, advancing takes one of the ends away. -/
theorem advance_extended_of_nil {stream : TokenStream} (empty : stream.unread = []) (ends : Nat) :
    (stream.extended ends).advance = stream.extended (ends - 1) := by
  cases ends <;> simp [extended, advance, empty, List.replicate_succ, ending]

/-! ## One call -/

/-- What a call does: what it returns, the tokens that it consumes before the end, what it
leaves, and how often it consumes the end itself. -/
structure Call (stream : TokenStream) (outcome : Except SyntaxError (Option Definition))
    (tokens : List Token) (rest : TokenStream) (ends : Nat) : Prop where
  split : stream = rest.after tokens
  once : ends <= 1
  /-- The end is consumed behind all tokens. -/
  last : 0 < ends -> rest.unread = []
  /-- Where no other token is consumed, the end is. -/
  progress : tokens = [] -> 0 < ends
  none_iff : outcome = .ok none ↔ tokens = []
  returns : forall written,
    (Parser.definition?.run (stream.extended written)).outcome = outcome
  leaves : forall written,
    (Parser.definition?.run (stream.extended written)).rest = rest.extended (written - ends)

/-- A call at the end of the input consumes the end. -/
theorem call_of_nil {stream : TokenStream} (empty : stream.unread = []) :
    stream.Call (.ok none) [] stream 1 := by
  have run : forall written, Parser.definition?.run (stream.extended written) =
      .accepted none (stream.extended (written - 1)) := by
    intro written
    have atEnd : stream.next.kind = .endOfInput := by simp [next, empty]
    rw [Parser.run_definition?, next_extended, if_pos atEnd, advance_extended_of_nil empty]
  refine ⟨rfl, Nat.le_refl 1, fun _ => empty, fun _ => Nat.one_pos, by simp, ?_, ?_⟩
  · intro written
    rw [run]
    rfl
  · intro written
    rw [run]
    rfl

/-- A call that returns a definition consumes its tokens. -/
theorem call_of_accepted {stream rest : TokenStream} {definition : Definition}
    (reply : Parser.definition.run stream = .accepted (some definition) rest) :
    ∃ tokens, stream.Call (.ok (some definition)) tokens rest 0 := by
  obtain ⟨tokens, rfl, derived, again⟩ := Parser.definition_reads.accepts reply
  have notEmpty : tokens ≠ [] := by
    rintro rfl
    obtain ⟨word, others, impossible, -⟩ := Parser.someDefinition_starts derived
    cases impossible
  have run : forall written, Parser.definition?.run ((rest.after tokens).extended written) =
      .accepted (some definition) (rest.extended written) := by
    intro written
    rw [extended_after]
    exact accepted_some_iff.mpr (again _ (next_extended rest written))
  refine ⟨tokens, rfl, by omega, by simp, fun empty => absurd empty notEmpty, by simp [notEmpty],
    ?_, ?_⟩
  · intro written
    rw [run]
    rfl
  · intro written
    rw [run]
    rfl

/-- A call that fails consumes the token at fault, which may be the end. -/
theorem call_of_rejected {stream rest : TokenStream} {error : SyntaxError}
    (notEnd : stream.next.kind ≠ .endOfInput)
    (reply : Parser.definition.run stream = .rejected error rest) :
    ∃ tokens ends, stream.Call (.error error) tokens rest ends := by
  obtain ⟨tokens, fault, rfl, rfl, -, -, again⟩ := Parser.definition_reads.rejects reply
  have run : forall written, Parser.definition?.run ((fault.after tokens).extended written) =
      .rejected error (fault.extended written).advance := by
    intro written
    rw [Parser.run_definition?, next_extended, if_neg notEnd, extended_after]
    exact again _ (next_extended fault written)
  cases unread : fault.unread with
  | nil =>
      have left : fault.advance = fault := by
        simpa [extended_zero] using advance_extended_of_nil unread 0
      have notEmpty : tokens ≠ [] := by
        rintro rfl
        exact notEnd (by simp [next, unread])
      refine ⟨tokens, 1, ?_⟩
      rw [left]
      refine ⟨rfl, Nat.le_refl 1, fun _ => unread, fun _ => Nat.one_pos, by simp [notEmpty], ?_, ?_⟩
      · intro written
        rw [run]
        rfl
      · intro written
        rw [run]
        exact advance_extended_of_nil unread written
  | cons token others =>
      have first : fault = fault.advance.after [token] := by
        obtain ⟨_, finish⟩ := fault
        cases unread
        rfl
      refine ⟨tokens ++ [token], 0, ?_, by omega, by simp, by simp, by simp, ?_, ?_⟩
      · rw [after_append, <- first]
      · intro written
        rw [run]
        rfl
      · intro written
        rw [run]
        simp [Reply.rest, extended, advance, unread, ending]

/-- Every call does something, whatever is left of the input. -/
theorem exists_call {stream : TokenStream} (inside : stream.Inside) :
    ∃ outcome tokens rest ends, stream.Call outcome tokens rest ends := by
  by_cases atEnd : stream.next.kind = .endOfInput
  · exact ⟨_, _, _, _, call_of_nil (inside.unread_eq_nil atEnd)⟩
  · cases reply : Parser.definition.run stream with
    | rejected error rest =>
        obtain ⟨tokens, ends, call⟩ := call_of_rejected atEnd reply
        exact ⟨_, _, _, _, call⟩
    | accepted found rest =>
        cases found with
        | some definition =>
            obtain ⟨tokens, call⟩ := call_of_accepted reply
            exact ⟨_, _, _, _, call⟩
        | none =>
            obtain ⟨-, -, ⟨definition, -, impossible⟩, -⟩ := Parser.definition_reads.accepts reply
            cases impossible

/-- The tokens of a call stand in front of what it leaves, once the end is written out. -/
theorem Call.unread_extended {stream rest : TokenStream}
    {outcome : Except SyntaxError (Option Definition)} {tokens : List Token} {ends : Nat}
    (call : stream.Call outcome tokens rest ends) {written : Nat} (positive : 0 < written) :
    (stream.extended written).unread =
      tokens ++ List.replicate ends stream.ending ++ (rest.extended (written - ends)).unread := by
  obtain rfl := call.split
  have once := call.once
  obtain rfl | rfl : ends = 0 ∨ ends = 1 := by omega
  · simp [extended, after, ending]
  · obtain ⟨others, rfl⟩ : ∃ others, written = others + 1 := ⟨written - 1, by omega⟩
    simp [extended, after, ending, call.last Nat.one_pos, List.replicate_succ]

/-- A call shortens what is left. -/
theorem Call.length_le {stream rest : TokenStream}
    {outcome : Except SyntaxError (Option Definition)} {tokens : List Token} {ends : Nat}
    (call : stream.Call outcome tokens rest ends) :
    rest.unread.length <= stream.unread.length - 1 := by
  by_cases empty : tokens = []
  · simp [call.last (call.progress empty)]
  · have positive : 0 < tokens.length := List.length_pos_iff.mpr empty
    have total : stream.unread.length = tokens.length + rest.unread.length := by
      rw [call.split]
      exact List.length_append
    omega

/-- A call does the same with the end not written out. -/
theorem Call.run_eq {stream rest : TokenStream}
    {outcome : Except SyntaxError (Option Definition)} {tokens : List Token} {ends : Nat}
    (call : stream.Call outcome tokens rest ends) :
    (Parser.definition?.run stream).outcome = outcome ∧
      (Parser.definition?.run stream).rest = rest := by
  have returns := call.returns 0
  have leaves := call.leaves 0
  rw [extended_zero] at returns leaves
  rw [Nat.zero_sub, extended_zero] at leaves
  exact ⟨returns, leaves⟩

/-! ## All calls -/

/-- What holds before each call: how much is left at most, and how often the end has been
consumed by the calls so far. -/
structure Reached (stream : TokenStream) (index used : Nat) : Prop where
  inside : (stream.before index).Inside
  length_le : (stream.before index).unread.length <= stream.unread.length - index
  ending_eq : (stream.before index).ending = stream.ending
  used_le : used <= index
  extended_eq : forall written,
    (stream.extended written).before index = (stream.before index).extended (written - used)

/-- A call leads from one state that is reached to the next. -/
theorem Reached.step {stream rest : TokenStream} {index used : Nat}
    (reached : stream.Reached index used)
    {outcome : Except SyntaxError (Option Definition)} {tokens : List Token} {ends : Nat}
    (call : (stream.before index).Call outcome tokens rest ends) :
    stream.Reached (index + 1) (used + ends) := by
  have left : stream.before (index + 1) = rest := call.run_eq.2
  have inside := reached.inside
  have ending_eq := reached.ending_eq
  rw [call.split] at inside ending_eq
  refine ⟨?_, ?_, ?_, ?_, ?_⟩
  · rw [left]
    exact inside.of_after
  · have shorter := call.length_le
    have length_le := reached.length_le
    rw [left]
    omega
  · rw [left]
    exact ending_eq
  · exact Nat.add_le_add reached.used_le call.once
  · intro written
    rw [before, reached.extended_eq, call.leaves, left, Nat.sub_sub]

/-- Every state that the calls lead to is reached. -/
theorem Inside.exists_reached {stream : TokenStream} (inside : stream.Inside) (index : Nat) :
    ∃ used, stream.Reached index used := by
  induction index with
  | zero =>
      exact ⟨0, inside, Nat.le_refl _, rfl, Nat.le_refl 0, fun written => rfl⟩
  | succ index inductionHypothesis =>
      obtain ⟨used, reached⟩ := inductionHypothesis
      obtain ⟨outcome, tokens, rest, ends, call⟩ := exists_call reached.inside
      exact ⟨_, reached.step call⟩

/-- With nothing left, this and all further calls return nothing. -/
theorem outcomeAt_of_nil {stream : TokenStream} {index : Nat}
    (empty : (stream.before index).unread = []) {later : Nat} (behind : index <= later) :
    stream.outcomeAt later = .ok none := by
  have remains : (stream.before later).unread = [] := by
    induction behind with
    | refl => exact empty
    | @step later _ inductionHypothesis =>
        rw [before, (call_of_nil inductionHypothesis).run_eq.2]
        exact inductionHypothesis
  exact (call_of_nil remains).run_eq.1

/-! ## Parsing by calls -/

/-- The calls behind the first one are those on what it leaves. -/
theorem before_succ (stream : TokenStream) (index : Nat) :
    stream.before (index + 1) = (Parser.definition?.run stream).rest.before index := by
  induction index with
  | zero => rfl
  | succ index inductionHypothesis => rw [before, inductionHypothesis, before]

/-- What a later call returns is what an earlier one returns on the rest. -/
theorem outcomeAt_succ (stream : TokenStream) (index : Nat) :
    stream.outcomeAt (index + 1) = (Parser.definition?.run stream).rest.outcomeAt index := by
  rw [outcomeAt, outcomeAt, before_succ]

/-- What the calls return, one definition each, until one returns something else. -/
structure Collected (stream : TokenStream) (definitions : List Definition)
    (final : Except SyntaxError (Option Definition)) : Prop where
  defined : forall (place : Nat) (definition : Definition),
    definitions[place]? = some definition -> stream.outcomeAt place = .ok (some definition)
  ended : stream.outcomeAt definitions.length = final

/-- One more definition in front. -/
theorem Collected.cons {stream rest : TokenStream} {first : Definition}
    (reply : Parser.definition?.run stream = .accepted (some first) rest)
    {definitions : List Definition} {final : Except SyntaxError (Option Definition)}
    (collected : rest.Collected definitions final) :
    stream.Collected (first :: definitions) final := by
  have shift : forall index, stream.outcomeAt (index + 1) = rest.outcomeAt index := by
    intro index
    rw [outcomeAt_succ, reply]
    rfl
  refine ⟨?_, ?_⟩
  · intro place definition found
    cases place with
    | zero =>
        obtain rfl : first = definition := by simpa using found
        rw [outcomeAt, before, reply]
        rfl
    | succ place =>
        exact (shift place).trans (collected.defined place definition (by simpa using found))
  · exact (shift _).trans collected.ended

/-- Parsing returns what the calls return, up to the first that returns no definition. -/
theorem exists_collected (stream : TokenStream) :
    ∃ definitions, (stream.Collected definitions (.ok none) ∧ stream.parse = .ok definitions) ∨
      ∃ error, stream.Collected definitions (.error error) ∧ stream.parse = .error error := by
  fun_induction parse stream with
  | case1 stream error rest reply =>
      refine ⟨[], .inr ⟨error, ⟨by simp, ?_⟩, rfl⟩⟩
      rw [outcomeAt, List.length_nil, before, reply]
      rfl
  | case2 stream rest reply =>
      refine ⟨[], .inl ⟨⟨by simp, ?_⟩, rfl⟩⟩
      rw [outcomeAt, List.length_nil, before, reply]
      rfl
  | case3 stream first rest reply error failure inductionHypothesis =>
      obtain ⟨definitions, ⟨-, parsed⟩ | ⟨other, collected, failed⟩⟩ := inductionHypothesis
      · cases failure.symm.trans parsed
      · cases failure.symm.trans failed
        exact ⟨first :: definitions, .inr ⟨_, collected.cons reply, rfl⟩⟩
  | case4 stream first rest reply others parsed inductionHypothesis =>
      obtain ⟨definitions, ⟨collected, again⟩ | ⟨other, -, failed⟩⟩ := inductionHypothesis
      · cases parsed.symm.trans again
        exact ⟨first :: others, .inl ⟨collected.cons reply, rfl⟩⟩
      · cases parsed.symm.trans failed

/-! ## The result -/

/-- What one of the calls consumes, the end of the input included. The end is written out as
often as the call may ask for it, so that what it consumes can be seen. -/
structure Consumes (stream : TokenStream) (index : Nat) (consumed : List Token) : Prop where
  split : forall written, index < written ->
    ((stream.extended written).before index).unread =
      consumed ++ ((stream.extended written).before (index + 1)).unread
  progress : consumed ≠ []
  /-- The end is consumed once at most. -/
  once : consumed.countP (fun token => token.kind = .endOfInput) <= 1
  none_iff : stream.outcomeAt index = .ok none ↔ consumed = [stream.ending]
  /-- Once the end is consumed, nothing is returned any more. -/
  finished : (∃ token, token ∈ consumed ∧ token.kind = .endOfInput) ->
    forall later, index < later -> stream.outcomeAt later = .ok none

/-- Every call consumes something. -/
theorem Inside.exists_consumes {stream : TokenStream} (inside : stream.Inside) (index : Nat) :
    ∃ consumed, stream.Consumes index consumed := by
  obtain ⟨used, reached⟩ := inside.exists_reached index
  obtain ⟨outcome, tokens, rest, ends, call⟩ := exists_call reached.inside
  have next := reached.step call
  have left : stream.before (index + 1) = rest := call.run_eq.2
  have inner : forall token, token ∈ tokens -> token.kind ≠ .endOfInput := by
    intro token member
    refine reached.inside token ?_
    rw [call.split]
    exact List.mem_append_left rest.unread member
  refine ⟨tokens ++ List.replicate ends stream.ending, ?_, ?_, ?_, ?_, ?_⟩
  · intro written enough
    have positive : 0 < written - used := by
      have used_le := reached.used_le
      omega
    rw [reached.extended_eq, next.extended_eq, call.unread_extended positive, reached.ending_eq,
      left, Nat.sub_sub]
  · intro empty
    obtain ⟨empty, none⟩ := List.append_eq_nil_iff.mp empty
    have positive := call.progress empty
    simp at none
    omega
  · have zero : tokens.countP (fun token => token.kind = .endOfInput) = 0 :=
      List.countP_eq_zero.mpr (by simpa using inner)
    rw [List.countP_append, zero, Nat.zero_add]
    exact Nat.le_trans List.countP_le_length (by simpa using call.once)
  · have returns : stream.outcomeAt index = outcome := call.run_eq.1
    rw [returns, call.none_iff]
    constructor
    · intro empty
      have positive := call.progress empty
      have once := call.once
      obtain rfl : ends = 1 := by omega
      rw [empty]
      rfl
    · intro single
      cases tokens with
      | nil => rfl
      | cons token others =>
          obtain ⟨rfl, -⟩ := List.cons.inj single
          exact absurd rfl (inner _ List.mem_cons_self)
  · rintro ⟨token, member, isEnd⟩ later behind
    have positive : 0 < ends := by
      rcases List.mem_append.mp member with member | member
      · exact absurd isEnd (inner token member)
      · have notZero := (List.mem_replicate.mp member).1
        omega
    have empty : (stream.before (index + 1)).unread = [] := by
      rw [left]
      exact call.last positive
    exact outcomeAt_of_nil empty behind

/-- What a call returns does not depend on how often the end is written out. -/
theorem Inside.outcomeAt_extended {stream : TokenStream} (inside : stream.Inside)
    (written index : Nat) :
    (stream.extended written).outcomeAt index = stream.outcomeAt index := by
  obtain ⟨used, reached⟩ := inside.exists_reached index
  obtain ⟨outcome, tokens, rest, ends, call⟩ := exists_call reached.inside
  rw [outcomeAt, outcomeAt, reached.extended_eq, call.returns, call.run_eq.1]

/-- There are no more calls that return something than there are tokens. -/
theorem Inside.outcomeAt_of_length_le {stream : TokenStream} (inside : stream.Inside)
    {index : Nat} (enough : stream.unread.length <= index) :
    stream.outcomeAt index = .ok none := by
  obtain ⟨used, reached⟩ := inside.exists_reached stream.unread.length
  have empty : (stream.before stream.unread.length).unread = [] :=
    List.eq_nil_of_length_eq_zero (by simpa using reached.length_le)
  exact outcomeAt_of_nil empty enough

/-- Calling the parser makes progress with every call, behind errors too. Each call consumes
a token and the end at most once, it returns nothing exactly if it consumes the end alone,
and from then on all calls return nothing: after as many calls as there are tokens, whatever
they returned. So parsing, which calls until something other than a definition is returned,
makes no more calls than that and one. -/
theorem calls_progress (stream : TokenStream) (inside : stream.Inside) :
    (forall written index,
      (stream.extended written).outcomeAt index = stream.outcomeAt index) ∧
    (forall index, ∃ consumed, stream.Consumes index consumed) ∧
    (forall index, stream.unread.length <= index -> stream.outcomeAt index = .ok none) ∧
    ∃ definitions : List Definition, definitions.length <= stream.unread.length ∧
      ((stream.Collected definitions (.ok none) ∧ stream.parse = .ok definitions) ∨
        ∃ error, stream.Collected definitions (.error error) ∧ stream.parse = .error error) := by
  refine ⟨inside.outcomeAt_extended, inside.exists_consumes,
    fun index enough => inside.outcomeAt_of_length_le enough, ?_⟩
  -- A further definition would be returned by a call that returns nothing.
  have bounded : forall definitions final, stream.Collected definitions final ->
      definitions.length <= stream.unread.length := by
    intro definitions final collected
    by_contra longer
    have within : stream.unread.length < definitions.length := by omega
    have returned := collected.defined _ _ (List.getElem?_eq_getElem within)
    rw [inside.outcomeAt_of_length_le (Nat.le_refl _)] at returned
    cases returned
  obtain ⟨definitions, ⟨collected, parsed⟩ | ⟨error, collected, failed⟩⟩ := stream.exists_collected
  · exact ⟨definitions, bounded _ _ collected, .inl ⟨collected, parsed⟩⟩
  · exact ⟨definitions, bounded _ _ collected, .inr ⟨error, collected, failed⟩⟩

/-- A definition that breaks off, a word that starts none, and a definition that the end cuts
short: three calls fail, the last of them at the end, and all others return nothing. -/
theorem calls_progress_behind_errors :
    let stream : TokenStream := ⟨[⟨.keyword .typedef, 1, 1⟩, ⟨.mark .semicolon, 1, 9⟩,
      ⟨.identifier "next", 2, 1⟩, ⟨.keyword .enum, 3, 1⟩], .start⟩
    stream.Inside ∧
    (forall index, index < 3 -> ∃ error, stream.outcomeAt index = .error error) ∧
    stream.outcomeAt 3 = .ok none ∧
    forall index, 4 <= index ->
      stream.outcomeAt index = .ok none ∧ ∃ consumed, stream.Consumes index consumed := by
  intro stream
  have inside : stream.Inside := by simp [Inside, stream]
  obtain ⟨-, consumes, finished, -⟩ := calls_progress stream inside
  refine ⟨inside, ?_, by decide +kernel,
    fun index behind => ⟨finished index behind, consumes index⟩⟩
  intro index early
  have failed : forall index, index < 3 -> (stream.outcomeAt index).toOption = none := by
    decide +kernel
  cases returned : stream.outcomeAt index with
  | error error => exact ⟨error, rfl⟩
  | ok found =>
      have impossible := failed index early
      rw [returned] at impossible
      cases impossible

end TokenStream

end XdrPack
