import VerbChain.Proofs.Chain.Cursor

namespace VerbChain

/-!
# Where a program is refused

What the readers have taken when they refuse a token is how some program
begins.  The refused token is looked at and nothing behind it is, so the readers
refuse it whatever follows: no program goes on with it, and the end of input is
such a token, too.
-/

/-- The token that was refused: the end of input where no token is left. -/
def Refusal.next (refusal : Refusal) : Token :=
  refusal.rest.head?.getD .endOfInput

/-- With the end of input behind it, what is left starts with that token. -/
theorem Refusal.exists_rest_append (refusal : Refusal) :
    ∃ behind, refusal.rest ++ [.endOfInput] = refusal.next :: behind := by
  cases shape : refusal.rest with
  | nil => exact ⟨[], by simp [next, shape]⟩
  | cons token rest => exact ⟨rest ++ [.endOfInput], by simp [next, shape]⟩

namespace Reading

/--
A reader that has taken some tokens is stuck: they begin a phrase, and the next
token is refused whatever stands behind it.
-/
structure Stuck (spell : α → List Token)
    (read : List Token → Except Refusal β) (done : List Token)
    (refusal : Refusal) : Prop where
  begins : ∃ phrase, done <+: spell phrase
  blocked :
    ∀ other, ∃ again, read (done ++ refusal.next :: other) = .error again

theorem stuck_of_value
    {tokens : List Token}
    {refusal : Refusal}
    (refused : value tokens = .error refusal) :
    ∃ done,
      tokens = done ++ refusal.rest ∧
        Stuck Value.tokens value done refusal := by
  unfold value at refused
  split at refused
  case h_6 rest noName =>
    cases refused
    refine ⟨[.at], rfl, ⟨.function "", by simp [Value.tokens]⟩, ?_⟩
    intro other
    cases rest with
    | nil => exact ⟨_, rfl⟩
    | cons token rest =>
        cases token
        case identifier name => exact absurd rfl (noName name rest)
        all_goals exact ⟨_, rfl⟩
  case h_7 noNumber noString noBool noName noReference noAt =>
    cases refused
    refine ⟨[], rfl, ⟨.bool true, List.nil_prefix⟩, ?_⟩
    intro other
    cases tokens with
    | nil => exact ⟨_, rfl⟩
    | cons token rest =>
        cases token
        case number value => exact absurd rfl (noNumber value rest)
        case string content => exact absurd rfl (noString content rest)
        case bool value => exact absurd rfl (noBool value rest)
        case identifier name => exact absurd rfl (noName name rest)
        case «at» => exact absurd rfl (noAt rest)
        all_goals exact ⟨_, rfl⟩
  all_goals cases refused

/-- Where no value can be read there is no name in front of an equals sign. -/
private theorem argument_of_value_error
    {tokens : List Token}
    {refusal : Refusal}
    (refused : value tokens = .error refusal) :
    argument tokens = .error refusal := by
  have unnamed : ∀ name tail, tokens ≠ .identifier name :: .equals :: tail := by
    rintro name tail rfl
    cases refused
  rw [argument_unnamed unnamed, refused]
  rfl

theorem stuck_of_argument
    {tokens : List Token}
    {refusal : Refusal}
    (refused : argument tokens = .error refusal) :
    ∃ done,
      tokens = done ++ refusal.rest ∧
        Stuck Argument.tokens argument done refusal := by
  unfold argument at refused
  split at refused
  · next name tail =>
      cases read : value tail with
      | ok pair =>
          rw [read] at refused
          cases refused
      | error cause =>
          rw [read] at refused
          cases refused
          obtain ⟨done, rfl, ⟨given, begins⟩, blocked⟩ := stuck_of_value read
          refine ⟨.identifier name :: .equals :: done, rfl,
            ⟨.named name given, ?_⟩, ?_⟩
          · simpa [Argument.tokens, Argument.named] using begins
          · intro other
            obtain ⟨again, stuck⟩ := blocked other
            refine ⟨again, ?_⟩
            simp only [List.cons_append, argument, stuck]
            rfl
  · cases read : value tokens with
    | ok pair =>
        rw [read] at refused
        cases refused
    | error cause =>
        rw [read] at refused
        cases refused
        obtain ⟨done, shape, ⟨given, begins⟩, blocked⟩ := stuck_of_value read
        refine ⟨done, shape, ⟨.positional given, begins⟩, ?_⟩
        intro other
        obtain ⟨again, stuck⟩ := blocked other
        exact ⟨again, argument_of_value_error stuck⟩

/-- The token behind an argument is the only one that it depends on. -/
private theorem argument_of_next
    {tokens rest : List Token}
    {token : Token}
    {first : Argument}
    (read : argument tokens = .ok (first, token :: rest))
    (other : List Token) :
    argument (first.tokens ++ token :: other) =
      .ok (first, token :: other) := by
  by_cases equals : token = .equals
  · subst equals
    have shape := eq_of_argument read
    obtain ⟨name, given⟩ := first
    cases name with
    | some name =>
        simp only [Argument.tokens, List.cons_append, argument, value_tokens]
        rfl
    | none =>
        cases given
        case identifier name =>
          -- The name in front of the equals sign would have been read as one.
          subst shape
          cases valued : value rest with
          | error refusal =>
              simp [Argument.tokens, Value.tokens, argument, valued,
                Except.map] at read
          | ok pair =>
              simp [Argument.tokens, Value.tokens, argument, valued,
                Except.map, Argument.named] at read
        all_goals rfl
  · exact argument_tokens first (by simpa using equals)

/-- Arguments with a comma between each two, and the parenthesis behind them. -/
def argumentsTokens (given : Argument × List Argument) : List Token :=
  joined [.comma] ((given.1 :: given.2).map Argument.tokens) ++ [.rightParen]

private theorem argumentsTokens_cons
    (first second : Argument)
    (others : List Argument) :
    argumentsTokens (first, second :: others) =
      first.tokens ++ .comma :: argumentsTokens (second, others) := by
  simp [argumentsTokens, joined]

theorem stuck_of_arguments
    {tokens : List Token}
    {refusal : Refusal}
    (refused : arguments tokens = .error refusal) :
    ∃ done,
      tokens = done ++ refusal.rest ∧
        Stuck argumentsTokens arguments done refusal := by
  fun_induction arguments tokens with
  | case1 tokens cause read =>
      cases refused
      obtain ⟨done, shape, ⟨given, begins⟩, blocked⟩ := stuck_of_argument read
      refine ⟨done, shape, ⟨(given, []), ?_⟩, ?_⟩
      · exact begins.trans (List.prefix_append _ _)
      · intro other
        obtain ⟨again, stuck⟩ := blocked other
        rw [arguments, stuck]
        exact ⟨again, rfl⟩
  | case2 tokens first tail read inductionHypothesis =>
      cases more : arguments tail with
      | ok pair =>
          rw [more] at refused
          cases refused
      | error cause =>
          rw [more] at refused
          cases refused
          obtain ⟨done, rfl, ⟨⟨second, others⟩, begins⟩, blocked⟩ :=
            inductionHypothesis more
          refine ⟨first.tokens ++ .comma :: done, ?_,
            ⟨(first, second :: others), ?_⟩, ?_⟩
          · rw [eq_of_argument read, List.append_assoc, List.cons_append]
          · rw [argumentsTokens_cons, List.prefix_append_right_inj]
            exact List.cons_prefix_cons.2 ⟨rfl, begins⟩
          · intro other
            obtain ⟨again, stuck⟩ := blocked other
            rw [List.append_assoc, List.cons_append, arguments,
              argument_tokens first (by simp)]
            simp only [stuck]
            exact ⟨again, rfl⟩
  | case3 => cases refused
  | case4 tokens first rest noComma noParen read =>
      cases refused
      refine ⟨first.tokens, eq_of_argument read,
        ⟨(first, []), List.prefix_append _ _⟩, ?_⟩
      intro other
      cases rest with
      | nil =>
          rw [arguments, argument_tokens first (by simp [Refusal.next])]
          exact ⟨_, rfl⟩
      | cons token rest =>
          show ∃ again,
            arguments (first.tokens ++ token :: other) = .error again
          rw [arguments, argument_of_next read other]
          cases token
          case comma => exact absurd rfl (noComma rest)
          case rightParen => exact absurd rfl (noParen rest)
          all_goals exact ⟨_, rfl⟩

/-- What does not start with a mark does not with the refused token, either. -/
private theorem head?_append_next
    {done : List Token}
    {refusal : Refusal}
    {mark : Token}
    (counts : mark ≠ .endOfInput)
    (differs : (done ++ refusal.rest).head? ≠ some mark)
    (other : List Token) :
    (done ++ refusal.next :: other).head? ≠ some mark := by
  cases done with
  | cons token done => exact differs
  | nil =>
      cases rest : refusal.rest with
      | nil => simpa [Refusal.next, rest] using counts.symm
      | cons token behind => simpa [Refusal.next, rest] using differs

theorem stuck_of_call
    {tokens : List Token}
    {refusal : Refusal}
    (refused : call tokens = .error refusal) :
    ∃ done,
      tokens = done ++ refusal.rest ∧
        Stuck Call.tokens call done refusal := by
  unfold call at refused
  split at refused
  case h_1 => cases refused
  case h_2 name inner unclosed =>
    cases read : arguments inner with
    | ok pair =>
        rw [read] at refused
        cases refused
    | error cause =>
        rw [read] at refused
        cases refused
        obtain ⟨done, shape, ⟨⟨first, others⟩, begins⟩, blocked⟩ :=
          stuck_of_arguments read
        refine ⟨.identifier name :: .leftParen :: done,
          congrArg (.identifier name :: .leftParen :: ·) shape,
          ⟨⟨name, first :: others⟩, ?_⟩, ?_⟩
        · exact List.cons_prefix_cons.2
            ⟨rfl, List.cons_prefix_cons.2 ⟨rfl, begins⟩⟩
        · intro other
          have opened : inner.head? ≠ .some .rightParen := by
            intro closes
            obtain ⟨behind, same⟩ := List.head?_eq_some_iff.1 closes
            exact unclosed behind same
          have openedStill :=
            head?_append_next (by simp) (shape ▸ opened) other
          obtain ⟨again, stuck⟩ := blocked other
          refine ⟨again, ?_⟩
          rw [List.cons_append, List.cons_append, call_open openedStill, stuck]
          rfl
  case h_3 name rest noEmpty noParen =>
    cases refused
    refine ⟨[.identifier name], rfl, ⟨⟨name, []⟩, by simp [Call.tokens]⟩, ?_⟩
    intro other
    cases rest with
    | nil => exact ⟨_, rfl⟩
    | cons token rest =>
        cases token
        case leftParen => exact absurd rfl (noParen rest)
        all_goals exact ⟨_, rfl⟩
  case h_4 noEmpty noParen noName =>
    cases refused
    refine ⟨[], rfl, ⟨⟨"", []⟩, List.nil_prefix⟩, ?_⟩
    intro other
    cases tokens with
    | nil => exact ⟨_, rfl⟩
    | cons token rest =>
        cases token
        case identifier name => exact absurd rfl (noName name rest)
        all_goals exact ⟨_, rfl⟩

/-- Calls with a point between each two. -/
def callsTokens (given : Call × List Call) : List Token :=
  joined [.dot] ((given.1 :: given.2).map Call.tokens)

private theorem callsTokens_cons
    (first second : Call)
    (others : List Call) :
    callsTokens (first, second :: others) =
      first.tokens ++ .dot :: callsTokens (second, others) := by
  simp [callsTokens, joined]

private theorem prefix_callsTokens (first : Call) (others : List Call) :
    first.tokens <+: callsTokens (first, others) := by
  cases others with
  | nil => exact List.prefix_refl _
  | cons second others =>
      rw [callsTokens_cons]
      exact List.prefix_append _ _

theorem stuck_of_calls
    {tokens : List Token}
    {refusal : Refusal}
    (refused : calls tokens = .error refusal) :
    ∃ done,
      tokens = done ++ refusal.rest ∧
        Stuck callsTokens calls done refusal := by
  fun_induction calls tokens with
  | case1 tokens cause read =>
      cases refused
      obtain ⟨done, shape, ⟨given, begins⟩, blocked⟩ := stuck_of_call read
      refine ⟨done, shape, ⟨(given, []), begins⟩, ?_⟩
      intro other
      obtain ⟨again, stuck⟩ := blocked other
      rw [calls, stuck]
      exact ⟨again, rfl⟩
  | case2 => cases refused
  | case3 tokens first tail read inductionHypothesis =>
      cases more : calls tail with
      | ok others =>
          rw [more] at refused
          cases refused
      | error cause =>
          rw [more] at refused
          cases refused
          obtain ⟨done, rfl, ⟨⟨second, others⟩, begins⟩, blocked⟩ :=
            inductionHypothesis more
          refine ⟨first.tokens ++ .dot :: done, ?_,
            ⟨(first, second :: others), ?_⟩, ?_⟩
          · rw [eq_of_call read, List.append_assoc, List.cons_append]
          · rw [callsTokens_cons, List.prefix_append_right_inj]
            exact List.cons_prefix_cons.2 ⟨rfl, begins⟩
          · intro other
            obtain ⟨again, stuck⟩ := blocked other
            rw [List.append_assoc, List.cons_append, calls, call_tokens]
            simp only [stuck]
            exact ⟨again, rfl⟩
  | case4 tokens first rest some noDot read =>
      cases refused
      refine ⟨first.tokens, eq_of_call read,
        ⟨(first, []), prefix_callsTokens first []⟩, ?_⟩
      intro other
      rw [calls, call_tokens]
      cases rest with
      | nil => exact absurd rfl some
      | cons token rest =>
          cases token
          case dot => exact absurd rfl (noDot rest)
          all_goals exact ⟨_, rfl⟩

end Reading

namespace Chain

theorem stuck_of_ofTokens
    {tokens : List Token}
    {refusal : Refusal}
    (refused : ofTokens tokens = .error refusal) :
    ∃ done,
      tokens = done ++ refusal.rest ∧
        Reading.Stuck Chain.tokens ofTokens done refusal := by
  have grammar {given : List Token} (some : given ≠ []) :
      ofTokens given = (Reading.calls given).map Chain.mk := by
    cases given with
    | nil => exact absurd rfl some
    | cons token others => rfl
  have some : tokens ≠ [] := by
    rintro rfl
    cases refused
  rw [grammar some] at refused
  cases read : Reading.calls tokens with
  | ok calls =>
      rw [read] at refused
      cases refused
  | error cause =>
      rw [read] at refused
      cases refused
      obtain ⟨done, shape, ⟨⟨first, others⟩, begins⟩, blocked⟩ :=
        Reading.stuck_of_calls read
      refine ⟨done, shape, ⟨⟨first :: others⟩, begins⟩, ?_⟩
      intro other
      obtain ⟨again, stuck⟩ := blocked other
      refine ⟨again, ?_⟩
      rw [grammar (by simp), stuck]
      rfl

/-- No program, with an end of input behind it, goes on with a refused token. -/
private theorem not_prefix_of_stuck
    {done : List Token}
    {refusal : Refusal}
    (refused : ofTokens (done ++ refusal.rest) = .error refusal)
    (ends : refusal.next = .endOfInput → refusal.rest = [])
    (stuck : Reading.Stuck Chain.tokens ofTokens done refusal)
    (program : Chain) :
    ¬(done ++ [refusal.next]) <+: program.tokens ++ [.endOfInput] := by
  rintro ⟨behind, shape⟩
  have read := ofTokens_tokens program
  rw [List.append_assoc, List.singleton_append] at shape
  rcases List.eq_nil_or_concat behind with rfl | ⟨other, last, rfl⟩
  -- The refused token is the end of input, so the program is what was taken.
  · obtain ⟨same, next⟩ := List.append_inj' shape rfl
    rw [ends (List.singleton_inj.1 next), List.append_nil, same, read]
      at refused
    cases refused
  · obtain ⟨again, blocked⟩ := stuck.blocked other
    have whole :
        (done ++ refusal.next :: other) ++ [last] =
          program.tokens ++ [.endOfInput] := by
      simpa using shape
    rw [(List.append_inj' whole rfl).1, read] at blocked
    cases blocked

end Chain

namespace Cursor

open Chain (body refusalAt)

/-- Tokens up to the end of input are refused by what is left of them. -/
theorem exists_stuck_of_refused
    {front : List Located}
    {ending : Located}
    {error : ParseError}
    (inner : ∀ located ∈ front, located.token ≠ .endOfInput)
    (ends : ending.token = .endOfInput)
    (refused : Chain.ofLocated (front ++ [ending]) = .error error) :
    ∃ done refusal offender,
      Chain.ofTokens (done ++ refusal.rest) = .error refusal ∧
        front.map Located.token = done ++ refusal.rest ∧
        Reading.Stuck Chain.tokens Chain.ofTokens done refusal ∧
        (front ++ [ending])[done.length]? = some offender ∧
        error = refusalAt refusal.expected offender := by
  have whole := Chain.body_of_ending inner ends
  rw [Chain.ofLocated, whole] at refused
  cases read : Chain.ofTokens (front.map Located.token) with
  | ok program =>
      rw [read] at refused
      cases refused
  | error refusal =>
      obtain ⟨done, shape, stuck⟩ := Chain.stuck_of_ofTokens read
      have count : front.length = done.length + refusal.rest.length := by
        rw [← List.length_append, ← shape, List.length_map]
      have inside : done.length < (front ++ [ending]).length := by
        rw [List.length_append, List.length_singleton]
        omega
      have place :
          min ((front.map Located.token).length - refusal.rest.length)
              ((front ++ [ending]).length - 1) =
            done.length := by
        rw [List.length_map, List.length_append, List.length_singleton]
        omega
      refine ⟨done, refusal, (front ++ [ending])[done.length], shape ▸ read,
        shape, stuck, List.getElem?_eq_getElem inside, ?_⟩
      rw [read] at refused
      simp only [place, List.getElem?_eq_getElem inside, Option.getD_some]
        at refused
      cases refused
      rfl

/--
Where tokens up to the end of input are refused, the error is one of syntax at
the place of a token such that the tokens in front of it begin a program, and
together with it they begin none, not even with the end of input behind it.
-/
theorem refuses_first_offender
    {front : List Located}
    {ending : Located}
    {fault : Fault}
    (inner : ∀ located ∈ front, located.token ≠ .endOfInput)
    (ends : ending.token = .endOfInput)
    (refused : chain (front ++ [ending]) = .error fault) :
    ∃ index offender error,
      (front ++ [ending])[index]? = some offender ∧
        fault = .refused error ∧
        Chain.ofLocated (front ++ [ending]) = .error error ∧
        error.kind = .syntactic ∧
        error.position = offender.position ∧
        (∃ program : Chain,
          ((front ++ [ending]).map Located.token).take index <+:
            program.tokens) ∧
        ∀ program : Chain,
          ¬((front ++ [ending]).map Located.token).take (index + 1) <+:
            program.tokens ++ [.endOfInput] := by
  rw [chain_eq] at refused
  cases read : Chain.ofLocated (front ++ [ending]) with
  | ok program =>
      rw [read] at refused
      cases refused
  | error error =>
      rw [read] at refused
      cases refused
      obtain ⟨done, refusal, offender, failed, shape, stuck, found, rfl⟩ :=
        exists_stuck_of_refused inner ends read
      obtain ⟨behind, next⟩ := refusal.exists_rest_append
      have kinds :
          (front ++ [ending]).map Located.token =
            done ++ refusal.next :: behind := by
        rw [List.map_append, shape, List.map_singleton, ends,
          List.append_assoc, next]
      have counts : refusal.next = .endOfInput → refusal.rest = [] := by
        intro isEnd
        cases left : refusal.rest with
        | nil => rfl
        | cons token rest =>
            have member : token ∈ front.map Located.token := by
              simp [shape, left]
            obtain ⟨located, given, rfl⟩ := List.mem_map.1 member
            rw [Refusal.next, left] at isEnd
            exact absurd isEnd (inner located given)
      refine ⟨done.length, offender, _, found, rfl, rfl, rfl, rfl, ?_, ?_⟩
      · rw [kinds, List.take_left]
        exact stuck.begins
      · rw [kinds, List.take_length_add_append]
        exact Chain.not_prefix_of_stuck failed counts stuck

/--
In `f(a=)` the closing parenthesis is refused: `f(a=` begins a program, and
`f(a=)` begins none.
-/
theorem refuses_first_offender_value :
    let front : List Located :=
      [⟨.identifier "f", ⟨1, 1⟩⟩, ⟨.leftParen, ⟨1, 2⟩⟩,
        ⟨.identifier "a", ⟨1, 3⟩⟩, ⟨.equals, ⟨1, 4⟩⟩, ⟨.rightParen, ⟨1, 5⟩⟩]
    let ending : Located := ⟨.endOfInput, ⟨1, 6⟩⟩
    let error : ParseError :=
      ⟨.syntactic, "expected value, got ')'", ⟨1, 5⟩⟩
    chain (front ++ [ending]) = .error (.refused error) ∧
      ∃ index offender,
        (front ++ [ending])[index]? = some offender ∧
          error.position = offender.position ∧
          (∃ program : Chain,
            ((front ++ [ending]).map Located.token).take index <+:
              program.tokens) ∧
          ∀ program : Chain,
            ¬((front ++ [ending]).map Located.token).take (index + 1) <+:
              program.tokens ++ [.endOfInput] := by
  intro front ending error
  have refused : chain (front ++ [ending]) = .error (.refused error) := by
    with_unfolding_all rfl
  obtain ⟨index, offender, other, found, same, _, _, place, begins, blocked⟩ :=
    refuses_first_offender (by decide) rfl refused
  cases same
  exact ⟨refused, index, offender, found, place, begins, blocked⟩

end Cursor

end VerbChain
