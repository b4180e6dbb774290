import VerbChain.Chain.Reading
import VerbChain.Chain.Tokens

namespace VerbChain

/-!
# What the readers accept

Every reader accepts the tokens of what it returns, and nothing else.  One
token behind an argument has to be known: an identifier before an equals sign
is no value.  So the list of a chain's tokens is read as that chain, and a list
is read as a chain only if it is the list of that chain's tokens.
-/

namespace Reading

/-- The tokens of a value are read as that value. -/
theorem value_tokens
    (result : Value)
    (rest : List Token) :
    value (result.tokens ++ rest) = .ok (result, rest) := by
  cases result <;> rfl

/-- A value that was read is spelled out by the tokens in front of the rest. -/
theorem eq_of_value
    {tokens rest : List Token}
    {result : Value}
    (found : value tokens = .ok (result, rest)) :
    tokens = result.tokens ++ rest := by
  unfold value at found
  split at found <;> cases found <;> rfl

/-- Without a name and an equals sign in front an argument is a value. -/
theorem argument_unnamed
    {tokens : List Token}
    (unnamed : ∀ name tail, tokens ≠ .identifier name :: .equals :: tail) :
    argument tokens =
      (value tokens).map fun read => (.positional read.1, read.2) := by
  unfold argument
  split
  · next name tail => exact absurd rfl (unnamed name tail)
  · rfl

/-- The tokens of an argument are read as it, unless an equals sign follows. -/
theorem argument_tokens
    (result : Argument)
    {rest : List Token}
    (ends : rest.head? ≠ some .equals) :
    argument (result.tokens ++ rest) = .ok (result, rest) := by
  obtain ⟨name, given⟩ := result
  cases name with
  | some name =>
      simp only [Argument.tokens, List.cons_append, argument, value_tokens]
      rfl
  | none =>
      have unnamed :
          ∀ name tail,
            given.tokens ++ rest ≠ .identifier name :: .equals :: tail := by
        intro name tail shape
        -- Only an identifier can stand where the name would.
        cases given <;> simp [Value.tokens] at shape
        exact absurd (by rw [shape.2]; rfl) ends
      simp only [Argument.tokens, argument_unnamed unnamed, value_tokens]
      rfl

theorem eq_of_argument
    {tokens rest : List Token}
    {result : Argument}
    (found : argument tokens = .ok (result, rest)) :
    tokens = result.tokens ++ rest := by
  unfold argument at found
  split at found
  · next name tail =>
      cases read : value tail with
      | error refusal => rw [read] at found; cases found
      | ok pair =>
          rw [read] at found
          cases found
          rw [eq_of_value read]
          rfl
  · cases read : value tokens with
    | error refusal => rw [read] at found; cases found
    | ok pair =>
        rw [read] at found
        cases found
        exact eq_of_value read

/-- The tokens of arguments up to the closing parenthesis are read as them. -/
theorem arguments_tokens
    (first : Argument)
    (others : List Argument)
    (rest : List Token) :
    arguments
        (joined [.comma] ((first :: others).map Argument.tokens) ++
          .rightParen :: rest) =
      .ok (first :: others, rest) := by
  induction others generalizing first with
  | nil =>
      unfold arguments
      rw [List.map_singleton, joined, argument_tokens first (by simp)]
  | cons second others inductionHypothesis =>
      have shape :
          joined [.comma] ((first :: second :: others).map Argument.tokens) ++
              .rightParen :: rest =
            first.tokens ++ .comma ::
              (joined [.comma] ((second :: others).map Argument.tokens) ++
                .rightParen :: rest) := by
        simp [joined]
      rw [shape]
      unfold arguments
      rw [argument_tokens first (by simp)]
      simp only [inductionHypothesis second]
      rfl

/-- Arguments that were read are spelled out, the parenthesis behind them. -/
theorem eq_of_arguments
    {tokens rest : List Token}
    {result : List Argument}
    (found : arguments tokens = .ok (result, rest)) :
    result ≠ [] ∧
      tokens =
        joined [.comma] (result.map Argument.tokens) ++
          .rightParen :: rest := by
  fun_induction arguments tokens generalizing result rest with
  | case1 => cases found
  | case2 tokens first tail read hypothesis =>
      cases more : arguments tail with
      | error refusal => rw [more] at found; cases found
      | ok pair =>
          rw [more] at found
          cases found
          obtain ⟨some, shape⟩ := hypothesis more
          refine ⟨by simp, ?_⟩
          rw [eq_of_argument read, shape]
          obtain ⟨second, others, same⟩ := List.exists_cons_of_ne_nil some
          simp [same, joined]
  | case3 tokens first tail read =>
      cases found
      exact ⟨by simp, eq_of_argument read⟩
  | case4 => cases found

/-- No argument starts with a closing parenthesis. -/
private theorem head?_argument_tokens_ne
    (argument : Argument)
    (rest : List Token) :
    (argument.tokens ++ rest).head? ≠ some .rightParen := by
  obtain ⟨name, given⟩ := argument
  cases name with
  | some name => simp [Argument.tokens]
  | none => cases given <;> simp [Argument.tokens, Value.tokens]

/-- Behind an open parenthesis that is not closed at once arguments are read. -/
theorem call_open
    {name : String}
    {inner : List Token}
    (some : inner.head? ≠ some .rightParen) :
    call (.identifier name :: .leftParen :: inner) =
      (arguments inner).map
        fun (arguments, after) => (⟨name, arguments⟩, after) := by
  unfold call
  split
  · next shape =>
      cases shape
      exact absurd rfl some
  · next shape =>
      cases shape
      rfl
  · next refused shape =>
      cases shape
      exact absurd rfl (refused inner)
  · next refused => exact absurd rfl (refused name (.leftParen :: inner))

theorem call_tokens
    (result : Call)
    (rest : List Token) :
    call (result.tokens ++ rest) = .ok (result, rest) := by
  obtain ⟨name, given⟩ := result
  cases given with
  | nil => rfl
  | cons first others =>
      have read := arguments_tokens first others rest
      have starts :
          (joined [.comma] ((first :: others).map Argument.tokens) ++
            .rightParen :: rest).head? ≠ some .rightParen := by
        cases others with
        | nil => exact head?_argument_tokens_ne first _
        | cons second others =>
            rw [List.map_cons, List.map_cons, joined, List.append_assoc]
            exact head?_argument_tokens_ne first _
      simp only [Call.tokens, List.cons_append, List.append_assoc,
        List.nil_append]
      rw [call_open starts, read]
      rfl

theorem eq_of_call
    {tokens rest : List Token}
    {result : Call}
    (found : call tokens = .ok (result, rest)) :
    tokens = result.tokens ++ rest := by
  unfold call at found
  split at found
  · cases found
    rfl
  · next name tail _ =>
      cases read : arguments tail with
      | error refusal => rw [read] at found; cases found
      | ok pair =>
          rw [read] at found
          cases found
          rw [(eq_of_arguments read).2]
          simp [Call.tokens]
  · cases found
  · cases found

theorem calls_tokens
    (first : Call)
    (others : List Call) :
    calls (joined [.dot] ((first :: others).map Call.tokens)) =
      .ok (first :: others) := by
  induction others generalizing first with
  | nil =>
      have read := call_tokens first []
      rw [List.append_nil] at read
      unfold calls
      rw [List.map_singleton, joined, read]
  | cons second others inductionHypothesis =>
      unfold calls
      rw [List.map_cons, List.map_cons, joined, call_tokens]
      simp only [List.singleton_append]
      rw [← List.map_cons, inductionHypothesis second]
      rfl

theorem eq_of_calls
    {tokens : List Token}
    {result : List Call}
    (found : calls tokens = .ok result) :
    result ≠ [] ∧ tokens = joined [.dot] (result.map Call.tokens) := by
  fun_induction calls tokens generalizing result with
  | case1 => cases found
  | case2 tokens first read =>
      cases found
      refine ⟨by simp, ?_⟩
      rw [eq_of_call read, List.append_nil]
      rfl
  | case3 tokens first tail read hypothesis =>
      cases more : calls tail with
      | error refusal => rw [more] at found; cases found
      | ok others =>
          rw [more] at found
          cases found
          obtain ⟨some, shape⟩ := hypothesis more
          refine ⟨by simp, ?_⟩
          rw [eq_of_call read, shape]
          obtain ⟨second, rest, same⟩ := List.exists_cons_of_ne_nil some
          simp [same, joined]
  | case4 => cases found

end Reading

namespace Chain

private theorem joined_call_tokens_ne_nil
    (first : Call)
    (others : List Call) :
    joined [.dot] ((first :: others).map Call.tokens) ≠ [] := by
  cases others <;> simp [joined, Call.tokens]

/-- The tokens of a chain are read as that chain. -/
theorem ofTokens_tokens (chain : Chain) :
    ofTokens chain.tokens = .ok chain := by
  obtain ⟨calls⟩ := chain
  cases calls with
  | nil => rfl
  | cons first others =>
      obtain ⟨token, tokens, shape⟩ :=
        List.exists_cons_of_ne_nil (joined_call_tokens_ne_nil first others)
      have read := Reading.calls_tokens first others
      rw [shape] at read
      rw [Chain.tokens, shape, ofTokens, read]
      · rfl
      · simp

/-- A list of tokens is read as a chain when it is the list of its tokens. -/
theorem ofTokens_eq_ok_iff
    {tokens : List Token}
    {chain : Chain} :
    ofTokens tokens = .ok chain ↔ tokens = chain.tokens := by
  constructor
  · intro found
    unfold ofTokens at found
    split at found
    · cases found
      rfl
    · cases read : Reading.calls tokens with
      | error refusal => rw [read] at found; cases found
      | ok calls =>
          rw [read] at found
          cases found
          exact (Reading.eq_of_calls read).2
  · rintro rfl
    exact ofTokens_tokens chain

/-- Tokens that end with the end of input count up to it. -/
theorem body_of_ending
    {front : List Located}
    {ending : Located}
    (inner : ∀ located ∈ front, located.token ≠ .endOfInput)
    (ends : ending.token = .endOfInput) :
    body (front ++ [ending]) = front.map Located.token := by
  induction front with
  | nil => simp [body, ends]
  | cons first others inductionHypothesis =>
      have counts : (first.token != .endOfInput) = true :=
        bne_iff_ne.2 (inner first List.mem_cons_self)
      have tail := inductionHypothesis fun located member =>
        inner located (List.mem_cons_of_mem _ member)
      simpa [body, counts] using tail

/-- Tokens with places are read by those in front of the end of input. -/
theorem ofLocated_eq_ok_iff
    {tokens : List Located}
    {chain : Chain} :
    ofLocated tokens = .ok chain ↔ body tokens = chain.tokens := by
  rw [← ofTokens_eq_ok_iff, ofLocated]
  cases ofTokens (body tokens) <;> simp

end Chain

end VerbChain
