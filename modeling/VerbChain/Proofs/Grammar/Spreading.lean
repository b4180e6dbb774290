import VerbChain.Proofs.Chain.RoundTrip
import VerbChain.Proofs.Grammar.Derivation
import VerbChain.Proofs.Source.Literals

namespace VerbChain

/-!
# Reading lexemes that are spread over a text

Between any two tokens of a chain stands punctuation, be it one of the two, so
their texts are read one by one whether or not white space is between them.
-/

namespace Grammar

/-- Texts that are lexemes, with the tokens they stand for. -/
inductive Spelled : List (List Char) → List Token → Prop where
  | nil : Spelled [] []
  | cons
      {spelling : List Char}
      {token : Token}
      {spellings : List (List Char)}
      {tokens : List Token}
      (lexical : IsLexeme spelling token)
      (more : Spelled spellings tokens) :
      Spelled (spelling :: spellings) (token :: tokens)

theorem Spelled.append
    {spellings others : List (List Char)}
    {tokens more : List Token}
    (left : Spelled spellings tokens)
    (right : Spelled others more) :
    Spelled (spellings ++ others) (tokens ++ more) := by
  induction left with
  | nil => exact right
  | cons lexical _ inductionHypothesis =>
      exact .cons lexical inductionHypothesis

/-- Whether a token is punctuation that a number does not go on with. -/
def isClosing (token : Token) : Bool :=
  token.isMark && token != .dot

/-- Between any two tokens one is punctuation that keeps them apart. -/
def Apart : List Token → Prop
  | first :: second :: rest =>
      (first.isMark = true ∨ isClosing second = true) ∧ Apart (second :: rest)
  | _ => True

theorem Apart.cons
    {token : Token}
    {tokens : List Token}
    (mark : token.isMark = true)
    (apart : Apart tokens) :
    Apart (token :: tokens) := by
  cases tokens with
  | nil => trivial
  | cons first others => exact ⟨.inl mark, apart⟩

/-- Tokens are apart with closing punctuation between them. -/
theorem Apart.append
    {token : Token}
    {tokens others : List Token}
    (left : Apart tokens)
    (closing : isClosing token = true)
    (right : Apart others) :
    Apart (tokens ++ token :: others) := by
  have mark : token.isMark = true := (Bool.and_eq_true_iff.1 closing).1
  induction tokens with
  | nil => exact right.cons mark
  | cons first rest inductionHypothesis =>
      cases rest with
      | nil => exact ⟨.inr closing, right.cons mark⟩
      | cons second rest => exact ⟨left.1, inductionHypothesis left.2⟩

theorem apart_argument (argument : Argument) :
    Apart argument.tokens := by
  obtain ⟨name, value⟩ := argument
  cases name <;> cases value <;>
    simp [Argument.tokens, Value.tokens, Apart, isClosing, Token.isMark]

private theorem apart_arguments (arguments : List Argument) :
    Apart (joined [.comma] (arguments.map Argument.tokens)) := by
  induction arguments with
  | nil => trivial
  | cons first others inductionHypothesis =>
      cases others with
      | nil => exact apart_argument first
      | cons second others =>
          exact (apart_argument first).append rfl inductionHypothesis

/-- A call closes itself, so anything may follow it. -/
theorem apart_call_append
    {rest : List Token}
    (call : Call)
    (apart : Apart rest) :
    Apart (call.tokens ++ rest) := by
  have inside :
      Apart
        (joined [.comma] (call.arguments.map Argument.tokens) ++
          .rightParen :: rest) :=
    (apart_arguments call.arguments).append rfl apart
  have shape :
      call.tokens ++ rest =
        [.identifier call.name] ++
          .leftParen ::
            (joined [.comma] (call.arguments.map Argument.tokens) ++
              .rightParen :: rest) := by
    simp [Call.tokens]
  rw [shape]
  exact Apart.append trivial rfl inside

theorem apart_chain (chain : Chain) :
    Apart chain.tokens := by
  obtain ⟨calls⟩ := chain
  change Apart (joined [.dot] (calls.map Call.tokens))
  induction calls with
  | nil => trivial
  | cons first others inductionHypothesis =>
      cases others with
      | nil =>
          have alone := @apart_call_append [] first trivial
          rwa [List.append_nil] at alone
      | cons second others =>
          exact apart_call_append first (inductionHypothesis.cons rfl)

private theorem isBlank_of_isIgnored
    {c : Char}
    (ignored : isIgnored c = true) :
    isBlank c = true := by
  simp only [isIgnored, Bool.or_eq_true, beq_iff_eq] at ignored
  rcases ignored with (((rfl | rfl) | rfl) | rfl) | rfl <;> decide

theorem kinds?_ignored
    {blanks : List Char}
    (ignored : ∀ c ∈ blanks, isIgnored c = true)
    (rest : List Char) :
    Tokens.kinds? (blanks ++ rest) = Tokens.kinds? rest := by
  induction blanks with
  | nil => rfl
  | cons c others inductionHypothesis =>
      have blank := isBlank_of_isIgnored (ignored c List.mem_cons_self)
      rw [List.cons_append, Tokens.kinds?_blank blank,
        inductionHypothesis fun d member =>
          ignored d (List.mem_cons_of_mem c member)]

theorem closes_of_isIgnored
    {c : Char}
    (ignored : isIgnored c = true)
    (rest : List Char) :
    Tokens.closes (c :: rest) = true := by
  simp only [isIgnored, Bool.or_eq_true, beq_iff_eq] at ignored
  rcases ignored with (((rfl | rfl) | rfl) | rfl) | rfl <;> rfl

/-- The text of closing punctuation closes what is before it. -/
private theorem closes_of_isClosing
    {spelling : List Char}
    {token : Token}
    (lexical : IsLexeme spelling token)
    (closing : isClosing token = true)
    (rest : List Char) :
    Tokens.closes (spelling ++ rest) = true := by
  cases lexical with
  | punctuation listed =>
      simp only [punctuation, List.mem_cons, Prod.mk.injEq, List.not_mem_nil,
        or_false] at listed
      rcases listed with ⟨rfl, rfl⟩ | ⟨rfl, rfl⟩ | ⟨rfl, rfl⟩ | ⟨rfl, rfl⟩ |
        ⟨rfl, rfl⟩ | ⟨rfl, rfl⟩
      · rfl
      · rfl
      · rfl
      · cases closing
      · rfl
      · rfl
  | _ => cases closing

/-- What starts with white space or punctuation closes what is before it. -/
theorem closes_of_spread
    {leaves : List (List Char)}
    {tokens : List Token}
    {text : List Char}
    (spread : Spread leaves text)
    (spelled : Spelled leaves tokens)
    (closing : ∀ token ∈ tokens.head?, isClosing token = true) :
    Tokens.closes text = true := by
  cases spread with
  | nil ignored =>
      cases text with
      | nil => rfl
      | cons c blanks =>
          exact closes_of_isIgnored (ignored c List.mem_cons_self) _
  | @cons blanks leaf rest leaves ignored more =>
      cases blanks with
      | nil =>
          cases spelled with
          | cons lexical others =>
              exact closes_of_isClosing lexical (closing _ rfl) rest
      | cons c blanks =>
          exact closes_of_isIgnored (ignored c List.mem_cons_self) _

/-- Spread lexemes are read as their tokens. -/
theorem kinds?_spread
    {leaves : List (List Char)}
    {tokens : List Token}
    {text : List Char}
    (spread : Spread leaves text)
    (spelled : Spelled leaves tokens)
    (apart : Apart tokens) :
    Tokens.kinds? text = some tokens := by
  induction spread generalizing tokens with
  | nil ignored =>
      cases spelled
      have read := kinds?_ignored ignored []
      rwa [List.append_nil, Tokens.kinds?_nil] at read
  | @cons blanks leaf rest leaves ignored more inductionHypothesis =>
      cases spelled with
      | @cons _ token _ others lexical spelledOthers =>
          have apartOthers : Apart others := by
            cases others with
            | nil => trivial
            | cons second others => exact apart.2
          -- a leaf is read alone: it is punctuation, or what follows closes it
          have closed : token.isMark = true ∨ Tokens.closes rest = true := by
            by_cases mark : token.isMark = true
            · exact .inl mark
            · refine .inr (closes_of_spread more spelledOthers ?_)
              intro second member
              cases others with
              | nil => cases member
              | cons other others =>
                  cases member
                  exact apart.1.resolve_left mark
          rw [kinds?_ignored ignored,
            Tokens.kinds?_isLexeme lexical
              (closed.imp_right Tokens.ends_of_closes),
            inductionHypothesis spelledOthers apartOthers]
          rfl

end Grammar

end VerbChain
