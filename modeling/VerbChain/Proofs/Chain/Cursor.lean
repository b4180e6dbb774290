import VerbChain.Chain.Cursor
import VerbChain.Proofs.Chain.Reading

namespace VerbChain

/-!
# Reading by place reads the same

A reading by place never looks where no token is, and gives what the readers of
lists give.  While it goes on, the tokens that count are those it has taken and
those that are left, and its place is the number of the taken ones.  Behind the
last token it sees that token a second time.  This never matters, because the
token that was taken last is always one that cannot stand there again.
-/

namespace Cursor

open Chain (body refusalAt)

/-- The token that a refusal at a place names. -/
def offender (tokens : List Located) (place : Nat) : Located :=
  tokens[min place (tokens.length - 1)]?.getD ⟨.endOfInput, .start⟩

/-- The answer of a reader of lists, told by places. -/
def placed (tokens : List Located) :
    Except Refusal (α × List Token) → Except Fault (α × Nat)
  | .ok (result, rest) =>
      .ok (result, (body tokens).length - rest.length)
  | .error refusal =>
      refuse refusal.expected
        (offender tokens ((body tokens).length - refusal.rest.length))

/-- Among the tokens that count, the one at a place is the one in the list. -/
theorem getElem?_of_body
    {tokens : List Located}
    {done rest : List Token}
    {token : Token}
    (split : body tokens = done ++ token :: rest) :
    ∃ located,
      tokens[done.length]? = some located ∧
        located.token = token ∧ token ≠ .endOfInput := by
  induction tokens generalizing done with
  | nil => simp [body] at split
  | cons first tokens inductionHypothesis =>
      simp only [body, List.map_cons, List.takeWhile_cons] at split
      split at split
      · next counts =>
          cases done with
          | nil =>
              simp only [List.nil_append, List.cons.injEq] at split
              exact ⟨first, rfl, split.1, by simpa [split.1] using counts⟩
          | cons head done =>
              simp only [List.cons_append, List.cons.injEq] at split
              simpa using inductionHypothesis split.2
      · simp at split

/-- Behind the tokens that count stands the end of input, or nothing. -/
theorem getElem?_length_body
    {tokens : List Located}
    {located : Located}
    (found : tokens[(body tokens).length]? = some located) :
    located.token = .endOfInput := by
  induction tokens with
  | nil => simp at found
  | cons first tokens inductionHypothesis =>
      simp only [body, List.map_cons, List.takeWhile_cons] at found
      split at found
      · exact inductionHypothesis (by simpa [body] using found)
      · next ends =>
          simp only [List.length_nil, List.getElem?_cons_zero,
            Option.some.injEq] at found
          simpa [found] using ends

/-- A token that counts is seen where it stands. -/
theorem look_of_body
    {tokens : List Located}
    {done rest : List Token}
    {token : Token}
    (split : body tokens = done ++ token :: rest) :
    look tokens done.length = .ok (offender tokens done.length) ∧
      (offender tokens done.length).token = token := by
  obtain ⟨located, found, same, _⟩ := getElem?_of_body split
  have inside : done.length < tokens.length :=
    (List.getElem?_eq_some_iff.1 found).1
  have clamped : min done.length (tokens.length - 1) = done.length := by
    omega
  simp [look, offender, clamped, found, same]

/--
Behind the tokens that count the end of input is seen, or the last token once
more.
-/
theorem look_of_body_end
    {tokens : List Located}
    {done : List Token}
    {last : Token}
    (whole : body tokens = done)
    (taken : done.getLast? = some last) :
    look tokens done.length = .ok (offender tokens done.length) ∧
      ((offender tokens done.length).token = .endOfInput ∨
        (offender tokens done.length).token = last) := by
  obtain ⟨earlier, shape⟩ := List.getLast?_eq_some_iff.1 taken
  have split : body tokens = earlier ++ last :: [] := by rw [whole, shape]
  obtain ⟨located, found, same, _⟩ := getElem?_of_body split
  have before : earlier.length < tokens.length :=
    (List.getElem?_eq_some_iff.1 found).1
  have length : done.length = earlier.length + 1 := by simp [shape]
  rw [look, offender]
  by_cases more : done.length < tokens.length
  · have clamped : min done.length (tokens.length - 1) = done.length := by
      omega
    have present : tokens[(body tokens).length]? = some tokens[done.length] := by
      rw [whole, List.getElem?_eq_getElem more]
    rw [clamped, List.getElem?_eq_getElem more]
    exact ⟨rfl, .inl (getElem?_length_body present)⟩
  · have clamped : min done.length (tokens.length - 1) = earlier.length := by
      omega
    rw [clamped, found]
    exact ⟨rfl, .inr same⟩

theorem advance_of_body
    {tokens : List Located}
    {done rest : List Token}
    {token : Token}
    (split : body tokens = done ++ token :: rest) :
    advance tokens done.length = .ok (done.length + 1) := by
  obtain ⟨located, found, _⟩ := getElem?_of_body split
  have inside : done.length < tokens.length :=
    (List.getElem?_eq_some_iff.1 found).1
  rw [advance, (look_of_body split).1]
  simp [inside]

theorem atEnd_of_body
    {tokens : List Located}
    {done rest : List Token}
    (split : body tokens = done ++ rest) :
    atEnd tokens done.length = .ok rest.isEmpty := by
  cases rest with
  | nil =>
      rw [List.append_nil] at split
      rw [atEnd]
      by_cases more : done.length < tokens.length
      · have clamped : min done.length (tokens.length - 1) = done.length := by
          omega
        have present :
            tokens[(body tokens).length]? = some tokens[done.length] := by
          rw [split, List.getElem?_eq_getElem more]
        rw [if_neg (Nat.not_le_of_lt more), look, clamped,
          List.getElem?_eq_getElem more]
        simp [Except.map, getElem?_length_body present]
      · rw [if_pos (Nat.le_of_not_lt more)]
        rfl
  | cons token rest =>
      obtain ⟨located, found, same, counts⟩ := getElem?_of_body split
      have inside : done.length < tokens.length :=
        (List.getElem?_eq_some_iff.1 found).1
      have seen := look_of_body split
      rw [atEnd, if_neg (Nat.not_le_of_lt inside), seen.1]
      simp [Except.map, seen.2, counts]

/-- A mark stands at a place when it is the first token left. -/
theorem marked_of_body
    {tokens : List Located}
    {done rest : List Token}
    (mark : Token)
    (split : body tokens = done ++ rest) :
    marked tokens mark done.length = .ok (rest.head? == some mark) := by
  rw [marked, atEnd_of_body split]
  cases rest with
  | nil => rfl
  | cons token rest =>
      have seen := look_of_body split
      simp only [List.isEmpty_cons, seen.1, List.head?_cons]
      show Except.ok ((offender tokens done.length).token == mark) = _
      rw [seen.2]
      rfl

theorem nextIs_of_body
    {tokens : List Located}
    {done rest : List Token}
    {token mark : Token}
    (counts : mark ≠ .endOfInput)
    (split : body tokens = done ++ token :: rest) :
    nextIs tokens mark done.length = (rest.head? == some mark) := by
  have later : body tokens = (done ++ [token]) ++ rest := by simp [split]
  have place : (done ++ [token]).length = done.length + 1 := by simp
  cases rest with
  | nil =>
      rw [List.append_nil] at later
      rw [nextIs]
      cases found : tokens[done.length + 1]? with
      | none => rfl
      | some located =>
          rw [← place, ← later] at found
          simp [getElem?_length_body found, Ne.symm counts]
  | cons next rest =>
      obtain ⟨located, found, same, _⟩ := getElem?_of_body later
      rw [place] at found
      simp [nextIs, found, same]

theorem expect_of_body
    {tokens : List Located}
    {done rest : List Token}
    {last : Token}
    (expected : Expected)
    (mark : Token)
    (counts : mark ≠ .endOfInput)
    (split : body tokens = done ++ rest)
    (taken : done.getLast? = some last)
    (different : last ≠ mark) :
    expect tokens expected mark done.length =
      if rest.head? = some mark then .ok (done.length + 1)
      else refuse expected (offender tokens done.length) := by
  rw [expect]
  cases rest with
  | nil =>
      rw [List.append_nil] at split
      obtain ⟨seen, other⟩ := look_of_body_end split taken
      rw [seen, if_neg (by simp)]
      refine if_neg fun same => ?_
      rcases other with ended | again
      · exact counts (same.symm.trans ended)
      · exact different (again.symm.trans same)
  | cons token rest =>
      obtain ⟨seen, same⟩ := look_of_body split
      simp [seen, same, advance_of_body split]

/-- An identifier is taken when it is the first token left. -/
theorem identifier_of_body
    {tokens : List Located}
    {done rest : List Token}
    {name : String}
    (split : body tokens = done ++ .identifier name :: rest) :
    identifier tokens done.length = .ok (name, done.length + 1) := by
  obtain ⟨seen, same⟩ := look_of_body split
  simp only [identifier, seen, ok_bind, same, advance_of_body split]
  rfl

/-- No identifier is taken when none is left first nor was taken last. -/
theorem identifier_refuses
    {tokens : List Located}
    {done rest : List Token}
    (split : body tokens = done ++ rest)
    (taken :
      rest = [] →
        ∃ last,
          done.getLast? = some last ∧ ∀ name, last ≠ .identifier name)
    (absent : ∀ name, rest.head? ≠ some (.identifier name)) :
    identifier tokens done.length =
      refuse .identifier (offender tokens done.length) := by
  have seen :
      look tokens done.length = .ok (offender tokens done.length) ∧
        ∀ name, (offender tokens done.length).token ≠ .identifier name := by
    cases rest with
    | nil =>
        obtain ⟨last, ended, different⟩ := taken rfl
        rw [List.append_nil] at split
        obtain ⟨seen, other⟩ := look_of_body_end split ended
        refine ⟨seen, fun name same => ?_⟩
        rcases other with ended | again
        · cases ended.symm.trans same
        · exact different name (again.symm.trans same)
    | cons token rest =>
        obtain ⟨seen, same⟩ := look_of_body split
        refine ⟨seen, fun name other => absent name ?_⟩
        rw [List.head?_cons, ← same, other]
  simp only [identifier, seen.1, ok_bind]
  split
  · next name same => exact absurd same (seen.2 name)
  · rfl

private theorem length_sub_of_body
    {tokens : List Located}
    {done rest : List Token}
    (split : body tokens = done ++ rest) :
    (body tokens).length - rest.length = done.length := by
  rw [split, List.length_append]
  omega

/-- The next token that is left is an identifier, or none is taken there. -/
private theorem identifier_or_absent (rest : List Token) :
    (∃ name tail, rest = .identifier name :: tail) ∨
      ∀ name, rest.head? ≠ some (.identifier name) := by
  cases rest with
  | nil => simp
  | cons token rest => cases token <;> simp

/-- A reference is read by place as it is read from the tokens left. -/
theorem reference_of_body
    {tokens : List Located}
    {done rest : List Token}
    (split : body tokens = (done ++ [.at]) ++ rest) :
    (identifier tokens (done.length + 1) >>= fun (name, after) =>
        .ok (.function name, after)) =
      placed tokens (Reading.value (.at :: rest)) := by
  have place : (done ++ [Token.at]).length = done.length + 1 := by simp
  have here := length_sub_of_body split
  rw [← place]
  rcases identifier_or_absent rest with ⟨name, tail, rfl⟩ | absent
  · have later :
        body tokens = (done ++ [.at] ++ [.identifier name]) ++ tail := by
      simp [split]
    rw [identifier_of_body split, Reading.value, placed,
      length_sub_of_body later]
    simp
  · have refused :
        Reading.value (.at :: rest) = .error ⟨.identifier, rest⟩ := by
      unfold Reading.value
      split <;> simp_all
    have ended :
        rest = [] →
          ∃ last,
            (done ++ [Token.at]).getLast? = some last ∧
              ∀ name, last ≠ .identifier name :=
      fun _ => ⟨.at, List.getLast?_concat, by simp⟩
    rw [identifier_refuses split ended absent, refused, placed, here]
    rfl

/-- The marks behind which a value has to stand. -/
inductive OpensValue : Token → Prop where
  | leftParen : OpensValue .leftParen
  | comma : OpensValue .comma
  | equals : OpensValue .equals

/-- A value is read by place as it is read from the tokens left. -/
theorem value_of_body
    {tokens : List Located}
    {done rest : List Token}
    {last : Token}
    (split : body tokens = done ++ rest)
    (taken : done.getLast? = some last)
    (opens : OpensValue last) :
    value tokens done.length = placed tokens (Reading.value rest) := by
  have here := length_sub_of_body split
  cases rest with
  | nil =>
      rw [List.append_nil] at split
      obtain ⟨seen, other⟩ := look_of_body_end split taken
      have refused :
          value tokens done.length =
            refuse .value (offender tokens done.length) := by
        rcases other with same | same
        · simp only [value, seen, ok_bind, same]
        · cases opens <;> simp only [value, seen, ok_bind, same]
      rw [refused, Reading.value, placed, here]
      all_goals simp
  | cons token rest =>
      have later : body tokens = (done ++ [token]) ++ rest := by simp [split]
      have length := length_sub_of_body later
      have place : (done ++ [token]).length = done.length + 1 := by simp
      obtain ⟨seen, same⟩ := look_of_body split
      cases token
      case «at» =>
        simp only [value, seen, ok_bind, same, advance_of_body split]
        exact reference_of_body later
      all_goals
        simp only [value, seen, ok_bind, same, advance_of_body split,
          Reading.value, placed, length, here, place]
      all_goals rfl

private theorem placed_map
    (tokens : List Located)
    (f : α → β)
    (answer : Except Refusal (α × List Token)) :
    placed tokens (answer.map fun (result, rest) => (f result, rest)) =
      (placed tokens answer >>= fun (result, place) =>
        .ok (f result, place)) := by
  cases answer <;> rfl

private theorem argument_of_body_unnamed
    {tokens : List Located}
    {done rest : List Token}
    {last : Token}
    (split : body tokens = done ++ rest)
    (taken : done.getLast? = some last)
    (opens : OpensValue last)
    (unnamed : ∀ name tail, rest ≠ .identifier name :: .equals :: tail) :
    argument tokens done.length = placed tokens (Reading.argument rest) := by
  have seen :
      look tokens done.length = .ok (offender tokens done.length) ∧
        ∀ name,
          (offender tokens done.length).token = .identifier name →
            nextIs tokens .equals done.length ≠ true := by
    cases rest with
    | nil =>
        rw [List.append_nil] at split
        obtain ⟨seen, other⟩ := look_of_body_end split taken
        refine ⟨seen, fun name same => ?_⟩
        rcases other with ended | again
        · cases ended.symm.trans same
        · cases again.symm.trans same
          cases opens
    | cons token tail =>
        obtain ⟨seen, same⟩ := look_of_body split
        refine ⟨seen, fun name named marks => ?_⟩
        rw [nextIs_of_body (by simp) split, beq_iff_eq] at marks
        obtain ⟨others, follows⟩ := List.head?_eq_some_iff.1 marks
        apply unnamed name others
        rw [← same, named, follows]
  simp only [argument, seen.1, ok_bind]
  split
  · next name named marks => exact absurd marks (seen.2 name named)
  · rw [Reading.argument_unnamed unnamed, placed_map,
      value_of_body split taken opens]
    rfl

/-- An argument is read by place as it is read from the tokens left. -/
theorem argument_of_body
    {tokens : List Located}
    {done rest : List Token}
    {last : Token}
    (split : body tokens = done ++ rest)
    (taken : done.getLast? = some last)
    (opens : OpensValue last) :
    argument tokens done.length = placed tokens (Reading.argument rest) := by
  by_cases named : ∃ name tail, rest = .identifier name :: .equals :: tail
  · obtain ⟨name, tail, rfl⟩ := named
    have second :
        body tokens = (done ++ [.identifier name]) ++ .equals :: tail := by
      simp [split]
    have third :
        body tokens = (done ++ [.identifier name] ++ [.equals]) ++ tail := by
      simp [split]
    have secondPlace := advance_of_body split
    have thirdPlace := advance_of_body second
    have valued := value_of_body third List.getLast?_concat .equals
    obtain ⟨seen, same⟩ := look_of_body split
    have marks : nextIs tokens .equals done.length = true :=
      nextIs_of_body (by simp) split
    simp only [List.length_append, List.length_singleton] at thirdPlace valued
    simp only [argument, seen, ok_bind, same, marks, secondPlace, thirdPlace,
      valued]
    rw [Reading.argument, placed_map]
    rfl
  · exact argument_of_body_unnamed split taken opens
      fun name tail same => named ⟨name, tail, same⟩

/-- The token that ends an argument is no mark. -/
private theorem exists_last_argument_tokens (argument : Argument) :
    ∃ earlier last,
      argument.tokens = earlier ++ [last] ∧ last ≠ .rightParen := by
  obtain ⟨name, given⟩ := argument
  have valued :
      ∃ earlier last,
        given.tokens = earlier ++ [last] ∧ last ≠ .rightParen := by
    cases given with
    | function name => exact ⟨[.at], .identifier name, rfl, by simp⟩
    | number value => exact ⟨[], .number value, rfl, by simp⟩
    | string content => exact ⟨[], .string content, rfl, by simp⟩
    | identifier name => exact ⟨[], .identifier name, rfl, by simp⟩
    | bool value => exact ⟨[], .bool value, rfl, by simp⟩
  obtain ⟨earlier, last, shape, different⟩ := valued
  cases name with
  | none => exact ⟨earlier, last, shape, different⟩
  | some name =>
      refine ⟨.identifier name :: .equals :: earlier, last, ?_, different⟩
      simp [Argument.tokens, shape]

/-- An argument that was read has been taken, its last token last. -/
private theorem taken_of_argument
    {tokens : List Located}
    {done rest after : List Token}
    {last : Token}
    {result : Argument}
    (split : body tokens = done ++ rest)
    (taken : done.getLast? = some last)
    (opens : OpensValue last)
    (read : Reading.argument rest = .ok (result, after)) :
    ∃ taken final,
      body tokens = taken ++ after ∧
        taken.getLast? = some final ∧
        final ≠ .rightParen ∧
        argument tokens done.length = .ok (result, taken.length) := by
  have spelled := Reading.eq_of_argument read
  obtain ⟨earlier, final, shape, different⟩ :=
    exists_last_argument_tokens result
  have whole : body tokens = (done ++ earlier ++ [final]) ++ after := by
    rw [split, spelled, shape]
    simp
  refine ⟨_, final, whole, List.getLast?_concat, different, ?_⟩
  rw [argument_of_body split taken opens, read, placed,
    length_sub_of_body whole]

/-- Where no comma follows the one argument is all there are. -/
private theorem arguments_of_last
    {tokens : List Located}
    {place after : Nat}
    {only : Argument}
    (read : argument tokens place = .ok (only, after))
    (ends : marked tokens .comma after = .ok false) :
    arguments tokens place = .ok ([only], after) := by
  rw [arguments_eq, read]
  simp only [ok_bind, ends]
  rfl

/-- Arguments and the parenthesis behind them are read as from a list. -/
theorem arguments_of_body
    {tokens : List Located}
    {done rest : List Token}
    {last : Token}
    (split : body tokens = done ++ rest)
    (taken : done.getLast? = some last)
    (opens : OpensValue last) :
    (arguments tokens done.length >>= fun (result, place) =>
        expect tokens .rightParen .rightParen place >>= fun after =>
          .ok (result, after)) =
      placed tokens (Reading.arguments rest) := by
  fun_induction Reading.arguments rest generalizing done last with
  | case1 rest refusal read =>
      have first := argument_of_body split taken opens
      rw [read] at first
      rw [arguments_eq, first]
      rfl
  | case2 rest first tail read hypothesis =>
      obtain ⟨through, final, whole, _, _, argued⟩ :=
        taken_of_argument split taken opens read
      have later : body tokens = (through ++ [.comma]) ++ tail := by
        simp [whole]
      have others := hypothesis later List.getLast?_concat .comma
      have more : marked tokens .comma through.length = .ok true :=
        marked_of_body .comma whole
      rw [List.length_append, List.length_singleton] at others
      rw [placed_map, ← others, arguments_eq, argued]
      simp only [ok_bind, more, ↓reduceIte, advance_of_body whole]
      cases arguments tokens (through.length + 1) with
      | error fault => rfl
      | ok pair =>
          obtain ⟨given, place⟩ := pair
          simp only [ok_bind]
          show (expect tokens .rightParen .rightParen place >>= _) =
            ((expect tokens .rightParen .rightParen place >>= _) >>= _)
          cases expect tokens .rightParen .rightParen place <;> rfl
  | case3 rest first tail read =>
      obtain ⟨through, final, whole, ended, different, argued⟩ :=
        taken_of_argument split taken opens read
      have later : body tokens = (through ++ [.rightParen]) ++ tail := by
        simp [whole]
      have length := length_sub_of_body later
      rw [List.length_append, List.length_singleton] at length
      rw [arguments_of_last argued (marked_of_body .comma whole)]
      simp only [ok_bind,
        expect_of_body .rightParen .rightParen (by simp) whole ended different,
        List.head?_cons, ↓reduceIte, placed, length]
  | case4 rest first tail notComma notParen read =>
      obtain ⟨through, final, whole, ended, different, argued⟩ :=
        taken_of_argument split taken opens read
      have noComma : (tail.head? == some .comma) = false := by
        refine beq_eq_false_iff_ne.2 fun same => ?_
        obtain ⟨others, shape⟩ := List.head?_eq_some_iff.1 same
        exact notComma others shape
      have noParen : tail.head? ≠ some .rightParen := by
        intro same
        obtain ⟨others, shape⟩ := List.head?_eq_some_iff.1 same
        exact notParen others shape
      have ends := marked_of_body .comma whole
      rw [noComma] at ends
      rw [arguments_of_last argued ends]
      simp only [ok_bind,
        expect_of_body .rightParen .rightParen (by simp) whole ended different,
        if_neg noParen, placed, length_sub_of_body whole]
      rfl

private theorem call_of_body_named
    {tokens : List Located}
    {done tail : List Token}
    {name : String}
    (split : body tokens = done ++ .identifier name :: tail) :
    call tokens done.length =
      placed tokens (Reading.call (.identifier name :: tail)) := by
  have second : body tokens = (done ++ [.identifier name]) ++ tail := by
    simp [split]
  have opened :=
    expect_of_body .leftParen .leftParen (by simp) second List.getLast?_concat
      (by simp)
  rw [List.length_append, List.length_singleton] at opened
  simp only [call, identifier_of_body split, ok_bind, opened]
  by_cases opens : tail.head? = some .leftParen
  · obtain ⟨inner, rfl⟩ := List.head?_eq_some_iff.1 opens
    have third :
        body tokens = (done ++ [.identifier name] ++ [.leftParen]) ++ inner := by
      simp [split]
    have marks := marked_of_body .rightParen third
    simp only [List.length_append, List.length_singleton] at marks
    simp only [if_pos opens, ok_bind, marks]
    by_cases closes : inner.head? = some .rightParen
    · obtain ⟨after, rfl⟩ := List.head?_eq_some_iff.1 closes
      have fourth :
          body tokens =
            (done ++ [.identifier name] ++ [.leftParen] ++ [.rightParen]) ++
              after := by
        simp [split]
      have closed :=
        expect_of_body .rightParen .rightParen (by simp) third List.getLast?_concat
          (by simp)
      have length := length_sub_of_body fourth
      simp only [List.length_append, List.length_singleton] at closed length
      rw [if_pos closes] at closed
      simp only [closes, BEq.rfl, ↓reduceIte, closed, ok_bind, Reading.call,
        placed, length]
      rfl
    · have some : (inner.head? == .some .rightParen) = false :=
        beq_eq_false_iff_ne.2 closes
      have given :=
        arguments_of_body third List.getLast?_concat .leftParen
      simp only [List.length_append, List.length_singleton] at given
      simp only [some]
      rw [Reading.call_open closes, placed_map, ← given]
      cases arguments tokens (done.length + 1 + 1) with
      | error fault => rfl
      | ok pair =>
          obtain ⟨read, place⟩ := pair
          show (expect tokens .rightParen .rightParen place >>= _) =
            ((expect tokens .rightParen .rightParen place >>= _) >>= _)
          cases expect tokens .rightParen .rightParen place <;> rfl
  · have refused :
        Reading.call (.identifier name :: tail) =
          .error ⟨.leftParen, tail⟩ := by
      unfold Reading.call
      split <;> simp_all
    have length := length_sub_of_body second
    rw [List.length_append, List.length_singleton] at length
    rw [if_neg opens, refused, placed, length]
    rfl

/-- A call is read by place as it is read from the tokens left. -/
theorem call_of_body
    {tokens : List Located}
    {done rest : List Token}
    (split : body tokens = done ++ rest)
    (taken : rest = [] → done.getLast? = some .dot) :
    call tokens done.length = placed tokens (Reading.call rest) := by
  rcases identifier_or_absent rest with ⟨name, tail, rfl⟩ | absent
  · exact call_of_body_named split
  · have refused : Reading.call rest = .error ⟨.identifier, rest⟩ := by
      unfold Reading.call
      split <;> simp_all
    have ended :
        rest = [] →
          ∃ last,
            done.getLast? = some last ∧ ∀ name, last ≠ .identifier name :=
      fun none => ⟨.dot, taken none, by simp⟩
    rw [call, identifier_refuses split ended absent, refused, placed,
      length_sub_of_body split]
    rfl

/-- A call that was read has been taken. -/
private theorem taken_of_call
    {tokens : List Located}
    {done rest after : List Token}
    {result : Call}
    (split : body tokens = done ++ rest)
    (taken : rest = [] → done.getLast? = some .dot)
    (read : Reading.call rest = .ok (result, after)) :
    ∃ through,
      body tokens = through ++ after ∧
        call tokens done.length = .ok (result, through.length) := by
  have whole : body tokens = (done ++ result.tokens) ++ after := by
    rw [split, Reading.eq_of_call read, List.append_assoc]
  refine ⟨_, whole, ?_⟩
  rw [call_of_body split taken, read, placed, length_sub_of_body whole]

/-- Where no point follows the one call is all there are. -/
private theorem calls_of_last
    {tokens : List Located}
    {place after : Nat}
    {only : Call}
    (read : call tokens place = .ok (only, after))
    (ends : marked tokens .dot after = .ok false) :
    calls tokens place = .ok ([only], after) := by
  rw [calls_eq, read]
  simp only [ok_bind, ends]
  rfl

/-- The end of the calls is the end of the program, or a refusal. -/
def close (tokens : List Located) (result : List Call) (last : Nat) :
    Except Fault (List Call) := do
  if ← atEnd tokens last then return result
  refuse .link (← look tokens last)

/-- The answer of a reader of a whole list, its refusal told by places. -/
def settled (tokens : List Located) : Except Refusal α → Except Fault α
  | .ok result => .ok result
  | .error refusal =>
      refuse refusal.expected
        (offender tokens ((body tokens).length - refusal.rest.length))

private theorem settled_map
    (tokens : List Located)
    (f : α → β)
    (answer : Except Refusal α) :
    settled tokens (answer.map f) = (settled tokens answer).map f := by
  cases answer <;> rfl

/-- Calls read before do not change where the program ends. -/
private theorem close_cons
    (tokens : List Located)
    (first : Call)
    (others : List Call)
    (last : Nat) :
    close tokens (first :: others) last =
      (close tokens others last).map (first :: ·) := by
  unfold close
  cases atEnd tokens last with
  | error fault => rfl
  | ok ended =>
      cases ended with
      | true => rfl
      | false => cases seen : look tokens last <;> rfl

/-- Calls up to the end are read by place as from the tokens left. -/
theorem calls_of_body
    {tokens : List Located}
    {done rest : List Token}
    (split : body tokens = done ++ rest)
    (taken : rest = [] → done.getLast? = some .dot) :
    (calls tokens done.length >>= fun (result, last) =>
        close tokens result last) =
      settled tokens (Reading.calls rest) := by
  fun_induction Reading.calls rest generalizing done with
  | case1 rest refusal read =>
      have first := call_of_body split taken
      rw [read] at first
      rw [calls_eq, first]
      rfl
  | case2 rest first read =>
      obtain ⟨through, whole, called⟩ := taken_of_call split taken read
      rw [calls_of_last called (marked_of_body .dot whole)]
      simp only [ok_bind, close, atEnd_of_body whole]
      rfl
  | case3 rest first tail read hypothesis =>
      obtain ⟨through, whole, called⟩ := taken_of_call split taken read
      have later : body tokens = (through ++ [.dot]) ++ tail := by
        simp [whole]
      have others := hypothesis later fun _ => List.getLast?_concat
      have more : marked tokens .dot through.length = .ok true :=
        marked_of_body .dot whole
      rw [List.length_append, List.length_singleton] at others
      rw [calls_eq, called]
      simp only [ok_bind, more, ↓reduceIte, advance_of_body whole]
      rw [settled_map, ← others]
      cases calls tokens (through.length + 1) with
      | error fault => rfl
      | ok pair => exact close_cons tokens first pair.1 pair.2
  | case4 rest first tail some noDot read =>
      obtain ⟨through, whole, called⟩ := taken_of_call split taken read
      have ends := marked_of_body .dot whole
      have noPoint : (tail.head? == Option.some .dot) = false := by
        refine beq_eq_false_iff_ne.2 fun same => ?_
        obtain ⟨others, shape⟩ := List.head?_eq_some_iff.1 same
        exact noDot others shape
      rw [noPoint] at ends
      rw [calls_of_last called ends]
      obtain ⟨token, others, rfl⟩ := List.exists_cons_of_ne_nil some
      simp only [ok_bind, close, atEnd_of_body whole, List.isEmpty_cons,
        (look_of_body whole).1, settled, length_sub_of_body whole]
      rfl

/-- A chain of calls is the calls up to the end of the program. -/
theorem chain_eq_calls
    {tokens : List Located}
    (some : body tokens ≠ []) :
    chain tokens =
      (calls tokens 0 >>= fun (result, last) =>
        close tokens result last).map Chain.mk := by
  have start : body tokens = [] ++ body tokens := rfl
  have started : atEnd tokens 0 = .ok (body tokens).isEmpty :=
    atEnd_of_body start
  have notEmpty : (body tokens).isEmpty = false := by simpa using some
  rw [notEmpty] at started
  simp only [chain, started, ok_bind]
  cases calls tokens 0 with
  | error fault => rfl
  | ok pair =>
      obtain ⟨result, last⟩ := pair
      simp only [ok_bind, close]
      cases atEnd tokens last with
      | error fault => rfl
      | ok ended =>
          cases ended with
          | true => rfl
          | false =>
              simp only [ok_bind]
              cases look tokens last <;> rfl

/-- A chain is read by place as it is read from a list. -/
theorem chain_eq (tokens : List Located) :
    chain tokens = (Chain.ofLocated tokens).mapError .refused := by
  have located :
      (Chain.ofLocated tokens).mapError Fault.refused =
        settled tokens (Chain.ofTokens (body tokens)) := by
    unfold Chain.ofLocated
    cases Chain.ofTokens (body tokens) <;> rfl
  have start : body tokens = [] ++ body tokens := rfl
  rw [located]
  by_cases empty : body tokens = []
  · have started : atEnd tokens 0 = .ok true := by
      simpa [empty] using atEnd_of_body start
    rw [chain, started, empty]
    rfl
  · have read := calls_of_body start fun none => absurd none empty
    have grammar :
        Chain.ofTokens (body tokens) =
          (Reading.calls (body tokens)).map Chain.mk := by
      unfold Chain.ofTokens
      split
      · next none => exact absurd none empty
      · rfl
    rw [chain_eq_calls empty, grammar, settled_map, ← read]
    rfl

/--
A list of tokens is read as a chain exactly when the tokens in front of the
first end of input are that chain's tokens, and no list at all, with or without
an end of input, makes the reader look where no token is.
-/
theorem reads_exactly_tokens
    (tokens : List Located)
    (result : Chain) :
    (chain tokens = .ok result ↔
        (tokens.map Located.token).takeWhile (· != .endOfInput) =
          result.tokens) ∧
      (Chain.ofLocated tokens = .ok result ↔
        (tokens.map Located.token).takeWhile (· != .endOfInput) =
          result.tokens) ∧
      chain tokens = (Chain.ofLocated tokens).mapError .refused ∧
      chain tokens ≠ .error .outside := by
  have grammar :
      Chain.ofLocated tokens = .ok result ↔ body tokens = result.tokens :=
    Chain.ofLocated_eq_ok_iff
  have places := chain_eq tokens
  refine ⟨?_, grammar, places, ?_⟩
  · rw [places]
    refine Iff.trans ?_ grammar
    cases Chain.ofLocated tokens with
    | error error =>
        constructor
        · intro same
          cases same
        · intro same
          cases same
    | ok read =>
        constructor
        · intro same
          cases same
          rfl
        · intro same
          cases same
          rfl
  · rw [places]
    cases Chain.ofLocated tokens with
    | error error =>
        intro same
        cases same
    | ok read =>
        intro same
        cases same

end Cursor

end VerbChain
