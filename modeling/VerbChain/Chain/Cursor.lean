import VerbChain.Chain.Reading

namespace VerbChain

/-!
# Reading a chain by place

The grammar once more, for tokens that stand in one list and are looked at by
number.  The reader holds the place of the next token and looks one place
further at most.  Behind the last token it sees the last one again.  To look
where no token is would be a fault of its own, apart from a refusal.
-/

/-- Why a reading by place ends without a chain. -/
inductive Fault where
  | outside
  | refused (error : ParseError)
  deriving Repr, DecidableEq

namespace Cursor

/-- The token at a place, or the last one behind it. -/
def look (tokens : List Located) (place : Nat) : Except Fault Located :=
  match tokens[min place (tokens.length - 1)]? with
  | some located => .ok located
  | none => .error .outside

/-- Whether a mark stands one place further. -/
def nextIs (tokens : List Located) (mark : Token) (place : Nat) : Bool :=
  tokens[place + 1]?.any fun located => located.token == mark

/-- The place behind the token at a place; behind the last there is one only. -/
def advance (tokens : List Located) (place : Nat) : Except Fault Nat :=
  match look tokens place with
  | .ok _ => .ok (if place < tokens.length then place + 1 else place)
  | .error fault => .error fault

/-- Whether no token counts from a place on. -/
def atEnd (tokens : List Located) (place : Nat) : Except Fault Bool :=
  if tokens.length ≤ place then .ok true
  else (look tokens place).map fun located => located.token == .endOfInput

/-- Whether a mark stands at a place that is not the end. -/
def marked (tokens : List Located) (mark : Token) (place : Nat) :
    Except Fault Bool := do
  if ← atEnd tokens place then return false
  return (← look tokens place).token == mark

/-- A token that cannot continue the program. -/
def refuse (expected : Expected) (offender : Located) : Except Fault α :=
  .error (.refused (Chain.refusalAt expected offender))

/-- Take a mark. -/
def expect (tokens : List Located) (expected : Expected) (mark : Token)
    (place : Nat) : Except Fault Nat := do
  let located ← look tokens place
  if located.token = mark then advance tokens place
  else refuse expected located

/-- Take an identifier. -/
def identifier (tokens : List Located) (place : Nat) :
    Except Fault (String × Nat) := do
  let located ← look tokens place
  match located.token with
  | .identifier name => return (name, ← advance tokens place)
  | _ => refuse .identifier located

/-- Read a value. -/
def value (tokens : List Located) (place : Nat) :
    Except Fault (Value × Nat) := do
  let located ← look tokens place
  match located.token with
  | .number value => return (.number value, ← advance tokens place)
  | .string content => return (.string content, ← advance tokens place)
  | .bool value => return (.bool value, ← advance tokens place)
  | .identifier name => return (.identifier name, ← advance tokens place)
  | .at =>
      let (name, after) ← identifier tokens (← advance tokens place)
      return (.function name, after)
  | _ => refuse .value located

/-- Read an argument: an identifier before an equals sign is its name. -/
def argument (tokens : List Located) (place : Nat) :
    Except Fault (Argument × Nat) := do
  let located ← look tokens place
  match located.token, nextIs tokens .equals place with
  | .identifier name, true =>
      let (value, after) ←
        value tokens (← advance tokens (← advance tokens place))
      return (.named name value, after)
  | _, _ =>
      let (value, after) ← value tokens place
      return (.positional value, after)

/-- A step that gives something hands it to the next one. -/
@[simp] theorem ok_bind (given : α) (next : α → Except ε β) :
    ((.ok given : Except ε α) >>= next) = next given :=
  rfl

/-- A step that fails is the last one. -/
@[simp] theorem error_bind (error : ε) (next : α → Except ε β) :
    ((.error error : Except ε α) >>= next) = .error error :=
  rfl

/-- What comes out of two steps came out of the second after the first. -/
theorem exists_of_bind_eq_ok
    {first : Except ε α}
    {second : α → Except ε β}
    {result : β}
    (found : first >>= second = .ok result) :
    ∃ between, first = .ok between ∧ second between = .ok result := by
  cases first with
  | error fault => cases found
  | ok between => exact ⟨between, rfl, found⟩

/-- An advance never goes back. -/
theorem le_of_advance
    {tokens : List Located}
    {place next : Nat}
    (found : advance tokens place = .ok next) :
    place ≤ next := by
  unfold advance at found
  split at found
  · cases found
    split <;> omega
  · cases found

/-- An advance from a mark goes on, and stays among the tokens. -/
theorem lt_of_marked
    {tokens : List Located}
    {mark : Token}
    {place next : Nat}
    (found : marked tokens mark place = .ok true)
    (behind : advance tokens place = .ok next) :
    place < next ∧ place < tokens.length := by
  have inside : place < tokens.length := by
    refine Nat.lt_of_not_le fun outside => ?_
    rw [marked, atEnd, if_pos outside] at found
    cases found
  unfold advance at behind
  split at behind
  · cases behind
    rw [if_pos inside]
    omega
  · cases behind

/-- Taking a mark never goes back. -/
theorem le_of_expect
    {tokens : List Located}
    {expected : Expected}
    {mark : Token}
    {place next : Nat}
    (found : expect tokens expected mark place = .ok next) :
    place ≤ next := by
  obtain ⟨located, _, taken⟩ := exists_of_bind_eq_ok found
  split at taken
  · exact le_of_advance taken
  · cases taken

/-- Taking an identifier never goes back. -/
theorem le_of_identifier
    {tokens : List Located}
    {place next : Nat}
    {name : String}
    (found : identifier tokens place = .ok (name, next)) :
    place ≤ next := by
  obtain ⟨located, _, taken⟩ := exists_of_bind_eq_ok found
  split at taken
  · obtain ⟨after, behind, result⟩ := exists_of_bind_eq_ok taken
    cases result
    exact le_of_advance behind
  · cases taken

/-- Reading a value never goes back. -/
theorem le_of_value
    {tokens : List Located}
    {place next : Nat}
    {result : Value}
    (found : value tokens place = .ok (result, next)) :
    place ≤ next := by
  obtain ⟨located, _, taken⟩ := exists_of_bind_eq_ok found
  split at taken
  case h_5 =>
    obtain ⟨after, behind, named⟩ := exists_of_bind_eq_ok taken
    obtain ⟨⟨name, last⟩, read, result⟩ := exists_of_bind_eq_ok named
    cases result
    exact Nat.le_trans (le_of_advance behind) (le_of_identifier read)
  case h_6 => cases taken
  all_goals
    obtain ⟨after, behind, result⟩ := exists_of_bind_eq_ok taken
    cases result
    exact le_of_advance behind

/-- Reading an argument never goes back. -/
theorem le_of_argument
    {tokens : List Located}
    {place next : Nat}
    {result : Argument}
    (found : argument tokens place = .ok (result, next)) :
    place ≤ next := by
  obtain ⟨located, _, taken⟩ := exists_of_bind_eq_ok found
  split at taken
  · obtain ⟨first, behind, more⟩ := exists_of_bind_eq_ok taken
    obtain ⟨second, further, read⟩ := exists_of_bind_eq_ok more
    obtain ⟨⟨given, last⟩, valued, result⟩ := exists_of_bind_eq_ok read
    cases result
    exact Nat.le_trans (le_of_advance behind)
      (Nat.le_trans (le_of_advance further) (le_of_value valued))
  · obtain ⟨⟨given, last⟩, valued, result⟩ := exists_of_bind_eq_ok taken
    cases result
    exact le_of_value valued

/-- Read arguments as long as a comma follows, one of them at least. -/
def arguments (tokens : List Located) (place : Nat) :
    Except Fault (List Argument × Nat) :=
  match _read : argument tokens place with
  | .error fault => .error fault
  | .ok (first, after) =>
      match _more : marked tokens .comma after with
      | .error fault => .error fault
      | .ok false => .ok ([first], after)
      | .ok true =>
          match _behind : advance tokens after with
          | .error fault => .error fault
          | .ok next =>
              (arguments tokens next).map
                fun (others, last) => (first :: others, last)
  termination_by tokens.length - place
  decreasing_by
    have forward := le_of_argument _read
    have further := lt_of_marked _more _behind
    omega

/-- The arguments from a place on are one and, behind a comma, others. -/
theorem arguments_eq (tokens : List Located) (place : Nat) :
    arguments tokens place = (do
      let (first, after) ← argument tokens place
      if ← marked tokens .comma after then
        let (others, last) ← arguments tokens (← advance tokens after)
        return (first :: others, last)
      return ([first], after)) := by
  rw [arguments]
  cases argument tokens place with
  | error fault => rfl
  | ok pair =>
      obtain ⟨first, after⟩ := pair
      simp only [ok_bind]
      cases marked tokens .comma after with
      | error fault => rfl
      | ok more =>
          cases more with
          | false => rfl
          | true =>
              cases advance tokens after with
              | error fault => rfl
              | ok next =>
                  show (arguments tokens next).map _ =
                    (arguments tokens next >>= _)
                  cases arguments tokens next <;> rfl

/-- Read a call: a verb and its arguments in parentheses. -/
def call (tokens : List Located) (place : Nat) :
    Except Fault (Call × Nat) := do
  let (name, after) ← identifier tokens place
  let inside ← expect tokens .leftParen .leftParen after
  if ← marked tokens .rightParen inside then
    return (⟨name, []⟩, ← expect tokens .rightParen .rightParen inside)
  let (arguments, last) ← arguments tokens inside
  return (⟨name, arguments⟩, ← expect tokens .rightParen .rightParen last)

/-- Reading arguments never goes back. -/
theorem le_of_arguments
    {tokens : List Located}
    {place next : Nat}
    {result : List Argument}
    (found : arguments tokens place = .ok (result, next)) :
    place ≤ next := by
  fun_induction arguments tokens place generalizing result next with
  | case1 => cases found
  | case2 => cases found
  | case3 place first after read more =>
      cases found
      exact le_of_argument read
  | case4 => cases found
  | case5 place first after read more behind further hypothesis =>
      cases others : arguments tokens behind with
      | error fault => rw [others] at found; cases found
      | ok pair =>
          rw [others] at found
          cases found
          exact Nat.le_trans (le_of_argument read)
            (Nat.le_trans (le_of_advance further) (hypothesis others))

/-- Reading a call never goes back. -/
theorem le_of_call
    {tokens : List Located}
    {place next : Nat}
    {result : Call}
    (found : call tokens place = .ok (result, next)) :
    place ≤ next := by
  obtain ⟨⟨name, after⟩, named, rest⟩ := exists_of_bind_eq_ok found
  obtain ⟨inside, opened, rest⟩ := exists_of_bind_eq_ok rest
  obtain ⟨empty, checked, rest⟩ := exists_of_bind_eq_ok rest
  have start := Nat.le_trans (le_of_identifier named) (le_of_expect opened)
  cases empty with
  | true =>
      obtain ⟨last, closed, result⟩ := exists_of_bind_eq_ok rest
      cases result
      exact Nat.le_trans start (le_of_expect closed)
  | false =>
      obtain ⟨⟨given, last⟩, read, rest⟩ := exists_of_bind_eq_ok rest
      obtain ⟨final, closed, result⟩ := exists_of_bind_eq_ok rest
      cases result
      exact Nat.le_trans start
        (Nat.le_trans (le_of_arguments read) (le_of_expect closed))

/-- Read calls as long as a point follows, one of them at least. -/
def calls (tokens : List Located) (place : Nat) :
    Except Fault (List Call × Nat) :=
  match _read : call tokens place with
  | .error fault => .error fault
  | .ok (first, after) =>
      match _more : marked tokens .dot after with
      | .error fault => .error fault
      | .ok false => .ok ([first], after)
      | .ok true =>
          match _behind : advance tokens after with
          | .error fault => .error fault
          | .ok next =>
              (calls tokens next).map
                fun (others, last) => (first :: others, last)
  termination_by tokens.length - place
  decreasing_by
    have forward := le_of_call _read
    have further := lt_of_marked _more _behind
    omega

/-- The calls from a place on are one and, behind a point, others. -/
theorem calls_eq (tokens : List Located) (place : Nat) :
    calls tokens place = (do
      let (first, after) ← call tokens place
      if ← marked tokens .dot after then
        let (others, last) ← calls tokens (← advance tokens after)
        return (first :: others, last)
      return ([first], after)) := by
  rw [calls]
  cases call tokens place with
  | error fault => rfl
  | ok pair =>
      obtain ⟨first, after⟩ := pair
      simp only [ok_bind]
      cases marked tokens .dot after with
      | error fault => rfl
      | ok more =>
          cases more with
          | false => rfl
          | true =>
              cases advance tokens after with
              | error fault => rfl
              | ok next =>
                  show (calls tokens next).map _ = (calls tokens next >>= _)
                  cases calls tokens next <;> rfl

/-- Read a whole chain; no tokens at all are the chain without calls. -/
def chain (tokens : List Located) : Except Fault Chain := do
  if ← atEnd tokens 0 then return ⟨[]⟩
  let (calls, last) ← calls tokens 0
  if ← atEnd tokens last then return ⟨calls⟩
  refuse .link (← look tokens last)

end Cursor

end VerbChain
