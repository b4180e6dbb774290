import VerbChain.Number.Decimal

namespace VerbChain

/-!
# JSON tokens

The tokens of a JSON text as they are written.  A number keeps its digits and
a string keeps its escapes, because what they stand for is asked for only
where a value is wanted: a part of a text that nobody reads need only be
well-formed.
-/

/-- A number as it is written: digits before and behind the point, a power. -/
structure JsonNumber where
  negative : Bool
  whole : List Char
  fraction : List Char
  power : Int
  /-- Whether a point or a power was written. -/
  fractional : Bool
  deriving Repr, DecidableEq

/-- One piece of a string: a character, or a code unit written in digits. -/
inductive JsonPiece where
  | char (c : Char)
  | unit (value : Nat)
  deriving Repr, DecidableEq

/-- A token of a JSON text. -/
inductive JsonToken where
  | null
  | bool (value : Bool)
  | number (literal : JsonNumber)
  | string (pieces : List JsonPiece)
  | openArray
  | closeArray
  | openObject
  | closeObject
  | comma
  | colon
  deriving Repr, DecidableEq

namespace JsonToken

/-- The four blanks of JSON. -/
def isSpace (c : Char) : Bool :=
  c == ' ' || c == '\n' || c == '\t' || c == '\r'

/-- The value of a hexadecimal digit. -/
def hexDigit? (c : Char) : Option Nat :=
  if '0' ≤ c ∧ c ≤ '9' then some (c.toNat - '0'.toNat)
  else if 'a' ≤ c ∧ c ≤ 'f' then some (c.toNat - 'a'.toNat + 10)
  else if 'A' ≤ c ∧ c ≤ 'F' then some (c.toNat - 'A'.toNat + 10)
  else none

/-- The code unit of four hexadecimal digits. -/
def hexUnit? (a b c d : Char) : Option Nat := do
  let a ← hexDigit? a
  let b ← hexDigit? b
  let c ← hexDigit? c
  let d ← hexDigit? d
  return ((a * 16 + b) * 16 + c) * 16 + d

/-- The character that a backslash in front of `c` stands for. -/
def unescape? (c : Char) : Option Char :=
  if c = '"' ∨ c = '\\' ∨ c = '/' then some c
  else if c = 'b' then some '\x08'
  else if c = 'f' then some '\x0c'
  else if c = 'n' then some '\n'
  else if c = 'r' then some '\r'
  else if c = 't' then some '\t'
  else none

/-- Read a string up to its closing quote. -/
def closeString? : List Char → Option (List JsonPiece × List Char)
  | [] => none
  | '"' :: rest => some ([], rest)
  | '\\' :: 'u' :: a :: b :: c :: d :: rest =>
      (hexUnit? a b c d).bind fun value =>
        (closeString? rest).map fun (pieces, after) =>
          (.unit value :: pieces, after)
  | '\\' :: escaped :: rest =>
      (unescape? escaped).bind fun c =>
        (closeString? rest).map fun (pieces, after) =>
          (.char c :: pieces, after)
  | c :: rest =>
      if c.toNat < 0x20 ∨ c = '\\' then none
      else
        (closeString? rest).map fun (pieces, after) =>
          (.char c :: pieces, after)

/-- Read the power of a number, when one is written. -/
def splitPower? : List Char → Option (Option Int × List Char)
  | [] => some (none, [])
  | mark :: rest =>
      if mark = 'e' ∨ mark = 'E' then
        let signed := splitSign rest
        if signed.2.head?.any isDigit then
          let size : Int :=
            (Nat.ofDigitChars 10 (signed.2.takeWhile isDigit) 0 : Nat)
          some (some (if signed.1 then -size else size),
            signed.2.dropWhile isDigit)
        else none
      else some (none, mark :: rest)

/-- Read the fraction of a number, when one is written. -/
def splitFraction? : List Char → Option (List Char × List Char)
  | '.' :: rest =>
      if rest.head?.any isDigit then
        some (rest.takeWhile isDigit, rest.dropWhile isDigit)
      else none
  | text => some ([], text)

/-- Read a number behind its sign; a zero in front of digits is no number. -/
def scanNumber? (negative : Bool) (text : List Char) :
    Option (JsonToken × List Char) :=
  let whole := text.takeWhile isDigit
  if whole = [] ∨ (whole.head? = some '0' ∧ whole.length ≠ 1) then none
  else
    (splitFraction? (text.dropWhile isDigit)).bind fun (fraction, after) =>
      (splitPower? after).map fun (power, rest) =>
        (.number
          { negative := negative
            whole := whole
            fraction := fraction
            power := power.getD 0
            fractional := fraction != [] || power.isSome },
          rest)

/-- Read the one token that a text starts with. -/
def scan? : List Char → Option (JsonToken × List Char)
  | '[' :: rest => some (.openArray, rest)
  | ']' :: rest => some (.closeArray, rest)
  | '{' :: rest => some (.openObject, rest)
  | '}' :: rest => some (.closeObject, rest)
  | ',' :: rest => some (.comma, rest)
  | ':' :: rest => some (.colon, rest)
  | '"' :: rest =>
      (closeString? rest).map fun (pieces, after) => (.string pieces, after)
  | '-' :: rest => scanNumber? true rest
  | 'n' :: 'u' :: 'l' :: 'l' :: rest => some (.null, rest)
  | 't' :: 'r' :: 'u' :: 'e' :: rest => some (.bool true, rest)
  | 'f' :: 'a' :: 'l' :: 's' :: 'e' :: rest => some (.bool false, rest)
  | text => scanNumber? false text

/-- What follows a closed string is shorter. -/
theorem closeString?_length_lt
    {text rest : List Char}
    {pieces : List JsonPiece}
    (closed : closeString? text = some (pieces, rest)) :
    rest.length < text.length := by
  fun_induction closeString? text generalizing pieces rest with
  | case1 => cases closed
  | case2 =>
      cases closed
      simp
  | case3 a b c d tail hypothesis =>
      simp only [Option.bind_eq_some_iff, Option.map_eq_some_iff, Prod.exists,
        Prod.mk.injEq] at closed
      obtain ⟨_, _, _, _, found, _, rfl⟩ := closed
      have := hypothesis found
      simp
      omega
  | case4 escaped tail _ hypothesis =>
      simp only [Option.bind_eq_some_iff, Option.map_eq_some_iff, Prod.exists,
        Prod.mk.injEq] at closed
      obtain ⟨_, _, _, _, found, _, rfl⟩ := closed
      have := hypothesis found
      simp
      omega
  | case5 => cases closed
  | case6 c tail _ _ _ _ hypothesis =>
      simp only [Option.map_eq_some_iff, Prod.exists, Prod.mk.injEq] at closed
      obtain ⟨_, _, found, _, rfl⟩ := closed
      have := hypothesis found
      simp
      omega

/-- Dropping a run of characters never lengthens a text. -/
theorem length_dropWhile_le (p : Char → Bool) (text : List Char) :
    (text.dropWhile p).length ≤ text.length :=
  (List.dropWhile_sublist p).length_le

/-- What follows a power is no longer than the text. -/
theorem splitPower?_length_le
    {text rest : List Char}
    {power : Option Int}
    (found : splitPower? text = some (power, rest)) :
    rest.length ≤ text.length := by
  unfold splitPower? at found
  split at found
  · cases found
    simp
  · next mark tail =>
      dsimp only at found
      have dropped := length_dropWhile_le isDigit (splitSign tail).2
      have unsigned := splitSign_length_le tail
      simp only [List.length_cons]
      split at found
      · split at found
        · simp only [Option.some.injEq, Prod.mk.injEq] at found
          obtain ⟨_, rfl⟩ := found
          omega
        · cases found
      · cases found
        simp

/-- What follows a fraction is no longer than the text. -/
theorem splitFraction?_length_le
    {text fraction rest : List Char}
    (found : splitFraction? text = some (fraction, rest)) :
    rest.length ≤ text.length := by
  unfold splitFraction? at found
  split at found
  · next tail =>
      split at found
      · cases found
        have := length_dropWhile_le isDigit tail
        simp only [List.length_cons]
        omega
      · cases found
  · cases found
    simp

/-- What follows a number is shorter. -/
theorem scanNumber?_length_lt
    {negative : Bool}
    {text rest : List Char}
    {token : JsonToken}
    (found : scanNumber? negative text = some (token, rest)) :
    rest.length < text.length := by
  simp only [scanNumber?] at found
  split at found
  · cases found
  · next proper =>
      simp only [Option.bind_eq_some_iff, Option.map_eq_some_iff, Prod.exists,
        Prod.mk.injEq] at found
      obtain ⟨_, after, fraction, _, _, power, _, rfl⟩ := found
      have nonempty : text.takeWhile isDigit ≠ [] := fun empty =>
        proper (.inl empty)
      have positive := List.length_pos_iff.2 nonempty
      have whole := congrArg List.length
        (List.takeWhile_append_dropWhile (p := isDigit) (l := text))
      rw [List.length_append] at whole
      have := splitFraction?_length_le fraction
      have := splitPower?_length_le power
      omega

/-- What follows a token is shorter. -/
theorem scan?_length_lt
    {text rest : List Char}
    {token : JsonToken}
    (found : scan? text = some (token, rest)) :
    rest.length < text.length := by
  unfold scan? at found
  split at found
  case h_7 =>
    simp only [Option.map_eq_some_iff, Prod.exists, Prod.mk.injEq] at found
    obtain ⟨_, _, closed, _, rfl⟩ := found
    have := closeString?_length_lt closed
    simp only [List.length_cons]
    omega
  case h_8 =>
    have := scanNumber?_length_lt found
    simp only [List.length_cons]
    omega
  case h_12 => exact scanNumber?_length_lt found
  all_goals
    cases found
    simp only [List.length_cons]
    omega

/-- The tokens of a JSON text. -/
def ofText? (text : List Char) : Option (List JsonToken) :=
  match _body : text.dropWhile isSpace with
  | [] => some []
  | c :: tail =>
      match _found : scan? (c :: tail) with
      | none => none
      | some (token, rest) => (ofText? rest).map (token :: ·)
  termination_by text.length
  decreasing_by
    have shorter := scan?_length_lt _found
    have dropped := length_dropWhile_le isSpace text
    rw [_body] at dropped
    omega

end JsonToken

end VerbChain
