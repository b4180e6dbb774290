import Mathlib.Algebra.Group.Int.Defs
import VerbChain.Json.Reading
import VerbChain.Json.Writing
import VerbChain.Proofs.Source.Kinds

namespace VerbChain

/-!
# The literals of JSON numbers

A literal is spelled with its sign, its digits, a fraction if it has one and a
power if it is not zero.  A well-formed literal is scanned from its spelling in
front of all that does not continue a number.  Whole numbers and finite numbers
are written as spellings of well-formed literals, and a whole number of 64 bits
is what its literal stands for.
-/

namespace JsonNumber

/-- The fraction of a literal with its point. -/
def point : List Char → List Char
  | [] => []
  | fraction => '.' :: fraction

private theorem point_of_ne_nil
    {fraction : List Char}
    (some : fraction ≠ []) :
    point fraction = '.' :: fraction := by
  cases fraction with
  | nil => exact absurd rfl some
  | cons digit others => rfl

/-- A power as JSON writes it, with a sign always; zero is not written. -/
def mark (power : Int) : List Char :=
  if power = 0 then []
  else 'e' :: (if power < 0 then '-' else '+') :: Nat.toDigits 10 power.natAbs

/-- A literal behind its sign. -/
def unsigned (literal : JsonNumber) : List Char :=
  literal.whole ++ (point literal.fraction ++ mark literal.power)

/-- A literal as it is written. -/
def spelling (literal : JsonNumber) : List Char :=
  if literal.negative then '-' :: literal.unsigned else literal.unsigned

/-- The form of the literals that JSON has. -/
structure WellFormed (literal : JsonNumber) : Prop where
  nonempty : literal.whole ≠ []
  whole : ∀ c ∈ literal.whole, isDigit c = true
  fraction : ∀ c ∈ literal.fraction, isDigit c = true
  /-- A zero stands in front of no other digit. -/
  bareZero : literal.whole.head? = some '0' → literal.whole.length = 1
  fractional :
    literal.fractional = (literal.fraction != [] || literal.power != 0)

/-- The literal of a whole number. -/
def ofInt (value : Int) : JsonNumber where
  negative := value < 0
  whole := Nat.toDigits 10 value.natAbs
  fraction := []
  power := 0
  fractional := false

/-- The literal of a decimal in positional digits, a zero behind whole ones. -/
def positional (negative : Bool) (decimal : Decimal) : JsonNumber where
  negative := negative
  whole :=
    match decimal.exponent with
    | .ofNat power => Nat.toDigits 10 (decimal.digits * Nat.pow 10 power)
    | .negSucc power =>
        Nat.toDigits 10 (decimal.digits / Nat.pow 10 (power + 1))
  fraction :=
    match decimal.exponent with
    | .ofNat _ => ['0']
    | .negSucc power =>
        Decimal.lowDigits (power + 1)
          (decimal.digits % Nat.pow 10 (power + 1))
  power := 0
  fractional := true

/-- The literal of a decimal with one digit in front of the point. -/
def scientific (negative : Bool) (decimal : Decimal) : JsonNumber where
  negative := negative
  whole := (Nat.toDigits 10 decimal.digits).take 1
  fraction := (Nat.toDigits 10 decimal.digits).drop 1
  power := decimal.leadingPower
  fractional := true

/-- The literal of a finite number. -/
def ofFinite (negative : Bool) (rank : Nat) : JsonNumber :=
  let decimal := Shortest.ofRank .toEven rank
  if -5 ≤ decimal.leadingPower ∧ decimal.leadingPower ≤ 15 then
    positional negative decimal
  else scientific negative decimal

end JsonNumber

namespace JsonToken

/-- Whether a text does not continue a number in front of it. -/
def closes (rest : List Char) : Bool :=
  !rest.head?.any fun c => isDigit c || c == '.' || c == 'e' || c == 'E'

theorem ends_of_closes
    {rest : List Char}
    (closed : closes rest = true) :
    rest.head?.any isDigit = false ∧
      (rest.head?.any fun c => c == '.') = false ∧
      (rest.head?.any fun c => c == 'e' || c == 'E') = false := by
  cases rest with
  | nil => exact ⟨rfl, rfl, rfl⟩
  | cons c others => simp_all [closes]

private theorem splitFraction?_point
    {fraction rest : List Char}
    (allDigits : ∀ c ∈ fraction, isDigit c = true)
    (endsDigits : rest.head?.any isDigit = false)
    (endsPoint : (rest.head?.any fun c => c == '.') = false) :
    splitFraction? (JsonNumber.point fraction ++ rest) =
      some (fraction, rest) := by
  cases fraction with
  | nil =>
      unfold splitFraction?
      split
      · next others shape =>
          rw [JsonNumber.point, List.nil_append] at shape
          rw [shape] at endsPoint
          cases endsPoint
      · rfl
  | cons digit others =>
      obtain ⟨taken, left⟩ :=
        Lexeme.takeWhile_digits_append allDigits endsDigits
      have first : ((digit :: others) ++ rest).head?.any isDigit = true :=
        allDigits digit List.mem_cons_self
      rw [JsonNumber.point, List.cons_append, splitFraction?, if_pos first,
        taken, left]
      exact fun empty => by cases empty

theorem splitPower?_of_ends
    {rest : List Char}
    (ends : (rest.head?.any fun c => c == 'e' || c == 'E') = false) :
    splitPower? rest = some (none, rest) := by
  cases rest with
  | nil => rfl
  | cons c others =>
      have other : ¬(c = 'e' ∨ c = 'E') := by simpa using ends
      rw [splitPower?, if_neg other]

private theorem splitPower?_mark
    {power : Int}
    {rest : List Char}
    (present : power ≠ 0)
    (ends : rest.head?.any isDigit = false) :
    splitPower? (JsonNumber.mark power ++ rest) = some (some power, rest) := by
  have allDigits : ∀ c ∈ Nat.toDigits 10 power.natAbs, isDigit c = true :=
    fun _ => Decimal.isDigit_of_mem_toDigits
  obtain ⟨taken, left⟩ := Lexeme.takeWhile_digits_append allDigits ends
  have first :
      (Nat.toDigits 10 power.natAbs ++ rest).head?.any isDigit = true := by
    cases digits : Nat.toDigits 10 power.natAbs with
    | nil => exact absurd digits Nat.toDigits_ne_nil
    | cons digit others =>
        exact allDigits digit (digits ▸ List.mem_cons_self)
  rw [JsonNumber.mark, if_neg present]
  by_cases below : power < 0
  · have size : -(power.natAbs : Int) = power := by omega
    simp only [below, if_true, List.cons_append, splitPower?, splitSign, true_or,
      first, taken, left, Nat.ofDigitChars_ten_toDigits, size]
  · have size : (power.natAbs : Int) = power := by omega
    simp only [below, if_false, List.cons_append, splitPower?, splitSign,
      true_or, if_true, first, taken, left, Nat.ofDigitChars_ten_toDigits, size,
      Bool.false_eq_true]

/-- What a power or the end of a number starts with. -/
private theorem ends_mark
    (power : Int)
    {rest : List Char}
    (closed : closes rest = true) :
    (JsonNumber.mark power ++ rest).head?.any isDigit = false ∧
      ((JsonNumber.mark power ++ rest).head?.any fun c => c == '.') = false := by
  obtain ⟨endsDigits, endsPoint, _⟩ := ends_of_closes closed
  rw [JsonNumber.mark]
  split
  · exact ⟨endsDigits, endsPoint⟩
  · exact ⟨rfl, rfl⟩

theorem splitPower?_of_closes
    (power : Int)
    {rest : List Char}
    (closed : closes rest = true) :
    splitPower? (JsonNumber.mark power ++ rest) =
      some (if power = 0 then none else some power, rest) := by
  obtain ⟨endsDigits, _, endsMark⟩ := ends_of_closes closed
  by_cases zero : power = 0
  · subst zero
    exact splitPower?_of_ends endsMark
  · rw [splitPower?_mark zero endsDigits, if_neg zero]

/-- A literal is scanned from its digits in front of what closes it. -/
theorem scanNumber?_unsigned
    {literal : JsonNumber}
    {rest : List Char}
    (wellFormed : literal.WellFormed)
    (closed : closes rest = true) :
    scanNumber? literal.negative (literal.unsigned ++ rest) =
      some (.number literal, rest) := by
  obtain ⟨negative, whole, fraction, power, fractional⟩ := literal
  obtain ⟨nonempty, wholeDigits, fractionDigits, bareZero, marked⟩ := wellFormed
  obtain ⟨endsDigits, endsPoint⟩ := ends_mark power closed
  have ends :
      (JsonNumber.point fraction ++
        (JsonNumber.mark power ++ rest)).head?.any isDigit = false := by
    cases fraction with
    | nil => exact endsDigits
    | cons digit others => rfl
  obtain ⟨taken, left⟩ := Lexeme.takeWhile_digits_append wholeDigits ends
  have proper : ¬(whole = [] ∨ whole.head? = some '0' ∧ whole.length ≠ 1) := by
    rintro (empty | ⟨zero, several⟩)
    · exact nonempty empty
    · exact several (bareZero zero)
  simp only [JsonNumber.unsigned, List.append_assoc, scanNumber?, taken, left,
    if_neg proper, splitFraction?_point fractionDigits endsDigits endsPoint,
    splitPower?_of_closes power closed, Option.bind_some, Option.map_some]
  simp only at marked
  subst marked
  by_cases zero : power = 0 <;> simp [zero]

theorem scan?_of_isDigit
    {c : Char}
    {rest : List Char}
    (digit : isDigit c = true) :
    scan? (c :: rest) = scanNumber? false (c :: rest) := by
  unfold scan?
  split
  case h_12 => rfl
  all_goals
    next shape =>
      cases shape
      exact absurd digit (by decide)

/-- A well-formed literal is scanned from its spelling. -/
theorem scan?_spelling
    {literal : JsonNumber}
    {rest : List Char}
    (wellFormed : literal.WellFormed)
    (closed : closes rest = true) :
    scan? (literal.spelling ++ rest) = some (.number literal, rest) := by
  have scanned := scanNumber?_unsigned wellFormed closed
  rw [JsonNumber.spelling]
  cases negative : literal.negative with
  | true =>
      rw [negative] at scanned
      exact scanned
  | false =>
      rw [negative] at scanned
      rw [if_neg Bool.false_ne_true, ← scanned]
      cases digits : literal.whole with
      | nil => exact absurd digits wellFormed.nonempty
      | cons digit others =>
          rw [JsonNumber.unsigned, digits]
          exact scan?_of_isDigit
            (wellFormed.whole digit (digits ▸ List.mem_cons_self))

end JsonToken

namespace JsonNumber

private theorem head?_toDigits_ne_zero
    {n : Nat}
    (positive : 0 < n) :
    (Nat.toDigits 10 n).head? ≠ some '0' := by
  induction n using Nat.strongRecOn with
  | ind n inductionHypothesis =>
      by_cases small : n < 10
      · rw [Nat.toDigits_of_lt_base small]
        intro zero
        exact Nat.ne_of_gt positive
          (Nat.digitChar_eq_zero.1 (Option.some.inj zero))
      · rw [Nat.toDigits_of_base_le (by omega) (by omega)]
        have higher :=
          inductionHypothesis (n / 10) (by omega) (by omega)
        obtain ⟨lead, others, digits⟩ :=
          List.exists_cons_of_ne_nil
            (Nat.toDigits_ne_nil : Nat.toDigits 10 (n / 10) ≠ [])
        rw [digits] at higher ⊢
        exact higher

/-- Only the number zero starts with a zero. -/
theorem bareZero_toDigits
    (n : Nat)
    (zero : (Nat.toDigits 10 n).head? = some '0') :
    (Nat.toDigits 10 n).length = 1 := by
  rcases Nat.eq_zero_or_pos n with rfl | positive
  · rfl
  · exact absurd zero (head?_toDigits_ne_zero positive)

theorem wellFormed_ofInt (value : Int) : (ofInt value).WellFormed where
  nonempty := Nat.toDigits_ne_nil
  whole _ := Decimal.isDigit_of_mem_toDigits
  fraction _ member := by cases member
  bareZero := bareZero_toDigits value.natAbs
  fractional := rfl

/-- A whole number is written as its literal. -/
theorem spelling_ofInt (value : Int) :
    (ofInt value).spelling = Json.integerText value := by
  cases value with
  | ofNat n => exact List.append_nil _
  | negSucc n =>
      have negative : (ofInt (.negSucc n)).negative = true :=
        decide_eq_true (Int.negSucc_lt_zero n)
      rw [spelling, if_pos negative]
      exact congrArg (List.cons '-') (List.append_nil _)

/-- Digits behind a number make it no smaller. -/
theorem le_ofDigitChars
    (digits : List Char)
    (value : Nat) :
    value ≤ Nat.ofDigitChars 10 digits value := by
  rw [Nat.ofDigitChars_eq_ofDigitChars_zero]
  apply Nat.le_trans (Nat.le_mul_of_pos_left _ (Nat.pow_pos _))
    (Nat.le_add_right _ _)
  exact Nat.succ_pos 9

/-- Digits are gathered to the end when their number fits into 64 bits. -/
theorem gather_of_le
    {value : Nat}
    {digits : List Char}
    (fits : Nat.ofDigitChars 10 digits value ≤ greatest) :
    gather value digits = (Nat.ofDigitChars 10 digits value, []) := by
  induction digits generalizing value with
  | nil => rfl
  | cons digit others inductionHypothesis =>
      rw [Nat.ofDigitChars_cons, Nat.mul_comm] at fits ⊢
      have small : value * 10 + (digit.toNat - '0'.toNat) ≤ greatest :=
        Nat.le_trans (le_ofDigitChars others _) fits
      rw [gather, if_pos small, inductionHypothesis fits]

/-- A whole number of 64 bits is what its literal stands for. -/
theorem toJson?_ofInt
    {value : Int}
    (least : -(2 ^ 63) ≤ value)
    (most : value < 2 ^ 64) :
    (ofInt value).toJson? = some (.integer value) := by
  have fits :
      Nat.ofDigitChars 10 (Nat.toDigits 10 value.natAbs) 0 ≤ greatest := by
    rw [Nat.ofDigitChars_ten_toDigits, show greatest = 2 ^ 64 - 1 from rfl]
    omega
  have gathered := gather_of_le fits
  rw [Nat.ofDigitChars_ten_toDigits] at gathered
  have whole : (ofInt value).integer? = some value := by
    simp only [integer?, ofInt, gathered, Bool.false_eq_true, ne_eq,
      not_true_eq_false, or_self, if_false, decide_eq_true_eq]
    rw [show 1 <<< 63 = 2 ^ 63 from rfl]
    split
    · rw [if_pos (by omega)]
      congr 1
      omega
    · congr 1
      omega
  rw [toJson?, whole]

theorem wellFormed_positional
    (negative : Bool)
    (decimal : Decimal) :
    (positional negative decimal).WellFormed := by
  obtain ⟨digits, exponent⟩ := decimal
  cases exponent with
  | ofNat power =>
      exact {
        nonempty := Nat.toDigits_ne_nil
        whole := fun _ => Decimal.isDigit_of_mem_toDigits
        fraction := by
          intro c member
          rw [List.mem_singleton.1 member]
          rfl
        bareZero := bareZero_toDigits _
        fractional := rfl }
  | negSucc power =>
      exact {
        nonempty := Nat.toDigits_ne_nil
        whole := fun _ => Decimal.isDigit_of_mem_toDigits
        fraction := fun _ => Decimal.isDigit_of_mem_lowDigits
        bareZero := bareZero_toDigits _
        fractional := by simp [positional, Decimal.lowDigits] }

theorem wellFormed_scientific
    (negative : Bool)
    {decimal : Decimal}
    (power : decimal.leadingPower ≠ 0) :
    (scientific negative decimal).WellFormed where
  nonempty := by
    simp only [scientific, ne_eq, List.take_eq_nil_iff, not_or]
    exact ⟨Nat.one_ne_zero, Nat.toDigits_ne_nil⟩
  whole _ member := Decimal.isDigit_of_mem_toDigits (List.mem_of_mem_take member)
  fraction _ member :=
    Decimal.isDigit_of_mem_toDigits (List.mem_of_mem_drop member)
  bareZero _ := by
    have some : 0 < (Nat.toDigits 10 decimal.digits).length :=
      List.length_pos_iff.2 Nat.toDigits_ne_nil
    rw [scientific, List.length_take]
    omega
  fractional := by simp [scientific, power]

theorem wellFormed_ofFinite
    (negative : Bool)
    (rank : Nat) :
    (ofFinite negative rank).WellFormed := by
  simp only [ofFinite]
  split
  · exact wellFormed_positional negative _
  · next outside =>
      apply wellFormed_scientific negative
      intro zero
      rw [zero] at outside
      exact outside (by decide)

theorem unsigned_positional
    (negative : Bool)
    (decimal : Decimal) :
    (positional negative decimal).unsigned =
      NumberLayout.json.plain decimal := by
  obtain ⟨digits, exponent⟩ := decimal
  cases exponent with
  | ofNat power =>
      have nonnegative : ¬Int.ofNat power < 0 := by simp
      rw [NumberLayout.plain, if_neg nonnegative]
      rfl
  | negSucc power =>
      have some :
          Decimal.lowDigits (power + 1) (digits % Nat.pow 10 (power + 1)) ≠
            [] := by
        simp [Decimal.lowDigits]
      simp only [unsigned, positional, point_of_ne_nil some, mark, if_true,
        List.append_nil, NumberLayout.plain, Int.negSucc_lt_zero,
        Decimal.plain]

theorem unsigned_scientific
    (negative : Bool)
    {decimal : Decimal}
    (power : decimal.leadingPower ≠ 0) :
    (scientific negative decimal).unsigned =
      NumberLayout.json.scientific decimal := by
  have sign :
      (if decimal.leadingPower < 0 then ['-']
        else NumberLayout.json.powerMark) =
        [if decimal.leadingPower < 0 then '-' else '+'] := by
    split <;> rfl
  cases digits : Nat.toDigits 10 decimal.digits with
  | nil => exact absurd digits Nat.toDigits_ne_nil
  | cons lead others =>
      simp only [unsigned, scientific, digits, mark, if_neg power,
        NumberLayout.scientific, sign]
      cases others <;> rfl

theorem negative_ofFinite
    (negative : Bool)
    (rank : Nat) :
    (ofFinite negative rank).negative = negative := by
  rw [ofFinite]
  split <;> rfl

/-- A finite number is written as its literal. -/
theorem spelling_ofFinite
    (negative : Bool)
    (rank : Nat) :
    (ofFinite negative rank).spelling =
      NumberLayout.json.finite negative rank := by
  have magnitude :
      (ofFinite negative rank).unsigned = NumberLayout.json.magnitude rank := by
    simp only [ofFinite, NumberLayout.magnitude]
    split
    · next within =>
        rw [unsigned_positional]
        exact (if_pos within).symm
    · next outside =>
        have power : (Shortest.ofRank .toEven rank).leadingPower ≠ 0 := by
          intro zero
          rw [zero] at outside
          exact outside (by decide)
        rw [unsigned_scientific negative power]
        exact (if_neg outside).symm
  rw [spelling, negative_ofFinite, magnitude]
  rfl

end JsonNumber

end VerbChain
