import VerbChain.Proofs.Json.ReadBack
import VerbChain.Proofs.Number.Exactness

namespace VerbChain

/-!
# JSON numbers that are read exactly

A literal is read by gathering its digits and scaling them by a rounded power of
ten.  With few digits and a small power both are held exactly, and the literal is
read as the number nearest to it.  So a number with a fraction reads back if it
is written so short.
-/

namespace JsonNumber

/-- The decimal that a literal is. -/
def decimal (literal : JsonNumber) : Decimal :=
  let parts := Decimal.ofParts literal.whole literal.fraction
  { parts with exponent := parts.exponent + literal.power }

/--
Whether the digits of a literal are below `2 ^ 53` without the point, and the
power of ten that they are scaled by is no more than 22.
-/
def Short (literal : JsonNumber) : Prop :=
  literal.decimal.digits < 2 ^ 53 ∧ literal.decimal.exponent.natAbs ≤ 22

instance : DecidablePred Short := fun _ =>
  inferInstanceAs (Decidable (_ < _ ∧ _ ≤ _))

/-- Few digits are scaled by a small power with one rounding. -/
theorem scale?_of_few
    {digits : Nat}
    {exponent : Int}
    (few : digits < 2 ^ 53)
    (small : exponent.natAbs ≤ 22) :
    scale? (.ofNat digits) exponent =
      some (.ofDecimal false ⟨digits, exponent⟩) := by
  rw [scale?, if_pos (Nat.le_trans small (by omega))]
  cases exponent with
  | ofNat power =>
      have product :
          (Binary64.ofNat digits).times (tenTo power) =
            .ofDecimal false ⟨digits, .ofNat power⟩ :=
        Binary64.times_tens few small
      have finite :=
        (Binary64.isFinite_ofDecimal_iff false _).2
          (Decimal.fits_of_few few small)
      rw [if_pos (show 0 ≤ Int.ofNat power from Int.natCast_nonneg power)]
      show
        (if ((Binary64.ofNat digits).times (tenTo power)).isFinite = true then
            some ((Binary64.ofNat digits).times (tenTo power))
          else none) = _
      rw [product]
      exact if_pos finite
  | negSucc power =>
      have quotient := Binary64.dividedBy_tens few small
      rw [if_neg (Int.not_le.2 (Int.negSucc_lt_zero power))]
      exact congrArg some quotient

/-- A short literal is read as the number that is nearest to it. -/
theorem binary?_of_short
    {literal : JsonNumber}
    (short : literal.Short) :
    literal.binary? =
      some (.ofDecimal literal.negative literal.decimal) := by
  obtain ⟨few, small⟩ := short
  have together :
      Nat.ofDigitChars 10 literal.fraction
          (Nat.ofDigitChars 10 literal.whole 0) =
        literal.decimal.digits :=
    (Nat.ofDigitChars_append ..).symm
  have both : literal.decimal.digits ≤ greatest :=
    Nat.le_trans (Nat.le_of_lt few) (by decide)
  have front :
      Nat.ofDigitChars 10 literal.whole 0 ≤ literal.decimal.digits := by
    rw [← together]
    exact le_ofDigitChars literal.fraction _
  have gathered := gather_of_le (Nat.le_trans front both)
  have gatheredAll :=
    @gather_of_le (Nat.ofDigitChars 10 literal.whole 0) literal.fraction
      (by rw [together]; exact both)
  rw [together] at gatheredAll
  have power :
      ((0 : Nat) : Int) - ((literal.fraction.length : Int) - (0 : Nat)) +
          literal.power =
        literal.decimal.exponent := by
    show _ = -(literal.fraction.length : Int) + literal.power
    omega
  simp only [binary?, gathered, gatheredAll, List.length_nil, power,
    scale?_of_few few small, Option.map_some]
  cases literal.negative with
  | false => rfl
  | true => exact congrArg some (Binary64.negate_ofDecimal literal.decimal)

/-- The literal `2.5e-3`. -/
example :
    let literal : JsonNumber := ⟨false, ['2'], ['5'], -3, true⟩
    literal.Short ∧ literal.decimal = ⟨25, -4⟩ := by
  decide

/-- A literal in positional digits is a decimal as near as its own. -/
theorem nearestRank_positional
    {shortest : Decimal}
    (negative : Bool)
    (finite : shortest.nearestRank < finiteRanks) :
    (positional negative shortest).decimal.nearestRank =
      shortest.nearestRank := by
  obtain ⟨digits, exponent⟩ := shortest
  cases exponent with
  | ofNat power =>
      have shape :
          (positional negative ⟨digits, .ofNat power⟩).decimal =
            ⟨digits * Nat.pow 10 power * 10, .negSucc 0⟩ := by
        simp only [decimal, positional, Decimal.ofParts,
          Nat.ofDigitChars_append, Nat.ofDigitChars_ten_toDigits,
          Nat.ofDigitChars_cons]
        rw [Nat.mul_comm]
        rfl
      -- The zero behind the point multiplies and divides by ten.
      have tenth :=
        Magnitude.nearestRank_mul_right (Nat.succ_pos 9)
          (digits * Nat.pow 10 power * Magnitude.unitsPerOne) 1
      have whole :=
        @Decimal.nearestRank_ofNat 0 (by omega) (digits * Nat.pow 10 power)
      rw [Nat.pow_zero, Nat.mul_one] at whole
      rw [shape, Decimal.nearestRank_negSucc (by omega), Nat.mul_right_comm,
        ← Decimal.nearestRank_mul_pow finite]
      exact tenth.trans whole.symm
  | negSucc power =>
      have shape :
          (positional negative ⟨digits, .negSucc power⟩).decimal =
            ⟨digits, .negSucc power⟩ := by
        simp only [decimal, positional, Decimal.ofParts_lowDigits, Int.add_zero]
      rw [shape]

theorem decimal_scientific
    (negative : Bool)
    (shortest : Decimal) :
    (scientific negative shortest).decimal = shortest := by
  have some : 0 < (Nat.toDigits 10 shortest.digits).length :=
    List.length_pos_iff.2 Nat.toDigits_ne_nil
  have power :
      -(((Nat.toDigits 10 shortest.digits).drop 1).length : Int) +
          shortest.leadingPower =
        shortest.exponent := by
    rw [List.length_drop, Decimal.leadingPower]
    omega
  simp only [decimal, scientific, Decimal.ofParts, List.take_append_drop,
    Nat.ofDigitChars_ten_toDigits, power]

/-- The literal of a finite number is a decimal that is nearest to it. -/
theorem nearestRank_ofFinite
    (negative : Bool)
    (rank : Fin finiteRanks) :
    (ofFinite negative rank).decimal.nearestRank = rank := by
  have readsBack := Shortest.nearestRank_ofRank .toEven rank
  have finite : (Shortest.ofRank .toEven rank).nearestRank < finiteRanks := by
    rw [readsBack]
    exact rank.isLt
  simp only [ofFinite]
  split
  · exact (nearestRank_positional negative finite).trans readsBack
  · rw [decimal_scientific, readsBack]

end JsonNumber

namespace Json

/-- A number with a fraction reads back if it is written short. -/
theorem rereads_of_short
    {negative : Bool}
    {rank : Fin finiteRanks}
    (short : (JsonNumber.ofFinite negative rank).Short) :
    (Json.float negative rank).Rereads := by
  rw [rereads_iff, JsonNumber.binary?_of_short short,
    JsonNumber.negative_ofFinite, Binary64.ofDecimal,
    JsonNumber.nearestRank_ofFinite, Binary64.ofRank, dif_pos rank.isLt]

/-- Whether a value is written short if it is a number with a fraction. -/
def IsShort : Json → Prop
  | .float negative rank => (JsonNumber.ofFinite negative rank).Short
  | _ => True

theorem IsShort.rereads
    {json : Json}
    (short : json.IsShort) :
    json.Rereads := by
  cases json with
  | float negative rank => exact rereads_of_short short
  | _ => trivial

end Json

end VerbChain
