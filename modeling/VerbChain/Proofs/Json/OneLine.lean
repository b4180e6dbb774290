import VerbChain.Proofs.Json.Literals

namespace VerbChain

/-!
# JSON on one line

A value that is written without blanks has no character below the space: those
of its keys and strings are escaped, its numbers are spelled in digits, and the
rest of it are words, brackets and marks.  So it stands on one line.
-/

/-- A text without characters below the space. -/
def NoControl (text : List Char) : Prop :=
  ∀ c ∈ text, 0x20 ≤ c.toNat

instance (text : List Char) : Decidable (NoControl text) :=
  List.decidableBAll (fun c : Char => 0x20 ≤ c.toNat) text

namespace NoControl

theorem nil : NoControl [] :=
  List.forall_mem_nil _

theorem cons
    {c : Char}
    {text : List Char}
    (visible : 0x20 ≤ c.toNat)
    (others : NoControl text) :
    NoControl (c :: text) :=
  List.forall_mem_cons.2 ⟨visible, others⟩

theorem append
    {text other : List Char}
    (first : NoControl text)
    (second : NoControl other) :
    NoControl (text ++ other) :=
  List.forall_mem_append.2 ⟨first, second⟩

theorem digits
    {text : List Char}
    (digits : ∀ c ∈ text, isDigit c = true) :
    NoControl text := by
  intro c member
  have least : '0' ≤ c :=
    of_decide_eq_true (Bool.and_eq_true_iff.1 (digits c member)).1
  have numbers : '0'.toNat ≤ c.toNat := least
  exact Nat.le_trans (by decide) numbers

/-- A text without characters below the space has no line ends. -/
private theorem not_mem_newline
    {text : List Char}
    (none : NoControl text) :
    '\n' ∉ text :=
  fun member => absurd (none _ member) (by decide)

end NoControl

/-- A spacing that has no characters below the space, so it ends no line. -/
structure JsonSpacing.OneLine (spacing : JsonSpacing) : Prop where
  line : ∀ depth, NoControl (spacing.line depth)
  afterColon : NoControl spacing.afterColon

theorem JsonSpacing.oneLine_compact : JsonSpacing.compact.OneLine where
  line _ := .nil
  afterColon := .nil

namespace JsonNumber

/-- A well-formed literal is spelled in digits, a point and signs. -/
theorem noControl_spelling
    {literal : JsonNumber}
    (wellFormed : literal.WellFormed) :
    NoControl literal.spelling := by
  have fraction : NoControl (point literal.fraction) := by
    cases written : literal.fraction with
    | nil => exact .nil
    | cons digit others =>
        refine .cons (by decide) (.digits ?_)
        rw [← written]
        exact wellFormed.fraction
  have power : NoControl (mark literal.power) := by
    rw [mark]
    split
    · exact .nil
    · refine .cons (by decide) (.cons ?_ (.digits ?_))
      · split <;> decide
      · exact fun _ => Decimal.isDigit_of_mem_toDigits
  have unsigned : NoControl literal.unsigned :=
    .append (.digits wellFormed.whole) (.append fraction power)
  rw [spelling]
  split
  · exact .cons (by decide) unsigned
  · exact unsigned

end JsonNumber

namespace Json

private theorem visible_digitChar : ∀ n < 16, 0x20 ≤ n.digitChar.toNat := by
  decide

/-- A character is written without characters below the space. -/
theorem noControl_escape (c : Char) : NoControl (escape c) := by
  unfold escape
  -- All but the last two cases are the short escapes.
  repeat' split
  iterate 7 decide
  · next control =>
      have high := visible_digitChar (c.toNat / 16) (by omega)
      have low := visible_digitChar (c.toNat % 16) (by omega)
      exact
        @NoControl.append ['\\', 'u', '0', '0'] _ (by decide)
          (.cons high (.cons low .nil))
  · next visible => exact .cons (Nat.le_of_not_lt visible) .nil

theorem noControl_quoted (content : String) : NoControl (quoted content) := by
  refine .cons (by decide) (.append ?_ (.cons (by decide) .nil))
  intro c member
  obtain ⟨written, _, inEscape⟩ := List.mem_flatMap.1 member
  exact noControl_escape written c inEscape

variable {spacing : JsonSpacing}

mutual

/-- A value that is written in one line has no character below the space. -/
theorem noControl_write
    (oneLine : spacing.OneLine)
    (depth : Nat)
    (json : Json) :
    NoControl (json.write spacing depth) := by
  cases json with
  | null => exact (by decide : NoControl "null".toList)
  | bool value =>
      cases value
      · exact (by decide : NoControl "false".toList)
      · exact (by decide : NoControl "true".toList)
  | integer value =>
      have spelled :=
        JsonNumber.noControl_spelling (JsonNumber.wellFormed_ofInt value)
      rw [JsonNumber.spelling_ofInt] at spelled
      exact spelled
  | float negative rank =>
      have spelled :=
        JsonNumber.noControl_spelling
          (JsonNumber.wellFormed_ofFinite negative rank)
      rw [JsonNumber.spelling_ofFinite] at spelled
      exact spelled
  | string content => exact noControl_quoted content
  | array items =>
      cases items with
      | nil => exact (by decide : NoControl ['[', ']'])
      | cons item items =>
          exact
            .cons (by decide)
              (.append (oneLine.line _)
                (.append (noControl_write oneLine _ item)
                  (noControl_writeItems oneLine _ items)))
  | object fields =>
      cases fields with
      | nil => exact (by decide : NoControl ['\x7b', '\x7d'])
      | cons field fields =>
          exact
            .cons (by decide)
              (.append (oneLine.line _)
                (.append (noControl_quoted field.1)
                  (.cons (by decide)
                    (.append oneLine.afterColon
                      (.append (noControl_write oneLine _ field.2)
                        (noControl_writeFields oneLine _ fields))))))

theorem noControl_writeItems
    (oneLine : spacing.OneLine)
    (depth : Nat)
    (items : List Json) :
    NoControl (writeItems spacing depth items) := by
  cases items with
  | nil => exact .append (oneLine.line depth) (.cons (by decide) .nil)
  | cons item items =>
      exact
        .cons (by decide)
          (.append (oneLine.line _)
            (.append (noControl_write oneLine _ item)
              (noControl_writeItems oneLine _ items)))

theorem noControl_writeFields
    (oneLine : spacing.OneLine)
    (depth : Nat)
    (fields : List (String × Json)) :
    NoControl (writeFields spacing depth fields) := by
  cases fields with
  | nil => exact .append (oneLine.line depth) (.cons (by decide) .nil)
  | cons field fields =>
      exact
        .cons (by decide)
          (.append (oneLine.line _)
            (.append (noControl_quoted field.1)
              (.cons (by decide)
                (.append oneLine.afterColon
                  (.append (noControl_write oneLine _ field.2)
                    (noControl_writeFields oneLine _ fields))))))

end

/-- A value without blanks stands on one line. -/
theorem newline_not_mem_compact (json : Json) :
    '\n' ∉ json.compact.toList := by
  rw [compact, String.toList_ofList]
  exact (noControl_write JsonSpacing.oneLine_compact 0 json).not_mem_newline

end Json

end VerbChain
