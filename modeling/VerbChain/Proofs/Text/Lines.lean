import VerbChain.Text.Lines

namespace VerbChain

/-!
# The lines of a text

A line feed ends a line, and a carriage return in front of it counts as a part
of that end.  So lines that are joined by line feeds are read back as they were,
except that all but the last lose a carriage return they end in.
-/

/-- A line without a carriage return that it ends in. -/
def withoutReturn (line : List Char) : List Char :=
  if line.getLast? = some '\r' then line.dropLast else line

theorem withoutReturn_concat (line : List Char) :
    withoutReturn (line ++ ['\r']) = line := by
  rw [withoutReturn, List.getLast?_concat, if_pos rfl, List.dropLast_concat]

theorem withoutReturn_of_ne
    {line : List Char}
    (plain : line.getLast? ≠ some '\r') :
    withoutReturn line = line :=
  if_neg plain

/-- A line that ends in a carriage return, taken apart in front of it. -/
theorem eq_concat_of_getLast?
    {line : List Char}
    (ends : line.getLast? = some '\r') :
    ∃ body, line = body ++ ['\r'] := by
  obtain ⟨body, shape⟩ := List.getLast?_eq_some_iff.1 ends
  exact ⟨body, shape⟩

theorem withoutReturn_eq_self_iff {line : List Char} :
    withoutReturn line = line ↔ line.getLast? ≠ some '\r' := by
  constructor
  · intro same ends
    obtain ⟨body, rfl⟩ := eq_concat_of_getLast? ends
    rw [withoutReturn_concat] at same
    simpa using congrArg List.length same
  · exact withoutReturn_of_ne

/-- A character in front of others of its line is added to that line. -/
private theorem withoutReturn_cons
    {c : Char}
    {line : List Char}
    (others : line ≠ [] ∨ c ≠ '\r') :
    withoutReturn (c :: line) = c :: withoutReturn line := by
  cases line with
  | nil =>
      have plain : c ≠ '\r' := others.resolve_left fun some => some rfl
      simp [withoutReturn, plain]
  | cons next rest =>
      unfold withoutReturn
      rw [List.getLast?_cons_cons]
      split <;> rfl

/-- A character that ends no line, by itself or with the next, goes on with it. -/
theorem textLines_cons
    {c : Char}
    {rest : List Char}
    (inLine : c ≠ '\n')
    (goesOn : c = '\r' → rest.head? ≠ some '\n') :
    textLines (c :: rest) =
      ((c :: (textLines rest).headD []) :: (textLines rest).tail) := by
  rw [textLines]
  · cases textLines rest <;> rfl
  · exact inLine
  · rintro more rfl rfl
    exact goesOn rfl rfl

/-- The first line feed of a text ends its first line. -/
theorem textLines_append_newline
    {line : List Char}
    (oneLine : '\n' ∉ line)
    (rest : List Char) :
    textLines (line ++ '\n' :: rest) = withoutReturn line :: textLines rest := by
  induction line with
  | nil => rfl
  | cons c line inductionHypothesis =>
      rw [List.mem_cons, not_or] at oneLine
      obtain ⟨inLine, others⟩ := oneLine
      by_cases last : line = [] ∧ c = '\r'
      · obtain ⟨rfl, rfl⟩ := last
        rfl
      · rw [Classical.not_and_iff_not_or_not] at last
        rw [withoutReturn_cons last, List.cons_append, textLines_cons,
          inductionHypothesis others]
        · rfl
        · exact Ne.symm inLine
        · rintro rfl
          cases line with
          | nil => exact absurd rfl (last.resolve_right fun some => some rfl)
          | cons next more =>
              rw [List.cons_append, List.head?_cons]
              intro ends
              exact others (Option.some.inj ends ▸ List.mem_cons_self)

/-- A text without line feeds is one line, unless it is empty. -/
theorem textLines_of_oneLine
    {line : List Char}
    (oneLine : '\n' ∉ line)
    (some : line ≠ []) :
    textLines line = [line] := by
  induction line with
  | nil => exact absurd rfl some
  | cons c line inductionHypothesis =>
      rw [List.mem_cons, not_or] at oneLine
      obtain ⟨inLine, others⟩ := oneLine
      rw [textLines_cons (Ne.symm inLine)]
      · cases line with
        | nil => rfl
        | cons next more =>
            rw [inductionHypothesis others (List.cons_ne_nil _ _)]
            rfl
      · intro _ ends
        exact others (List.mem_of_head? ends)

/-- A text is one line without its end, or a line with its end and a rest. -/
private theorem oneLine_or_exists_line (text : List Char) :
    '\n' ∉ text ∨
      ∃ line rest, text = line ++ '\n' :: rest ∧ '\n' ∉ line := by
  by_cases ended : '\n' ∈ text
  · exact .inr (List.eq_append_cons_of_mem ended)
  · exact .inl ended

/--
What holds of texts of one line, and of a text if it holds behind the end of its
first line, holds of all texts.
-/
theorem induction_on_lines
    {motive : List Char → Prop}
    (oneLine : ∀ line, '\n' ∉ line → motive line)
    (line :
      ∀ line rest, '\n' ∉ line → motive rest → motive (line ++ '\n' :: rest))
    (text : List Char) :
    motive text := by
  induction length : text.length using Nat.strongRecOn generalizing text with
  | ind count inductionHypothesis =>
      rcases oneLine_or_exists_line text with ended | ⟨first, rest, rfl, inLine⟩
      · exact oneLine text ended
      · refine line first rest inLine (inductionHypothesis rest.length ?_ rest rfl)
        rw [← length, List.length_append, List.length_cons]
        omega

/-- Lines have no line feeds in them. -/
theorem newline_not_mem_of_mem_textLines
    {text line : List Char}
    (member : line ∈ textLines text) :
    '\n' ∉ line := by
  induction text using induction_on_lines with
  | oneLine text inLine =>
      by_cases nothing : text = []
      · rw [nothing] at member
        cases member
      · rw [textLines_of_oneLine inLine nothing, List.mem_singleton] at member
        rwa [member]
  | line first rest inLine inductionHypothesis =>
      rw [textLines_append_newline inLine, List.mem_cons] at member
      rcases member with rfl | later
      · intro ends
        unfold withoutReturn at ends
        split at ends
        · exact inLine ((List.dropLast_sublist first).subset ends)
        · exact inLine ends
      · exact inductionHypothesis later

/-- Every line feed ends a line. -/
theorem length_textLines_append
    (text rest : List Char) :
    (textLines (text ++ '\n' :: rest)).length =
      text.count '\n' + 1 + (textLines rest).length := by
  induction text using induction_on_lines with
  | oneLine text inLine =>
      rw [textLines_append_newline inLine, List.count_eq_zero.2 inLine,
        List.length_cons, Nat.zero_add, Nat.add_comm]
  | line first others inLine inductionHypothesis =>
      rw [List.append_assoc, List.cons_append, textLines_append_newline inLine,
        List.length_cons, inductionHypothesis, List.count_append,
        List.count_cons_self, List.count_eq_zero.2 inLine]
      omega

section Joined

theorem joined_eq_intercalate
    (separator : List α)
    (texts : List (List α)) :
    joined separator texts = separator.intercalate texts := by
  induction texts with
  | nil => rfl
  | cons text texts inductionHypothesis =>
      cases texts with
      | nil => simp [joined, List.intercalate]
      | cons next rest =>
          rw [joined, inductionHypothesis]
          simp [List.intercalate]

variable {lines others : List (List Char)}

/-- Lines that are joined by line feeds are told apart by these. -/
theorem eq_of_joined_eq
    (oneLine : ∀ line ∈ lines, '\n' ∉ line)
    (oneLineToo : ∀ line ∈ others, '\n' ∉ line)
    (some : lines ≠ [])
    (someToo : others ≠ [])
    (same : joined ['\n'] lines = joined ['\n'] others) :
    lines = others := by
  have cut := congrArg (List.splitOn '\n') same
  rwa [joined_eq_intercalate, joined_eq_intercalate,
    List.splitOn_intercalate '\n' oneLine some,
    List.splitOn_intercalate '\n' oneLineToo someToo] at cut

/-- Lines as they are read back when they were joined by line feeds. -/
def rejoined : List (List Char) → List (List Char)
  | [] => []
  | [line] => [line]
  | line :: next :: rest => withoutReturn line :: rejoined (next :: rest)

theorem length_rejoined : ∀ lines, (rejoined lines).length = lines.length
  | [] => rfl
  | [_] => rfl
  | _ :: next :: rest => congrArg (· + 1) (length_rejoined (next :: rest))

/-- No line but the last ends in a carriage return. -/
def EndPlain (lines : List (List Char)) : Prop :=
  ∀ line ∈ lines.dropLast, line.getLast? ≠ some '\r'

/-- Only the last line may be empty where lines are read back. -/
theorem textLines_joined
    (oneLine : ∀ line ∈ lines, '\n' ∉ line)
    (nonempty : ∀ line ∈ lines, line ≠ []) :
    textLines (joined ['\n'] lines) = rejoined lines := by
  induction lines with
  | nil => rfl
  | cons line rest inductionHypothesis =>
      obtain ⟨inLine, inLines⟩ := List.forall_mem_cons.1 oneLine
      obtain ⟨some, someOthers⟩ := List.forall_mem_cons.1 nonempty
      cases rest with
      | nil => exact textLines_of_oneLine inLine some
      | cons next rest =>
          rw [joined, rejoined, List.singleton_append,
            textLines_append_newline inLine,
            inductionHypothesis inLines someOthers]

/-- Lines are read back as they were if they end plain, and only then. -/
theorem rejoined_eq_self_iff : rejoined lines = lines ↔ EndPlain lines := by
  induction lines with
  | nil => simp [rejoined, EndPlain]
  | cons line rest inductionHypothesis =>
      cases rest with
      | nil => simp [rejoined, EndPlain]
      | cons next rest =>
          rw [rejoined, List.cons.injEq, inductionHypothesis,
            withoutReturn_eq_self_iff, EndPlain, EndPlain,
            List.dropLast_cons_cons, List.forall_mem_cons]

end Joined

/-- A line but the last ends in a carriage return only in front of another. -/
theorem infix_of_return
    {text line : List Char}
    (member : line ∈ (textLines text).dropLast)
    (ends : line.getLast? = some '\r') :
    ['\r', '\r', '\n'] <:+: text := by
  induction text using induction_on_lines with
  | oneLine text inLine =>
      by_cases nothing : text = []
      · rw [nothing] at member
        cases member
      · rw [textLines_of_oneLine inLine nothing] at member
        cases member
  | line first rest inLine inductionHypothesis =>
      have behind : rest <:+: first ++ '\n' :: rest :=
        ⟨first ++ ['\n'], [], by simp⟩
      rw [textLines_append_newline inLine] at member
      cases shape : textLines rest with
      | nil =>
          rw [shape] at member
          cases member
      | cons next others =>
          rw [shape, List.dropLast_cons_cons, List.mem_cons, ← shape] at member
          rcases member with rfl | later
          · unfold withoutReturn at ends
            split at ends
            · next once =>
                obtain ⟨body, rfl⟩ := eq_concat_of_getLast? once
                rw [List.dropLast_concat] at ends
                obtain ⟨front, rfl⟩ := eq_concat_of_getLast? ends
                exact ⟨front, rest, by simp⟩
            · next never => exact absurd ends never
          · exact (inductionHypothesis later).trans behind

end VerbChain
