import Mathlib.Data.List.TakeWhile
import VerbChain.Engine
import VerbChain.Grammar.Tool
import VerbChain.Proofs.Text.Lines

namespace VerbChain

/-!
# Cleaning keeps the lines of rules

Cleaning a grammar keeps its lines that start a rule or go on with one, in
order.  They are joined by line feeds, so a kept line that ends in a carriage
return loses it when the clean grammar is read, unless it is the last one.  Only
then is the clean grammar not clean already.
-/

/-- A carriage return at the end of a line is trimmed in any case. -/
private theorem trimBlanks_withoutReturn (line : List Char) :
    trimBlanks (withoutReturn line) = trimBlanks line := by
  by_cases ends : line.getLast? = some '\r'
  · obtain ⟨body, rfl⟩ := eq_concat_of_getLast? ends
    rw [withoutReturn_concat, trimBlanks, trimBlanks, List.dropWhile_append]
    split
    · next blank =>
        rw [List.isEmpty_iff.1 blank]
        rfl
    · rw [List.reverse_append]
      rfl
  · rw [withoutReturn_of_ne ends]

/-- Trimming keeps the first character that is not blank. -/
private theorem head?_trimBlanks (line : List Char) :
    (trimBlanks line).head? = line.find? fun c => !isBlank c := by
  have first := List.head?_dropWhile_not isBlank line
  rw [List.find?_eq_head?_dropWhile_not]
  simp only [Bool.not_not]
  show (((line.dropWhile isBlank).reverse.dropWhile isBlank).reverse).head? = _
  cases shape : line.dropWhile isBlank with
  | nil => rfl
  | cons c rest =>
      have visible : isBlank c = false := by
        rwa [shape] at first
      rw [List.reverse_cons, List.dropWhile_append]
      split
      · rw [List.dropWhile_cons_of_neg (ne_true_of_eq_false visible)]
        rfl
      · rw [List.reverse_append]
        rfl

namespace Grammar

/-- The first character that is not blank is there and no percent sign. -/
def StartsRule (line : List Char) : Prop :=
  ∃ c, line.find? (fun c => !isBlank c) = some c ∧ c ≠ '%'

theorem isRule_iff {line : List Char} : isRule line = true ↔ StartsRule line := by
  rw [StartsRule, ← head?_trimBlanks, isRule]
  cases trimBlanks line with
  | nil => simp
  | cons c rest => simp

instance (line : List Char) : Decidable (StartsRule line) :=
  decidable_of_iff _ isRule_iff

theorem isRule_withoutReturn (line : List Char) :
    isRule (withoutReturn line) = isRule line := by
  rw [isRule, isRule, trimBlanks_withoutReturn]

/-- The lines that are kept are those that start a rule. -/
theorem ruleLines_eq (text : List Char) :
    ruleLines text =
      (textLines text).filter fun line => decide (StartsRule line) := by
  refine List.filter_congr fun line _ => ?_
  rw [decide_eq_decide.2 isRule_iff.symm, Bool.decide_coe]

section Kept

variable {text line : List Char}

theorem newline_not_mem_of_mem_ruleLines (member : line ∈ ruleLines text) :
    '\n' ∉ line :=
  newline_not_mem_of_mem_textLines (List.mem_filter.1 member).1

private theorem ne_nil_of_mem_ruleLines (member : line ∈ ruleLines text) :
    line ≠ [] := by
  rintro rfl
  cases (List.mem_filter.1 member).2

end Kept

/-- What is read back of lines that start rules are lines that do. -/
private theorem filter_rejoined
    {lines : List (List Char)}
    (rules : ∀ line ∈ lines, isRule line = true) :
    (rejoined lines).filter isRule = rejoined lines := by
  induction lines with
  | nil => rfl
  | cons line rest inductionHypothesis =>
      obtain ⟨first, others⟩ := List.forall_mem_cons.1 rules
      cases rest with
      | nil => exact List.filter_cons_of_pos first
      | cons next rest =>
          rw [rejoined, List.filter_cons_of_pos, inductionHypothesis others]
          rw [isRule_withoutReturn]
          exact first

/-- The lines of a clean grammar are the kept ones as they are read back. -/
theorem textLines_clean (grammar : String) :
    textLines (clean grammar).toList = rejoined (ruleLines grammar.toList) := by
  rw [clean, String.toList_ofList]
  exact
    textLines_joined (fun _ => newline_not_mem_of_mem_ruleLines)
      (fun _ => ne_nil_of_mem_ruleLines)

/-- All the lines of a clean grammar are kept when it is cleaned again. -/
theorem ruleLines_clean (grammar : String) :
    ruleLines (clean grammar).toList = rejoined (ruleLines grammar.toList) := by
  rw [ruleLines, textLines_clean]
  exact filter_rejoined fun _ member => (List.mem_filter.1 member).2

/-- A clean grammar is clean already if its kept lines end plain. -/
theorem clean_clean_iff {grammar : String} :
    clean (clean grammar) = clean grammar ↔
      EndPlain (ruleLines grammar.toList) := by
  rw [← rejoined_eq_self_iff]
  constructor
  · intro same
    have texts := String.ofList_injective same
    rw [ruleLines_clean] at texts
    by_cases none : ruleLines grammar.toList = []
    · rw [none]
      rfl
    · refine eq_of_joined_eq ?_ ?_ ?_ none texts
      · rw [← ruleLines_clean]
        exact fun _ => newline_not_mem_of_mem_ruleLines
      · exact fun _ => newline_not_mem_of_mem_ruleLines
      · rwa [← List.length_pos_iff, length_rejoined, List.length_pos_iff]
  · intro kept
    rw [clean, ruleLines_clean, kept]
    rfl

/-- Lines end plain where no two carriage returns stand in front of a line feed. -/
theorem endPlain_ruleLines
    {text : List Char}
    (plain : ¬['\r', '\r', '\n'] <:+: text) :
    EndPlain (ruleLines text) := by
  have inner : (ruleLines text).dropLast.Sublist (textLines text).dropLast := by
    rw [← List.reverse_sublist, ← List.tail_reverse, ← List.tail_reverse]
    exact List.filter_sublist.reverse.tail
  intro line member ends
  exact plain (infix_of_return (inner.subset member) ends)

/-- A tool offers the definition that its grammar is cleaned to. -/
theorem offer_eq_iff
    {grammar other : String}
    (name description : String)
    (notated : GrammarSyntax) :
    (GrammarTool.mk name description grammar notated).offer =
        (GrammarTool.mk name description other notated).offer ↔
      clean grammar = clean other := by
  simp [GrammarTool.offer]

/-- What is kept of a grammar, and when that is clean already. -/
structure IsCleaned (grammar cleaned : String) (kept : List (List Char)) :
    Prop where
  /-- The lines that are neither blank nor directives are kept, in order. -/
  rules :
    kept = (textLines grammar.toList).filter fun line => decide (StartsRule line)
  /-- They are the clean lines, each but the last without a return at its end. -/
  lines : textLines cleaned.toList = rejoined kept
  /-- They are unchanged exactly if all but the last end plain, -/
  unchanged_iff : textLines cleaned.toList = kept ↔ EndPlain kept
  /-- and only then does cleaning again change nothing, -/
  again_iff : clean cleaned = cleaned ↔ EndPlain kept
  /-- and does a tool offer the clean grammar as it offers the whole one. -/
  offered_iff :
    ∀ name description notated,
      (GrammarTool.mk name description cleaned notated).offer =
          (GrammarTool.mk name description grammar notated).offer ↔
        EndPlain kept
  /-- So it is where no two returns stand in front of a line feed. -/
  plain : ¬['\r', '\r', '\n'] <:+: grammar.toList → EndPlain kept

theorem isCleaned_clean (grammar : String) :
    IsCleaned grammar (clean grammar) (ruleLines grammar.toList) where
  rules := ruleLines_eq grammar.toList
  lines := textLines_clean grammar
  unchanged_iff := by rw [textLines_clean, rejoined_eq_self_iff]
  again_iff := clean_clean_iff
  offered_iff name description notated := by
    rw [offer_eq_iff, clean_clean_iff]
  plain := endPlain_ruleLines

/--
Whatever a grammar, cleaning keeps its rules, and they are unchanged and clean
for good as long as only the last of them ends in a carriage return.  The rules
of an engine are its grammar, cleaned.
-/
theorem clean_keeps_rules (grammar : String) :
    IsCleaned grammar (clean grammar) (ruleLines grammar.toList) ∧
      ∀ (σ κ ω ε ρ : Type) (engine : Engine σ κ ω ε ρ),
        IsCleaned engine.grammar engine.rules
          (ruleLines engine.grammar.toList) :=
  ⟨isCleaned_clean grammar, fun _ _ _ _ _ engine =>
    isCleaned_clean engine.grammar⟩

/-- A line that ends in a carriage return loses it when it is read again. -/
theorem clean_returns :
    let grammar := "a\r\r\nb"
    ruleLines grammar.toList = [['a', '\r'], ['b']] ∧
      textLines (clean grammar).toList = [['a'], ['b']] ∧
      clean grammar = "a\r\nb" ∧ clean (clean grammar) = "a\nb" ∧
      clean (clean grammar) ≠ clean grammar := by
  decide +kernel

end Grammar

end VerbChain
