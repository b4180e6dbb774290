import VerbChain.Proofs.Plan.PrintedLog
import VerbChain.Proofs.Text.Lines

namespace VerbChain

/-!
# How many lines a printed plan has

Every action is printed with a line feed behind it.  In JSON it has no other, in
text it has those of its kind, which stands there as it is.  So the lines that
are read are the actions that were printed unless a kind has a line feed in it.
-/

/-- A text without characters below the space does not end in a return. -/
theorem NoControl.getLast?_ne
    {text : List Char}
    (none : NoControl text) :
    text.getLast? ≠ some '\r' :=
  fun ends => absurd (none _ (List.mem_of_getLast? ends)) (by decide)

theorem Report.toList_lines_cons
    (text : String)
    (texts : List String) :
    (lines (text :: texts)).toList =
      text.toList ++ '\n' :: (lines texts).toList := by
  rw [lines_cons, String.toList_append, String.toList_append, List.append_assoc]
  rfl

namespace Json

theorem noControl_compact (json : Json) : NoControl json.compact.toList := by
  rw [compact, String.toList_ofList]
  exact noControl_write JsonSpacing.oneLine_compact 0 json

private theorem compact_object_ne_nil (fields : List (String × Json)) :
    (object fields).compact.toList ≠ [] := by
  rw [compact, String.toList_ofList]
  cases fields <;> exact List.cons_ne_nil _ _

end Json

namespace Action

variable {format : PrintFormat} {action : Action}

/-- How many line feeds of its own an action is printed with. -/
def breaks (format : PrintFormat) (action : Action) : Nat :=
  match format with
  | .text => action.kind.toList.count '\n'
  | .json => 0

/-- An action's line has the line feeds of its kind in text, none in JSON. -/
theorem count_newline_line (format : PrintFormat) (action : Action) :
    (action.line format).toList.count '\n' = action.breaks format := by
  have payload (json : Json) : json.compact.toList.count '\n' = 0 :=
    List.count_eq_zero.2 json.newline_not_mem_compact
  have marks :
      "Action: ".toList.count '\n' = 0 ∧
        " with payload: ".toList.count '\n' = 0 := by
    decide
  cases format with
  | text =>
      simp only [line, breaks, String.toList_append, List.count_append, payload,
        marks, Nat.zero_add, Nat.add_zero]
  | json => exact payload action.toStored

private theorem getLast?_line_ne (format : PrintFormat) (action : Action) :
    (action.line format).toList.getLast? ≠ some '\r' := by
  cases format with
  | text =>
      rw [line, String.toList_append,
        List.getLast?_append_of_ne_nil _ (Json.compact_object_ne_nil _)]
      exact (Json.noControl_compact _).getLast?_ne
  | json => exact (Json.noControl_compact action.toStored).getLast?_ne

theorem breaks_eq_zero_iff :
    action.breaks format = 0 ↔ format = .json ∨ '\n' ∉ action.kind.toList := by
  cases format with
  | text => simp [breaks, List.count_eq_zero]
  | json => simp [breaks]

theorem newline_not_mem_line_iff :
    '\n' ∉ (action.line format).toList ↔
      format = .json ∨ '\n' ∉ action.kind.toList := by
  rw [← List.count_eq_zero, count_newline_line, breaks_eq_zero_iff]

end Action

namespace Plan

variable {format : PrintFormat} {plan : Plan}

/-- The lines that are read are the actions' and one for each of their breaks. -/
theorem length_textLines_lines (format : PrintFormat) (plan : Plan) :
    (textLines (Report.lines (plan.map (Action.line format))).toList).length =
      plan.length + (plan.map (Action.breaks format)).sum := by
  induction plan with
  | nil => rfl
  | cons action rest inductionHypothesis =>
      rw [List.map_cons, Report.toList_lines_cons, length_textLines_append,
        inductionHypothesis, Action.count_newline_line, List.map_cons,
        List.sum_cons, List.length_cons]
      omega

/-- Where no action's line is broken the lines that are read are the actions'. -/
theorem textLines_lines
    (whole : ∀ action ∈ plan, '\n' ∉ (action.line format).toList) :
    textLines (Report.lines (plan.map (Action.line format))).toList =
      plan.map fun action => (action.line format).toList := by
  induction plan with
  | nil => rfl
  | cons action rest inductionHypothesis =>
      obtain ⟨first, others⟩ := List.forall_mem_cons.1 whole
      rw [List.map_cons, Report.toList_lines_cons,
        textLines_append_newline first, inductionHypothesis others,
        withoutReturn_of_ne (action.getLast?_line_ne format), List.map_cons]

/-- The text of a printed plan, line by line. -/
structure IsPrinted (format : PrintFormat) (plan : Plan) (printed : String) :
    Prop where
  /-- Every action's line is there, in order, with a line feed behind it. -/
  lines : printed = Report.lines (plan.map (Action.line format))
  /-- It has no other, unless in text the action's kind has one. -/
  oneLine_iff :
    ∀ action ∈ plan,
      '\n' ∉ (action.line format).toList ↔
        format = .json ∨ '\n' ∉ action.kind.toList
  /-- The lines that are read are those and one for each line feed of a kind, -/
  count :
    (textLines printed.toList).length =
      plan.length + (plan.map (Action.breaks format)).sum
  /-- so they are the actions' lines if none of these is broken, -/
  read_iff :
    (textLines printed.toList =
        plan.map fun action => (action.line format).toList) ↔
      format = .json ∨ ∀ action ∈ plan, '\n' ∉ action.kind.toList
  /-- and as many as there are actions only then. -/
  count_iff :
    (textLines printed.toList).length = plan.length ↔
      format = .json ∨ ∀ action ∈ plan, '\n' ∉ action.kind.toList

theorem forall_breaks_iff :
    (∀ action ∈ plan, action.breaks format = 0) ↔
      format = .json ∨ ∀ action ∈ plan, '\n' ∉ action.kind.toList := by
  cases format with
  | text => simp [Action.breaks_eq_zero_iff]
  | json => simp [Action.breaks_eq_zero_iff]

/-- The lines of a plan's actions are the plan, printed. -/
theorem isPrinted_lines (format : PrintFormat) (plan : Plan) :
    plan.IsPrinted format (Report.lines (plan.map (Action.line format))) := by
  have counted := length_textLines_lines format plan
  have count_iff :
      (textLines
            (Report.lines (plan.map (Action.line format))).toList).length =
          plan.length ↔
        format = .json ∨ ∀ action ∈ plan, '\n' ∉ action.kind.toList := by
    rw [counted, Nat.add_eq_left, List.sum_eq_zero_iff_forall_eq_nat,
      List.forall_mem_map, forall_breaks_iff]
  refine ⟨rfl, fun _ _ => Action.newline_not_mem_line_iff, counted, ?_, count_iff⟩
  constructor
  · intro read
    rw [← count_iff, read, List.length_map]
  · intro plain
    refine textLines_lines fun action member => ?_
    rw [Action.newline_not_mem_line_iff]
    exact plain.imp id fun kinds => kinds action member

/--
Whatever a plan, its format, and whenever others touch its token: if it is
printed to its end, every action adds its line, and the text has as many lines
as the plan has actions unless it is printed as text and a kind has a line feed.
-/
theorem printed_in_lines
    (format : PrintFormat)
    (others : World String → CancelToken)
    {plan : Plan}
    {device : World String}
    {number : Nat}
    (whole :
      (plan.execute ((Executor.printing format Executor.append).amid others)
          device).1 =
        .ok number) :
    number = plan.length ∧
      ∃ printed,
        (plan.execute ((Executor.printing format Executor.append).amid others)
              device).2.state =
            device.state ++ printed ∧
          plan.IsPrinted format printed := by
  obtain ⟨completed, token, inside, executed⟩ :=
    execute_printing format others plan device
  rw [executed] at whole ⊢
  by_cases all : completed = plan.length
  · subst all
    rw [if_pos rfl] at whole
    cases whole
    rw [List.take_length]
    exact ⟨rfl, _, rfl, isPrinted_lines format plan⟩
  · rw [if_neg all] at whole
    cases whole

/-- A note whose kind has a line feed, and a stop. -/
def note : Plan :=
  [.bare "note\nwell", .bare "stop"]

/-- A note takes two lines in text and one in JSON. -/
theorem printed_in_lines_note :
    let executor (format : PrintFormat) :=
      (Executor.printing format Executor.append).amid World.token
    let read (format : PrintFormat) :=
      textLines (note.execute (executor format) ⟨.fresh, ""⟩).2.state.toList
    (note.execute (executor .text) ⟨.fresh, ""⟩).1 = .ok 2 ∧
      (read .text).length = 3 ∧
      (note.execute (executor .json) ⟨.fresh, ""⟩).1 = .ok 2 ∧
      (read .json).length = 2 := by
  intro executor read
  have whole (format : PrintFormat) :
      (note.execute (executor format) ⟨.fresh, ""⟩).1 = .ok 2 :=
    rfl
  have counted (format : PrintFormat) :
      (read format).length = 2 + (note.map (Action.breaks format)).sum := by
    obtain ⟨_, printed, state, stands⟩ :=
      printed_in_lines format World.token (whole format)
    rw [String.empty_append] at state
    rw [← show note.length = 2 from rfl, ← stands.count, ← state]
  exact ⟨whole .text, counted .text, whole .json, counted .json⟩

/-- In text an action whose kind has a line feed is not printed on one line. -/
theorem printed_in_lines_broken :
    let executor := Executor.printing .text Executor.append
    let line := "Action: a\nb with payload: \x7b\x7d"
    let broken : Plan := [.bare "a\nb"]
    broken.execute executor ⟨.fresh, ""⟩ = (.ok 1, ⟨.fresh, line ++ "\n"⟩) ∧
      '\n' ∈ line.toList ∧
      textLines (line ++ "\n").toList =
        ["Action: a".toList, "b with payload: \x7b\x7d".toList] := by
  intro executor line broken
  refine ⟨?_, by decide, by decide +kernel⟩
  rfl

end Plan

end VerbChain
