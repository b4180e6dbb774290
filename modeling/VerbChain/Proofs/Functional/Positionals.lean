import VerbChain.Chain.Cursor
import VerbChain.Proofs.Bag.Scan
import VerbChain.Proofs.Functional.Layout

namespace VerbChain

/-!
# What a functional verb takes from a bag

Whatever the keys of a bag are, a functional verb takes what is in its layout
among the positional values of the bag, those in front of the first gap.  A verb
that is not given references and data up to there takes nothing.
-/

namespace Bag

/-- The positional values from a slot on are its value and those behind it. -/
theorem positionalsFrom_size
    (bag : Bag)
    (index : Nat) :
    bag.positionalsFrom bag.size index =
      match bag.positional? index with
      | none => []
      | some value => value :: bag.positionalsFrom bag.size (index + 1) := by
  -- the bound is at least the distance of the gap, so it may be had again
  obtain ⟨distance, below, gap⟩ := exists_isGap bag index
  cases distance with
  | zero =>
      have here : bag.positional? index = none := gap.empty
      rw [here]
      cases bag.size with
      | zero => rfl
      | succ count => rw [positionalsFrom, here]
  | succ distance =>
      obtain ⟨value, here⟩ := gap.exists_value
      have all := gap.positionalsFrom_eq below
      have others :=
        gap.behind.positionalsFrom_eq (Nat.le_of_succ_le below)
      rw [List.range'_succ, List.map_cons, here, ← others, ← List.map_cons]
        at all
      rw [here]
      exact List.map_injective_iff.2 (Option.some_injective _) all

/-- The values from a slot on begin with a value that is in the slot. -/
theorem positionalsFrom_eq_cons_iff
    {bag : Bag}
    {index : Nat}
    {value : Value}
    {others : List Value} :
    bag.positionalsFrom bag.size index = value :: others ↔
      bag.positional? index = some value ∧
        bag.positionalsFrom bag.size (index + 1) = others := by
  rw [positionalsFrom_size]
  cases bag.positional? index with
  | none => simp
  | some found => rw [List.cons.injEq, Option.some_inj]

theorem head?_positionalsFrom
    (bag : Bag)
    (index : Nat) :
    (bag.positionalsFrom bag.size index).head? = bag.positional? index := by
  rw [positionalsFrom_size]
  cases bag.positional? index <;> rfl

/-- A reference is read from a slot that holds one. -/
theorem function_eq_ok_iff
    {bag : Bag}
    {index : Nat}
    {function : String} :
    bag.function (positionalKey index) = .ok function ↔
      bag.positional? index = some (.function function) := by
  rw [Bag.function, requireAs, positional?]
  cases bag.get? (positionalKey index) with
  | none => simp
  | some value => cases value <;> simp [Value.function?]

/-- A value is read from a slot that is not empty. -/
theorem require_eq_ok_iff
    {bag : Bag}
    {index : Nat}
    {value : Value} :
    bag.require (positionalKey index) = .ok value ↔
      bag.positional? index = some value := by
  rw [require, positional?]
  cases bag.get? (positionalKey index) with
  | none => simp
  | some found => simp

end Bag

/-- What is in the layout of a verb is taken for this verb. -/
theorem FunctionalVerb.Takes.verb_eq
    {verb : FunctionalVerb}
    {values : List Value}
    {call : FunctionalCall}
    (takes : verb.Takes values call) :
    call.verb = verb := by
  cases takes <;> rfl

namespace FunctionalCall

/-- A reading in two steps succeeds when both do. -/
private theorem bind_eq_ok_iff
    {first : Except ε α}
    {next : α → Except ε β}
    {result : β} :
    first >>= next = .ok result ↔
      ∃ value, first = .ok value ∧ next value = .ok result := by
  refine ⟨Cursor.exists_of_bind_eq_ok, ?_⟩
  rintro ⟨value, rfl, read⟩
  exact read

variable {bag : Bag} {index : Nat} {functions : List String}

/-- Only references are read, all that there are up to the gap. -/
theorem functionsWithin_eq_ok_iff {count : Nat} :
    functionsWithin bag count index = .ok functions ↔
      bag.positionalsFrom count index = functions.map .function := by
  induction count generalizing index functions with
  | zero => simp [functionsWithin, Bag.positionalsFrom, eq_comm]
  | succ count inductionHypothesis =>
      rw [functionsWithin, Bag.positionalsFrom]
      cases here : bag.positional? index with
      | none => simp [eq_comm]
      | some value =>
          simp only [bind_eq_ok_iff, Bag.function_eq_ok_iff, here,
            Option.some_inj, inductionHypothesis]
          constructor
          · rintro ⟨function, rfl, others, behind, made⟩
            cases made
            rw [behind, List.map_cons]
          · intro given
            cases functions with
            | nil => cases given
            | cons function others =>
                obtain ⟨rfl, behind⟩ := List.cons.inj given
                exact ⟨function, rfl, others, behind, rfl⟩

/-- References are read from a slot on if there is one. -/
theorem functionsFrom_eq_ok_iff :
    functionsFrom bag index = .ok functions ↔
      functions ≠ [] ∧
        bag.positionalsFrom bag.size index = functions.map .function := by
  rw [← functionsWithin_eq_ok_iff, functionsFrom]
  cases functionsWithin bag bag.size index with
  | error error => simp
  | ok others =>
      cases others with
      | nil => simp
      | cons function others =>
          refine ⟨fun read => ⟨?_, read⟩, And.right⟩
          cases read
          exact List.cons_ne_nil _ _

/-- A reference and a value behind it are read from the slots in front. -/
theorem positionals_eq_pair_iff
    {function : String}
    {data : Value}
    {others : List Value} :
    bag.positionals = .function function :: data :: others ↔
      bag.function (positionalKey 0) = .ok function ∧
        bag.require (positionalKey 1) = .ok data ∧
          bag.positionalsFrom bag.size 2 = others := by
  rw [Bag.function_eq_ok_iff, Bag.require_eq_ok_iff, Bag.positionals,
    Bag.positionalsFrom_eq_cons_iff, Bag.positionalsFrom_eq_cons_iff]

/-- What a verb reads from a bag is in its layout. -/
theorem takes_of_ofBag
    {verb : FunctionalVerb}
    {call : FunctionalCall}
    (read : ofBag verb bag = .ok call) :
    verb.Takes bag.positionals call := by
  cases verb with
  | map | filter =>
      obtain ⟨function, first, read⟩ := bind_eq_ok_iff.1 read
      obtain ⟨data, second, made⟩ := bind_eq_ok_iff.1 read
      cases made
      rw [positionals_eq_pair_iff.2 ⟨first, second, rfl⟩]
      constructor
  | reduce =>
      obtain ⟨function, first, read⟩ := bind_eq_ok_iff.1 read
      obtain ⟨data, second, made⟩ := bind_eq_ok_iff.1 read
      cases made
      rw [positionals_eq_pair_iff.2 ⟨first, second, rfl⟩,
        ← Bag.head?_positionalsFrom]
      exact .reduce function data _
  | compose =>
      obtain ⟨functions, given, made⟩ := bind_eq_ok_iff.1 read
      obtain ⟨some_function, values⟩ := functionsFrom_eq_ok_iff.1 given
      obtain ⟨function, others, rfl⟩ := List.exists_cons_of_ne_nil some_function
      cases made
      rw [Bag.positionals, values]
      exact .compose function others
  | pipe =>
      obtain ⟨functions, given, read⟩ := bind_eq_ok_iff.1 read
      obtain ⟨data, first, made⟩ := bind_eq_ok_iff.1 read
      obtain ⟨some_function, values⟩ := functionsFrom_eq_ok_iff.1 given
      obtain ⟨function, others, rfl⟩ := List.exists_cons_of_ne_nil some_function
      cases made
      rw [Bag.positionals,
        Bag.positionalsFrom_eq_cons_iff.2
          ⟨Bag.require_eq_ok_iff.1 first, values⟩]
      exact .pipe data function others

/-- A functional verb takes from a bag what is in its layout. -/
theorem ofBag_eq_ok_iff_takes
    {verb : FunctionalVerb}
    {call : FunctionalCall} :
    ofBag verb bag = .ok call ↔ verb.Takes bag.positionals call := by
  refine ⟨takes_of_ofBag, fun takes => ?_⟩
  generalize given : bag.positionals = values at takes
  cases takes with
  | map function data others | filter function data others =>
      obtain ⟨first, second, _⟩ := positionals_eq_pair_iff.1 given
      exact
        bind_eq_ok_iff.2 ⟨function, first,
          bind_eq_ok_iff.2 ⟨data, second, rfl⟩⟩
  | reduce function data others =>
      obtain ⟨first, second, behind⟩ := positionals_eq_pair_iff.1 given
      rw [← behind, Bag.head?_positionalsFrom]
      exact
        bind_eq_ok_iff.2 ⟨function, first,
          bind_eq_ok_iff.2 ⟨data, second, rfl⟩⟩
  | compose function functions =>
      exact
        bind_eq_ok_iff.2
          ⟨function :: functions,
            functionsFrom_eq_ok_iff.2 ⟨List.cons_ne_nil _ _, given⟩, rfl⟩
  | pipe data function functions =>
      obtain ⟨first, behind⟩ := Bag.positionalsFrom_eq_cons_iff.1 given
      exact
        bind_eq_ok_iff.2
          ⟨function :: functions,
            functionsFrom_eq_ok_iff.2 ⟨List.cons_ne_nil _ _, behind⟩,
            bind_eq_ok_iff.2 ⟨data, Bag.require_eq_ok_iff.2 first, rfl⟩⟩

end FunctionalCall

end VerbChain
