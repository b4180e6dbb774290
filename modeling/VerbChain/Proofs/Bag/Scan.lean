import Mathlib.Logic.Function.Iterate
import Mathlib.Order.Bounds.Defs
import VerbChain.Functional
import VerbChain.Proofs.Bag.Positionals

namespace VerbChain

/-!
# Scans of positional values

The positional values of a bag are found by a scan, which looks at one slot
after the other from a number on.  No last slot is given to it.  It ends at the
first slot that is empty, or earlier at a value that it cannot take.

Every slot that is not empty has a key of its own, and a bag has finitely many
keys.  So there is an empty slot within as many slots as the bag has keys, every
scan ends there, and what is read within that bound is all that a scan finds.
-/

namespace Bag

/-- Where a scan stands: in front of a slot with what it took, or at its end. -/
inductive Scan (ε β : Type) where
  | looking (index : Nat) (taken : List β)
  | ended (answer : Except ε (List β))

/-- Look at one slot; how a value is taken may depend on the number of its slot. -/
def Scan.look (bag : Bag) (take : Nat → Value → Except ε β) :
    Scan ε β → Scan ε β
  | .ended answer => .ended answer
  | .looking index taken =>
      match bag.positional? index with
      | none => .ended (.ok taken)
      | some value =>
          match take index value with
          | .ok item => .looking (index + 1) (taken ++ [item])
          | .error error => .ended (.error error)

/-- Take every value as it is. -/
def anyValue : Nat → Value → Except ArgumentError Value :=
  fun _ value => .ok value

/-- Take references to verbs only. -/
def onlyReferences (bag : Bag) : Nat → Value → Except ArgumentError String :=
  fun index _ => bag.function (positionalKey index)

/-- The first empty slot from a slot on is a distance away. -/
structure IsGap (bag : Bag) (start distance : Nat) : Prop where
  empty : bag.positional? (start + distance) = none
  filled : ∀ offset < distance, bag.positional? (start + offset) ≠ none

variable {bag : Bag} {start distance count : Nat}

/-- There is an empty slot within as many slots as there are keys. -/
theorem exists_isGap (bag : Bag) (start : Nat) :
    ∃ distance ≤ bag.size, bag.IsGap start distance := by
  have some_empty : ∃ offset, bag.positional? (start + offset) = none := by
    by_contra none_empty
    have more : bag.size + 1 ≤ bag.size :=
      le_size fun offset _ => not_exists.1 none_empty offset
    omega
  have filled (offset : Nat) (before : offset < Nat.find some_empty) :
      bag.positional? (start + offset) ≠ none :=
    Nat.find_min some_empty before
  exact
    ⟨Nat.find some_empty, le_size filled, Nat.find_spec some_empty, filled⟩

namespace IsGap

/-- Behind a slot that is not empty the gap is one slot nearer. -/
theorem behind (gap : bag.IsGap start (distance + 1)) :
    bag.IsGap (start + 1) distance where
  empty := by
    rw [Nat.add_assoc, Nat.add_comm 1]
    exact gap.empty
  filled offset inside := by
    rw [Nat.add_assoc, Nat.add_comm 1]
    exact gap.filled (offset + 1) (Nat.succ_lt_succ inside)

theorem exists_value (gap : bag.IsGap start (distance + 1)) :
    ∃ value, bag.positional? start = some value :=
  Option.ne_none_iff_exists'.1 (gap.filled 0 (Nat.succ_pos distance))

/-- What is read up to the gap are the values of the slots in front of it. -/
theorem positionalsFrom_eq
    (gap : bag.IsGap start distance)
    (reaches : distance ≤ count) :
    (bag.positionalsFrom count start).map some =
      (List.range' start distance).map bag.positional? := by
  induction distance generalizing start count with
  | zero =>
      have here : bag.positional? start = none := gap.empty
      cases count with
      | zero => rfl
      | succ count =>
          rw [positionalsFrom, here]
          rfl
  | succ distance inductionHypothesis =>
      obtain ⟨value, here⟩ := gap.exists_value
      cases count with
      | zero => cases reaches
      | succ count =>
          have others :=
            inductionHypothesis gap.behind (Nat.le_of_succ_le_succ reaches)
          rw [positionalsFrom, here, List.range'_succ, List.map_cons,
            List.map_cons, others, here]

end IsGap

namespace Scan

section Look

variable {take : Nat → Value → Except ε β} {index : Nat} {taken : List β}
  {value : Value}

theorem look_of_empty (empty : bag.positional? index = none) :
    look bag take (.looking index taken) = .ended (.ok taken) := by
  rw [look, empty]

theorem look_of_taken
    {item : β}
    (found : bag.positional? index = some value)
    (took : take index value = .ok item) :
    look bag take (.looking index taken) =
      .looking (index + 1) (taken ++ [item]) := by
  rw [look, found]
  simp only [took]

private theorem look_of_refused
    {error : ε}
    (found : bag.positional? index = some value)
    (refused : take index value = .error error) :
    look bag take (.looking index taken) = .ended (.error error) := by
  rw [look, found]
  simp only [refused]

/-- A scan that has ended stays so. -/
private theorem iterate_ended
    (bag : Bag)
    (take : Nat → Value → Except ε β)
    (answer : Except ε (List β))
    (looks : Nat) :
    (look bag take)^[looks] (.ended answer) = .ended answer :=
  Function.iterate_fixed rfl looks

end Look

/-- A scan of all values takes those in front of the gap. -/
private theorem iterate_anyValue
    (gap : bag.IsGap start distance)
    (reaches : distance ≤ count)
    (taken : List Value) :
    (look bag anyValue)^[distance] (.looking start taken) =
      .looking (start + distance)
        (taken ++ bag.positionalsFrom count start) := by
  induction distance generalizing start count taken with
  | zero =>
      have here : bag.positional? start = none := gap.empty
      cases count with
      | zero => simp [positionalsFrom]
      | succ count => simp [positionalsFrom, here]
  | succ distance inductionHypothesis =>
      obtain ⟨value, here⟩ := gap.exists_value
      cases count with
      | zero => cases reaches
      | succ count =>
          rw [Function.iterate_succ_apply, look_of_taken here rfl,
            inductionHypothesis gap.behind (Nat.le_of_succ_le_succ reaches),
            positionalsFrom, here, List.append_assoc, Nat.add_assoc,
            Nat.add_comm 1]
          rfl

/-- A scan of references ends at the gap at the latest, with what is read. -/
private theorem iterate_onlyReferences
    (gap : bag.IsGap start distance)
    (reaches : distance ≤ count)
    (taken : List String) :
    (look bag bag.onlyReferences)^[distance + 1] (.looking start taken) =
      .ended
        ((FunctionalCall.functionsWithin bag count start).map
          (taken ++ ·)) := by
  induction distance generalizing start count taken with
  | zero =>
      have here : bag.positional? start = none := gap.empty
      have nothing :
          FunctionalCall.functionsWithin bag count start = .ok [] := by
        cases count with
        | zero => rfl
        | succ count => rw [FunctionalCall.functionsWithin, here]
      rw [Function.iterate_one, look_of_empty here, nothing, Except.map,
        List.append_nil]
  | succ distance inductionHypothesis =>
      obtain ⟨value, here⟩ := gap.exists_value
      cases count with
      | zero => cases reaches
      | succ count =>
          rw [Function.iterate_succ_apply, FunctionalCall.functionsWithin,
            here]
          cases read : bag.function (positionalKey start) with
          | error error =>
              rw [look_of_refused here read, iterate_ended]
              rfl
          | ok function =>
              rw [look_of_taken here read,
                inductionHypothesis gap.behind
                  (Nat.le_of_succ_le_succ reaches)]
              cases FunctionalCall.functionsWithin bag count (start + 1) with
              | error error => rfl
              | ok functions =>
                  have same := List.append_assoc taken [function] functions
                  exact congrArg (fun items => Scan.ended (.ok items)) same

end Scan

section Arguments

variable {arguments : List Argument}

/-- The first empty slot is behind the last positional argument. -/
theorem isGap_ofArguments (unnumbered : Argument.Unnumbered arguments) :
    (ofArguments arguments).IsGap 0 (Argument.positionals arguments).length where
  empty := by
    rw [Nat.zero_add, positional?_ofArguments unnumbered,
      List.getElem?_eq_none (Nat.le_refl _)]
  filled index inside := by
    rw [Nat.zero_add, positional?_ofArguments unnumbered,
      List.getElem?_eq_getElem inside]
    exact Option.some_ne_none _

/-- A bag has the positional arguments in their order. -/
theorem positionals_ofArguments
    (unnumbered : Argument.Unnumbered arguments) :
    (ofArguments arguments).positionals = Argument.positionals arguments := by
  have values :=
    (isGap_ofArguments unnumbered).positionalsFrom_eq
      (length_positionals_le_size unnumbered)
  have places :
      (List.range' 0 (Argument.positionals arguments).length).map
          (ofArguments arguments).positional? =
        (Argument.positionals arguments).map some := by
    rw [← List.range_eq_range', funext (positional?_ofArguments unnumbered)]
    apply List.ext_getElem?
    intro place
    grind
  rw [places] at values
  exact List.map_injective_iff.2 (Option.some_injective _) values

end Arguments

/--
Let the gap be the least number whose slot is empty; it is at most the number of
keys.  A scan of all values looks at the slots in front of the gap in increasing
order, takes their values and ends at the gap with the positional values of the
bag.  A scan of references has ended when it looked at one slot more than there
are keys, with what is read from the bag.  Where no name is spelled like the key
of a number, the positional values are those of the positional arguments in
their order.
-/
theorem scans_end_at_gap (bag : Bag) :
    (∃ gap ≤ bag.size,
      IsLeast {index | bag.positional? index = none} gap ∧
        (Scan.look bag anyValue)^[gap] (.looking 0 []) =
          .looking gap bag.positionals ∧
        (Scan.look bag anyValue)^[gap + 1] (.looking 0 []) =
          .ended (.ok bag.positionals) ∧
        bag.positionals.map some = (List.range gap).map bag.positional?) ∧
      (∀ start, ∃ answer,
        (Scan.look bag bag.onlyReferences)^[bag.size + 1] (.looking start []) =
            .ended answer ∧
          FunctionalCall.functionsFrom bag start =
            match answer with
            | .ok [] => .error (.missing (positionalKey start))
            | answer => answer) ∧
      ∀ arguments, Argument.Unnumbered arguments →
        (ofArguments arguments).positionals =
          Argument.positionals arguments := by
  refine ⟨?_, fun start => ?_, fun _ => positionals_ofArguments⟩
  · obtain ⟨gap, below, isGap⟩ := exists_isGap bag 0
    have front := Scan.iterate_anyValue isGap below []
    have empty : bag.positional? gap = none := by
      rw [← isGap.empty, Nat.zero_add]
    rw [Nat.zero_add, List.nil_append] at front
    refine ⟨gap, below, ⟨empty, fun index absent => ?_⟩, front, ?_, ?_⟩
    · refine Nat.le_of_not_lt fun before => ?_
      have present := isGap.filled index before
      rw [Nat.zero_add] at present
      exact present absent
    · rw [Function.iterate_succ_apply', front]
      exact Scan.look_of_empty empty
    · rw [List.range_eq_range']
      exact isGap.positionalsFrom_eq below
  · obtain ⟨distance, below, isGap⟩ := exists_isGap bag start
    have ended := Scan.iterate_onlyReferences isGap below []
    refine ⟨FunctionalCall.functionsWithin bag bag.size start, ?_, rfl⟩
    -- the looks that are left find the scan ended
    obtain ⟨spare, looks⟩ := Nat.exists_eq_add_of_le' below
    rw [looks, Nat.add_assoc, Function.iterate_add_apply, ← looks, ended,
      Scan.iterate_ended]
    cases FunctionalCall.functionsWithin bag bag.size start <;> rfl

/-- Twelve positional arguments keep their order, though their keys have another. -/
theorem scans_end_at_gap_twelve :
    let values := (List.range 12).map fun number =>
      Value.string (toString number)
    let arguments := .named "then" (.bool true) :: values.map .positional
    Argument.Unnumbered arguments ∧
      (ofArguments arguments).positionals = values := by
  intro values arguments
  have unnumbered : Argument.Unnumbered arguments := by
    refine List.forall_mem_cons.2 ⟨fun index same => ?_, ?_⟩
    · exact ne_positionalKey (by decide) index (Option.some.inj same)
    · rintro _ member index
      obtain ⟨value, _, rfl⟩ := List.mem_map.1 member
      exact nofun
  refine ⟨unnumbered, ?_⟩
  rw [(scans_end_at_gap (ofArguments arguments)).2.2 arguments unnumbered]
  rfl

end Bag

end VerbChain
