import VerbChain.Evaluation.Walk
import VerbChain.Proofs.Bag.Positionals
import VerbChain.Proofs.Evaluation.Account

namespace VerbChain

/-!
# What a functional verb takes

A functional verb looks at its positional values in a fixed order, references
first.  At the first slot that is empty, or does not hold the reference it has
to hold, the verb refuses its arguments; otherwise it takes them in its layout.
There may be any number of values, and arguments with a name do not matter.

A verb that describes its call and one that hands it on read the same bag, so
one emits an action where the other is handed the call, and both refuse the same
arguments for the same reason.
-/

/-- A slot that a verb looks at: any value, or only a reference to a verb. -/
structure Slot where
  index : Nat
  onlyReference : Bool
  deriving Repr, DecidableEq

namespace Slot

/-- What is wrong with the value in a slot, if anything is. -/
def fault? (slot : Slot) (values : List Value) : Option ArgumentError :=
  match values[slot.index]? with
  | none => some (.missing (positionalKey slot.index))
  | some value =>
      if slot.onlyReference = true ∧ value.kind ≠ .function then
        some
          (.wrongKind (positionalKey slot.index) .function value.kind)
      else none

/-- Slots in a row that hold references. -/
def references (start count : Nat) : List Slot :=
  (List.range' start count).map fun index => ⟨index, true⟩

end Slot

namespace FunctionalVerb

/--
The slots that a verb looks at when it is given a number of values.  A verb that
takes references only up to the last value looks for one of them at least.
-/
def slots (count : Nat) : FunctionalVerb → List Slot
  | .map | .filter | .reduce => [⟨0, true⟩, ⟨1, false⟩]
  | .compose => Slot.references 0 (max 1 count)
  | .pipe => Slot.references 1 (max 1 (count - 1)) ++ [⟨0, false⟩]

/-- What is wrong at the first slot at which something is. -/
def firstFault? (verb : FunctionalVerb) (values : List Value) :
    Option ArgumentError :=
  (verb.slots values.length).findSome? fun slot => slot.fault? values

/-- The layout of each verb: the values it takes, and what it takes them for. -/
inductive Takes : FunctionalVerb → List Value → FunctionalCall → Prop where
  | map (function : String) (data : Value) (others : List Value) :
      Takes .map (.function function :: data :: others)
        ⟨.map, [function], some data, none⟩
  | filter (function : String) (data : Value) (others : List Value) :
      Takes .filter (.function function :: data :: others)
        ⟨.filter, [function], some data, none⟩
  | reduce (function : String) (data : Value) (others : List Value) :
      Takes .reduce (.function function :: data :: others)
        ⟨.reduce, [function], some data, others.head?⟩
  | compose (function : String) (functions : List String) :
      Takes .compose ((function :: functions).map .function)
        ⟨.compose, function :: functions, none, none⟩
  | pipe (data : Value) (function : String) (functions : List String) :
      Takes .pipe (data :: (function :: functions).map .function)
        ⟨.pipe, function :: functions, some data, none⟩

end FunctionalVerb

namespace Value

/-- A value refers to a verb exactly when it is of that kind. -/
theorem function?_eq_none_iff {value : Value} :
    value.function? = none ↔ value.kind ≠ .function := by
  cases value <;> simp [function?, kind]

/-- Values are references up to the first that is none. -/
private theorem references_or_stray (values : List Value) :
    (∃ functions : List String, values = functions.map .function) ∨
      ∃ (functions : List String) (stray : Value) (others : List Value),
        values = functions.map .function ++ stray :: others ∧
          stray.function? = none := by
  induction values with
  | nil => exact .inl ⟨[], rfl⟩
  | cons value rest inductionHypothesis =>
      cases value with
      | function name =>
          rcases inductionHypothesis with
            ⟨functions, rfl⟩ | ⟨functions, stray, others, rfl, noReference⟩
          · exact .inl ⟨name :: functions, rfl⟩
          · exact .inr ⟨name :: functions, stray, others, rfl, noReference⟩
      | _ => exact .inr ⟨[], _, rest, rfl, rfl⟩

end Value

section Dropping

variable {values rest : List Value} {index : Nat}

/-- The value in a slot is the first of those from the slot on. -/
private theorem getElem?_of_drop (given : values.drop index = rest) :
    values[index]? = rest.head? := by
  rw [← given, List.head?_drop]

private theorem drop_succ_of_drop (given : values.drop index = rest) :
    values.drop (index + 1) = rest.tail := by
  rw [← given, List.tail_drop]

end Dropping

namespace Slot

theorem references_succ (start count : Nat) :
    references start (count + 1) =
      ⟨start, true⟩ :: references (start + 1) count := by
  rw [references, List.range'_succ, List.map_cons]
  rfl

variable {values others : List Value} {functions : List String}
  {start count : Nat} {stray : Value}

/-- There is nothing wrong with references. -/
private theorem findSome?_references
    (given : values.drop start = functions.map .function) :
    (references start functions.length).findSome? (·.fault? values) =
      none := by
  induction functions generalizing start with
  | nil => rfl
  | cons function functions inductionHypothesis =>
      have here : values[start]? = some (.function function) :=
        getElem?_of_drop given
      have behind : values.drop (start + 1) = functions.map .function :=
        drop_succ_of_drop given
      have fine : (⟨start, true⟩ : Slot).fault? values = none := by
        simp [fault?, here, Value.kind]
      rw [List.length_cons, references_succ, List.findSome?_cons, fine]
      exact inductionHypothesis behind

/-- The first value among references that is none is what is wrong. -/
private theorem findSome?_references_of_stray
    (given : values.drop start = functions.map .function ++ stray :: others)
    (noReference : stray.function? = none)
    (reaches : functions.length < count) :
    (references start count).findSome? (·.fault? values) =
      some
        (.wrongKind (positionalKey (start + functions.length)) .function
          stray.kind) := by
  induction functions generalizing start count with
  | nil =>
      obtain ⟨count, rfl⟩ := Nat.exists_eq_add_of_lt reaches
      have here : values[start]? = some stray := getElem?_of_drop given
      have fault :
          (⟨start, true⟩ : Slot).fault? values =
            some (.wrongKind (positionalKey start) .function stray.kind) := by
        simp [fault?, here, Value.function?_eq_none_iff.1 noReference]
      rw [references_succ, List.findSome?_cons, fault]
      rfl
  | cons function functions inductionHypothesis =>
      obtain ⟨count, rfl⟩ := Nat.exists_eq_succ_of_ne_zero
        (Nat.ne_of_gt (Nat.lt_of_le_of_lt (Nat.zero_le _) reaches))
      have here : values[start]? = some (.function function) :=
        getElem?_of_drop given
      have behind :
          values.drop (start + 1) =
            functions.map .function ++ stray :: others :=
        drop_succ_of_drop given
      have fine : (⟨start, true⟩ : Slot).fault? values = none := by
        simp [fault?, here, Value.kind]
      rw [references_succ, List.findSome?_cons, fine]
      have found :=
        inductionHypothesis behind (Nat.lt_of_succ_lt_succ reaches)
      rw [List.length_cons, Nat.add_comm functions.length, ← Nat.add_assoc]
      exact found

/-- Behind the last value a slot is empty. -/
private theorem findSome?_references_of_end
    (given : values.drop start = []) :
    (references start 1).findSome? (·.fault? values) =
      some (.missing (positionalKey start)) := by
  have here : values[start]? = none := getElem?_of_drop given
  simp [references, fault?, here]

end Slot

section Reading

variable {arguments : List Argument} {functions : List String}
  {others : List Value} {stray : Value} {index count : Nat}

/-- A reference is read from the slot of its number. -/
theorem Bag.function_ofArguments
    (unnumbered : Argument.Unnumbered arguments)
    (index : Nat) :
    (Bag.ofArguments arguments).function (positionalKey index) =
      match (Argument.positionals arguments)[index]? with
      | none => .error (.missing (positionalKey index))
      | some value =>
          match value.function? with
          | some function => .ok function
          | none =>
              .error
                (.wrongKind (positionalKey index) .function value.kind) := by
  rw [← Bag.positional?_ofArguments unnumbered, Bag.function, Bag.requireAs,
    Bag.positional?]
  cases (Bag.ofArguments arguments).get? (positionalKey index) with
  | none => rfl
  | some value =>
      simp only
      cases value.function? <;> rfl

/-- A value is read from the slot of its number. -/
theorem Bag.require_ofArguments
    (unnumbered : Argument.Unnumbered arguments)
    (index : Nat) :
    (Bag.ofArguments arguments).require (positionalKey index) =
      match (Argument.positionals arguments)[index]? with
      | none => .error (.missing (positionalKey index))
      | some value => .ok value := by
  rw [← Bag.positional?_ofArguments unnumbered, Bag.require, Bag.positional?]
  cases (Bag.ofArguments arguments).get? (positionalKey index) <;> rfl

namespace FunctionalCall

/-- References up to the last value are read. -/
theorem functionsWithin_references
    (unnumbered : Argument.Unnumbered arguments)
    (given :
      (Argument.positionals arguments).drop index = functions.map .function)
    (reaches : functions.length ≤ count) :
    functionsWithin (.ofArguments arguments) count index = .ok functions := by
  induction functions generalizing count index with
  | nil =>
      have here : (Argument.positionals arguments)[index]? = none :=
        getElem?_of_drop given
      cases count with
      | zero => rfl
      | succ count =>
          rw [functionsWithin, Bag.positional?_ofArguments unnumbered, here]
  | cons function functions inductionHypothesis =>
      have here :
          (Argument.positionals arguments)[index]? =
            some (.function function) :=
        getElem?_of_drop given
      have behind :
          (Argument.positionals arguments).drop (index + 1) =
            functions.map .function :=
        drop_succ_of_drop given
      cases count with
      | zero => cases reaches
      | succ count =>
          rw [functionsWithin, Bag.positional?_ofArguments unnumbered, here]
          simp only
          rw [Bag.function_ofArguments unnumbered, here,
            inductionHypothesis behind (Nat.le_of_succ_le_succ reaches)]
          rfl

/-- Reading references fails at the first value that is none. -/
theorem functionsWithin_of_stray
    (unnumbered : Argument.Unnumbered arguments)
    (given :
      (Argument.positionals arguments).drop index =
        functions.map .function ++ stray :: others)
    (noReference : stray.function? = none)
    (reaches : functions.length < count) :
    functionsWithin (.ofArguments arguments) count index =
      .error
        (.wrongKind (positionalKey (index + functions.length)) .function
          stray.kind) := by
  induction functions generalizing count index with
  | nil =>
      obtain ⟨count, rfl⟩ := Nat.exists_eq_add_of_lt reaches
      have here : (Argument.positionals arguments)[index]? = some stray :=
        getElem?_of_drop given
      rw [functionsWithin, Bag.positional?_ofArguments unnumbered, here]
      simp only
      rw [Bag.function_ofArguments unnumbered, here]
      simp only [noReference]
      rfl
  | cons function functions inductionHypothesis =>
      obtain ⟨count, rfl⟩ := Nat.exists_eq_succ_of_ne_zero
        (Nat.ne_of_gt (Nat.lt_of_le_of_lt (Nat.zero_le _) reaches))
      have here :
          (Argument.positionals arguments)[index]? =
            some (.function function) :=
        getElem?_of_drop given
      have behind :
          (Argument.positionals arguments).drop (index + 1) =
            functions.map .function ++ stray :: others :=
        drop_succ_of_drop given
      have failed :=
        inductionHypothesis behind (Nat.lt_of_succ_lt_succ reaches)
      rw [functionsWithin, Bag.positional?_ofArguments unnumbered, here]
      simp only
      rw [Bag.function_ofArguments unnumbered, here, failed, List.length_cons,
        Nat.add_comm functions.length, ← Nat.add_assoc]
      rfl

/-- From a slot on there are references only, or reading them fails. -/
private theorem references_or_fault
    (unnumbered : Argument.Unnumbered arguments)
    (index : Nat) :
    (∃ (function : String) (functions : List String),
      (Argument.positionals arguments).drop index =
        (function :: functions).map .function) ∨
      ∃ error,
        (Slot.references index
              (max 1 ((Argument.positionals arguments).length - index))).findSome?
            (·.fault? (Argument.positionals arguments)) =
          some error ∧
        functionsFrom (.ofArguments arguments) index = .error error := by
  have room := Bag.length_positionals_le_size unnumbered
  have left :=
    List.length_drop (i := index) (l := Argument.positionals arguments)
  rcases Value.references_or_stray
      ((Argument.positionals arguments).drop index) with
    ⟨functions, given⟩ | ⟨functions, stray, others, given, noReference⟩
  · cases functions with
    | nil =>
        rw [given, List.map_nil, List.length_nil] at left
        refine .inr ⟨.missing (positionalKey index), ?_, ?_⟩
        · rw [← left]
          exact Slot.findSome?_references_of_end given
        · rw [functionsFrom,
            functionsWithin_references unnumbered given (Nat.zero_le _)]
    | cons function functions => exact .inl ⟨function, functions, given⟩
  · rw [given, List.length_append, List.length_map, List.length_cons] at left
    refine .inr ⟨_, Slot.findSome?_references_of_stray given noReference
      (by omega), ?_⟩
    rw [functionsFrom, functionsWithin_of_stray unnumbered given noReference
      (by omega)]

/-- There are a reference and a value in front, or reading them fails. -/
private theorem pair_or_fault
    (unnumbered : Argument.Unnumbered arguments) :
    (∃ function data others,
      Argument.positionals arguments = .function function :: data :: others) ∨
      ∃ error,
        [(⟨0, true⟩ : Slot), ⟨1, false⟩].findSome?
            (·.fault? (Argument.positionals arguments)) =
          some error ∧
        ∀ next : String → Value → Except ArgumentError FunctionalCall,
          ((Bag.ofArguments arguments).function (positionalKey 0) >>=
              fun function =>
                (Bag.ofArguments arguments).require (positionalKey 1) >>=
                  next function) =
            .error error := by
  rw [Bag.function_ofArguments unnumbered, Bag.require_ofArguments unnumbered]
  cases Argument.positionals arguments with
  | nil => exact .inr ⟨_, rfl, fun _ => rfl⟩
  | cons value others =>
      cases value with
      | function name =>
          cases others with
          | nil => exact .inr ⟨_, rfl, fun _ => rfl⟩
          | cons data others => exact .inl ⟨name, data, others, rfl⟩
      | _ => exact .inr ⟨_, rfl, fun _ => rfl⟩

variable {verb : FunctionalVerb} {values : List Value}
  {call : FunctionalCall}

/-- In the layout of a verb there is nothing wrong. -/
theorem firstFault?_of_takes
    (takes : verb.Takes values call) :
    verb.firstFault? values = none := by
  cases takes with
  | map function data others => rfl
  | filter function data others => rfl
  | reduce function data others => rfl
  | compose function functions =>
      have fine :=
        @Slot.findSome?_references
          ((function :: functions).map .function) (function :: functions) 0 rfl
      have count :
          max 1 ((function :: functions).map Value.function).length =
            (function :: functions).length := by
        simp
      rw [FunctionalVerb.firstFault?, FunctionalVerb.slots, count]
      exact fine
  | pipe data function functions =>
      have fine :=
        @Slot.findSome?_references
          (data :: (function :: functions).map .function)
          (function :: functions) 1 rfl
      have count :
          max 1
              ((data :: (function :: functions).map Value.function).length - 1) =
            (function :: functions).length := by
        simp
      rw [FunctionalVerb.firstFault?, FunctionalVerb.slots, count,
        List.findSome?_append, fine]
      rfl

/-- A verb takes values, or something is wrong with them and it says so. -/
theorem takes_or_fault
    (unnumbered : Argument.Unnumbered arguments)
    (verb : FunctionalVerb) :
    (∃ call, verb.Takes (Argument.positionals arguments) call) ∨
      ∃ error,
        verb.firstFault? (Argument.positionals arguments) = some error ∧
          ofBag verb (.ofArguments arguments) = .error error := by
  cases verb with
  | map | filter | reduce =>
      rcases pair_or_fault unnumbered with
        ⟨function, data, others, given⟩ | ⟨error, fault, failed⟩
      · rw [given]
        exact .inl ⟨_, by constructor⟩
      · exact .inr ⟨error, fault, failed _⟩
  | compose =>
      rcases references_or_fault unnumbered 0 with
        ⟨function, functions, given⟩ | ⟨error, fault, failed⟩
      · rw [List.drop_zero] at given
        rw [given]
        exact .inl ⟨_, .compose function functions⟩
      · exact .inr ⟨error, fault, by rw [ofBag, failed]; rfl⟩
  | pipe =>
      rcases references_or_fault unnumbered 1 with
        ⟨function, functions, given⟩ | ⟨error, fault, failed⟩
      · cases shape : Argument.positionals arguments with
        | nil =>
            rw [shape] at given
            cases given
        | cons data others =>
            rw [shape] at given
            cases given
            exact .inl ⟨_, .pipe data function functions⟩
      · refine .inr ⟨error, ?_, by rw [ofBag, failed]; rfl⟩
        rw [FunctionalVerb.firstFault?, FunctionalVerb.slots,
          List.findSome?_append, fault]
        rfl

end FunctionalCall

end Reading

end VerbChain
