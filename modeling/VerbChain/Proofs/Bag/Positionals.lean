import VerbChain.Proofs.Bag.Keys

namespace VerbChain

/-!
# The positional arguments of a bag

A positional argument is kept under a key made of its number, and another number
makes another key.  So where no name is spelled like such a key, the keys of
numbers find the positional arguments by their places, and nothing behind the
last of them.  A named argument is found under a name that is not spelled like
such a key if it is the last one with this name.
-/

/-- Another number makes another key. -/
theorem positionalKey_injective
    {left right : Nat}
    (same : positionalKey left = positionalKey right) :
    left = right := by
  have numerals : left.repr = right.repr := by
    rw [positionalKey, positionalKey, String.append_right_inj] at same
    exact same
  have digits : Nat.toDigits 10 left = Nat.toDigits 10 right := by
    rw [Nat.repr, Nat.repr, String.ofList_inj] at numerals
    exact numerals
  rw [← Nat.ofDigitChars_toDigits (n := left) (by decide) (Nat.le_refl 10),
    digits, Nat.ofDigitChars_toDigits (by decide) (Nat.le_refl 10)]

/-- What begins with another character is no key of a number. -/
theorem ne_positionalKey
    {name : String}
    (different : name.toList.head? ≠ some '_')
    (index : Nat) :
    name ≠ positionalKey index := by
  rintro rfl
  simp [positionalKey] at different

/-- The values of the arguments without a name. -/
def Argument.positionals (arguments : List Argument) : List Value :=
  (arguments.filter fun argument => argument.name.isNone).map Argument.value

/-- No argument has a name that is spelled like the key of a number. -/
def Argument.Unnumbered (arguments : List Argument) : Prop :=
  ∀ argument ∈ arguments, ∀ index,
    argument.name ≠ some (positionalKey index)

/-- The last of the arguments with a name has a value. -/
def Argument.LastNamed (arguments : List Argument) (name : String)
    (value : Value) : Prop :=
  ∃ earlier later,
    arguments = earlier ++ .named name value :: later ∧
      ∀ argument ∈ later, argument.name ≠ some name

namespace Bag

/-- Keys of numbers find the positional arguments, the first one has a number. -/
private theorem find?_keyed
    {arguments : List Argument}
    (unnumbered : Argument.Unnumbered arguments)
    (next index : Nat) :
    (Table.ofList (keyed next arguments)).find? (positionalKey index) =
      if next ≤ index then (Argument.positionals arguments)[index - next]?
      else none := by
  induction arguments generalizing next with
  | nil => simp [keyed, Argument.positionals, Table.ofList, Table.insertMany]
  | cons argument rest inductionHypothesis =>
      obtain ⟨here, later⟩ := List.forall_mem_cons.1 unnumbered
      cases named : argument.name with
      | some name =>
          have different : positionalKey index ≠ name := by
            rintro rfl
            exact here index named
          have keys :
              keyed next (argument :: rest) =
                [(name, argument.value)] ++ keyed next rest := by
            rw [keyed, named]
            rfl
          rw [keys, Table.find?_ofList_append, inductionHypothesis later,
            Table.find?_ofList_singleton, if_neg different, Option.or_none]
          simp [Argument.positionals, named]
      | none =>
          have keys :
              keyed next (argument :: rest) =
                [(positionalKey next, argument.value)] ++
                  keyed (next + 1) rest := by
            rw [keyed, named]
            rfl
          rw [keys, Table.find?_ofList_append, inductionHypothesis later,
            Table.find?_ofList_singleton]
          have positionals :
              Argument.positionals (argument :: rest) =
                argument.value :: Argument.positionals rest := by
            simp [Argument.positionals, named]
          rw [positionals]
          rcases Nat.lt_trichotomy index next with before | rfl | behind
          · have different : positionalKey index ≠ positionalKey next :=
              fun same => absurd (positionalKey_injective same) (by omega)
            rw [if_neg (by omega), if_neg different, if_neg (by omega)]
            rfl
          · rw [if_neg (by omega), if_pos rfl, if_pos (Nat.le_refl index),
              Nat.sub_self]
            rfl
          · have different : positionalKey index ≠ positionalKey next :=
              fun same => absurd (positionalKey_injective same) (by omega)
            have place : index - next = index - (next + 1) + 1 := by omega
            rw [if_pos (by omega), if_neg different, if_pos (by omega), place,
              List.getElem?_cons_succ, Option.or_none]

variable {arguments : List Argument}

/-- A number finds the positional argument at its place. -/
theorem positional?_ofArguments
    (unnumbered : Argument.Unnumbered arguments)
    (index : Nat) :
    (ofArguments arguments).positional? index =
      (Argument.positionals arguments)[index]? := by
  rw [positional?, get?, ofArguments, ofPairs, find?_keyed unnumbered,
    if_pos (Nat.zero_le index), Nat.sub_zero]

/-- A bag has as many keys as there are numbers in a row that find a value. -/
theorem le_size
    {bag : Bag}
    {start count : Nat}
    (found : ∀ offset < count, bag.positional? (start + offset) ≠ none) :
    count ≤ bag.size := by
  have distinct :
      ((List.range' start count).map positionalKey).Nodup :=
    List.Nodup.map (fun _ _ same => positionalKey_injective same)
      List.nodup_range'
  have among :
      (List.range' start count).map positionalKey ⊆ bag.values.keys := by
    intro key member
    obtain ⟨index, inside, rfl⟩ := List.mem_map.1 member
    obtain ⟨offset, below, rfl⟩ := List.mem_range'.1 inside
    rw [Nat.one_mul]
    exact Table.mem_keys_iff.2 (found offset below)
  have fewer := distinct.length_le_of_subset among
  rw [List.length_map, List.length_range', Table.keys, List.length_map] at fewer
  exact fewer

/-- There is a key for every positional argument. -/
theorem length_positionals_le_size
    (unnumbered : Argument.Unnumbered arguments) :
    (Argument.positionals arguments).length ≤ (ofArguments arguments).size := by
  apply @le_size (ofArguments arguments) 0
  intro index inside
  rw [Nat.zero_add, positional?_ofArguments unnumbered,
    List.getElem?_eq_getElem inside]
  exact Option.some_ne_none _

section Named

variable {name : String} {value : Value}

/-- A name that is not spelled like the key of a number is found if it is there. -/
theorem get?_ofArguments_eq_none_iff_unnamed
    (word : ∀ index, name ≠ positionalKey index) :
    (ofArguments arguments).get? name = none ↔
      ∀ argument ∈ arguments, argument.name ≠ some name := by
  rw [get?_ofArguments_eq_none_iff, List.forall_mem_iff_getElem]
  simp only [ne_eq, effectiveKey_eq_iff word, Fin.forall_iff]
  rfl

/-- A name that is not spelled like the key of a number finds its last value. -/
theorem get?_ofArguments_eq_some_iff_lastNamed
    (word : ∀ index, name ≠ positionalKey index) :
    (ofArguments arguments).get? name = some value ↔
      Argument.LastNamed arguments name value := by
  rw [get?_ofArguments_eq_some_iff]
  constructor
  · rintro ⟨place, keyed, rfl, last⟩
    have named := (effectiveKey_eq_iff word place).1 keyed
    refine ⟨arguments.take place, arguments.drop (place + 1), ?_, ?_⟩
    · have shape := List.take_append_drop place.val arguments
      rw [List.drop_eq_getElem_cons place.isLt] at shape
      rw [Argument.named, ← named]
      exact shape.symm
    · intro argument member sameName
      obtain ⟨offset, inside, rfl⟩ := List.mem_drop_iff_getElem.1 member
      exact
        last ⟨place + 1 + offset, by omega⟩ (Fin.lt_def.2 (by grind))
          ((effectiveKey_eq_iff word _).2 sameName)
  · rintro ⟨earlier, later, rfl, last⟩
    have inside :
        earlier.length < (earlier ++ Argument.named name value :: later).length :=
      by simp
    refine ⟨⟨earlier.length, inside⟩, ?_, by simp [Argument.named], ?_⟩
    · rw [effectiveKey_eq_iff word]
      simp [Argument.named]
    · intro place behind keyed
      rw [effectiveKey_eq_iff word] at keyed
      have past : earlier.length < place.val := behind
      obtain ⟨offset, place_eq⟩ := Nat.exists_eq_add_of_lt past
      refine last _ ?_ keyed
      rw [Fin.getElem_fin, List.getElem_append_right (Nat.le_of_lt past)]
      have index : place.val - earlier.length = offset + 1 := by omega
      simp [index]

end Named

end Bag

end VerbChain
