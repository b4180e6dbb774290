namespace VerbChain

/-!
# Tables

A table holds one value under each of its keys, in the order of the keys'
code points.  Looking a key up after an insertion finds the value just given
or what was there before, and tables in which every key finds the same value
are equal.  So the order of insertions shows only where one key was given
twice: the last value stays.
-/

/-- Values under distinct keys, sorted by key. -/
structure Table (α : Type u) where
  entries : List (String × α)
  ordered : entries.Pairwise fun left right => left.1 < right.1

namespace Table

/-- Put a value under a key into a sorted list of entries. -/
def insertInto (key : String) (value : α) :
    List (String × α) → List (String × α)
  | [] => [(key, value)]
  | (other, kept) :: rest =>
      if key < other then (key, value) :: (other, kept) :: rest
      else if key = other then (key, value) :: rest
      else (other, kept) :: insertInto key value rest

/-- Inserting brings in no entry but the given one. -/
theorem eq_or_mem_of_mem_insertInto
    {key : String}
    {value : α}
    {entries : List (String × α)}
    {entry : String × α}
    (member : entry ∈ insertInto key value entries) :
    entry = (key, value) ∨ entry ∈ entries := by
  fun_induction insertInto key value entries with
  | case1 => simpa using member
  | case2 => simpa using member
  | case3 rest kept =>
      rcases List.mem_cons.1 member with given | later
      · exact .inl given
      · exact .inr (List.mem_cons_of_mem _ later)
  | case4 other kept rest _ _ hypothesis =>
      rcases List.mem_cons.1 member with head | later
      · exact .inr (head ▸ List.mem_cons_self)
      · exact (hypothesis later).imp_right (List.mem_cons_of_mem _)

/-- Inserting keeps entries sorted. -/
theorem ordered_insertInto
    (key : String)
    (value : α)
    {entries : List (String × α)}
    (ordered : entries.Pairwise fun left right => left.1 < right.1) :
    (insertInto key value entries).Pairwise
      fun left right => left.1 < right.1 := by
  fun_induction insertInto key value entries with
  | case1 => simp
  | case2 other kept rest before =>
      refine List.pairwise_cons.2 ⟨fun entry member => ?_, ordered⟩
      rcases List.mem_cons.1 member with rfl | later
      · exact before
      · exact String.lt_trans before
          ((List.pairwise_cons.1 ordered).1 entry later)
  | case3 rest kept =>
      exact List.pairwise_cons.2
        ⟨(List.pairwise_cons.1 ordered).1, (List.pairwise_cons.1 ordered).2⟩
  | case4 other kept rest notBefore different hypothesis =>
      have parts := List.pairwise_cons.1 ordered
      refine List.pairwise_cons.2 ⟨fun entry member => ?_, hypothesis parts.2⟩
      rcases eq_or_mem_of_mem_insertInto member with rfl | later
      · grind
      · exact parts.1 entry later

/-- The table without entries. -/
def empty : Table α := ⟨[], .nil⟩

/-- Put a value under a key, in place of the one that was there. -/
def insert (table : Table α) (key : String) (value : α) : Table α :=
  ⟨insertInto key value table.entries,
    ordered_insertInto key value table.ordered⟩

/-- Take the entry of a key out. -/
def erase (table : Table α) (key : String) : Table α :=
  ⟨table.entries.filter fun entry => entry.1 != key,
    table.ordered.filter _⟩

/-- The value under a key. -/
def find? (table : Table α) (key : String) : Option α :=
  table.entries.lookup key

/-- Whether a key has a value. -/
def contains (table : Table α) (key : String) : Bool :=
  (table.find? key).isSome

/-- The number of entries. -/
def size (table : Table α) : Nat :=
  table.entries.length

/-- Whether there are no entries. -/
def isEmpty (table : Table α) : Bool :=
  table.entries.isEmpty

/-- The keys in increasing order. -/
def keys (table : Table α) : List String :=
  table.entries.map Prod.fst

/-- Insert pairs one after the other. -/
def insertMany (table : Table α) (pairs : List (String × α)) : Table α :=
  pairs.foldl (fun table pair => table.insert pair.1 pair.2) table

/-- The table of pairs, the last value of each key. -/
def ofList (pairs : List (String × α)) : Table α :=
  empty.insertMany pairs

/-- Behind all other keys a key comes last. -/
theorem insertInto_eq_append
    {key : String}
    {entries : List (String × α)}
    (behind : ∀ entry ∈ entries, entry.1 < key)
    (value : α) :
    insertInto key value entries = entries ++ [(key, value)] := by
  induction entries with
  | nil => rfl
  | cons entry rest inductionHypothesis =>
      have before := behind entry List.mem_cons_self
      have notBehind : ¬key < entry.1 := String.lt_asymm before
      have different : key ≠ entry.1 := by
        rintro rfl
        exact String.lt_irrefl _ before
      rw [insertInto, if_neg notBehind, if_neg different,
        inductionHypothesis fun other member =>
          behind other (List.mem_cons_of_mem _ member)]
      rfl

/-- Pairs sorted by key become the entries as they are. -/
theorem entries_insertMany
    {table : Table α}
    {pairs : List (String × α)}
    (sorted :
      (table.entries ++ pairs).Pairwise fun left right => left.1 < right.1) :
    (table.insertMany pairs).entries = table.entries ++ pairs := by
  induction pairs generalizing table with
  | nil => exact (List.append_nil _).symm
  | cons pair rest inductionHypothesis =>
      have behind := (List.pairwise_append.1 sorted).2.2
      have inserted :
          (table.insert pair.1 pair.2).entries = table.entries ++ [pair] :=
        insertInto_eq_append
          (fun entry member => behind entry member pair List.mem_cons_self)
          pair.2
      have shape :
          table.entries ++ pair :: rest =
            (table.insert pair.1 pair.2).entries ++ rest := by
        rw [inserted, List.append_assoc, List.singleton_append]
      rw [shape] at sorted ⊢
      exact inductionHypothesis sorted

theorem entries_ofList
    {pairs : List (String × α)}
    (sorted : pairs.Pairwise fun left right => left.1 < right.1) :
    (ofList pairs).entries = pairs :=
  entries_insertMany sorted

/-- Apply a function to every value. -/
def mapValues (f : α → β) (table : Table α) : Table β :=
  ⟨table.entries.map fun entry => (entry.1, f entry.2),
    List.pairwise_map.2 table.ordered⟩

/-- Tables with the same entries are equal. -/
theorem ext_entries
    {left right : Table α}
    (same : left.entries = right.entries) :
    left = right := by
  cases left
  cases right
  cases same
  rfl

/-- A key finds the first entry's value or what the others hold. -/
theorem lookup_cons_eq_ite
    (key other : String)
    (value : α)
    (rest : List (String × α)) :
    ((other, value) :: rest).lookup key =
      if key = other then some value else rest.lookup key := by
  by_cases same : key = other
  · simp [same]
  · simp [List.lookup_cons, same, beq_eq_false_iff_ne.2 same]

/-- An insertion into sorted entries shows under its key only. -/
theorem lookup_insertInto
    (key other : String)
    (value : α)
    (entries : List (String × α)) :
    (insertInto key value entries).lookup other =
      if other = key then some value else entries.lookup other := by
  fun_induction insertInto key value entries with
  | case1 => simp [lookup_cons_eq_ite]
  | case2 first kept rest before => simp [lookup_cons_eq_ite]
  | case3 rest kept =>
      by_cases same : other = key <;> simp [lookup_cons_eq_ite, same]
  | case4 first kept rest notBefore different hypothesis =>
      rw [lookup_cons_eq_ite, hypothesis, lookup_cons_eq_ite]
      by_cases same : other = key
      · subst same
        simp [different]
      · simp [same]

/-- After an insertion a key finds the given value or what it found before. -/
theorem find?_insert
    (table : Table α)
    (key other : String)
    (value : α) :
    (table.insert key value).find? other =
      if other = key then some value else table.find? other :=
  lookup_insertInto key other value table.entries

/-- The empty table finds nothing. -/
@[simp] theorem find?_empty (key : String) :
    (empty : Table α).find? key = none :=
  rfl

/-- A key that finds a value is the key of an entry. -/
theorem mem_of_lookup_eq_some
    {entries : List (String × α)}
    {key : String}
    {value : α}
    (found : entries.lookup key = some value) :
    (key, value) ∈ entries := by
  induction entries with
  | nil => cases found
  | cons entry rest hypothesis =>
      rw [List.lookup_cons] at found
      split at found
      · next same =>
          cases found
          rw [beq_iff_eq.1 same]
          exact List.mem_cons_self
      · exact List.mem_cons_of_mem _ (hypothesis found)

/-- A key finds the value of its entry. -/
theorem lookup_eq_some_of_mem
    {entries : List (String × α)}
    (ordered : entries.Pairwise fun left right => left.1 < right.1)
    {key : String}
    {value : α}
    (member : (key, value) ∈ entries) :
    entries.lookup key = some value := by
  induction entries with
  | nil => cases member
  | cons entry rest hypothesis =>
      have parts := List.pairwise_cons.1 ordered
      rcases List.mem_cons.1 member with rfl | later
      · simp
      · have before := parts.1 _ later
        have different : key ≠ entry.1 := by
          intro same
          rw [same] at before
          exact String.lt_irrefl _ before
        rw [show entry = (entry.1, entry.2) from rfl, lookup_cons_eq_ite,
          if_neg different]
        exact hypothesis parts.2 later

/-- The entries of a table are what its keys find. -/
theorem mem_entries_iff
    {table : Table α}
    {key : String}
    {value : α} :
    (key, value) ∈ table.entries ↔ table.find? key = some value :=
  ⟨lookup_eq_some_of_mem table.ordered, mem_of_lookup_eq_some⟩

/-- Sorted lists with the same members are equal. -/
theorem entries_eq_of_mem_iff
    {left right : List (String × α)}
    (leftOrdered : left.Pairwise fun a b => a.1 < b.1)
    (rightOrdered : right.Pairwise fun a b => a.1 < b.1)
    (same : ∀ entry, entry ∈ left ↔ entry ∈ right) :
    left = right := by
  induction left generalizing right with
  | nil =>
      cases right with
      | nil => rfl
      | cons entry rest => exact absurd ((same entry).2 List.mem_cons_self) (by simp)
  | cons entry rest hypothesis =>
      cases right with
      | nil => exact absurd ((same entry).1 List.mem_cons_self) (by simp)
      | cons other others =>
          have leftParts := List.pairwise_cons.1 leftOrdered
          have rightParts := List.pairwise_cons.1 rightOrdered
          have heads : entry = other := by
            rcases List.mem_cons.1 ((same entry).1 List.mem_cons_self) with
              equal | later
            · exact equal
            · rcases List.mem_cons.1 ((same other).2 List.mem_cons_self) with
                equal | behind
              · exact equal.symm
              · exact absurd
                  (String.lt_trans (rightParts.1 _ later) (leftParts.1 _ behind))
                  (String.lt_irrefl _)
          subst heads
          congr 1
          apply hypothesis leftParts.2 rightParts.2
          intro candidate
          constructor
          · intro member
            have whole := (same candidate).1 (List.mem_cons_of_mem _ member)
            rcases List.mem_cons.1 whole with rfl | later
            · exact absurd (leftParts.1 _ member) (String.lt_irrefl _)
            · exact later
          · intro member
            have whole := (same candidate).2 (List.mem_cons_of_mem _ member)
            rcases List.mem_cons.1 whole with rfl | later
            · exact absurd (rightParts.1 _ member) (String.lt_irrefl _)
            · exact later

/-- Tables in which every key finds the same value are equal. -/
theorem ext_find?
    {left right : Table α}
    (same : ∀ key, left.find? key = right.find? key) :
    left = right := by
  apply ext_entries
  apply entries_eq_of_mem_iff left.ordered right.ordered
  rintro ⟨key, value⟩
  rw [mem_entries_iff, mem_entries_iff, same]

end Table

end VerbChain
