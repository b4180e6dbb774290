import VerbChain.Proofs.Chain.Reading
import VerbChain.Proofs.Source.Kinds

namespace VerbChain

/-!
# Writing a chain and reading it back

A chain can be built with any texts as names and with any numbers.  It is
written in a way that is read back as the same chain exactly when it could have
been read in the first place: its names are names and its numbers are finite.
An infinity and not-a-number have no numeral and are read back as words, and
negative infinity is not read at all.
-/

namespace Value

/-- The texts of a value that are written bare. -/
def names : Value → List String
  | .identifier name => [name]
  | .function name => [name]
  | _ => []

/-- The numbers of a value. -/
def numbers : Value → List Binary64
  | .number value => [value]
  | _ => []

/-- What a value is read back as, if it is read at all. -/
def reread? : Value → Option Value
  | .number (.infinite false) => some (.identifier "inf")
  | .number (.infinite true) => none
  | .number .nan => some (.identifier "NaN")
  | value => some value

end Value

namespace Argument

/-- The texts of an argument that are written bare. -/
def names (argument : Argument) : List String :=
  argument.name.toList ++ argument.value.names

/-- What an argument is read back as, if it is read at all. -/
def reread? (argument : Argument) : Option Argument :=
  argument.value.reread?.map fun value => ⟨argument.name, value⟩

end Argument

namespace Call

/-- The texts of a call that are written bare. -/
def names (call : Call) : List String :=
  call.name :: call.arguments.flatMap Argument.names

/-- The numbers of a call. -/
def numbers (call : Call) : List Binary64 :=
  call.arguments.flatMap fun argument => argument.value.numbers

/-- What a call is read back as, if it is read at all. -/
def reread? (call : Call) : Option Call :=
  (call.arguments.mapM Argument.reread?).map fun arguments =>
    ⟨call.name, arguments⟩

end Call

namespace Chain

/-- The texts of a chain that are written bare. -/
def names (chain : Chain) : List String :=
  chain.calls.flatMap Call.names

/-- The numbers of a chain. -/
def numbers (chain : Chain) : List Binary64 :=
  chain.calls.flatMap Call.numbers

/-- Whether all that is written bare is a name and all numbers are finite. -/
def isReadable (chain : Chain) : Bool :=
  chain.names.all isName && chain.numbers.all Binary64.isFinite

/-- What a chain is read back as, if it is read at all. -/
def reread? (chain : Chain) : Option Chain :=
  (chain.calls.mapM Call.reread?).map Chain.mk

end Chain

namespace Tokens

/-- Whether a text does not continue a word or a number in front of it. -/
def closes (rest : List Char) : Bool :=
  !rest.head?.any fun c => continuesWord c || Lexeme.continuesNumber c

theorem ends_of_closes
    {rest : List Char}
    (closed : closes rest = true) :
    rest.head?.any continuesWord = false ∧
      rest.head?.any Lexeme.continuesNumber = false := by
  cases rest with
  | nil => simp
  | cons c others => simpa [closes] using closed

/-- A value that is written is read back in front of what closes it. -/
theorem kinds?_value
    {value : Value}
    {rest : List Char}
    (named : value.names.all isName = true)
    (closed : closes rest = true) :
    kinds? (value.spelling ++ rest) =
      value.reread?.bind fun read =>
        (kinds? rest).map (read.tokens ++ ·) := by
  obtain ⟨endsWord, endsNumber⟩ := ends_of_closes closed
  cases value with
  | number value =>
      cases value with
      | finite negative rank => exact kinds?_number negative rank endsNumber
      | infinite negative =>
          cases negative with
          | false =>
              have named : isName "inf" = true := by decide
              exact kinds?_name named endsWord
          | true => exact kinds?_strayMinus (by simp; decide)
      | nan =>
          have named : isName "NaN" = true := by decide
          exact kinds?_name named endsWord
  | string content => exact kinds?_string content rest
  | identifier name =>
      have isNamed : isName name = true := by simpa [Value.names] using named
      exact kinds?_name isNamed endsWord
  | bool value =>
      have taken :=
        fun word : String => @kinds?_word word.toList rest
      cases value with
      | true => exact taken "true" (by decide) (by decide) endsWord
      | false => exact taken "false" (by decide) (by decide) endsWord
  | function name =>
      have isNamed : isName name = true := by simpa [Value.names] using named
      rw [Value.spelling, List.cons_append, kinds?_punctuation rfl,
        kinds?_name isNamed endsWord, Option.map_map]
      rfl

/-- An argument that is written is read back in front of what closes it. -/
theorem kinds?_argument
    {argument : Argument}
    {rest : List Char}
    (named : argument.names.all isName = true)
    (closed : closes rest = true) :
    kinds? (argument.spelling ++ rest) =
      argument.reread?.bind fun read =>
        (kinds? rest).map (read.tokens ++ ·) := by
  obtain ⟨name, value⟩ := argument
  cases name with
  | none =>
      rw [Argument.spelling, kinds?_value named closed, Argument.reread?,
        Option.bind_map]
      rfl
  | some name =>
      obtain ⟨isNamed, valueNamed⟩ :
          isName name = true ∧ value.names.all isName = true := by
        simpa [Argument.names] using named
      rw [Argument.spelling, List.append_assoc, List.cons_append,
        kinds?_name isNamed rfl, kinds?_punctuation rfl,
        kinds?_value valueNamed closed, Argument.reread?]
      cases value.reread? <;> cases kinds? rest <;> rfl

/-- Items with marks between them are read back one after the other. -/
private theorem kinds?_joined
    {spelling : α → List Char}
    {reread? : α → Option β}
    {tokens : β → List Token}
    {separator : List Char}
    {mark : Token}
    {items : List α}
    (follows : List Char → Prop)
    (rest : List Char)
    (separates :
      ∀ rest, kinds? (separator ++ rest) = (kinds? rest).map (mark :: ·))
    (separatorFollows : ∀ rest, follows (separator ++ rest))
    (restFollows : follows rest)
    (reads :
      ∀ item ∈ items, ∀ rest, follows rest →
        kinds? (spelling item ++ rest) =
          (reread? item).bind fun read =>
            (kinds? rest).map (tokens read ++ ·)) :
    kinds? (joined separator (items.map spelling) ++ rest) =
      (items.mapM reread?).bind fun read =>
        (kinds? rest).map (joined [mark] (read.map tokens) ++ ·) := by
  induction items with
  | nil => simp [joined]
  | cons first others inductionHypothesis =>
      have readsFirst := reads first (by simp)
      have readsOthers := fun item member =>
        reads item (List.mem_cons_of_mem first member)
      cases others with
      | nil =>
          rw [List.map_singleton, joined, readsFirst rest restFollows,
            List.mapM_cons]
          cases reread? first <;> simp [joined]
      | cons second others =>
          have shape :
              joined separator ((first :: second :: others).map spelling) ++
                  rest =
                spelling first ++ (separator ++
                  (joined separator ((second :: others).map spelling) ++
                    rest)) := by
            simp [joined]
          -- Every item but the last is followed by a separator.
          rw [shape, readsFirst _ (separatorFollows _), separates,
            inductionHypothesis readsOthers]
          simp only [List.mapM_cons]
          cases reread? first <;> cases reread? second <;>
            cases others.mapM reread? <;> cases kinds? rest <;>
            simp [joined]

/-- A call that is written is read back in front of anything. -/
theorem kinds?_call
    {call : Call}
    (named : call.names.all isName = true)
    (rest : List Char) :
    kinds? (call.spelling ++ rest) =
      call.reread?.bind fun read =>
        (kinds? rest).map (read.tokens ++ ·) := by
  obtain ⟨isNamed, argumentsNamed⟩ :
      isName call.name = true ∧
        ∀ argument ∈ call.arguments, argument.names.all isName = true := by
    simpa [Call.names, List.all_flatMap] using named
  have separates (rest : List Char) :
      kinds? ([',', ' '] ++ rest) = (kinds? rest).map (.comma :: ·) := by
    rw [List.cons_append, kinds?_punctuation rfl, List.cons_append,
      kinds?_blank (by decide), List.nil_append]
  have arguments :=
    kinds?_joined (closes · = true) (')' :: rest) separates (fun _ => rfl) rfl
      (fun argument member _ =>
        kinds?_argument (argumentsNamed argument member))
  rw [Call.spelling, List.append_assoc, kinds?_name isNamed rfl,
    List.cons_append, kinds?_punctuation rfl, List.append_assoc,
    List.singleton_append, arguments, kinds?_punctuation rfl, Call.reread?]
  cases call.arguments.mapM Argument.reread? <;> cases kinds? rest <;>
    simp [Call.tokens]

end Tokens

namespace Chain

open Tokens

/-- A chain that is written with names has the tokens it is read back from. -/
theorem kinds?_spelling
    {chain : Chain}
    (named : chain.names.all isName = true) :
    kinds? chain.spelling = chain.reread?.map Chain.tokens := by
  have callsNamed :
      ∀ call ∈ chain.calls, call.names.all isName = true := by
    simpa [Chain.names, List.all_flatMap] using named
  have separates (rest : List Char) :
      kinds? (['.'] ++ rest) = (kinds? rest).map (.dot :: ·) :=
    kinds?_punctuation rfl rest
  have calls :=
    kinds?_joined (fun _ => True) [] separates (fun _ => trivial)
      trivial
      (fun call member rest _ => kinds?_call (callsNamed call member) rest)
  rw [Chain.spelling, ← List.append_nil (joined _ _), calls, Chain.reread?]
  cases chain.calls.mapM Call.reread? <;> simp [Chain.tokens]

/-- A program is read as a chain when its tokens are that chain's tokens. -/
theorem ofSource_eq_ok_iff
    {source : String}
    {chain : Chain} :
    ofSource source = .ok chain ↔
      kinds? source.toList = some chain.tokens := by
  unfold ofSource kinds? Tokens.ofSource
  cases ofText .start source.toList with
  | error error => simp [Except.toOption]
  | ok tokens => simpa [Except.toOption] using ofLocated_eq_ok_iff

/-- A chain is found again by its tokens. -/
theorem tokens_injective
    {left right : Chain}
    (same : left.tokens = right.tokens) :
    left = right := by
  have read := ofTokens_tokens left
  rw [same, ofTokens_tokens right] at read
  cases read
  rfl

/-- What a chain with names is read back as, in so many words. -/
theorem ofSource_render_iff
    {chain read : Chain}
    (named : chain.names.all isName = true) :
    ofSource chain.render = .ok read ↔ chain.reread? = some read := by
  rw [ofSource_eq_ok_iff, render, String.toList_ofList, kinds?_spelling named]
  cases chain.reread? with
  | none => simp
  | some other =>
      simp only [Option.map_some, Option.some.injEq]
      exact ⟨tokens_injective, fun same => same ▸ rfl⟩

end Chain

/-- What stands in one of several texts stands in the joined text. -/
theorem mem_joined
    {separator item : List α}
    {items : List (List α)}
    {element : α}
    (member : item ∈ items)
    (inItem : element ∈ item) :
    element ∈ joined separator items := by
  induction items with
  | nil => cases member
  | cons first others inductionHypothesis =>
      cases others with
      | nil =>
          rw [List.mem_singleton] at member
          exact member ▸ inItem
      | cons second others =>
          rcases List.mem_cons.1 member with rfl | later
          · exact List.mem_append_left _ inItem
          · exact List.mem_append_right _
              (List.mem_append_right _ (inductionHypothesis later))

/-- The bare texts of a value are identifiers among its tokens. -/
theorem Value.mem_tokens_of_mem_names
    {value : Value}
    {name : String}
    (member : name ∈ value.names) :
    .identifier name ∈ value.tokens := by
  cases value <;> simp_all [names, tokens]

theorem Argument.mem_tokens_of_mem_names
    {argument : Argument}
    {name : String}
    (member : name ∈ argument.names) :
    .identifier name ∈ argument.tokens := by
  obtain ⟨label, value⟩ := argument
  cases label with
  | none => exact Value.mem_tokens_of_mem_names member
  | some label =>
      rcases List.mem_cons.1 member with rfl | inValue
      · exact List.mem_cons_self
      · exact List.mem_cons_of_mem _
          (List.mem_cons_of_mem _ (Value.mem_tokens_of_mem_names inValue))

theorem Call.mem_tokens_of_mem_names
    {call : Call}
    {name : String}
    (member : name ∈ call.names) :
    .identifier name ∈ call.tokens := by
  rcases List.mem_cons.1 member with rfl | inArguments
  · exact List.mem_cons_self
  · obtain ⟨argument, given, inArgument⟩ := List.mem_flatMap.1 inArguments
    have inTokens := Argument.mem_tokens_of_mem_names inArgument
    refine List.mem_cons_of_mem _ (List.mem_cons_of_mem _ ?_)
    exact List.mem_append_left _
      (mem_joined (List.mem_map_of_mem given) inTokens)

namespace Chain

/-- The bare texts of a chain are identifiers among its tokens. -/
theorem mem_tokens_of_mem_names
    {chain : Chain}
    {name : String}
    (member : name ∈ chain.names) :
    .identifier name ∈ chain.tokens := by
  obtain ⟨call, given, inCall⟩ := List.mem_flatMap.1 member
  exact mem_joined (List.mem_map_of_mem given)
    (Call.mem_tokens_of_mem_names inCall)

/-- All bare texts of a chain that was read are names. -/
theorem names_of_ofSource
    {source : String}
    {chain : Chain}
    (read : ofSource source = .ok chain) :
    chain.names.all isName = true := by
  rw [List.all_eq_true]
  intro name member
  have inTokens := mem_tokens_of_mem_names member
  cases found : Tokens.ofSource source with
  | error error =>
      rw [ofSource, found] at read
      cases read
  | ok tokens =>
      simp only [ofSource, found, ofLocated_eq_ok_iff, body] at read
      rw [← read] at inTokens
      exact Tokens.isName_of_ofText found
        (List.takeWhile_subset _ inTokens)

end Chain

/-- What items are read back as, seen through what reading back keeps. -/
private theorem flatMap_of_mapM
    {items : List α}
    {read : List β}
    {reread? : α → Option β}
    {before : α → List γ}
    {after : β → List γ}
    (found : items.mapM reread? = some read)
    (keeps :
      ∀ item other, reread? item = some other →
        after other = before item) :
    read.flatMap after = items.flatMap before := by
  induction items generalizing read with
  | nil =>
      cases found
      rfl
  | cons first others inductionHypothesis =>
      rw [List.mapM_cons] at found
      obtain ⟨head, headFound, found⟩ := Option.bind_eq_some_iff.1 found
      obtain ⟨rest, restFound, found⟩ := Option.bind_eq_some_iff.1 found
      cases found
      rw [List.flatMap_cons, List.flatMap_cons, keeps first head headFound,
        inductionHypothesis restFound]

/-- Items that are each read back as themselves are read back unchanged. -/
theorem mapM_eq_self
    {items : List α}
    {reread? : α → Option α}
    (same : ∀ item ∈ items, reread? item = some item) :
    items.mapM reread? = some items := by
  induction items with
  | nil => rfl
  | cons first others inductionHypothesis =>
      rw [List.mapM_cons, same first List.mem_cons_self,
        inductionHypothesis
          (fun item member => same item (List.mem_cons_of_mem first member))]
      rfl

/-- Reading a value back keeps its number if that is finite. -/
theorem Value.numbers_of_reread?
    {value read : Value}
    (found : value.reread? = some read) :
    read.numbers = value.numbers.filter Binary64.isFinite := by
  cases value with
  | number value =>
      cases value with
      | finite negative rank =>
          cases found
          rfl
      | infinite negative =>
          cases negative <;> cases found
          rfl
      | nan =>
          cases found
          rfl
  | string content =>
      cases found
      rfl
  | identifier name =>
      cases found
      rfl
  | bool value =>
      cases found
      rfl
  | function name =>
      cases found
      rfl

/-- A value without a number that is not finite is read back unchanged. -/
theorem Value.reread?_eq_self
    {value : Value}
    (finite : ∀ number ∈ value.numbers, number.isFinite = true) :
    value.reread? = some value := by
  cases value with
  | number value =>
      have isFinite : value.isFinite = true := finite value (by simp [numbers])
      cases value with
      | finite negative rank => rfl
      | infinite negative => cases isFinite
      | nan => cases isFinite
  | string content => rfl
  | identifier name => rfl
  | bool value => rfl
  | function name => rfl

theorem Call.numbers_of_reread?
    {call read : Call}
    (found : call.reread? = some read) :
    read.numbers = call.numbers.filter Binary64.isFinite := by
  obtain ⟨arguments, argumentsFound, rfl⟩ := Option.map_eq_some_iff.1 found
  rw [numbers, numbers, List.filter_flatMap]
  refine flatMap_of_mapM argumentsFound ?_
  intro argument other otherFound
  obtain ⟨value, valueFound, rfl⟩ := Option.map_eq_some_iff.1 otherFound
  exact Value.numbers_of_reread? valueFound

theorem Call.reread?_eq_self
    {call : Call}
    (finite : ∀ number ∈ call.numbers, number.isFinite = true) :
    call.reread? = some call := by
  have arguments :
      call.arguments.mapM Argument.reread? = some call.arguments := by
    refine mapM_eq_self ?_
    intro argument member
    have value : argument.value.reread? = some argument.value :=
      Value.reread?_eq_self fun number inValue =>
        finite number (List.mem_flatMap.2 ⟨argument, member, inValue⟩)
    rw [Argument.reread?, value]
    rfl
  rw [reread?, arguments]
  rfl

namespace Chain

/-- Reading a chain back keeps the numbers that are finite. -/
theorem numbers_of_reread?
    {chain read : Chain}
    (found : chain.reread? = some read) :
    read.numbers = chain.numbers.filter Binary64.isFinite := by
  obtain ⟨calls, callsFound, rfl⟩ := Option.map_eq_some_iff.1 found
  rw [numbers, numbers, List.filter_flatMap]
  exact flatMap_of_mapM callsFound
    (fun _ _ otherFound => Call.numbers_of_reread? otherFound)

/-- A chain with finite numbers only is read back unchanged. -/
theorem reread?_eq_self
    {chain : Chain}
    (finite : ∀ number ∈ chain.numbers, number.isFinite = true) :
    chain.reread? = some chain := by
  have calls : chain.calls.mapM Call.reread? = some chain.calls := by
    refine mapM_eq_self ?_
    intro call member
    exact Call.reread?_eq_self fun number inCall =>
      finite number (List.mem_flatMap.2 ⟨call, member, inCall⟩)
  rw [reread?, calls]
  rfl

/--
A chain was readable if it is read back with the same names and as many
numbers.
-/
theorem isReadable_of_reread
    {chain read : Chain}
    (found : ofSource chain.render = .ok read)
    (sameNames : read.names = chain.names)
    (sameCount : read.numbers.length = chain.numbers.length) :
    chain.isReadable = true := by
  have named : chain.names.all isName = true := by
    rw [← sameNames]
    exact names_of_ofSource found
  -- Only finite numbers come back as numbers, so equal counts miss none.
  have kept := numbers_of_reread? ((ofSource_render_iff named).1 found)
  rw [kept, List.length_filter_eq_length_iff] at sameCount
  rw [isReadable, named, Bool.true_and, List.all_eq_true]
  exact sameCount

end Chain

/-- Lists that agree place by place agree in what each place determines. -/
theorem map_eq_of_agreeing
    {same : α → α → Bool}
    {view : α → β}
    {left right : List α}
    (agree : agreeing same left right = true)
    (determines : ∀ a b, same a b = true → view a = view b) :
    left.map view = right.map view := by
  fun_induction agreeing same left right with
  | case1 => rfl
  | case2 a lefts b rights inductionHypothesis =>
      obtain ⟨heads, tails⟩ := Bool.and_eq_true_iff.1 agree
      rw [List.map_cons, List.map_cons, determines a b heads,
        inductionHypothesis tails]
  | case3 => cases agree

/-- A list agrees with itself if each of its places does. -/
theorem agreeing_self
    {same : α → α → Bool}
    {items : List α}
    (each : ∀ item ∈ items, same item item = true) :
    agreeing same items items = true := by
  induction items with
  | nil => rfl
  | cons first others inductionHypothesis =>
      rw [agreeing, each first List.mem_cons_self,
        inductionHypothesis
          (fun item member => each item (List.mem_cons_of_mem first member))]
      rfl

theorem Value.shape_of_agrees
    {left right : Value}
    (agree : left.agrees right = true) :
    left.names = right.names ∧ left.numbers.length = right.numbers.length := by
  cases left <;> cases right <;> simp_all [agrees, names, numbers]

theorem Argument.shape_of_agrees
    {left right : Argument}
    (agree : left.agrees right = true) :
    left.names = right.names ∧
      left.value.numbers.length = right.value.numbers.length := by
  obtain ⟨sameName, values⟩ := Bool.and_eq_true_iff.1 agree
  have sameNames := Value.shape_of_agrees values
  rw [names, names, eq_of_beq sameName, sameNames.1]
  exact ⟨rfl, sameNames.2⟩

theorem Call.shape_of_agrees
    {left right : Call}
    (agree : left.agrees right = true) :
    left.names = right.names ∧ left.numbers.length = right.numbers.length := by
  obtain ⟨sameName, arguments⟩ := Bool.and_eq_true_iff.1 agree
  have texts :=
    map_eq_of_agreeing arguments fun _ _ same =>
      (Argument.shape_of_agrees same).1
  have counts :=
    map_eq_of_agreeing arguments fun _ _ same =>
      (Argument.shape_of_agrees same).2
  constructor
  · rw [names, names, eq_of_beq sameName, List.flatMap_def, List.flatMap_def,
      texts]
  · rw [numbers, numbers, List.length_flatMap, List.length_flatMap, counts]

/-- Chains that agree have the same bare texts and as many numbers. -/
theorem Chain.shape_of_agrees
    {left right : Chain}
    (agree : left.agrees right = true) :
    left.names = right.names ∧ left.numbers.length = right.numbers.length := by
  have texts :=
    map_eq_of_agreeing agree fun _ _ same => (Call.shape_of_agrees same).1
  have counts :=
    map_eq_of_agreeing agree fun _ _ same => (Call.shape_of_agrees same).2
  constructor
  · rw [names, names, List.flatMap_def, List.flatMap_def, texts]
  · rw [numbers, numbers, List.length_flatMap, List.length_flatMap, counts]

/-- A finite number equals itself. -/
theorem Binary64.equals_self
    {number : Binary64}
    (finite : number.isFinite = true) :
    number.equals number = true := by
  cases number with
  | finite negative rank => cases negative <;> simp [equals, place?]
  | infinite negative => cases finite
  | nan => cases finite

theorem Value.agrees_self
    {value : Value}
    (finite : ∀ number ∈ value.numbers, number.isFinite = true) :
    value.agrees value = true := by
  cases value with
  | number value =>
      exact Binary64.equals_self (finite value (by simp [numbers]))
  | string content => exact beq_self_eq_true content
  | identifier name => exact beq_self_eq_true name
  | bool value => exact beq_self_eq_true value
  | function name => exact beq_self_eq_true name

namespace Chain

/-- A chain with finite numbers only agrees with itself. -/
theorem agrees_self
    {chain : Chain}
    (finite : ∀ number ∈ chain.numbers, number.isFinite = true) :
    chain.agrees chain = true := by
  refine agreeing_self ?_
  intro call inChain
  rw [Call.agrees, beq_self_eq_true, Bool.true_and]
  refine agreeing_self ?_
  intro argument inCall
  rw [Argument.agrees, beq_self_eq_true, Bool.true_and]
  refine Value.agrees_self ?_
  intro number inValue
  exact finite number (List.mem_flatMap.2
    ⟨call, inChain, List.mem_flatMap.2 ⟨argument, inCall, inValue⟩⟩)

/--
A written chain is read back as a chain that agrees with it exactly when all
that it writes bare is a name and all its numbers are finite, and it is then
the very same chain.
-/
theorem render_reads_back_iff (chain : Chain) :
    ((∃ read, ofSource chain.render = .ok read ∧ read.agrees chain = true) ↔
        chain.isReadable = true) ∧
      (ofSource chain.render = .ok chain ↔ chain.isReadable = true) := by
  have forth (readable : chain.isReadable = true) :
      ofSource chain.render = .ok chain ∧ chain.agrees chain = true := by
    obtain ⟨named, finite⟩ := Bool.and_eq_true_iff.1 readable
    rw [List.all_eq_true] at finite
    exact ⟨(ofSource_render_iff named).2 (reread?_eq_self finite),
      agrees_self finite⟩
  constructor
  · constructor
    · rintro ⟨read, found, agree⟩
      obtain ⟨sameNames, sameCount⟩ := shape_of_agrees agree
      exact isReadable_of_reread found sameNames sameCount
    · intro readable
      exact ⟨chain, forth readable⟩
  · constructor
    · intro found
      exact isReadable_of_reread found rfl rfl
    · intro readable
      exact (forth readable).1

/-- A word that is a truth value is no name. -/
example :
    (Chain.mk [⟨"f", [.positional (.identifier "true")]⟩]).isReadable =
      false := by
  decide

/-- A string may hold anything. -/
example :
    (Chain.mk [⟨"f", [.named "text" (.string "\"\\\n//")]⟩]).isReadable =
      true := by
  decide

end Chain

end VerbChain
