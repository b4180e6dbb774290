import VerbChain.Proofs.Chain.RoundTrip

namespace VerbChain

/-!
# Names that are spelled as truth values

A grammar that takes a truth value for a name gives a chain whose tokens are
not what its text is read as.  For a value the harm is small: it is read as the
truth value.  A label, that is the name of a verb or of an argument, cannot be
one, so the text is read exactly when no label is spelled as a truth value.
-/

/-- What a token is read as when its text is. -/
def Token.settled : Token → Token
  | .identifier name => .ofWord name
  | token => token

/-- A token with a truth value taken for a name. -/
def Token.blurred : Token → Token
  | .bool value => .identifier (if value then "true" else "false")
  | token => token

namespace Value

/-- What a value is read as when its text is. -/
def settled : Value → Value
  | .identifier name =>
      if name = "true" then .bool true
      else if name = "false" then .bool false
      else .identifier name
  | value => value

/-- A value with a truth value taken for a name. -/
def blurred : Value → Value
  | .bool value => .identifier (if value then "true" else "false")
  | value => value

/-- The verb that a value refers to. -/
def labels : Value → List String
  | .function name => [name]
  | _ => []

end Value

namespace Argument

def mapValue (f : Value → Value) (argument : Argument) : Argument :=
  ⟨argument.name, f argument.value⟩

/-- The names in an argument that only a name can be. -/
def labels (argument : Argument) : List String :=
  argument.name.toList ++ argument.value.labels

end Argument

namespace Call

def mapValues (f : Value → Value) (call : Call) : Call :=
  ⟨call.name, call.arguments.map (Argument.mapValue f)⟩

/-- The names in a call that only a name can be. -/
def labels (call : Call) : List String :=
  call.name :: call.arguments.flatMap Argument.labels

end Call

namespace Chain

def mapValues (f : Value → Value) (chain : Chain) : Chain :=
  ⟨chain.calls.map (Call.mapValues f)⟩

/-- The names in a chain that only a name can be. -/
def labels (chain : Chain) : List String :=
  chain.calls.flatMap Call.labels

end Chain

private theorem map_joined
    {g : α → β}
    (separator : List α)
    (items : List (List α)) :
    (joined separator items).map g =
      joined (separator.map g) (items.map (List.map g)) := by
  induction items with
  | nil => rfl
  | cons first others inductionHypothesis =>
      cases others with
      | nil => rfl
      | cons second others =>
          simp only [joined, List.map_append, List.map_cons]
          rw [inductionHypothesis]
          rfl

section MapValues

variable {f : Value → Value} {g : Token → Token}

/-- What values become in their tokens, where the names in them stay. -/
def MapsTokens (f : Value → Value) (g : Token → Token) : Prop :=
  ∀ value : Value,
    (∀ name ∈ value.labels, g (.identifier name) = .identifier name) →
      (f value).tokens = value.tokens.map g

/-- The punctuation of a chain stays as it is. -/
def KeepsMarks (g : Token → Token) : Prop :=
  ∀ token ∈ [Token.leftParen, .rightParen, .comma, .dot, .equals],
    g token = token

theorem Argument.tokens_mapValue
    {argument : Argument}
    (maps : MapsTokens f g)
    (keeps : KeepsMarks g)
    (labels :
      ∀ name ∈ argument.labels, g (.identifier name) = .identifier name) :
    (argument.mapValue f).tokens = argument.tokens.map g := by
  obtain ⟨name, value⟩ := argument
  cases name with
  | none => exact maps value labels
  | some name =>
      have valueMaps := maps value fun label member =>
        labels label (List.mem_cons_of_mem name member)
      have name_eq := labels name List.mem_cons_self
      simp [Argument.mapValue, Argument.tokens, valueMaps, name_eq,
        keeps .equals]

theorem Call.tokens_mapValues
    {call : Call}
    (maps : MapsTokens f g)
    (keeps : KeepsMarks g)
    (labels :
      ∀ name ∈ call.labels, g (.identifier name) = .identifier name) :
    (call.mapValues f).tokens = call.tokens.map g := by
  have arguments :
      (call.arguments.map (Argument.mapValue f)).map Argument.tokens =
        (call.arguments.map Argument.tokens).map (List.map g) := by
    rw [List.map_map, List.map_map]
    refine List.map_congr_left ?_
    intro argument member
    refine Argument.tokens_mapValue maps keeps ?_
    intro name inArgument
    exact labels name (List.mem_cons_of_mem _
      (List.mem_flatMap.2 ⟨argument, member, inArgument⟩))
  have name_eq := labels call.name List.mem_cons_self
  simp only [Call.tokens, Call.mapValues, arguments, List.map_cons,
    List.map_append, map_joined, List.map_nil, name_eq,
    keeps .leftParen (by simp), keeps .rightParen (by simp),
    keeps .comma (by simp)]

theorem Chain.tokens_mapValues
    {chain : Chain}
    (maps : MapsTokens f g)
    (keeps : KeepsMarks g)
    (labels :
      ∀ name ∈ chain.labels, g (.identifier name) = .identifier name) :
    (chain.mapValues f).tokens = chain.tokens.map g := by
  have calls :
      (chain.calls.map (Call.mapValues f)).map Call.tokens =
        (chain.calls.map Call.tokens).map (List.map g) := by
    rw [List.map_map, List.map_map]
    refine List.map_congr_left ?_
    intro call member
    refine Call.tokens_mapValues maps keeps ?_
    intro name inCall
    exact labels name (List.mem_flatMap.2 ⟨call, member, inCall⟩)
  simp only [Chain.tokens, Chain.mapValues, calls, map_joined, List.map_cons,
    List.map_nil, keeps .dot (by simp)]

theorem Chain.labels_mapValues
    {chain : Chain}
    (keeps : ∀ value : Value, (f value).labels = value.labels) :
    (chain.mapValues f).labels = chain.labels := by
  have arguments (argument : Argument) :
      (argument.mapValue f).labels = argument.labels := by
    rw [Argument.labels, Argument.labels, Argument.mapValue, keeps]
  have calls (call : Call) : (call.mapValues f).labels = call.labels := by
    simp [Call.labels, Call.mapValues, List.flatMap_map, arguments]
  simp [Chain.labels, Chain.mapValues, List.flatMap_map, calls]

end MapValues

theorem mapsTokens_blurred : MapsTokens Value.blurred Token.blurred := by
  intro value _
  cases value <;> rfl

theorem mapsTokens_settled : MapsTokens Value.settled Token.settled := by
  intro value labels
  cases value with
  | identifier name =>
      by_cases isTrue : name = "true"
      · subst isTrue
        rfl
      by_cases isFalse : name = "false"
      · subst isFalse
        rfl
      · simp [Value.settled, Value.tokens, Token.settled, Token.ofWord, isTrue,
          isFalse]
  | function name =>
      have name_eq := labels name List.mem_cons_self
      change [Token.at, .identifier name] =
        [.at, (Token.identifier name).settled]
      rw [name_eq]
  | number value => rfl
  | string content => rfl
  | bool value => rfl

theorem Token.blurred_settled (token : Token) :
    token.settled.blurred = token.blurred := by
  cases token with
  | identifier name =>
      by_cases isTrue : name = "true"
      · subst isTrue
        rfl
      by_cases isFalse : name = "false"
      · subst isFalse
        rfl
      · simp [settled, Token.ofWord, isTrue, isFalse]
  | _ => rfl

theorem Value.labels_blurred (value : Value) :
    value.blurred.labels = value.labels := by
  cases value <;> rfl

namespace Chain

private theorem mem_names_of_mem_labels
    {chain : Chain}
    {name : String}
    (member : name ∈ chain.labels) :
    name ∈ chain.names := by
  obtain ⟨call, inChain, inCall⟩ := List.mem_flatMap.1 member
  refine List.mem_flatMap.2 ⟨call, inChain, ?_⟩
  rcases List.mem_cons.1 inCall with rfl | inArguments
  · exact List.mem_cons_self
  · obtain ⟨argument, given, inArgument⟩ := List.mem_flatMap.1 inArguments
    refine List.mem_cons_of_mem _ (List.mem_flatMap.2 ⟨argument, given, ?_⟩)
    rcases List.mem_append.1 inArgument with isName | inValue
    · exact List.mem_append_left _ isName
    · refine List.mem_append_right _ ?_
      cases value : argument.value <;> simp_all [Value.labels, Value.names]

/-- Two chains whose tokens differ by truth values only have the same labels. -/
theorem labels_eq_of_blurred
    {left right : Chain}
    (same :
      left.tokens.map Token.blurred = right.tokens.map Token.blurred) :
    left.labels = right.labels := by
  have keeps : KeepsMarks Token.blurred := by
    simp [KeepsMarks, Token.blurred]
  have blurred :
      left.mapValues Value.blurred = right.mapValues Value.blurred := by
    apply tokens_injective
    rw [tokens_mapValues mapsTokens_blurred keeps (fun _ _ => rfl), same,
      tokens_mapValues mapsTokens_blurred keeps (fun _ _ => rfl)]
  have labels := congrArg Chain.labels blurred
  rwa [labels_mapValues Value.labels_blurred,
    labels_mapValues Value.labels_blurred] at labels

/--
A text with the settled tokens of a chain is read exactly when no label of the
chain is spelled as a truth value, and it is then read as the settled chain.
-/
theorem ofSource_of_settled
    {text : String}
    {chain : Chain}
    (kinds :
      Tokens.kinds? text.toList = some (chain.tokens.map Token.settled)) :
    ((∃ read, ofSource text = .ok read) ↔
        ∀ label ∈ chain.labels, label ≠ "true" ∧ label ≠ "false") ∧
      ∀ read, ofSource text = .ok read →
        read = chain.mapValues Value.settled := by
  have keeps : KeepsMarks Token.settled := by
    simp [KeepsMarks, Token.settled]
  have forth (read : Chain) (found : ofSource text = .ok read) :
      ∀ label ∈ chain.labels, label ≠ "true" ∧ label ≠ "false" := by
    intro label member
    have tokens : read.tokens = chain.tokens.map Token.settled := by
      rw [ofSource_eq_ok_iff, kinds] at found
      exact (Option.some.inj found).symm
    have blurred :
        read.tokens.map Token.blurred = chain.tokens.map Token.blurred := by
      rw [tokens, List.map_map]
      exact List.map_congr_left fun token _ => token.blurred_settled
    rw [← labels_eq_of_blurred blurred] at member
    have named := List.all_eq_true.1 (names_of_ofSource found) label
      (mem_names_of_mem_labels member)
    constructor
    · rintro rfl
      exact absurd named (by decide)
    · rintro rfl
      exact absurd named (by decide)
  have back
      (labels : ∀ label ∈ chain.labels, label ≠ "true" ∧ label ≠ "false") :
      ofSource text = .ok (chain.mapValues Value.settled) := by
    rw [ofSource_eq_ok_iff, kinds, tokens_mapValues mapsTokens_settled keeps]
    intro label member
    obtain ⟨noTrue, noFalse⟩ := labels label member
    rw [Token.settled, Token.ofWord, if_neg noTrue, if_neg noFalse]
  refine ⟨⟨?_, fun labels => ⟨_, back labels⟩⟩, ?_⟩
  · rintro ⟨read, found⟩
    exact forth read found
  · intro read found
    have again := back (forth read found)
    rw [found] at again
    exact Except.ok.inj again

end Chain

end VerbChain
