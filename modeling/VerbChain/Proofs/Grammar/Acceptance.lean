import VerbChain.Proofs.Grammar.Settling
import VerbChain.Proofs.Grammar.Spreading
import VerbChain.Proofs.Grammar.Terminals

namespace VerbChain

/-!
# What the grammar generates and what is read

Every derivation of the standard grammar shows a chain, and its leaves are the
lexemes of that chain, level by level from values to whole chains.  The text is
therefore read as soon as it is not a truth value that stands where the chain
has a label, and what is read is shown by a derivation of the same text: at
most it takes a truth value for what another derivation takes for a name.
-/

namespace Grammar

open Expression

variable {tree : Tree}

theorem eq_mark
    {rules : Rules}
    {text : String}
    (derived : Derives rules (.literal text) tree) :
    tree = .mark text := by
  cases derived
  rfl

theorem isLexeme_mark
    {c : Char}
    {token : Token}
    (listed : (c, token) ∈ punctuation) :
    IsLexeme [c] token.settled := by
  have isMark : token.settled = token := by
    cases token with
    | identifier name => simp [punctuation] at listed
    | _ => rfl
  rw [isMark]
  exact .punctuation listed

/-- What is derived from a terminal is a leaf with one of its texts. -/
private theorem exists_terminal
    {name : String}
    {terminal : Terminal}
    (only :
      ∀ other, (name, other) ∈ Rules.standard.terminals → other = terminal)
    (derived : Derives .standard (.terminal name) tree) :
    ∃ text, terminal.Matches text ∧ tree = .leaf (.terminal name) text := by
  cases derived with
  | terminal listed matched =>
      obtain rfl := only _ listed
      exact ⟨_, matched, rfl⟩

/-- What is derived from a rule stands above what its body matches. -/
private theorem exists_children
    {name : String}
    {body : Expression Symbol}
    (only : ∀ other, (name, other) ∈ Rules.standard.rules → other = body)
    (derived : Derives .standard (.rule name) tree) :
    ∃ children,
      body.Matches (Derives .standard) children ∧
        tree = .node name children := by
  cases derived with
  | rule listed matched =>
      obtain rfl := only _ listed
      exact ⟨_, matched, rfl⟩

theorem exists_name
    (derived : Derives .standard (.terminal "IDENTIFIER") tree) :
    ∃ name, tree = .name name ∧ IsLexeme name.toList (.ofWord name) := by
  obtain ⟨text, matched, rfl⟩ :=
    @exists_terminal _ _ (.regex word) (by simp [Rules.standard]) derived
  refine ⟨String.ofList text, ?_, ?_⟩
  · rw [Tree.name, String.toList_ofList]
  · rw [String.toList_ofList]
    exact isLexeme_of_word matched

theorem exists_number
    (derived : Derives .standard (.terminal "NUMBER") tree) :
    ∃ value text,
      tree = .leaf (.terminal "NUMBER") text ∧
        IsLexeme text (.number value) := by
  obtain ⟨text, matched, rfl⟩ :=
    @exists_terminal _ _ (.regex numeral) (by simp [Rules.standard]) derived
  obtain ⟨negative, decimal, numeral⟩ := isNumeral_of_numeral matched
  exact ⟨_, text, rfl, .number numeral⟩

theorem exists_string
    (derived : Derives .standard (.terminal "STRING") tree) :
    ∃ content text,
      tree = .leaf (.terminal "STRING") text ∧
        IsLexeme text (.string content) := by
  obtain ⟨text, matched, rfl⟩ :=
    @exists_terminal _ _ (.regex (.either (quotation '"') (quotation '\'')))
      (by simp [Rules.standard]) derived
  rcases matches_either.1 matched with double | single
  · obtain ⟨content, lexical⟩ := isLexeme_of_quotation (.inl rfl) double
    exact ⟨content, text, rfl, lexical⟩
  · obtain ⟨content, lexical⟩ := isLexeme_of_quotation (.inr rfl) single
    exact ⟨content, text, rfl, lexical⟩

/-- What is derived from a terminal of one text is that text. -/
private theorem eq_leaf
    {name : String}
    {text : String}
    (only :
      ∀ other, (name, other) ∈ Rules.standard.terminals →
        other = .listed [text])
    (derived : Derives .standard (.terminal name) tree) :
    tree = .leaf (.terminal name) text.toList := by
  obtain ⟨found, matched, rfl⟩ := exists_terminal only derived
  rw [← List.mem_singleton.1 matched, String.toList_ofList]

theorem exists_bool
    (derived : Derives .standard (.terminal "BOOL") tree) :
    ∃ value : Bool,
      tree =
        .leaf (.terminal "BOOL")
          (if value then "true" else "false").toList := by
  obtain ⟨text, matched, rfl⟩ :=
    @exists_terminal _ _ (.listed ["true", "false"])
      (by simp [Rules.standard]) derived
  have spelled (value : String) (same : String.ofList text = value) :
      text = value.toList := by
    rw [← same, String.toList_ofList]
  rcases List.mem_cons.1 matched with isTrue | isFalse
  · exact ⟨true, by rw [spelled _ isTrue]; rfl⟩
  · exact ⟨false, by rw [spelled _ (List.mem_singleton.1 isFalse)]; rfl⟩

theorem exists_function
    (derived : Derives .standard (.rule "function_ref") tree) :
    ∃ name,
      tree = .node "function_ref" [.mark "@", .name name] ∧
        IsLexeme name.toList (.ofWord name) := by
  obtain ⟨_, matched, rfl⟩ :=
    @exists_children _ _ referenceBody (by simp [Rules.standard]) derived
  obtain ⟨_, _, rfl, sign, word⟩ := matches_sequence.1 matched
  obtain ⟨first, rfl, derivedFirst⟩ := matches_atom.1 sign
  obtain ⟨second, rfl, derivedSecond⟩ := matches_atom.1 word
  obtain ⟨name, rfl, lexical⟩ := exists_name derivedSecond
  rw [eq_mark derivedFirst]
  exact ⟨name, rfl, lexical⟩

theorem derives_bool (value : Bool) :
    Derives .standard (.rule "value")
      (.node "value"
        [.leaf (.terminal "BOOL")
          (if value then "true" else "false").toList]) := by
  have isValue : ("value", valueBody) ∈ Rules.standard.rules := by
    simp [Rules.standard]
  have isBool :
      ("BOOL", .listed ["true", "false"]) ∈ Rules.standard.terminals := by
    simp [Rules.standard]
  have matched :
      (Terminal.listed ["true", "false"]).Matches
        (if value then "true" else "false").toList := by
    cases value <;> simp [Terminal.Matches]
  exact .rule isValue
    (.second (.second (.first (.atom (.terminal isBool matched)))))

/--
What a derivation shows, with the tokens of its leaves and with another
derivation of the same leaves that shows what those tokens are read as.
-/
structure Reads (symbol : Symbol) (shows : Tree → α → Prop)
    (tokens : α → List Token) (settled : α → α) (tree : Tree) (item : α) :
    Prop where
  shown : shows tree item
  spelled : Spelled tree.leaves ((tokens item).map Token.settled)
  settles :
    ∃ other,
      Derives .standard symbol other ∧ other.leaves = tree.leaves ∧
        shows other (settled item)

/-- What a value is that a derivation shows by a leaf of its own. -/
theorem reads_leaf
    {value : Value}
    {name : String}
    {text : List Char}
    {token : Token}
    (derived :
      Derives .standard (.rule "value")
        (.node "value" [.leaf (.terminal name) text]))
    (shown :
      ShowsValue (.node "value" [.leaf (.terminal name) text]) value)
    (lexical : IsLexeme text token)
    (tokens : value.tokens.map Token.settled = [token])
    (settled : value.settled = value) :
    Reads (.rule "value") ShowsValue Value.tokens Value.settled
      (.node "value" [.leaf (.terminal name) text]) value where
  shown := shown
  spelled := by
    rw [tokens]
    exact .cons lexical .nil
  settles := ⟨_, derived, rfl, by rwa [settled]⟩

/-- An identifier may have been a truth value. -/
theorem reads_identifier
    {name : String}
    (derived :
      Derives .standard (.rule "value") (.node "value" [.name name]))
    (lexical : IsLexeme name.toList (.ofWord name)) :
    Reads (.rule "value") ShowsValue Value.tokens Value.settled
      (.node "value" [.name name]) (.identifier name) where
  shown := .identifier name
  spelled := .cons lexical .nil
  settles := by
    by_cases isTrue : name = "true"
    · subst isTrue
      exact ⟨_, derives_bool true, rfl, .bool true⟩
    by_cases isFalse : name = "false"
    · subst isFalse
      exact ⟨_, derives_bool false, rfl, .bool false⟩
    · refine ⟨_, derived, rfl, ?_⟩
      rw [Value.settled, if_neg isTrue, if_neg isFalse]
      exact .identifier name

theorem reads_function
    {name : String}
    (derived :
      Derives .standard (.rule "value")
        (.node "value" [.node "function_ref" [.mark "@", .name name]]))
    (lexical : IsLexeme name.toList (.ofWord name)) :
    Reads (.rule "value") ShowsValue Value.tokens Value.settled
      (.node "value" [.node "function_ref" [.mark "@", .name name]])
      (.function name) where
  shown := .function name
  spelled := .cons (isLexeme_mark (by decide)) (.cons lexical .nil)
  settles := ⟨_, derived, rfl, .function name⟩

/-- Every derivation of a value shows one. -/
theorem reads_value
    (derived : Derives .standard (.rule "value") tree) :
    ∃ value,
      Reads (.rule "value") ShowsValue Value.tokens Value.settled tree
        value := by
  have whole := derived
  obtain ⟨_, matched, rfl⟩ :=
    @exists_children _ _ valueBody (by simp [Rules.standard]) derived
  rcases matches_either.1 matched with number | matched
  · obtain ⟨child, rfl, derivedChild⟩ := matches_atom.1 number
    obtain ⟨value, text, rfl, lexical⟩ := exists_number derivedChild
    exact ⟨_, reads_leaf whole (.number lexical) lexical rfl rfl⟩
  rcases matches_either.1 matched with string | matched
  · obtain ⟨child, rfl, derivedChild⟩ := matches_atom.1 string
    obtain ⟨content, text, rfl, lexical⟩ := exists_string derivedChild
    exact ⟨_, reads_leaf whole (.string lexical) lexical rfl rfl⟩
  rcases matches_either.1 matched with bool | matched
  · obtain ⟨child, rfl, derivedChild⟩ := matches_atom.1 bool
    obtain ⟨value, rfl⟩ := exists_bool derivedChild
    exact ⟨_, reads_leaf whole (.bool value) (.bool value) rfl rfl⟩
  rcases matches_either.1 matched with identifier | function
  · obtain ⟨child, rfl, derivedChild⟩ := matches_atom.1 identifier
    obtain ⟨name, rfl, lexical⟩ := exists_name derivedChild
    exact ⟨_, reads_identifier whole lexical⟩
  · obtain ⟨child, rfl, derivedChild⟩ := matches_atom.1 function
    obtain ⟨name, rfl, lexical⟩ := exists_function derivedChild
    exact ⟨_, reads_function whole lexical⟩

theorem reads_named
    {name : String}
    {value : Value}
    {child : Tree}
    (derived : Derives .standard (.terminal "IDENTIFIER") (.name name))
    (lexical : IsLexeme name.toList (.ofWord name))
    (reads :
      Reads (.rule "value") ShowsValue Value.tokens Value.settled child
        value) :
    Reads (.rule "arg") ShowsArgument Argument.tokens
      (Argument.mapValue Value.settled)
      (.node "arg" [.name name, .mark "=", child]) (.named name value) where
  shown := .named name reads.shown
  spelled := by
    have behind : Spelled child.leaves _ := reads.spelled
    have sign : IsLexeme ['='] _ := @isLexeme_mark _ .equals (by decide)
    simpa [Argument.tokens, Argument.named, Token.settled] using
      Spelled.cons lexical (.cons sign behind)
  settles := by
    obtain ⟨other, derives, leaves, shows⟩ := reads.settles
    refine ⟨.node "arg" [.name name, .mark "=", other], ?_, ?_, ?_⟩
    · have isArgument : ("arg", argumentBody) ∈ Rules.standard.rules := by
        simp [Rules.standard]
      exact .rule isArgument
        (.first
          (.sequence (.atom derived)
            (.sequence (.atom (.literal "=")) (.atom derives))))
    · simp [leaves]
    · exact .named name shows

theorem reads_positional
    {value : Value}
    {child : Tree}
    (reads :
      Reads (.rule "value") ShowsValue Value.tokens Value.settled child
        value) :
    Reads (.rule "arg") ShowsArgument Argument.tokens
      (Argument.mapValue Value.settled) (.node "arg" [child])
      (.positional value) where
  shown := .positional reads.shown
  spelled := by
    have spelled : Spelled child.leaves _ := reads.spelled
    simpa [Argument.tokens, Argument.positional] using spelled
  settles := by
    obtain ⟨other, derives, leaves, shows⟩ := reads.settles
    refine ⟨.node "arg" [other], ?_, ?_, .positional shows⟩
    · have isArgument : ("arg", argumentBody) ∈ Rules.standard.rules := by
        simp [Rules.standard]
      exact .rule isArgument (.second (.atom derives))
    · simp [leaves]

/-- Every derivation of an argument shows one. -/
theorem reads_argument
    (derived : Derives .standard (.rule "arg") tree) :
    ∃ argument,
      Reads (.rule "arg") ShowsArgument Argument.tokens
        (Argument.mapValue Value.settled) tree argument := by
  obtain ⟨_, matched, rfl⟩ :=
    @exists_children _ _ argumentBody (by simp [Rules.standard]) derived
  rcases matches_either.1 matched with named | positional
  · obtain ⟨_, _, rfl, word, behind⟩ := matches_sequence.1 named
    obtain ⟨_, _, rfl, sign, given⟩ := matches_sequence.1 behind
    obtain ⟨first, rfl, derivedFirst⟩ := matches_atom.1 word
    obtain ⟨second, rfl, derivedSecond⟩ := matches_atom.1 sign
    obtain ⟨child, rfl, derivedChild⟩ := matches_atom.1 given
    obtain ⟨name, rfl, lexical⟩ := exists_name derivedFirst
    obtain ⟨value, reads⟩ := reads_value derivedChild
    rw [eq_mark derivedSecond]
    exact ⟨_, reads_named derivedFirst lexical reads⟩
  · obtain ⟨child, rfl, derivedChild⟩ := matches_atom.1 positional
    obtain ⟨value, reads⟩ := reads_value derivedChild
    exact ⟨_, reads_positional reads⟩

/--
What items with marks between them are read as: the items, and one more
derivation for what each of them settles as.
-/
structure ReadsAll (symbol mark : Symbol) (shows : Tree → α → Prop)
    (tokens : α → List Token) (settled : α → α) (markTree : Tree)
    (markToken : Token) (trees : List Tree) (items : List α) : Prop where
  some : items ≠ []
  shown : ShowsAll shows markTree trees items
  spelled :
    Spelled (leavesOf trees)
      ((joined [markToken] (items.map tokens)).map Token.settled)
  settles :
    ∃ others,
      (Expression.separated symbol mark).Matches (Derives .standard) others ∧
        leavesOf others = leavesOf trees ∧
        ShowsAll shows markTree others (items.map settled)

/-- What is separated is one item, or an item, a mark and what is separated. -/
private theorem separated_cases
    {symbol mark : Symbol}
    {trees : List Tree}
    {accepts : Symbol → Tree → Prop}
    (matched : (Expression.separated symbol mark).Matches accepts trees) :
    ∃ first,
      accepts symbol first ∧
        (trees = [first] ∨
          ∃ between others,
            trees = first :: between :: others ∧ accepts mark between ∧
              (Expression.separated symbol mark).Matches accepts others) := by
  obtain ⟨_, rest, rfl, head, tail⟩ := matches_sequence.1 matched
  obtain ⟨first, rfl, accepted⟩ := matches_atom.1 head
  refine ⟨first, accepted, ?_⟩
  cases tail with
  | done => exact .inl rfl
  | again once more =>
      obtain ⟨_, _, rfl, isMark, isItem⟩ := matches_sequence.1 once
      obtain ⟨between, rfl, acceptedMark⟩ := matches_atom.1 isMark
      obtain ⟨second, rfl, acceptedItem⟩ := matches_atom.1 isItem
      exact .inr ⟨between, _, rfl, acceptedMark,
        .sequence (.atom acceptedItem) more⟩

private theorem separated_cons
    {symbol mark : Symbol}
    {first between : Tree}
    {others : List Tree}
    {accepts : Symbol → Tree → Prop}
    (accepted : accepts symbol first)
    (acceptedMark : accepts mark between)
    (matched : (Expression.separated symbol mark).Matches accepts others) :
    (Expression.separated symbol mark).Matches accepts
      (first :: between :: others) := by
  obtain ⟨_, rest, rfl, head, tail⟩ := matches_sequence.1 matched
  exact .sequence (.atom accepted)
    (.again (.sequence (.atom acceptedMark) head) tail)

private theorem joined_cons
    {separator first : List α}
    {items : List (List α)}
    (some : items ≠ []) :
    joined separator (first :: items) =
      first ++ (separator ++ joined separator items) := by
  obtain ⟨second, others, rfl⟩ := List.exists_cons_of_ne_nil some
  rfl

/-- Items that are each read are read with marks between them. -/
theorem reads_separated
    {symbol mark : Symbol}
    {shows : Tree → α → Prop}
    {tokens : α → List Token}
    {settled : α → α}
    {c : Char}
    {markToken : Token}
    {trees : List Tree}
    (listed : (c, markToken) ∈ punctuation)
    (isMark :
      ∀ tree, Derives .standard mark tree → tree = .leaf mark [c])
    (each :
      ∀ tree, Derives .standard symbol tree →
        ∃ item, Reads symbol shows tokens settled tree item)
    (matched :
      (Expression.separated symbol mark).Matches (Derives .standard) trees) :
    ∃ items,
      ReadsAll symbol mark shows tokens settled (.leaf mark [c]) markToken
        trees items := by
  obtain ⟨first, derived, rfl | ⟨between, others, rfl, derivedMark, more⟩⟩ :=
    separated_cases matched
  · obtain ⟨item, reads⟩ := each first derived
    obtain ⟨other, derives, leaves, shows⟩ := reads.settles
    refine ⟨[item], by simp, .one reads.shown, ?_, [other], ?_, ?_, .one shows⟩
    · simpa [joined] using reads.spelled
    · exact .sequence (.atom derives) .done
    · simp [leaves]
  -- behind the first mark stand separated items again, fewer by two trees
  · obtain ⟨item, reads⟩ := each first derived
    obtain ⟨other, derives, leaves, shows⟩ := reads.settles
    obtain ⟨items, some, shown, spelled, trees, derivesAll, leavesAll,
        showsAll⟩ :=
      reads_separated listed isMark each more
    obtain rfl := isMark between derivedMark
    have someTokens : items.map tokens ≠ [] := by simpa using some
    refine ⟨item :: items, by simp, .more reads.shown shown, ?_,
      other :: .leaf mark [c] :: trees, ?_, ?_, .more shows showsAll⟩
    · have behind := Spelled.cons (isLexeme_mark listed) spelled
      rw [List.map_cons, joined_cons someTokens]
      simpa using reads.spelled.append behind
    · exact separated_cons derives derivedMark derivesAll
    · simp [leaves, leavesAll]
  termination_by trees.length

theorem reads_bare
    {name : String}
    (derived :
      Derives .standard (.rule "call")
        (.node "call" [.name name, .mark "(", .mark ")"]))
    (lexical : IsLexeme name.toList (.ofWord name)) :
    Reads (.rule "call") ShowsCall Call.tokens
      (Call.mapValues Value.settled)
      (.node "call" [.name name, .mark "(", .mark ")"]) ⟨name, []⟩ where
  shown := .bare name
  spelled := by
    have opens : IsLexeme ['('] _ := @isLexeme_mark _ .leftParen (by decide)
    have closes : IsLexeme [')'] _ := @isLexeme_mark _ .rightParen (by decide)
    simpa [Call.tokens, joined, Token.settled] using
      Spelled.cons lexical (.cons opens (.cons closes .nil))
  settles := ⟨_, derived, rfl, .bare name⟩

theorem reads_given
    {name : String}
    {arguments : List Argument}
    {trees : List Tree}
    (derived : Derives .standard (.terminal "IDENTIFIER") (.name name))
    (lexical : IsLexeme name.toList (.ofWord name))
    (reads :
      ReadsAll (.rule "arg") (.terminal "COMMA") ShowsArgument
        Argument.tokens (Argument.mapValue Value.settled)
        (.leaf (.terminal "COMMA") [',']) .comma trees arguments) :
    Reads (.rule "call") ShowsCall Call.tokens
      (Call.mapValues Value.settled)
      (.node "call" [.name name, .mark "(", .node "args" trees, .mark ")"])
      ⟨name, arguments⟩ where
  shown := .given name reads.shown
  spelled := by
    have opens : IsLexeme ['('] _ := @isLexeme_mark _ .leftParen (by decide)
    have closes : IsLexeme [')'] _ := @isLexeme_mark _ .rightParen (by decide)
    have inside := reads.spelled.append (.cons closes .nil)
    simpa [Call.tokens, Token.settled] using
      Spelled.cons lexical (.cons opens inside)
  settles := by
    obtain ⟨others, derives, leaves, shows⟩ := reads.settles
    refine ⟨.node "call"
      [.name name, .mark "(", .node "args" others, .mark ")"], ?_, ?_, ?_⟩
    · have isCall : ("call", callBody) ∈ Rules.standard.rules := by
        simp [Rules.standard]
      have isArguments :
          ("args", .separated (.rule "arg") (.terminal "COMMA")) ∈
            Rules.standard.rules := by
        simp [Rules.standard]
      exact .rule isCall
        (.sequence (.atom derived)
          (.sequence (.atom (.literal "("))
            (.sequence (.present (.atom (.rule isArguments derives)))
              (.atom (.literal ")")))))
    · simp [leaves]
    · exact .given name shows

/-- Every derivation of a call shows one. -/
theorem reads_call
    (derived : Derives .standard (.rule "call") tree) :
    ∃ call,
      Reads (.rule "call") ShowsCall Call.tokens
        (Call.mapValues Value.settled) tree call := by
  have whole := derived
  obtain ⟨_, matched, rfl⟩ :=
    @exists_children _ _ callBody (by simp [Rules.standard]) derived
  obtain ⟨_, _, rfl, word, behind⟩ := matches_sequence.1 matched
  obtain ⟨_, _, rfl, opens, inside⟩ := matches_sequence.1 behind
  obtain ⟨_, _, rfl, given, closes⟩ := matches_sequence.1 inside
  obtain ⟨first, rfl, derivedFirst⟩ := matches_atom.1 word
  obtain ⟨second, rfl, derivedSecond⟩ := matches_atom.1 opens
  obtain ⟨last, rfl, derivedLast⟩ := matches_atom.1 closes
  obtain ⟨name, rfl, lexical⟩ := exists_name derivedFirst
  obtain rfl := eq_mark derivedSecond
  obtain rfl := eq_mark derivedLast
  rcases matches_optional.1 given with rfl | arguments
  · exact ⟨_, reads_bare whole lexical⟩
  · obtain ⟨child, rfl, derivedChild⟩ := matches_atom.1 arguments
    obtain ⟨trees, separated, rfl⟩ :=
      @exists_children _ _ (.separated (.rule "arg") (.terminal "COMMA"))
        (by simp [Rules.standard]) derivedChild
    have isComma (tree : Tree)
        (derived : Derives .standard (.terminal "COMMA") tree) :
        tree = .leaf (.terminal "COMMA") [','] :=
      @eq_leaf _ _ "," (by simp [Rules.standard]) derived
    obtain ⟨items, reads⟩ :=
      @reads_separated _ _ _ _ _ _ _ .comma _ (by decide) isComma
        (fun _ => reads_argument) separated
    exact ⟨_, reads_given derivedFirst lexical reads⟩

theorem derives_start
    {calls : List Tree}
    (derives :
      (Expression.separated (.rule "call") (.terminal "DOT")).Matches
        (Derives .standard) calls) :
    Derives .standard (.rule "start")
      (.node "start" [.node "call_chain" calls]) := by
  have isStart :
      ("start", .atom (.rule "call_chain")) ∈ Rules.standard.rules := by
    simp [Rules.standard]
  have isChain :
      ("call_chain", .separated (.rule "call") (.terminal "DOT")) ∈
        Rules.standard.rules := by
    simp [Rules.standard]
  exact .rule isStart (.atom (.rule isChain derives))

/-- Every derivation of a chain shows one. -/
theorem reads_chain
    (derived : Derives .standard (.rule "start") tree) :
    ∃ chain,
      Reads (.rule "start") ShowsChain Chain.tokens
        (Chain.mapValues Value.settled) tree chain := by
  obtain ⟨_, matched, rfl⟩ :=
    @exists_children _ _ (.atom (.rule "call_chain"))
      (by simp [Rules.standard]) derived
  obtain ⟨child, rfl, derivedChild⟩ := matches_atom.1 matched
  obtain ⟨trees, separated, rfl⟩ :=
    @exists_children _ _ (.separated (.rule "call") (.terminal "DOT"))
      (by simp [Rules.standard]) derivedChild
  have isDot (tree : Tree)
      (derived : Derives .standard (.terminal "DOT") tree) :
      tree = .leaf (.terminal "DOT") ['.'] :=
    @eq_leaf _ _ "." (by simp [Rules.standard]) derived
  obtain ⟨calls, reads⟩ :=
    @reads_separated _ _ _ _ _ _ _ .dot _ (by decide) isDot
      (fun _ => reads_call) separated
  obtain ⟨others, derives, leaves, shows⟩ := reads.settles
  refine ⟨⟨calls⟩, .calls reads.shown, ?_,
    .node "start" [.node "call_chain" others], derives_start derives, ?_,
    .calls shows⟩
  · simpa [Chain.tokens] using reads.spelled
  · simp [leaves]

theorem isMark_settled (token : Token) :
    token.settled.isMark = token.isMark := by
  cases token with
  | identifier name =>
      simp only [Token.settled, Token.ofWord]
      split
      · rfl
      · split <;> rfl
  | _ => rfl

private theorem isClosing_settled (token : Token) :
    isClosing token.settled = isClosing token := by
  cases token with
  | identifier name =>
      simp only [isClosing, isMark_settled]
      rfl
  | _ => rfl

/-- Truth values are kept apart as well as names. -/
theorem Apart.settled
    {tokens : List Token}
    (apart : Apart tokens) :
    Apart (tokens.map Token.settled) := by
  induction tokens with
  | nil => trivial
  | cons first others inductionHypothesis =>
      cases others with
      | nil => trivial
      | cons second others =>
          refine ⟨?_, inductionHypothesis apart.2⟩
          rw [isMark_settled, isClosing_settled]
          exact apart.1

/-- The derivation of a call without arguments. -/
def bareTree (name : String) : Tree :=
  .node "start"
    [.node "call_chain"
      [.node "call" [.name name, .mark "(", .mark ")"]]]

private theorem matches_star_of_all
    {accepts : α → β → Prop}
    {item : α}
    {items : List β}
    (all : ∀ found ∈ items, accepts item found) :
    (Expression.star (.atom item)).Matches accepts items := by
  induction items with
  | nil => exact .done
  | cons first others inductionHypothesis =>
      exact .again (.atom (all first List.mem_cons_self))
        (inductionHypothesis fun found member =>
          all found (List.mem_cons_of_mem first member))

/-- Every word is derived as the verb of a call. -/
theorem derives_bareTree
    {c : Char}
    {others : List Char}
    (starts :
      (CharClass.set false [('a', 'z'), ('A', 'Z'), ('_', '_')]).accepts c =
        true)
    (continues :
      ∀ d ∈ others,
        (CharClass.set false
          [('a', 'z'), ('A', 'Z'), ('0', '9'), ('_', '_')]).accepts d =
          true) :
    Derives .standard (.rule "start")
      (bareTree (String.ofList (c :: others))) := by
  have isCall : ("call", callBody) ∈ Rules.standard.rules := by
    simp [Rules.standard]
  have isIdentifier :
      ("IDENTIFIER", .regex word) ∈ Rules.standard.terminals := by
    simp [Rules.standard]
  have isWord :
      (Terminal.regex word).Matches (String.ofList (c :: others)).toList := by
    rw [String.toList_ofList]
    let accepts (place : CharClass) (c : Char) := place.accepts c = true
    have head := @Expression.Matches.atom _ _ accepts _ _ starts
    have tail := @matches_star_of_all _ _ accepts _ _ continues
    exact head.sequence tail
  have call :
      Derives .standard (.rule "call")
        (.node "call"
          [.name (String.ofList (c :: others)), .mark "(", .mark ")"]) :=
    .rule isCall
      (.sequence (.atom (.terminal isIdentifier isWord))
        (.sequence (.atom (.literal "("))
          (.sequence .absent (.atom (.literal ")")))))
  exact derives_start (.sequence (.atom call) .done)

theorem spread_bareTree (name : String) :
    Spread (bareTree name).leaves (name.toList ++ ['(', ')']) := by
  have spread :
      Spread [name.toList, ['('], [')']] (name.toList ++ ['(', ')']) := by
    refine @Spread.cons [] _ _ _ (by simp) ?_
    refine @Spread.cons [] ['('] [')'] _ (by simp) ?_
    refine @Spread.cons [] [')'] [] _ (by simp) ?_
    exact .nil (by simp)
  simpa [bareTree] using spread

/--
A text that the standard grammar generates is read exactly when no label of
its chain, that is no name of a verb or of an argument, is spelled as a truth
value.  What is read then is shown by a derivation of the same text.
-/
theorem ofSource_of_derives
    {tree : Tree}
    {text : List Char}
    (derived : Derives .standard (.rule "start") tree)
    (spread : Spread tree.leaves text) :
    words Rules.standard.text = words Grammar.standard.toList ∧
      ∃ chain,
        ShowsChain tree chain ∧
          ((∃ read, Chain.ofSource (String.ofList text) = .ok read) ↔
            ∀ label ∈ chain.labels, label ≠ "true" ∧ label ≠ "false") ∧
          ∀ read, Chain.ofSource (String.ofList text) = .ok read →
            ∃ other,
              Derives .standard (.rule "start") other ∧
                Spread other.leaves text ∧ ShowsChain other read := by
  refine ⟨words_standard, ?_⟩
  obtain ⟨chain, reads⟩ := reads_chain derived
  have kinds :
      Tokens.kinds? (String.ofList text).toList =
        some (chain.tokens.map Token.settled) := by
    rw [String.toList_ofList]
    exact kinds?_spread spread reads.spelled (apart_chain chain).settled
  obtain ⟨accepted, unique⟩ := Chain.ofSource_of_settled kinds
  refine ⟨chain, reads.shown, accepted, ?_⟩
  intro read found
  obtain ⟨other, derives, leaves, shows⟩ := reads.settles
  rw [unique read found]
  exact ⟨other, derives, leaves ▸ spread, shows⟩

/-- A verb that is no truth value is generated and read. -/
theorem ofSource_of_derives_verb :
    ∃ chain,
      ShowsChain (bareTree "play") chain ∧
        ((∃ read, Chain.ofSource (String.ofList "play()".toList) = .ok read) ↔
          ∀ label ∈ chain.labels, label ≠ "true" ∧ label ≠ "false") ∧
        ∀ read,
          Chain.ofSource (String.ofList "play()".toList) = .ok read →
            ∃ other,
              Derives .standard (.rule "start") other ∧
                Spread other.leaves "play()".toList ∧
                ShowsChain other read :=
  (ofSource_of_derives
    (@derives_bareTree 'p' ['l', 'a', 'y'] (by decide)
      (List.all_eq_true.1 rfl))
    (spread_bareTree "play")).2

/-- A verb that is a truth value is generated and not read. -/
theorem not_ofSource_of_derives_true :
    Derives .standard (.rule "start") (bareTree "true") ∧
      Spread (bareTree "true").leaves "true()".toList ∧
      ¬∃ read, Chain.ofSource "true()" = .ok read := by
  refine ⟨@derives_bareTree 't' ['r', 'u', 'e'] (by decide)
      (List.all_eq_true.1 rfl),
    spread_bareTree "true", ?_⟩
  have word := @Tokens.kinds?_word "true".toList ['(', ')'] (by decide)
    (by decide) rfl
  have kinds :
      Tokens.kinds? "true()".toList =
        some ((Chain.mk [⟨"true", []⟩]).tokens.map Token.settled) := by
    change Tokens.kinds? ("true".toList ++ ['(', ')']) = _
    rw [word, Tokens.kinds?_punctuation rfl, Tokens.kinds?_punctuation rfl,
      Tokens.kinds?_nil]
    rfl
  rw [(Chain.ofSource_of_settled kinds).1]
  intro labels
  exact (labels "true" (by simp [Chain.labels, Call.labels])).1 rfl

end Grammar

end VerbChain
