import VerbChain.Json.Document
import VerbChain.Proofs.Json.Literals

namespace VerbChain

/-!
# The tokens that JSON is written as

A value is written as the tokens of one document, whatever the blanks between
them.  Each kind of token has one lemma that scans it in front of an arbitrary
rest; only a number asks that the rest does not continue it, and behind a value
there is a blank, a comma, a closing bracket or nothing.  The brackets in the
text lie as deep in each other as the arrays and objects of the value.
-/

namespace JsonPiece

/-- The piece that a character is written as; some have no short escape. -/
def ofChar (c : Char) : JsonPiece :=
  if c.toNat < 0x20 ∧ c ∉ ['\x08', '\x0c', '\n', '\r', '\t'] then .unit c.toNat
  else .char c

/-- The pieces that a text is written as. -/
def ofText (content : String) : List JsonPiece :=
  content.toList.map ofChar

end JsonPiece

namespace JsonDocument

mutual

/-- The tokens of a document. -/
def tokens : JsonDocument → List JsonToken
  | .null => [.null]
  | .bool value => [.bool value]
  | .number literal => [.number literal]
  | .string pieces => [.string pieces]
  | .array [] => [.openArray, .closeArray]
  | .array (item :: items) =>
      .openArray :: (tokens item ++ itemsTokens items)
  | .object [] => [.openObject, .closeObject]
  | .object ((key, value) :: fields) =>
      .openObject :: .string key :: .colon ::
        (tokens value ++ fieldsTokens fields)

/-- The tokens behind the first item, up to the closing bracket. -/
def itemsTokens : List JsonDocument → List JsonToken
  | [] => [.closeArray]
  | item :: items => .comma :: (tokens item ++ itemsTokens items)

/-- The tokens behind the first field, up to the closing brace. -/
def fieldsTokens : List (List JsonPiece × JsonDocument) → List JsonToken
  | [] => [.closeObject]
  | (key, value) :: fields =>
      .comma :: .string key :: .colon :: (tokens value ++ fieldsTokens fields)

end

end JsonDocument

namespace Json

mutual

/-- The document that a value is written as. -/
def document : Json → JsonDocument
  | .null => .null
  | .bool value => .bool value
  | .integer value => .number (.ofInt value)
  | .float negative rank => .number (.ofFinite negative rank)
  | .string content => .string (JsonPiece.ofText content)
  | .array items => .array (documents items)
  | .object fields => .object (fieldDocuments fields)

/-- The documents of items. -/
def documents : List Json → List JsonDocument
  | [] => []
  | item :: items => document item :: documents items

/-- The documents of fields, with the pieces of their keys. -/
def fieldDocuments :
    List (String × Json) → List (List JsonPiece × JsonDocument)
  | [] => []
  | (key, value) :: fields =>
      (JsonPiece.ofText key, document value) :: fieldDocuments fields

end

end Json

/-- A spacing of blanks only. -/
structure JsonSpacing.Blank (spacing : JsonSpacing) : Prop where
  line : ∀ depth, ∀ c ∈ spacing.line depth, JsonToken.isSpace c = true
  afterColon : ∀ c ∈ spacing.afterColon, JsonToken.isSpace c = true

namespace JsonSpacing

theorem blank_compact : compact.Blank where
  line _ _ member := by cases member
  afterColon _ member := by cases member

theorem blank_pretty : pretty.Blank where
  line depth c member := by
    rcases List.mem_cons.1 member with rfl | indented
    · rfl
    · rw [List.eq_of_mem_replicate indented]
      rfl
  afterColon c member := by
    rw [List.mem_singleton.1 member]
    rfl

end JsonSpacing

namespace JsonToken

/-- Reading on from the first token behind the blanks. -/
theorem ofText?_eq (text : List Char) :
    ofText? text =
      match text.dropWhile isSpace with
      | [] => some []
      | c :: tail =>
          (scan? (c :: tail)).bind fun found =>
            (ofText? found.2).map (found.1 :: ·) := by
  rw [ofText?]
  split
  · next body => rw [body]
  · next c tail body =>
      rw [body]
      split
      · next missed => simp only [missed, Option.bind_none]
      · next token rest found => simp only [found, Option.bind_some]

theorem ofText?_blanks
    {blanks : List Char}
    (blank : ∀ c ∈ blanks, isSpace c = true)
    (rest : List Char) :
    ofText? (blanks ++ rest) = ofText? rest := by
  rw [ofText?_eq, List.dropWhile_append_of_pos blank, ← ofText?_eq]

theorem scan?_of_isSpace
    {c : Char}
    {rest : List Char}
    (blank : isSpace c = true) :
    scan? (c :: rest) = none := by
  simp only [isSpace, Bool.or_eq_true, beq_iff_eq] at blank
  rcases blank with ((rfl | rfl) | rfl) | rfl <;> rfl

/-- A text that starts with a token is read on behind it. -/
theorem ofText?_of_scan
    {text rest : List Char}
    {token : JsonToken}
    (found : scan? text = some (token, rest)) :
    ofText? text = (ofText? rest).map (token :: ·) := by
  cases text with
  | nil => cases found
  | cons c tail =>
      have inked : isSpace c = false := by
        rw [← Bool.not_eq_true]
        intro blank
        rw [scan?_of_isSpace blank] at found
        cases found
      rw [ofText?_eq, List.dropWhile_cons_of_neg (by simp [inked])]
      simp only [found, Option.bind_some]

private theorem hexDigit?_digitChar :
    ∀ digit < 16, hexDigit? digit.digitChar = some digit := by
  decide

private theorem closeString?_controlEscape
    {c : Char}
    (control : c.toNat < 0x20)
    (rest : List Char) :
    closeString? (Json.controlEscape c ++ rest) =
      (closeString? rest).map fun found =>
        (.unit c.toNat :: found.1, found.2) := by
  have high := hexDigit?_digitChar (c.toNat / 16) (by omega)
  have low := hexDigit?_digitChar (c.toNat % 16) (Nat.mod_lt _ (by decide))
  have unit :
      hexUnit? '0' '0' (c.toNat / 16).digitChar (c.toNat % 16).digitChar =
        some c.toNat := by
    simp only [hexUnit?, high, low, show hexDigit? '0' = some 0 from rfl]
    show some _ = _
    congr 1
    omega
  simp only [Json.controlEscape, List.cons_append, List.nil_append,
    closeString?, unit, Option.bind_some]

theorem closeString?_printed
    {c : Char}
    (noQuote : c ≠ '"')
    (noBackslash : c ≠ '\\')
    (printed : ¬c.toNat < 0x20)
    (rest : List Char) :
    closeString? (c :: rest) =
      (closeString? rest).map fun found =>
        (.char c :: found.1, found.2) := by
  rw [closeString?]
  · exact if_neg (not_or.2 ⟨printed, noBackslash⟩)
  · exact noQuote
  · intro _ _ _ _ _ backslash _
    exact noBackslash backslash
  · intro _ _ backslash _
    exact noBackslash backslash

/-- A character between quotes is read as its piece. -/
theorem closeString?_escape
    (c : Char)
    (rest : List Char) :
    closeString? (Json.escape c ++ rest) =
      (closeString? rest).map fun found =>
        (JsonPiece.ofChar c :: found.1, found.2) := by
  unfold Json.escape
  split
  · next quote => subst quote; rfl
  split
  · next backslash => subst backslash; rfl
  split
  · next backspace => subst backspace; rfl
  split
  · next formFeed => subst formFeed; rfl
  split
  · next newline => subst newline; rfl
  split
  · next carriageReturn => subst carriageReturn; rfl
  split
  · next tab => subst tab; rfl
  next noQuote noBackslash noBackspace noFormFeed noNewline noReturn noTab =>
  split
  · next control =>
      have piece : JsonPiece.ofChar c = .unit c.toNat := by
        simp [JsonPiece.ofChar, *]
      rw [piece]
      exact closeString?_controlEscape control rest
  · next printed =>
      have piece : JsonPiece.ofChar c = .char c :=
        if_neg fun control => printed control.1
      rw [piece]
      exact closeString?_printed noQuote noBackslash printed rest

theorem closeString?_quoted
    (content : List Char)
    (rest : List Char) :
    closeString? (content.flatMap Json.escape ++ '"' :: rest) =
      some (content.map JsonPiece.ofChar, rest) := by
  induction content with
  | nil => rfl
  | cons c others inductionHypothesis =>
      rw [List.flatMap_cons, List.append_assoc, closeString?_escape,
        inductionHypothesis]
      rfl

/-- A text between quotes is read as the token of its pieces. -/
theorem ofText?_quoted
    (content : String)
    (rest : List Char) :
    ofText? (Json.quoted content ++ rest) =
      (ofText? rest).map (.string (JsonPiece.ofText content) :: ·) := by
  apply ofText?_of_scan
  rw [Json.quoted, List.cons_append, List.append_assoc, List.singleton_append]
  exact congrArg (Option.map _)
    (closeString?_quoted content.toList rest)

theorem ofText?_literal
    {literal : JsonNumber}
    {rest : List Char}
    (wellFormed : literal.WellFormed)
    (closed : closes rest = true) :
    ofText? (literal.spelling ++ rest) =
      (ofText? rest).map (.number literal :: ·) :=
  ofText?_of_scan (scan?_spelling wellFormed closed)

/-- Blanks continue no number, and neither does a mark behind them. -/
private theorem closes_blanks
    {blanks rest : List Char}
    (blank : ∀ c ∈ blanks, isSpace c = true)
    (closed : closes rest = true) :
    closes (blanks ++ rest) = true := by
  cases blanks with
  | nil => exact closed
  | cons c others =>
      have first := blank c List.mem_cons_self
      simp only [isSpace, Bool.or_eq_true, beq_iff_eq] at first
      rcases first with ((rfl | rfl) | rfl) | rfl <;> rfl

section Written

variable {spacing : JsonSpacing}

theorem closes_writeItems
    (blank : spacing.Blank)
    (depth : Nat)
    (items : List Json)
    (rest : List Char) :
    closes (Json.writeItems spacing depth items ++ rest) = true := by
  cases items with
  | nil =>
      rw [Json.writeItems, List.append_assoc]
      exact closes_blanks (blank.line depth) rfl
  | cons item items => rfl

theorem closes_writeFields
    (blank : spacing.Blank)
    (depth : Nat)
    (fields : List (String × Json))
    (rest : List Char) :
    closes (Json.writeFields spacing depth fields ++ rest) = true := by
  cases fields with
  | nil =>
      rw [Json.writeFields, List.append_assoc]
      exact closes_blanks (blank.line depth) rfl
  | cons field fields => rfl

/-- A key on its line is read as a string and a colon. -/
theorem ofText?_key
    (blank : spacing.Blank)
    (depth : Nat)
    (key : String)
    (rest : List Char) :
    ofText?
        (spacing.line depth ++
          (Json.quoted key ++ ':' :: (spacing.afterColon ++ rest))) =
      (ofText? rest).map (.string (JsonPiece.ofText key) :: .colon :: ·) := by
  have colon :
      ofText? (':' :: (spacing.afterColon ++ rest)) =
        (ofText? (spacing.afterColon ++ rest)).map (.colon :: ·) :=
    ofText?_of_scan rfl
  rw [ofText?_blanks (blank.line depth), ofText?_quoted, colon,
    ofText?_blanks blank.afterColon, Option.map_map]
  rfl

mutual

/-- A value is written as the tokens of its document. -/
theorem ofText?_write
    (blank : spacing.Blank)
    (depth : Nat)
    (json : Json)
    {rest : List Char}
    (closed : closes rest = true) :
    ofText? (json.write spacing depth ++ rest) =
      (ofText? rest).map (json.document.tokens ++ ·) := by
  cases json with
  | null => exact ofText?_of_scan rfl
  | bool value => cases value <;> exact ofText?_of_scan rfl
  | integer value =>
      rw [Json.write, ← JsonNumber.spelling_ofInt]
      exact ofText?_literal (JsonNumber.wellFormed_ofInt value) closed
  | float negative rank =>
      rw [Json.write, ← JsonNumber.spelling_ofFinite]
      exact ofText?_literal (JsonNumber.wellFormed_ofFinite negative rank) closed
  | string content => exact ofText?_quoted content rest
  | array items =>
      cases items with
      | nil =>
          have closing :
              ofText? (']' :: rest) = (ofText? rest).map (.closeArray :: ·) :=
            ofText?_of_scan rfl
          refine (ofText?_of_scan rfl : _ = (ofText? (']' :: rest)).map _).trans ?_
          rw [closing, Option.map_map]
          rfl
      | cons item items =>
          -- Behind the item come a comma or the end, so a number ends there.
          simp only [Json.write, List.cons_append, List.append_assoc]
          refine (ofText?_of_scan rfl).trans ?_
          rw [ofText?_blanks (blank.line _),
            ofText?_write blank _ item (closes_writeItems blank _ items _),
            ofText?_writeItems blank depth items, Option.map_map,
            Option.map_map]
          simp [Json.document, Json.documents, JsonDocument.tokens,
            Function.comp_def]
  | object fields =>
      cases fields with
      | nil =>
          have closing :
              ofText? ('}' :: rest) = (ofText? rest).map (.closeObject :: ·) :=
            ofText?_of_scan rfl
          refine (ofText?_of_scan rfl : _ = (ofText? ('}' :: rest)).map _).trans ?_
          rw [closing, Option.map_map]
          rfl
      | cons field fields =>
          obtain ⟨key, value⟩ := field
          simp only [Json.write, List.cons_append, List.append_assoc]
          refine (ofText?_of_scan rfl).trans ?_
          rw [ofText?_key blank,
            ofText?_write blank _ value (closes_writeFields blank _ fields _),
            ofText?_writeFields blank depth fields, Option.map_map,
            Option.map_map, Option.map_map]
          simp [Json.document, Json.fieldDocuments, JsonDocument.tokens,
            Function.comp_def]

theorem ofText?_writeItems
    (blank : spacing.Blank)
    (depth : Nat)
    (items : List Json)
    (rest : List Char) :
    ofText? (Json.writeItems spacing depth items ++ rest) =
      (ofText? rest).map
        (JsonDocument.itemsTokens (Json.documents items) ++ ·) := by
  cases items with
  | nil =>
      rw [Json.writeItems, List.append_assoc, ofText?_blanks (blank.line depth)]
      exact ofText?_of_scan rfl
  | cons item items =>
      simp only [Json.writeItems, List.cons_append, List.append_assoc]
      refine (ofText?_of_scan rfl).trans ?_
      rw [ofText?_blanks (blank.line _),
        ofText?_write blank _ item (closes_writeItems blank _ items _),
        ofText?_writeItems blank depth items, Option.map_map, Option.map_map]
      simp [Json.documents, JsonDocument.itemsTokens, Function.comp_def]

theorem ofText?_writeFields
    (blank : spacing.Blank)
    (depth : Nat)
    (fields : List (String × Json))
    (rest : List Char) :
    ofText? (Json.writeFields spacing depth fields ++ rest) =
      (ofText? rest).map
        (JsonDocument.fieldsTokens (Json.fieldDocuments fields) ++ ·) := by
  cases fields with
  | nil =>
      rw [Json.writeFields, List.append_assoc, ofText?_blanks (blank.line depth)]
      exact ofText?_of_scan rfl
  | cons field fields =>
      obtain ⟨key, value⟩ := field
      simp only [Json.writeFields, List.cons_append, List.append_assoc]
      refine (ofText?_of_scan rfl).trans ?_
      rw [ofText?_key blank,
        ofText?_write blank _ value (closes_writeFields blank _ fields _),
        ofText?_writeFields blank depth fields, Option.map_map, Option.map_map,
        Option.map_map]
      simp [Json.fieldDocuments, JsonDocument.fieldsTokens, Function.comp_def]

end

end Written

/-- The most brackets that are open at once, a number being open in front. -/
def nesting : (opened : Nat) → List JsonToken → Nat
  | opened, [] => opened
  | opened, .openArray :: rest => max opened (nesting (opened + 1) rest)
  | opened, .openObject :: rest => max opened (nesting (opened + 1) rest)
  | opened, .closeArray :: rest => max opened (nesting (opened - 1) rest)
  | opened, .closeObject :: rest => max opened (nesting (opened - 1) rest)
  | opened, _ :: rest => nesting opened rest

/-- How many levels of brackets a text has, if it is one of tokens. -/
def nesting? (text : List Char) : Option Nat :=
  (ofText? text).map (nesting 0)

theorem le_nesting (opened : Nat) (tokens : List JsonToken) :
    opened ≤ nesting opened tokens := by
  fun_induction nesting opened tokens with
  | case1 => exact Nat.le_refl _
  | case6 _ _ _ _ _ _ _ inductionHypothesis => exact inductionHypothesis
  | _ => exact Nat.le_max_left _ _

mutual

/-- A value has as many levels of brackets as it is deep. -/
theorem nesting_tokens
    (json : Json)
    (opened : Nat)
    (rest : List JsonToken) :
    nesting opened (json.document.tokens ++ rest) =
      max (opened + json.depth) (nesting opened rest) := by
  have atLeast := le_nesting opened rest
  cases json with
  | array items =>
      cases items with
      | nil =>
          simp only [Json.document, Json.documents, JsonDocument.tokens,
            List.cons_append, List.nil_append, nesting, Json.depth,
            Json.itemsDepth, Nat.add_sub_cancel]
          omega
      | cons item items =>
          simp only [Json.document, Json.documents, JsonDocument.tokens,
            List.cons_append, List.append_assoc, nesting, Json.depth,
            Json.itemsDepth, nesting_tokens item,
            nesting_itemsTokens items]
          omega
  | object fields =>
      cases fields with
      | nil =>
          simp only [Json.document, Json.fieldDocuments, JsonDocument.tokens,
            List.cons_append, List.nil_append, nesting, Json.depth,
            Json.fieldsDepth, Nat.add_sub_cancel]
          omega
      | cons field fields =>
          obtain ⟨key, value⟩ := field
          simp only [Json.document, Json.fieldDocuments, JsonDocument.tokens,
            List.cons_append, List.append_assoc, nesting, Json.depth,
            Json.fieldsDepth, nesting_tokens value,
            nesting_fieldsTokens fields]
          omega
  | _ => exact (Nat.max_eq_right atLeast).symm

theorem nesting_itemsTokens
    (items : List Json)
    (opened : Nat)
    (rest : List JsonToken) :
    nesting (opened + 1)
        (JsonDocument.itemsTokens (Json.documents items) ++ rest) =
      max (opened + 1 + Json.itemsDepth items) (nesting opened rest) := by
  cases items with
  | nil => rfl
  | cons item items =>
      simp only [Json.documents, JsonDocument.itemsTokens, List.cons_append,
        List.append_assoc, nesting, Json.itemsDepth, nesting_tokens item,
        nesting_itemsTokens items]
      omega

theorem nesting_fieldsTokens
    (fields : List (String × Json))
    (opened : Nat)
    (rest : List JsonToken) :
    nesting (opened + 1)
        (JsonDocument.fieldsTokens (Json.fieldDocuments fields) ++ rest) =
      max (opened + 1 + Json.fieldsDepth fields) (nesting opened rest) := by
  cases fields with
  | nil => rfl
  | cons field fields =>
      obtain ⟨key, value⟩ := field
      simp only [Json.fieldDocuments, JsonDocument.fieldsTokens,
        List.cons_append, List.append_assoc, nesting, Json.fieldsDepth,
        nesting_tokens value, nesting_fieldsTokens fields]
      omega

end

/-- A whole text is the tokens of the document that it was written from. -/
theorem ofText?_whole
    {spacing : JsonSpacing}
    (blank : spacing.Blank)
    (depth : Nat)
    (json : Json) :
    ofText? (json.write spacing depth) = some json.document.tokens := by
  have read :
      ofText? (json.write spacing depth ++ []) =
        (ofText? []).map (json.document.tokens ++ ·) :=
    ofText?_write blank depth json rfl
  rw [List.append_nil] at read
  rw [read, ofText?_eq]
  exact congrArg some (List.append_nil _)

theorem nesting?_write
    {spacing : JsonSpacing}
    (blank : spacing.Blank)
    (depth : Nat)
    (json : Json) :
    nesting? (json.write spacing depth) = some json.depth := by
  have levels : nesting 0 (json.document.tokens ++ []) = json.depth := by
    rw [nesting_tokens, Nat.zero_add]
    exact Nat.max_eq_left (Nat.zero_le _)
  rw [List.append_nil] at levels
  rw [nesting?, ofText?_whole blank, Option.map_some, levels]

end JsonToken

end VerbChain
