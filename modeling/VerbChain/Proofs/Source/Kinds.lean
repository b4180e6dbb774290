import VerbChain.Chain.Reading
import VerbChain.Proofs.Number.ReadBack

namespace VerbChain

/-!
# The tokens of a text without their places

What a text is read as does not depend on where it stands, so its tokens are
studied without places: `Tokens.kinds?` takes the first lexeme off a text and
goes on with what that lexeme leaves.  Each kind of lexeme has one lemma that
finds it in front of an arbitrary rest; all that is asked of the rest is that
it does not continue the lexeme.
-/

theorem toNat_of_isDigit
    {c : Char}
    (digit : isDigit c = true) :
    48 ≤ c.toNat ∧ c.toNat ≤ 57 := by
  simpa [isDigit, Char.le_def, UInt32.le_iff_toNat_le, ← Char.toNat_val]
    using digit

/-- The codes of the characters that start words. -/
theorem toNat_of_startsWord
    {c : Char}
    (starts : startsWord c = true) :
    (65 ≤ c.toNat ∧ c.toNat ≤ 90) ∨ c.toNat = 95 ∨
      (97 ≤ c.toNat ∧ c.toNat ≤ 122) := by
  have spelled :
      startsWord c =
        (decide ('A'.val ≤ c.val ∧ c.val ≤ 'Z'.val) ||
          (decide ('a'.val ≤ c.val) && decide (c.val ≤ 'z'.val)) ||
          c == '_') :=
    rfl
  simp only [spelled, Bool.or_eq_true, Bool.and_eq_true, decide_eq_true_eq,
    beq_iff_eq, UInt32.le_iff_toNat_le] at starts
  rcases starts with (upper | lower) | rfl
  · exact .inl upper
  · exact .inr (.inr lower)
  · exact .inr (.inl rfl)

/-- Whether a text is a name: a word that is no truth value. -/
def isName (name : String) : Bool :=
  name.toList.head?.any startsWord && name.toList.all continuesWord &&
    name != "true" && name != "false"

/-- A name is a word, and its token is an identifier. -/
private theorem exists_word_of_isName
    {name : String}
    (named : isName name = true) :
    name.toList.head?.any startsWord = true ∧
      name.toList.all continuesWord = true ∧
      Token.ofWord name = .identifier name := by
  simp only [isName, Bool.and_eq_true, bne_iff_ne] at named
  obtain ⟨⟨⟨starts, continues⟩, noTrue⟩, noFalse⟩ := named
  refine ⟨starts, continues, ?_⟩
  rw [Token.ofWord, if_neg noTrue, if_neg noFalse]

/-- No visible character of the ASCII class is blank. -/
theorem isBlank_eq_false
    {c : Char}
    (above : 32 < c.toNat)
    (below : c.toNat < 127) :
    isBlank c = false := by
  simp only [isBlank, Bool.or_eq_false_iff, Bool.and_eq_false_iff,
    beq_eq_false_iff_ne, decide_eq_false_iff_not]
  omega

/-- A letter, an underscore or a digit is no token by itself. -/
theorem Token.ofPunctuation?_eq_none
    {c : Char}
    (word : startsWord c = true ∨ isDigit c = true) :
    ofPunctuation? c = none := by
  unfold ofPunctuation?
  split <;> first | rfl | exact absurd word (by decide)

namespace Lexeme

/-- A string is read up to its closing quote as it was written. -/
theorem closeString?_flatMap_escape
    (content rest : List Char) :
    closeString? '"' (content.flatMap Value.escape ++ '"' :: rest) =
      some (content, content.flatMap Value.escape ++ ['"'], rest) := by
  induction content with
  | nil => simp [closeString?]
  | cons c content inductionHypothesis =>
      rw [List.flatMap_cons, List.append_assoc]
      by_cases quote : c = '"'
      · simp [Value.escape, closeString?, unescape, quote,
          inductionHypothesis]
      by_cases backslash : c = '\\'
      · simp [Value.escape, closeString?, unescape, backslash,
          inductionHypothesis]
      by_cases lineFeed : c = '\n'
      · simp [Value.escape, closeString?, unescape, lineFeed,
          inductionHypothesis]
      by_cases tabulator : c = '\t'
      · simp [Value.escape, closeString?, unescape, tabulator,
          inductionHypothesis]
      · simp [Value.escape, closeString?, quote, backslash, lineFeed,
          tabulator, inductionHypothesis]

/-- A string between double quotes is one lexeme. -/
theorem scan_string
    (content rest : List Char) :
    scan '"' (content.flatMap Value.escape ++ '"' :: rest) =
      .ok ⟨.string (String.ofList content),
        '"' :: (content.flatMap Value.escape ++ ['"']), rest⟩ := by
  simp [scan, Token.ofPunctuation?, closeString?_flatMap_escape]

/-- A character that starts a word is scanned as the word that goes on. -/
theorem scan_of_startsWord
    {c : Char}
    (starts : startsWord c = true)
    (rest : List Char) :
    scan c rest =
      .ok
        ⟨.ofWord (String.ofList ((c :: rest).takeWhile continuesWord)),
          (c :: rest).takeWhile continuesWord,
          (c :: rest).dropWhile continuesWord⟩ := by
  have codes := toNat_of_startsWord starts
  have noQuote : ¬(c = '"' ∨ c = '\'') := by
    rintro (rfl | rfl) <;> exact absurd starts (by decide)
  have noMinus : c ≠ '-' := by
    rintro rfl
    exact absurd starts (by decide)
  have noDigit : isDigit c = false := by
    by_cases digit : isDigit c = true
    · have := toNat_of_isDigit digit
      omega
    · simpa using digit
  simp only [scan, Token.ofPunctuation?_eq_none (.inl starts), if_neg noQuote,
    if_neg noMinus, noDigit, starts, if_true]
  rfl

/-- A word is one lexeme, unless a character behind it continues it. -/
theorem scan_word
    {c : Char}
    {tail rest : List Char}
    (starts : startsWord c = true)
    (continues : ∀ d ∈ tail, continuesWord d = true)
    (ends : rest.head?.any continuesWord = false) :
    scan c (tail ++ rest) =
      .ok ⟨.ofWord (String.ofList (c :: tail)), c :: tail, rest⟩ := by
  have whole : ∀ d ∈ c :: tail, continuesWord d = true := by
    intro d member
    rcases List.mem_cons.1 member with rfl | inTail
    · exact continuesWord_of_startsWord starts
    · exact continues d inTail
  have taken : (c :: tail ++ rest).takeWhile continuesWord = c :: tail := by
    rw [List.takeWhile_append_of_pos whole]
    cases rest with
    | nil => simp
    | cons d others => simp_all
  have left : (c :: tail ++ rest).dropWhile continuesWord = rest := by
    rw [List.dropWhile_append_of_pos whole]
    cases rest with
    | nil => simp
    | cons d others => simp_all
  rw [List.cons_append] at taken left
  rw [scan_of_startsWord starts, taken, left]

/-- Whether a character could continue a number. -/
def continuesNumber (c : Char) : Bool :=
  isDigit c || c == '.'

/-- Digits are taken up to a rest that does not start with a digit. -/
theorem takeWhile_digits_append
    {digits rest : List Char}
    (allDigits : ∀ c ∈ digits, isDigit c = true)
    (ends : rest.head?.any isDigit = false) :
    (digits ++ rest).takeWhile isDigit = digits ∧
      (digits ++ rest).dropWhile isDigit = rest := by
  rw [List.takeWhile_append_of_pos allDigits,
    List.dropWhile_append_of_pos allDigits]
  cases rest with
  | nil => simp
  | cons c others => simp_all

/-- A fraction is split off a rest that does not continue a number. -/
theorem splitFraction_append_rest
    {fraction rest : List Char}
    (allDigits : ∀ c ∈ fraction, isDigit c = true)
    (ends : rest.head?.any continuesNumber = false) :
    splitFraction ((if fraction = [] then [] else ['.']) ++ fraction ++ rest) =
      (fraction, rest) := by
  cases fraction with
  | nil =>
      unfold splitFraction
      split
      · next digit others shape =>
          -- A point behind a whole number would continue it.
          rw [if_pos rfl, List.nil_append, List.nil_append] at shape
          rw [shape] at ends
          exact absurd ends (by simp [continuesNumber])
      · rfl
  | cons digit others =>
      have endsDigits : rest.head?.any isDigit = false := by
        cases rest with
        | nil => rfl
        | cons c _ => simp_all [continuesNumber]
      obtain ⟨taken, left⟩ := takeWhile_digits_append allDigits endsDigits
      rw [List.cons_append] at taken left
      have first : isDigit digit = true := allDigits digit (by simp)
      rw [if_neg (by simp), List.singleton_append, List.cons_append,
        List.cons_append, splitFraction, if_pos first, taken, left]

end Lexeme

namespace Numeral

private theorem toLower_of_isDigit
    {c : Char}
    (digit : isDigit c = true) :
    c.toLower = c := by
  have codes := toNat_of_isDigit digit
  have noUpper : ¬(c.val ≥ 'A'.val ∧ c.val ≤ 'Z'.val) := by
    rintro ⟨above, _⟩
    have : 65 ≤ c.toNat := UInt32.le_iff_toNat_le.1 above
    omega
  exact dif_neg noUpper

/-- A numeral that starts with a digit is no name of a number. -/
theorem unsigned?_of_isDigit
    (negative : Bool)
    {c : Char}
    (digit : isDigit c = true)
    (rest : List Char) :
    unsigned? negative (c :: rest) =
      (decimal? (c :: rest)).map (Binary64.ofDecimal negative) := by
  have unnamed (letter : Char) (others : List Char)
      (noDigit : isDigit letter = false) :
      String.ofList ((c :: rest).map Char.toLower) ≠
        String.ofList (letter :: others) := by
    intro same
    have heads := congrArg String.toList same
    rw [String.toList_ofList, String.toList_ofList, List.map_cons,
      toLower_of_isDigit digit] at heads
    rw [(List.cons.inj heads).1, noDigit] at digit
    cases digit
  have noInf := unnamed 'i' ['n', 'f'] rfl
  have noInfinity := unnamed 'i' ['n', 'f', 'i', 'n', 'i', 't', 'y'] rfl
  have noNan := unnamed 'n' ['a', 'n'] rfl
  rw [unsigned?, if_neg, if_neg]
  · exact noNan
  · exact not_or.2 ⟨noInf, noInfinity⟩

/-- Digits with or without a fraction are a decimal without a power of ten. -/
theorem decimal?_parts
    {whole fraction : List Char}
    (some : whole ≠ [])
    (wholeDigits : ∀ c ∈ whole, isDigit c = true)
    (fractionDigits : ∀ c ∈ fraction, isDigit c = true) :
    decimal? (whole ++ ((if fraction = [] then [] else ['.']) ++ fraction)) =
      .some (.ofParts whole fraction) := by
  have ends :
      ((if fraction = [] then [] else ['.']) ++ fraction).head?.any isDigit =
        false := by
    cases fraction with
    | nil => rfl
    | cons digit others => simp [isDigit]
  obtain ⟨taken, left⟩ := Lexeme.takeWhile_digits_append wholeDigits ends
  have split :
      splitFraction ((if fraction = [] then [] else ['.']) ++ fraction) =
        (fraction, []) := by
    cases fraction with
    | nil => rfl
    | cons digit others =>
        obtain ⟨all, none⟩ :=
          @Lexeme.takeWhile_digits_append (digit :: others) []
            fractionDigits rfl
        rw [List.append_nil] at all none
        rw [if_neg (by simp), List.singleton_append, splitFraction, all, none]
  rw [decimal?, taken, left, split]
  simp [some, power?]

/-- An optional minus, digits and an optional fraction are a numeral. -/
theorem ofNumeral?_parts
    (negative : Bool)
    {whole fraction : List Char}
    (some : whole ≠ [])
    (wholeDigits : ∀ c ∈ whole, isDigit c = true)
    (fractionDigits : ∀ c ∈ fraction, isDigit c = true) :
    Binary64.ofNumeral?
        ((if negative then ['-'] else []) ++
          (whole ++ ((if fraction = [] then [] else ['.']) ++ fraction))) =
      .some (.ofDecimal negative (.ofParts whole fraction)) := by
  have read := decimal?_parts some wholeDigits fractionDigits
  obtain ⟨digit, more, rfl⟩ := List.exists_cons_of_ne_nil some
  have first : isDigit digit = true := wholeDigits digit (by simp)
  rw [List.cons_append] at read ⊢
  have unsigned :
      unsigned? negative
          (digit :: (more ++
            ((if fraction = [] then [] else ['.']) ++ fraction))) =
        .some (.ofDecimal negative (.ofParts (digit :: more) fraction)) := by
    rw [unsigned?_of_isDigit negative first, read]
    rfl
  cases negative with
  | true => exact unsigned
  | false =>
      rw [if_neg (by simp), List.nil_append, Binary64.ofNumeral?, splitSign]
      · exact unsigned
      · intro rest shape
        rw [(List.cons.inj shape).1] at first
        exact absurd first (by decide)
      · intro rest shape
        rw [(List.cons.inj shape).1] at first
        exact absurd first (by decide)

end Numeral

namespace Lexeme

/-- Digits with or without a fraction are read as the decimal they are. -/
theorem scanNumber_parts
    (negative : Bool)
    {whole fraction rest : List Char}
    (some : whole ≠ [])
    (wholeDigits : ∀ c ∈ whole, isDigit c = true)
    (fractionDigits : ∀ c ∈ fraction, isDigit c = true)
    (ends : rest.head?.any continuesNumber = false) :
    let sign := if negative then ['-'] else []
    let written := whole ++ ((if fraction = [] then [] else ['.']) ++ fraction)
    scanNumber sign (written ++ rest) =
      .ok ⟨.number (.ofDecimal negative (.ofParts whole fraction)),
        sign ++ written, rest⟩ := by
  intro sign written
  have endsDigits :
      ((if fraction = [] then [] else ['.']) ++ fraction ++
        rest).head?.any isDigit = false := by
    cases fraction with
    | nil =>
        cases rest with
        | nil => rfl
        | cons c _ => simp_all [continuesNumber]
    | cons digit others => simp [isDigit]
  obtain ⟨taken, left⟩ := takeWhile_digits_append wholeDigits endsDigits
  have shape :
      written ++ rest =
        whole ++
          ((if fraction = [] then [] else ['.']) ++ fraction ++ rest) := by
    simp [written]
  have numeral :=
    Numeral.ofNumeral?_parts negative some wholeDigits fractionDigits
  rw [scanNumber, shape, taken, left,
    splitFraction_append_rest fractionDigits ends]
  simp only [sign, List.append_assoc, numeral, written]

theorem scan_digit
    {c : Char}
    (digit : isDigit c = true)
    (rest : List Char) :
    scan c rest = scanNumber [] (c :: rest) := by
  have noQuote : ¬(c = '"' ∨ c = '\'') := by
    rintro (rfl | rfl) <;> exact absurd digit (by decide)
  have noMinus : c ≠ '-' := by
    rintro rfl
    exact absurd digit (by decide)
  simp only [scan, Token.ofPunctuation?_eq_none (.inr digit), if_neg noQuote,
    if_neg noMinus, digit, if_true]

/-- A minus starts a number when a digit follows and nothing otherwise. -/
theorem scan_minus
    (rest : List Char) :
    scan '-' rest =
      if rest.head?.any isDigit then scanNumber ['-'] rest
      else .error .strayMinus := by
  simp [scan, Token.ofPunctuation?]

/-- A finite number is one lexeme, unless a digit or a point follows. -/
theorem scan_number
    (negative : Bool)
    (rank : Fin finiteRanks)
    {rest : List Char}
    (ends : rest.head?.any continuesNumber = false) :
    ∃ c tail,
      (Binary64.finite negative rank).sourceText = c :: tail ∧
        scan c (tail ++ rest) =
          .ok ⟨.number (.finite negative rank), c :: tail, rest⟩ := by
  obtain ⟨whole, fraction, written, some, digits, others, readsBack⟩ :=
    Binary64.exists_parts_sourceText negative rank
  have read := scanNumber_parts negative some digits others ends
  obtain ⟨digit, more, rfl⟩ := List.exists_cons_of_ne_nil some
  have first : isDigit digit = true := digits digit (by simp)
  cases negative with
  | true =>
      refine ⟨'-', _, written, ?_⟩
      rw [scan_minus, if_pos, ← readsBack]
      · exact read
      · exact first
  | false =>
      refine ⟨digit, _, written, ?_⟩
      rw [scan_digit first, ← readsBack]
      exact read

private theorem ofWord_ne_endOfInput (word : String) :
    Token.ofWord word ≠ .endOfInput := by
  unfold Token.ofWord
  split
  · simp
  · split <;> simp

/-- No lexeme is the end of the input. -/
theorem token_ne_endOfInput
    {c : Char}
    {rest : List Char}
    {lexeme : Lexeme}
    (found : scan c rest = .ok lexeme) :
    lexeme.token ≠ .endOfInput := by
  rcases scan_cases found with
    ⟨token, punctuation, rfl⟩ | ⟨content, spelling, after, _, _, rfl⟩ |
      ⟨_, _, signed⟩ | ⟨_, unsigned⟩ | ⟨_, rfl⟩
  · rintro rfl
    unfold Token.ofPunctuation? at punctuation
    split at punctuation <;> simp at punctuation
  · simp
  · obtain ⟨value, rfl⟩ := exists_value_of_scanNumber signed
    simp
  · obtain ⟨value, rfl⟩ := exists_value_of_scanNumber unsigned
    simp
  · exact ofWord_ne_endOfInput _

/-- No lexeme starts with a blank or with a slash. -/
theorem visible_of_scan
    {c : Char}
    {rest : List Char}
    {lexeme : Lexeme}
    (found : scan c rest = .ok lexeme) :
    isBlank c = false ∧ c ≠ '/' := by
  have codes : 32 < c.toNat ∧ c.toNat < 127 ∧ c ≠ '/' := by
    rcases scan_cases found with
      ⟨token, punctuation, _⟩ | ⟨_, _, _, isQuote, _, _⟩ | ⟨rfl, _, _⟩ |
        ⟨digit, _⟩ | ⟨starts, _⟩
    · unfold Token.ofPunctuation? at punctuation
      split at punctuation <;> first | decide | cases punctuation
    · rcases isQuote with rfl | rfl <;> decide
    · decide
    · have range := toNat_of_isDigit digit
      refine ⟨by omega, by omega, ?_⟩
      rintro rfl
      exact absurd range (by decide)
    · have range := toNat_of_startsWord starts
      refine ⟨by omega, by omega, ?_⟩
      rintro rfl
      exact absurd range (by decide)
  exact ⟨isBlank_eq_false codes.1 codes.2.1, codes.2.2⟩

/-- An identifier that is a lexeme is a name. -/
theorem isName_of_scan
    {c : Char}
    {rest : List Char}
    {lexeme : Lexeme}
    {name : String}
    (found : scan c rest = .ok lexeme)
    (identifier : lexeme.token = .identifier name) :
    isName name = true := by
  rcases scan_cases found with
    ⟨token, punctuation, rfl⟩ | ⟨content, spelling, after, _, _, rfl⟩ |
      ⟨_, _, signed⟩ | ⟨_, unsigned⟩ | ⟨starts, rfl⟩
  · cases identifier
    unfold Token.ofPunctuation? at punctuation
    split at punctuation <;> simp at punctuation
  · cases identifier
  · obtain ⟨value, rfl⟩ := exists_value_of_scanNumber signed
    cases identifier
  · obtain ⟨value, rfl⟩ := exists_value_of_scanNumber unsigned
    cases identifier
  · simp only [Token.ofWord] at identifier
    split at identifier
    · cases identifier
    · split at identifier
      · cases identifier
      · next noTrue noFalse =>
          cases identifier
          have first := continuesWord_of_startsWord starts
          simp only [isName, String.toList_ofList, Bool.and_eq_true,
            bne_iff_ne]
          refine ⟨⟨⟨?_, List.all_takeWhile⟩, noTrue⟩, noFalse⟩
          simpa [first] using starts

end Lexeme

namespace Tokens

/-- The tokens of a text without their places, in front of the end. -/
def kinds? (text : List Char) : Option (List Token) :=
  (ofText .start text).toOption.map Chain.body

/-- A text of trivia has only the end of input. -/
theorem ofText_of_end
    {text : List Char}
    (position : Position)
    (body : (splitTrivia false text).2 = []) :
    ofText position text =
      .ok [⟨.endOfInput, position.after (splitTrivia false text).1⟩] := by
  rw [ofText]
  split
  · rfl
  · next other =>
      rw [body] at other
      cases other

theorem ofText_of_fault
    {text rest : List Char}
    {c : Char}
    {fault : LexFault}
    (position : Position)
    (body : (splitTrivia false text).2 = c :: rest)
    (found : Lexeme.scan c rest = .error fault) :
    ofText position text =
      .error ⟨.lexical, fault.text,
        position.after (splitTrivia false text).1⟩ := by
  rw [ofText]
  split
  · next other =>
      rw [body] at other
      cases other
  · next other =>
      rw [body] at other
      cases other
      split
      · next same =>
          rw [found] at same
          cases same
          rfl
      · next same =>
          rw [found] at same
          cases same

/-- A lexeme is taken off the front of a text. -/
theorem ofText_of_lexeme
    {text rest : List Char}
    {c : Char}
    {lexeme : Lexeme}
    (position : Position)
    (body : (splitTrivia false text).2 = c :: rest)
    (found : Lexeme.scan c rest = .ok lexeme) :
    let here := position.after (splitTrivia false text).1
    ofText position text =
      (ofText (here.after lexeme.spelling) lexeme.rest).map
        (⟨lexeme.token, here⟩ :: ·) := by
  intro here
  rw [ofText]
  split
  · next other =>
      rw [body] at other
      cases other
  · next other =>
      rw [body] at other
      cases other
      split
      · next same =>
          rw [found] at same
          cases same
      · next same =>
          rw [found] at same
          cases same
          rfl

/-- A token in front of others is one of the kinds in front of the end. -/
private theorem toOption_map_cons
    {token : Token}
    {position : Position}
    (some : token ≠ .endOfInput)
    (others : Except ParseError (List Located)) :
    (others.map (⟨token, position⟩ :: ·)).toOption.map Chain.body =
      (others.toOption.map Chain.body).map (token :: ·) := by
  cases others with
  | error => rfl
  | ok tokens => simp [Except.map, Except.toOption, Chain.body, some]

/-- What a text is read as does not depend on where it stands. -/
theorem ofText_kinds
    (position other : Position)
    (text : List Char) :
    (ofText position text).toOption.map Chain.body =
      (ofText other text).toOption.map Chain.body := by
  fun_induction ofText position text generalizing other with
  | case1 position text here body =>
      rw [ofText_of_end other body]
      rfl
  | case2 position text here c rest body fault found =>
      rw [ofText_of_fault other body found]
      rfl
  | case3 position text here c rest body lexeme found hypothesis =>
      have some := Lexeme.token_ne_endOfInput found
      rw [ofText_of_lexeme other body found, toOption_map_cons some,
        toOption_map_cons some, hypothesis]

/-- A text without characters has no tokens. -/
@[simp] theorem kinds?_nil :
    kinds? [] = some [] := by
  rw [kinds?, ofText_of_end]
  · rfl
  · rfl

/-- Texts that differ in their leading trivia only have the same tokens. -/
theorem kinds?_congr
    {text other : List Char}
    (same : (splitTrivia false text).2 = (splitTrivia false other).2) :
    kinds? text = kinds? other := by
  unfold kinds?
  cases body : (splitTrivia false other).2 with
  | nil =>
      rw [ofText_of_end .start (same.trans body), ofText_of_end .start body]
      rfl
  | cons c rest =>
      cases found : Lexeme.scan c rest with
      | error fault =>
          rw [ofText_of_fault .start (same.trans body) found,
            ofText_of_fault .start body found]
          rfl
      | ok lexeme =>
          have some := Lexeme.token_ne_endOfInput found
          rw [ofText_of_lexeme .start (same.trans body) found,
            ofText_of_lexeme .start body found, toOption_map_cons some,
            toOption_map_cons some, ofText_kinds]

/-- A blank in front of a text does not count. -/
theorem kinds?_blank
    {c : Char}
    (blank : isBlank c = true)
    (rest : List Char) :
    kinds? (c :: rest) = kinds? rest := by
  apply kinds?_congr
  simp [splitTrivia, blank]

/-- A visible character that opens no comment is where a lexeme starts. -/
theorem splitTrivia_visible
    {c : Char}
    (visible : isBlank c = false)
    (noComment : c ≠ '/')
    (rest : List Char) :
    splitTrivia false (c :: rest) = ([], c :: rest) := by
  simp [splitTrivia, visible, noComment]

/-- A lexeme's token stands in front of the tokens of what it leaves. -/
theorem kinds?_lexeme
    {c : Char}
    {rest : List Char}
    {lexeme : Lexeme}
    (found : Lexeme.scan c rest = .ok lexeme) :
    kinds? (c :: rest) = (kinds? lexeme.rest).map (lexeme.token :: ·) := by
  obtain ⟨visible, noComment⟩ := Lexeme.visible_of_scan found
  have body := congrArg Prod.snd (splitTrivia_visible visible noComment rest)
  rw [kinds?, ofText_of_lexeme .start body found,
    toOption_map_cons (Lexeme.token_ne_endOfInput found), kinds?,
    ofText_kinds]

/-- A text is not read past a place where no lexeme starts. -/
theorem kinds?_fault
    {c : Char}
    {rest : List Char}
    {fault : LexFault}
    (visible : isBlank c = false)
    (noComment : c ≠ '/')
    (found : Lexeme.scan c rest = .error fault) :
    kinds? (c :: rest) = none := by
  have body := congrArg Prod.snd (splitTrivia_visible visible noComment rest)
  rw [kinds?, ofText_of_fault .start body found]
  rfl

/-- A character that is a token by itself stands in front of the others. -/
theorem kinds?_punctuation
    {c : Char}
    {token : Token}
    (punctuation : Token.ofPunctuation? c = some token)
    (rest : List Char) :
    kinds? (c :: rest) = (kinds? rest).map (token :: ·) := by
  have found : Lexeme.scan c rest = .ok ⟨token, [c], rest⟩ := by
    simp [Lexeme.scan, punctuation]
  exact kinds?_lexeme found

/-- A word stands in front of what does not continue it. -/
theorem kinds?_word
    {word rest : List Char}
    (starts : word.head?.any startsWord = true)
    (continues : word.all continuesWord = true)
    (ends : rest.head?.any continuesWord = false) :
    kinds? (word ++ rest) =
      (kinds? rest).map (.ofWord (String.ofList word) :: ·) := by
  cases word with
  | nil => cases starts
  | cons c tail =>
      rw [List.all_eq_true] at continues
      have found :=
        Lexeme.scan_word starts
          (fun d member => continues d (List.mem_cons_of_mem c member)) ends
      exact kinds?_lexeme found

/-- A name stands in front of what does not continue it. -/
theorem kinds?_name
    {name : String}
    {rest : List Char}
    (named : isName name = true)
    (ends : rest.head?.any continuesWord = false) :
    kinds? (name.toList ++ rest) =
      (kinds? rest).map (.identifier name :: ·) := by
  obtain ⟨starts, continues, identifier⟩ := exists_word_of_isName named
  rw [kinds?_word starts continues ends, String.ofList_toList, identifier]

/-- A string between double quotes stands in front of anything. -/
theorem kinds?_string
    (content : String)
    (rest : List Char) :
    kinds? ((Value.string content).spelling ++ rest) =
      (kinds? rest).map (.string content :: ·) := by
  have found := Lexeme.scan_string content.toList rest
  rw [String.ofList_toList] at found
  have taken := kinds?_lexeme found
  simpa [Value.spelling] using taken

/-- A finite number stands in front of what does not continue it. -/
theorem kinds?_number
    (negative : Bool)
    (rank : Fin finiteRanks)
    {rest : List Char}
    (ends : rest.head?.any Lexeme.continuesNumber = false) :
    kinds? ((Binary64.finite negative rank).sourceText ++ rest) =
      (kinds? rest).map (.number (.finite negative rank) :: ·) := by
  obtain ⟨c, tail, written, found⟩ := Lexeme.scan_number negative rank ends
  rw [written]
  exact kinds?_lexeme found

/-- A minus in front of no digit is not read. -/
theorem kinds?_strayMinus
    {rest : List Char}
    (noDigit : rest.head?.any isDigit = false) :
    kinds? ('-' :: rest) = none := by
  have found : Lexeme.scan '-' rest = .error .strayMinus := by
    rw [Lexeme.scan_minus, noDigit]
    rfl
  exact kinds?_fault (by decide) (by decide) found

/-- Every identifier of a text is a name. -/
theorem isName_of_ofText
    {position : Position}
    {text : List Char}
    {tokens : List Located}
    {name : String}
    (found : ofText position text = .ok tokens)
    (member : .identifier name ∈ tokens.map Located.token) :
    isName name = true := by
  fun_induction ofText position text generalizing tokens with
  | case1 position text body =>
      cases found
      simp at member
  | case2 => cases found
  | case3 position text here c rest body lexeme scanned =>
      rename_i hypothesis
      cases read : ofText _ lexeme.rest with
      | error error =>
          rw [read] at found
          cases found
      | ok others =>
          rw [read] at found
          cases found
          rcases List.mem_cons.1 member with first | later
          · exact Lexeme.isName_of_scan scanned first.symm
          · exact hypothesis read later

end Tokens

end VerbChain
