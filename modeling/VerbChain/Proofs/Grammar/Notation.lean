import VerbChain.Grammar.Standard
import VerbChain.Text.Lines

namespace VerbChain

/-!
# Grammars as data

The grammar of programs taken out of its notation: rules over symbols and
terminals over characters, both with the same five ways to build a body.  That
nothing was lost or added shows when the data are written down again: up to
white space they are the text that tools are given.
-/

namespace Grammar

/-- The bodies of rules, over symbols, and of regular expressions. -/
inductive Expression (α : Type) where
  | atom (item : α)
  | sequence (first second : Expression α)
  | either (first second : Expression α)
  | optional (body : Expression α)
  | star (body : Expression α)
  | plus (body : Expression α)

/-- The characters that one place of a regular expression takes. -/
inductive CharClass where
  | only (c : Char)
  | digit
  | any
  | set (negated : Bool) (ranges : List (Char × Char))

/-- What a rule is made of: other rules, terminals and quoted texts. -/
inductive Symbol where
  | rule (name : String)
  | terminal (name : String)
  | literal (text : String)
  deriving DecidableEq

/-- A terminal stands for listed texts or for those of a regular expression. -/
inductive Terminal where
  | listed (texts : List String)
  | regex (pattern : Expression CharClass)

/-- Rules and terminals under their names; white space may stand anywhere. -/
structure Rules where
  rules : List (String × Expression Symbol)
  terminals : List (String × Terminal)

/-- A character as a regular expression writes it for itself. -/
def CharClass.escaped (special : List Char) (c : Char) : List Char :=
  if c ∈ special then ['\\', c] else [c]

/-- A place of a regular expression as it is written. -/
def CharClass.text : CharClass → List Char
  | .only c => escaped "\\.()[]*+?|/".toList c
  | .digit => "\\d".toList
  | .any => ['.']
  | .set negated ranges =>
      let written := ranges.flatMap fun (low, high) =>
        if low = high then escaped "\\]".toList low else [low, '-', high]
      '[' :: ((if negated then ['^'] else []) ++ (written ++ [']']))

/-- A text in parentheses if it is not bound tightly enough. -/
def enclosed (loose : Bool) (text : List Char) : List Char :=
  if loose then '(' :: (text ++ [')']) else text

/--
A body as it is written.  Marks bind to one item, so sequences and choices in
front of them are in parentheses, and so are choices in a sequence.
-/
def Expression.text (item : α → List Char) (gap : List Char) :
    Nat → Expression α → List Char
  | _, .atom a => item a
  | tightness, .sequence first second =>
      enclosed (1 < tightness)
        (first.text item gap 1 ++ (gap ++ second.text item gap 1))
  | tightness, .either first second =>
      enclosed (0 < tightness)
        (first.text item gap 0 ++
          (gap ++ '|' :: (gap ++ second.text item gap 0)))
  | _, .optional body => body.text item gap 2 ++ ['?']
  | _, .star body => body.text item gap 2 ++ ['*']
  | _, .plus body => body.text item gap 2 ++ ['+']

/-- A text between double quotes. -/
def quoted (text : String) : List Char :=
  '"' :: (text.toList ++ ['"'])

/-- A symbol as it is written. -/
def Symbol.text : Symbol → List Char
  | .rule name => name.toList
  | .terminal name => name.toList
  | .literal text => quoted text

/-- What a terminal stands for as it is written. -/
def Terminal.text : Terminal → List Char
  | .listed texts => joined " | ".toList (texts.map quoted)
  | .regex pattern => '/' :: (pattern.text CharClass.text [] 0 ++ ['/'])

/-- Rules and terminals as they are written, one on a line. -/
def Rules.text (rules : Rules) : List Char :=
  let line (name : String) (body : List Char) :=
    name.toList ++ (": ".toList ++ (body ++ ['\n']))
  (rules.rules.flatMap fun (name, body) =>
      line name (body.text Symbol.text [' '] 0)) ++
    ((rules.terminals.flatMap fun (name, terminal) =>
        line name terminal.text) ++
      "%import common.WS\n%ignore WS\n".toList)

/-- The words of a text, without the white space between them. -/
def words (text : List Char) : List (List Char) :=
  let taken := text.foldr
    (fun c (word, others) =>
      if c = ' ' ∨ c = '\n' then ([], if word = [] then others else word :: others)
      else (c :: word, others))
    ([], [])
  if taken.1 = [] then taken.2 else taken.1 :: taken.2

/-- Items of one symbol with marks of another between each two. -/
def Expression.separated (item mark : Symbol) : Expression Symbol :=
  .sequence (.atom item) (.star (.sequence (.atom mark) (.atom item)))

/-- A name of a verb, of an argument or of an unquoted value. -/
def word : Expression CharClass :=
  .sequence (.atom (.set false [('a', 'z'), ('A', 'Z'), ('_', '_')]))
    (.star
      (.atom (.set false [('a', 'z'), ('A', 'Z'), ('0', '9'), ('_', '_')])))

/-- A decimal numeral. -/
def numeral : Expression CharClass :=
  .sequence (.optional (.atom (.only '-')))
    (.sequence (.plus (.atom .digit))
      (.optional
        (.sequence (.atom (.only '.')) (.plus (.atom .digit)))))

/-- A text between two quotes of one kind. -/
def quotation (quote : Char) : Expression CharClass :=
  .sequence (.atom (.only quote))
    (.sequence
      (.star
        (.either (.atom (.set true [(quote, quote), ('\\', '\\')]))
          (.sequence (.atom (.only '\\')) (.atom .any))))
      (.atom (.only quote)))

/-- A call: a name and arguments in parentheses, if there are any. -/
def callBody : Expression Symbol :=
  .sequence (.atom (.terminal "IDENTIFIER"))
    (.sequence (.atom (.literal "("))
      (.sequence (.optional (.atom (.rule "args"))) (.atom (.literal ")"))))

/-- An argument: a value, with or without a name. -/
def argumentBody : Expression Symbol :=
  .either
    (.sequence (.atom (.terminal "IDENTIFIER"))
      (.sequence (.atom (.literal "=")) (.atom (.rule "value"))))
    (.atom (.rule "value"))

/-- A value: one of four terminals or a reference to a verb. -/
def valueBody : Expression Symbol :=
  .either (.atom (.terminal "NUMBER"))
    (.either (.atom (.terminal "STRING"))
      (.either (.atom (.terminal "BOOL"))
        (.either (.atom (.terminal "IDENTIFIER"))
          (.atom (.rule "function_ref")))))

/-- A reference to a verb. -/
def referenceBody : Expression Symbol :=
  .sequence (.atom (.literal "@")) (.atom (.terminal "IDENTIFIER"))

/-- The rules of the standard grammar. -/
def Rules.standard : Rules where
  rules :=
    [("start", .atom (.rule "call_chain")),
      ("call_chain", .separated (.rule "call") (.terminal "DOT")),
      ("call", callBody),
      ("args", .separated (.rule "arg") (.terminal "COMMA")),
      ("arg", argumentBody),
      ("value", valueBody),
      ("function_ref", referenceBody)]
  terminals :=
    [("DOT", .listed ["."]),
      ("COMMA", .listed [","]),
      ("NUMBER", .regex numeral),
      ("STRING", .regex (.either (quotation '"') (quotation '\''))),
      ("IDENTIFIER", .regex word),
      ("BOOL", .listed ["true", "false"])]

private theorem toList_of_eq_ofList
    {text : String}
    {chars : List Char}
    (same : text = String.ofList chars) :
    text.toList = chars := by
  rw [same, String.toList_ofList]

set_option maxRecDepth 8000 in
/-- Up to white space the rules are written as the standard grammar. -/
theorem words_standard :
    words Rules.standard.text = words Grammar.standard.toList := by
  have chars := @toList_of_eq_ofList Grammar.standard _ rfl
  rw [chars]
  decide +kernel

end Grammar

end VerbChain
