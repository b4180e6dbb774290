import VerbChain.Number.Decimal
import VerbChain.Yaml.Source

namespace VerbChain

/-!
# Scalars as they are written

A scalar is a text, and there are four ways to write it.  Plain and quoted
scalars are words with gaps between them, and a gap that breaks lines is
folded: one break is a space, and of several all but the first are kept.  Block
scalars are lines behind a common margin.  The fuel of a reader is enough when
it is greater than the length of the text.
-/

/-- The way a scalar is written. -/
inductive YamlStyle where
  | plain
  | quoted
  | literal
  | folded
  deriving Repr, DecidableEq

/-- The blanks and line breaks between two words of a scalar. -/
structure YamlGap where
  /-- The blanks in front of the first line break. -/
  blanks : List Char
  /-- The line breaks. -/
  breaks : List Char
  deriving Repr, DecidableEq

namespace YamlGap

/-- What a gap stands for. -/
def folded (gap : YamlGap) : List Char :=
  match gap.breaks with
  | [] => gap.blanks
  | ['\n'] => [' ']
  | '\n' :: more => more
  | breaks => breaks

/--
Take a gap off the front of a text.  A tab at the start of a line is refused
in front of the column `margin`.
-/
def take? (margin : Nat) (source : List YamlChar) :
    Option (YamlGap × List YamlChar) :=
  let inside := source.takeWhile YamlChar.isGap
  let broken := inside.dropWhile YamlChar.isBlank
  if broken.any fun here => here.char == '\t' && here.column < margin then none
  else
    some
      (⟨YamlChar.text (inside.takeWhile YamlChar.isBlank),
          YamlChar.text (broken.filter YamlChar.isBreak)⟩,
        source.dropWhile YamlChar.isGap)

end YamlGap

namespace YamlScalar

open YamlChar

/-- The characters that separate the parts of a collection in brackets. -/
def flowMarks : List Char :=
  [',', '[', ']', '\x7b', '\x7d']

/--
Whether a character ends the plain word in front of it: a gap does, a colon in
front of a gap and, between brackets, a mark.  A colon in front of a mark is
refused there.
-/
def endsPlain? (inFlow : Bool) (here : YamlChar) (rest : List YamlChar) :
    Option Bool :=
  if here.isGap then some true
  else if here.char = ':' then
    if atGap rest then some true
    else if inFlow ∧ atOneOf ('?' :: flowMarks) rest then none
    else some false
  else some (inFlow && flowMarks.contains here.char)

/-- The plain word at the front of a text. -/
def plainWord? (inFlow : Bool) :
    List YamlChar → Option (List Char × List YamlChar)
  | [] => some ([], [])
  | here :: rest =>
      match endsPlain? inFlow here rest with
      | none => none
      | some true => some ([], here :: rest)
      | some false =>
          (plainWord? inFlow rest).map fun (word, left) =>
            (here.char :: word, left)

/-- Whether a text stands in front of a column. -/
def isBefore (margin : Nat) : List YamlChar → Bool
  | [] => false
  | here :: _ => here.column < margin

/-- A scalar with what follows it. -/
structure Reading where
  content : List Char
  /-- Whether lines were broken behind the last word. -/
  brokenAfter : Bool
  rest : List YamlChar

/-- The plain words from a text on, the gap in front of them given. -/
def plainWords? (inFlow : Bool) (margin : Nat) :
    (fuel : Nat) → YamlGap → List YamlChar → Option Reading
  | 0, _, _ => none
  | fuel + 1, gap, source =>
      let ended : Reading := ⟨[], gap.breaks != [], source⟩
      if atDocumentMark source ∨ atOneOf ['#'] source then some ended
      else
        (plainWord? inFlow source).bind fun (word, left) =>
          if word = [] then some ended
          else
            (YamlGap.take? margin left).bind fun (next, after) =>
              if (next.breaks != [] && !inFlow && isBefore margin after) ||
                  !atGap left then
                some ⟨gap.folded ++ word, next.breaks != [], after⟩
              else
                (plainWords? inFlow margin fuel next after).map fun reading =>
                  ⟨gap.folded ++ word ++ reading.content,
                    reading.brokenAfter, reading.rest⟩

/-- Read a plain scalar; between brackets no margin ends it. -/
def plain? (inFlow : Bool) (margin fuel : Nat) (source : List YamlChar) :
    Option Reading :=
  plainWords? inFlow margin fuel ⟨[], []⟩ source

/-- The characters behind a backslash that stand for one character. -/
def escapes : List (Char × Char) :=
  [('0', '\x00'), ('a', '\x07'), ('b', '\x08'), ('t', '\t'), ('\t', '\t'),
    ('n', '\n'), ('v', '\x0b'), ('f', '\x0c'), ('r', '\r'), ('e', '\x1b'),
    (' ', ' '), ('"', '"'), ('/', '/'), ('\\', '\\'), ('N', '\x85'),
    ('_', '\xa0'), ('L', '\u2028'), ('P', '\u2029')]

/-- How many hexadecimal digits follow a letter behind a backslash. -/
def hexWidth? (c : Char) : Option Nat :=
  [('x', 2), ('u', 4), ('U', 8)].lookup c

/-- The value of a hexadecimal digit. -/
def hexDigit? (c : Char) : Option Nat :=
  if isDigit c then some (c.toNat - '0'.toNat)
  else if 'a' ≤ c ∧ c ≤ 'f' then some (c.toNat - 'a'.toNat + 10)
  else if 'A' ≤ c ∧ c ≤ 'F' then some (c.toNat - 'A'.toNat + 10)
  else none

/-- The number that hexadecimal digits stand for. -/
def hex? (digits : List Char) : Option Nat :=
  digits.foldlM
    (fun value digit => (hexDigit? digit).map fun place => value * 16 + place)
    0

/-- The character of a code, unless it is half of a surrogate pair. -/
def codeChar? (code : Nat) : Option Char :=
  if code.isValidChar then some (Char.ofNat code) else none

/-- The character an escape stands for, the backslash taken, and the rest. -/
def escape? : List YamlChar → Option (Char × List YamlChar)
  | [] => none
  | here :: rest =>
      match escapes.lookup here.char with
      | some c => some (c, rest)
      | none =>
          (hexWidth? here.char).bind fun width =>
            let digits := rest.take width
            if digits.length = width then
              ((hex? (text digits)).bind codeChar?).map fun c =>
                (c, rest.drop width)
            else none

/-- What stands behind the words of a quoted scalar. -/
inductive WordEnd where
  /-- The quote that ends the scalar. -/
  | quote
  /-- A backslash that takes a line break away. -/
  | joint
  | gap
  deriving Repr, DecidableEq

/-- The word at the front of a text in single quotes. -/
def singleWord : List YamlChar → List Char × WordEnd × List YamlChar
  | [] => ([], .gap, [])
  | [here] =>
      if here.char = '\'' then ([], .quote, [])
      else if here.isGap then ([], .gap, [here])
      else ([here.char], .gap, [])
  | here :: next :: rest =>
      if here.char = '\'' then
        if next.char = '\'' then
          let (word, ending, left) := singleWord rest
          ('\'' :: word, ending, left)
        else ([], .quote, next :: rest)
      else if here.isGap then ([], .gap, here :: next :: rest)
      else
        let (word, ending, left) := singleWord (next :: rest)
        (here.char :: word, ending, left)

/-- The word at the front of a text in double quotes. -/
def doubleWord? :
    (fuel : Nat) →
    List YamlChar →
    Option (List Char × WordEnd × List YamlChar)
  | 0, _ => none
  | _ + 1, [] => some ([], .gap, [])
  | fuel + 1, here :: rest =>
      if here.char = '"' then some ([], .quote, rest)
      else if here.isGap then some ([], .gap, here :: rest)
      else if here.char = '\\' then
        match rest with
        | [] => none
        | next :: after =>
            if next.isBreak then some ([], .joint, after)
            else
              (escape? rest).bind fun (c, left) =>
                (doubleWord? fuel left).map fun (word, ending, behind) =>
                  (c :: word, ending, behind)
      else
        (doubleWord? fuel rest).map fun (word, ending, behind) =>
          (here.char :: word, ending, behind)

/-- The word at the front of a text in quotes. -/
def quotedWord? (single : Bool) (fuel : Nat) (source : List YamlChar) :
    Option (List Char × WordEnd × List YamlChar) :=
  if single then some (singleWord source) else doubleWord? fuel source

/-- The words of a scalar in quotes, the opening quote taken. -/
def quotedWords? (single : Bool) :
    (fuel : Nat) → List YamlChar → Option (List Char × List YamlChar)
  | 0, _ => none
  | fuel + 1, source =>
      if atDocumentMark source ∨ source = [] then none
      else
        (quotedWord? single (fuel + 1) source).bind fun (word, ending, left) =>
          match ending with
          | .quote => some (word, left)
          | .joint =>
              (YamlGap.take? 0 left).bind fun (gap, after) =>
                (quotedWords? single fuel after).map fun (content, rest) =>
                  (word ++ gap.breaks ++ content, rest)
          | .gap =>
              (YamlGap.take? 0 left).bind fun (gap, after) =>
                (quotedWords? single fuel after).map fun (content, rest) =>
                  (word ++ gap.folded ++ content, rest)

/-- Read a scalar in quotes, the opening quote taken. -/
def quoted? (single : Bool) (fuel : Nat) (source : List YamlChar) :
    Option Reading :=
  (quotedWords? single fuel source).map fun (content, rest) =>
    ⟨content, false, rest⟩

/-- What becomes of the line breaks at the end of a block. -/
inductive Chomping where
  /-- All are taken away. -/
  | strip
  /-- One is kept. -/
  | clip
  /-- All are kept. -/
  | keep
  deriving Repr, DecidableEq

/-- The marks behind the indicator of a block. -/
structure BlockMarks where
  chomping : Chomping
  /-- How far the lines of the block stand in. -/
  inset : Option Nat
  deriving Repr, DecidableEq

namespace BlockMarks

/-- A chomping mark at the front of a text. -/
def chomping? : List YamlChar → Option (Chomping × List YamlChar)
  | [] => none
  | here :: rest =>
      if here.char = '+' then some (.keep, rest)
      else if here.char = '-' then some (.strip, rest)
      else none

/-- A digit at the front of a text. -/
def digit? : List YamlChar → Option (Nat × List YamlChar)
  | [] => none
  | here :: rest =>
      if isDigit here.char then some (here.char.toNat - '0'.toNat, rest)
      else none

/-- The marks of a block in either order; an inset of zero is refused. -/
def take? (source : List YamlChar) : Option (BlockMarks × List YamlChar) :=
  let (marks, rest) : BlockMarks × List YamlChar :=
    match chomping? source with
    | some (chomping, after) =>
        match digit? after with
        | some (inset, rest) => (⟨chomping, some inset⟩, rest)
        | none => (⟨chomping, none⟩, after)
    | none =>
        match digit? source with
        | none => (⟨.clip, none⟩, source)
        | some (inset, after) =>
            match chomping? after with
            | some (chomping, rest) => (⟨chomping, some inset⟩, rest)
            | none => (⟨.clip, some inset⟩, after)
  if marks.inset = some 0 then none else some (marks, rest)

end BlockMarks

/-- The empty lines in front of a line with content. -/
structure EmptyLines where
  breaks : List Char
  /-- The column the widest of them and the margin of the line reach. -/
  widest : Nat
  rest : List YamlChar

/--
Take empty lines and the margin of the next line off the front of a text; a
margin that is not known yet has no end.  A tab inside the margin is refused.
-/
def emptyLines? (margin : Option Nat) (widest : Nat) :
    List YamlChar → Option EmptyLines
  | [] => some ⟨[], widest, []⟩
  | here :: rest =>
      let inMargin := margin.all fun width => here.column < width
      if inMargin ∧ here.char = ' ' then
        emptyLines? margin (max widest (here.column + 1)) rest
      else if inMargin ∧ here.char = '\t' then none
      else if here.isBreak then
        (emptyLines? margin widest rest).map fun lines =>
          ⟨here.char :: lines.breaks, lines.widest, lines.rest⟩
      else some ⟨[], widest, here :: rest⟩

/-- A line of a block, its line break and the breaks of empty lines after it. -/
structure BlockLine where
  content : List Char
  ending : List Char
  empties : List Char
  deriving Repr

namespace BlockLine

/-- Whether a line stands further in than the block. -/
def isInset (line : BlockLine) : Bool :=
  match line.content with
  | [] => false
  | c :: _ => Yaml.isBlank c

/-- What stands between two lines; folding joins lines that are not inset. -/
def between (folds : Bool) (line next : BlockLine) : List Char :=
  if folds ∧ line.ending = ['\n'] ∧ ¬ line.isInset ∧ ¬ next.isInset then
    if line.empties = [] then [' '] else line.empties
  else line.ending ++ line.empties

/-- What stands behind the last line. -/
def behind (chomping : Chomping) (line : BlockLine) : List Char :=
  match chomping with
  | .strip => []
  | .clip => line.ending
  | .keep => line.ending ++ line.empties

/-- The text of lines. -/
def joined (folds : Bool) (chomping : Chomping) : List BlockLine → List Char
  | [] => []
  | [line] => line.content ++ line.behind chomping
  | line :: next :: lines =>
      line.content ++ between folds line next ++
        joined folds chomping (next :: lines)

end BlockLine

/-- The lines of a block with a margin. -/
def blockLines? (margin : Nat) :
    (fuel : Nat) → List YamlChar → Option (List BlockLine × List YamlChar)
  | 0, _ => none
  | _ + 1, [] => some ([], [])
  | fuel + 1, here :: rest =>
      if here.column ≠ margin then some ([], here :: rest)
      else
        let content := text ((here :: rest).takeWhile fun c => !c.isBreak)
        let after := skipLine (here :: rest)
        let ending := text (after.take 1)
        (emptyLines? (some margin) 0 (after.drop 1)).bind fun empties =>
          (blockLines? margin fuel empties.rest).map fun (lines, left) =>
            (⟨content, ending, empties.breaks⟩ :: lines, left)

/--
Read a block, its indicator taken.  Its margin is the inset behind the margin
of the collection it belongs to, or else as far in as its first line stands.
-/
def block? (folds : Bool) (outer : Option Nat) (fuel : Nat)
    (source : List YamlChar) : Option Reading :=
  (BlockMarks.take? source).bind fun (marks, afterMarks) =>
    (lineEnd? afterMarks).bind fun lineEnd =>
      let given := marks.inset.map fun inset => outer.getD 0 + inset
      (emptyLines? given 0 (lineEnd.drop 1)).bind fun first =>
        let least := (outer.map fun column => column + 1).getD 1
        let margin := given.getD (max first.widest least)
        (blockLines? margin fuel first.rest).map
          fun (lines, rest) =>
            let content :=
              match lines with
              | [] => if marks.chomping = .keep then first.breaks else []
              | _ => first.breaks ++ BlockLine.joined folds marks.chomping lines
            ⟨content, true, rest⟩

end YamlScalar

end VerbChain
