import VerbChain.Yaml.Token

namespace VerbChain

/-!
# The tokens of a YAML text

A colon makes a key of what stands in front of it on its line, so a place where
a key may begin is marked when it is passed, and what the mark stands for is
settled when the colon is met: nothing, a key, or a key that starts a table.
The colon has to follow on the same line and within 1024 bytes.  Block
collections are open as long as lines stand at their column or further in.
-/

/-- A place where a key may begin. -/
structure KeyPlace where
  /-- The number of its mark. -/
  mark : Nat
  line : Nat
  column : Nat
  /-- The bytes in front of it. -/
  offset : Nat
  /-- Whether a line there can be nothing but a key. -/
  required : Bool
  deriving Repr, DecidableEq

/-- A part of the tokens read so far. -/
inductive LayoutEntry where
  | token (token : YamlToken)
  | mark (number : Nat)
  deriving Repr, DecidableEq

/-- What has been read of a YAML text. -/
structure YamlLayout where
  /-- The tokens and marks, the latest first. -/
  entries : List LayoutEntry
  /-- How many marks there are. -/
  marks : Nat
  /-- The tokens that marks turned out to stand for. -/
  settled : List (Nat × List YamlToken)
  /-- The columns of the open block collections, the innermost first. -/
  columns : List Nat
  /-- Whether a key may begin here. -/
  keyAllowed : Bool
  /-- The place of the latest key that may have begun. -/
  place : Option KeyPlace
  /-- The same for what surrounds each open bracket or brace. -/
  outer : List (Option KeyPlace)

namespace YamlLayout

open YamlChar

/-- The layout in front of a text. -/
def start : YamlLayout where
  entries := []
  marks := 0
  settled := []
  columns := []
  keyAllowed := true
  place := none
  outer := []

/-- Whether a bracket or a brace is open. -/
def inFlow (layout : YamlLayout) : Bool :=
  !layout.outer.isEmpty

/-- What each mark stands for; most stand for nothing. -/
def meanings (layout : YamlLayout) : Array (List YamlToken) :=
  layout.settled.foldl
    (fun known (mark, tokens) => known.setIfInBounds mark tokens)
    (.replicate layout.marks [])

/-- The tokens of a layout, every mark replaced by what it stands for. -/
def tokens (layout : YamlLayout) : List YamlToken :=
  let known := layout.meanings
  layout.entries.reverse.flatMap fun
    | .token token => [token]
    | .mark number => known.getD number []

/-- Add a token. -/
def emit (layout : YamlLayout) (token : YamlToken) : YamlLayout :=
  { layout with entries := .token token :: layout.entries }

/-- Say whether a key may begin next. -/
def allowKey (layout : YamlLayout) (allowed : Bool) : YamlLayout :=
  { layout with keyAllowed := allowed }

/-- A place that is still good at a character, unless one was required. -/
def freshPlace? (here : YamlChar) :
    Option KeyPlace → Option (Option KeyPlace)
  | none => some none
  | some place =>
      if place.line < here.line ∨ place.offset + 1024 < here.offset then
        if place.required then none else some none
      else some (some place)

/-- Forget the places that are too far in front of a character. -/
def freshen? (layout : YamlLayout) (here : YamlChar) : Option YamlLayout :=
  (freshPlace? here layout.place).bind fun place =>
    (layout.outer.mapM (freshPlace? here)).map fun outer =>
      { layout with place := place, outer := outer }

/-- Forget the latest place, unless a key was required there. -/
def dropPlace? (layout : YamlLayout) : Option YamlLayout :=
  if layout.place.any KeyPlace.required then none
  else some { layout with place := none }

/-- Mark the place of a character where a key may begin. -/
def markPlace? (layout : YamlLayout) (here : YamlChar) : Option YamlLayout :=
  if layout.keyAllowed then
    layout.dropPlace?.map fun dropped =>
      { dropped with
        entries := .mark layout.marks :: layout.entries
        marks := layout.marks + 1
        place :=
          some
            ⟨layout.marks, here.line, here.column, here.offset,
              !layout.inFlow && layout.columns.head? == some here.column⟩ }
  else some layout

/-- Whether a block collection opens when its first part is at a column. -/
def opensAt (layout : YamlLayout) (column : Nat) : Bool :=
  !layout.inFlow && layout.columns.head?.all fun outer => outer < column

/-- Open a block collection at a column, unless one is open there. -/
def openBlock (layout : YamlLayout) (column : Nat) (token : YamlToken) :
    YamlLayout :=
  if layout.opensAt column then
    { layout.emit token with columns := column :: layout.columns }
  else layout

/-- The open columns without those a line no longer reaches. -/
def reached (column : Option Nat) (columns : List Nat) : List Nat :=
  columns.dropWhile fun inner => column.all fun line => line < inner

/-- Close the block collections that a line at a column does not reach. -/
def closeBlocks (layout : YamlLayout) (column : Option Nat) : YamlLayout :=
  if layout.inFlow then layout
  else
    let left := reached column layout.columns
    let closed := layout.columns.length - left.length
    { layout with
      entries :=
        List.replicate closed (.token .blockEnd) ++ layout.entries
      columns := left }

/-- Read a directive or a mark between documents, which close every block. -/
def between? (layout : YamlLayout) (token : YamlToken) : Option YamlLayout :=
  (layout.closeBlocks none).dropPlace?.map fun closed =>
    (closed.allowKey false).emit token

/-- Open a bracket or a brace. -/
def openFlow? (layout : YamlLayout) (here : YamlChar) (token : YamlToken) :
    Option YamlLayout :=
  (layout.markPlace? here).map fun marked =>
    { marked.emit token with
      keyAllowed := true, place := none, outer := marked.place :: marked.outer }

/-- Close a bracket or a brace. -/
def closeFlow? (layout : YamlLayout) (token : YamlToken) :
    Option YamlLayout :=
  layout.dropPlace?.map fun dropped =>
    let closed :=
      match dropped.outer with
      | [] => dropped
      | place :: outer => { dropped with place := place, outer := outer }
    (closed.allowKey false).emit token

/-- Read the comma between the parts of a collection in brackets. -/
def comma? (layout : YamlLayout) : Option YamlLayout :=
  layout.dropPlace?.map fun dropped => (dropped.allowKey true).emit .comma

/-- Read the dash in front of an item. -/
def dash? (layout : YamlLayout) (here : YamlChar) : Option YamlLayout :=
  if !layout.inFlow && !layout.keyAllowed then none
  else
    (layout.openBlock here.column .listStart).dropPlace?.map fun opened =>
      (opened.allowKey true).emit .dash

/-- Read the mark in front of a key of any length. -/
def key? (layout : YamlLayout) (here : YamlChar) : Option YamlLayout :=
  if !layout.inFlow && !layout.keyAllowed then none
  else
    (layout.openBlock here.column .tableStart).dropPlace?.map fun opened =>
      (opened.allowKey (!layout.inFlow)).emit .key

/-- Read the colon behind a key that began at a place. -/
def valueOf (layout : YamlLayout) (place : KeyPlace) : YamlLayout :=
  let opens := layout.opensAt place.column
  let tokens := if opens then [YamlToken.tableStart, .key] else [.key]
  { layout.emit .value with
    settled := (place.mark, tokens) :: layout.settled
    columns := if opens then place.column :: layout.columns else layout.columns
    keyAllowed := false
    place := none }

/-- Read the colon in front of a value. -/
def value? (layout : YamlLayout) (here : YamlChar) : Option YamlLayout :=
  match layout.place with
  | some place => some (layout.valueOf place)
  | none =>
      if !layout.inFlow && !layout.keyAllowed then none
      else
        let opened := layout.openBlock here.column .tableStart
        some ((opened.allowKey (!layout.inFlow)).emit .value)

/-- Read something that may be a key: a name, a tag or a scalar. -/
def maybeKey? (layout : YamlLayout) (here : YamlChar)
    (read : Option (YamlToken × List YamlChar)) :
    Option (YamlLayout × List YamlChar) :=
  (layout.markPlace? here).bind fun marked =>
    read.map fun (token, rest) => ((marked.allowKey false).emit token, rest)

/-- The column in front of which plain lines end. -/
def plainMargin (layout : YamlLayout) : Nat :=
  (layout.columns.head?.map fun column => column + 1).getD 0

/-- The token of a scalar that was read. -/
def scalarToken (style : YamlStyle) (reading : YamlScalar.Reading) :
    YamlToken :=
  .scalar style (String.ofList reading.content)

/-- Read a block. -/
def block? (layout : YamlLayout) (folds : Bool) (fuel : Nat)
    (source : List YamlChar) : Option (YamlLayout × List YamlChar) :=
  layout.dropPlace?.bind fun dropped =>
    (YamlScalar.block? folds layout.columns.head? fuel source).map
      fun reading =>
        let style := if folds then YamlStyle.folded else .literal
        ((dropped.allowKey true).emit (scalarToken style reading),
          reading.rest)

/-- Read a scalar in quotes. -/
def quoted? (layout : YamlLayout) (here : YamlChar) (single : Bool)
    (fuel : Nat) (source : List YamlChar) :
    Option (YamlLayout × List YamlChar) :=
  layout.maybeKey? here <|
    (YamlScalar.quoted? single fuel source).map fun reading =>
      (scalarToken .quoted reading, reading.rest)

/-- Read a plain scalar; a key may begin on the line after it. -/
def plain? (layout : YamlLayout) (here : YamlChar) (fuel : Nat)
    (source : List YamlChar) : Option (YamlLayout × List YamlChar) :=
  (layout.markPlace? here).bind fun marked =>
    (YamlScalar.plain? layout.inFlow layout.plainMargin fuel source).map
      fun reading =>
        ((marked.allowKey reading.brokenAfter).emit
          (scalarToken .plain reading), reading.rest)

/-- The characters that no plain scalar begins with. -/
def indicators : List Char :=
  "-?:,[]\x7b\x7d#&*!|>'\"%@\x60".toList

/-- Whether a plain scalar begins here. -/
def startsPlain (layout : YamlLayout) (here : YamlChar)
    (rest : List YamlChar) : Bool :=
  !(here.isGap || indicators.contains here.char) ||
    (here.char == '-' && !rest.head?.any YamlChar.isBlank) ||
    (!layout.inFlow && (here.char == '?' || here.char == ':') && !atGap rest)

/-- Read the token at the front of a text. -/
def token? (layout : YamlLayout) (fuel : Nat) (here : YamlChar)
    (rest : List YamlChar) : Option (YamlLayout × List YamlChar) :=
  let along := Option.map fun next : YamlLayout => (next, rest)
  let c := here.char
  if c = '%' ∧ here.column = 0 then
    (YamlToken.directive? rest).bind fun (token, after) =>
      (layout.between? token).map fun next => (next, after)
  else if atMark '-' (here :: rest) then
    (layout.between? .documentStart).map fun next => (next, rest.drop 2)
  else if atMark '.' (here :: rest) then
    (layout.between? .documentEnd).map fun next => (next, rest.drop 2)
  else if c = '[' then along (layout.openFlow? here .openBracket)
  else if c = '\x7b' then along (layout.openFlow? here .openBrace)
  else if c = ']' then along (layout.closeFlow? .closeBracket)
  else if c = '\x7d' then along (layout.closeFlow? .closeBrace)
  else if c = ',' then along layout.comma?
  else if c = '-' ∧ atGap rest then along (layout.dash? here)
  else if c = '?' ∧ (layout.inFlow ∨ atGap rest) then along (layout.key? here)
  else if c = ':' ∧ (layout.inFlow ∨ atGap rest) then
    along (layout.value? here)
  else if c = '*' ∨ c = '&' then
    layout.maybeKey? here <|
      (YamlToken.anchorName? rest).map fun (name, after) =>
        (if c = '*' then .alias name else .anchor name, after)
  else if c = '!' then
    layout.maybeKey? here (YamlToken.tag? layout.inFlow (here :: rest))
  else if c = '|' ∧ ¬ layout.inFlow then layout.block? false fuel rest
  else if c = '>' ∧ ¬ layout.inFlow then layout.block? true fuel rest
  else if c = '\'' ∨ c = '"' then layout.quoted? here (c == '\'') fuel rest
  else if layout.startsPlain here rest then
    layout.plain? here fuel (here :: rest)
  else none

/--
What follows blanks, comments and line breaks.  Behind a line break a key may
begin, and in front of a key no tab may stand.
-/
def skipTrivia (inFlow inComment keyAllowed : Bool) :
    List YamlChar → Bool × List YamlChar
  | [] => (keyAllowed, [])
  | here :: rest =>
      if here.isBreak then
        skipTrivia inFlow false (keyAllowed || !inFlow) rest
      else if inComment || here.char == ' ' ||
          (here.char == '\t' && (inFlow || !keyAllowed)) ||
          (here.char == '\ufeff' && here.column == 0) then
        skipTrivia inFlow inComment keyAllowed rest
      else if here.char = '#' then skipTrivia inFlow true keyAllowed rest
      else (keyAllowed, here :: rest)

/-- Read the tokens of a text. -/
def readTokens? :
    (fuel : Nat) → YamlLayout → List YamlChar → Option YamlLayout
  | 0, _, _ => none
  | fuel + 1, layout, source =>
      let (keyAllowed, rest) :=
        skipTrivia layout.inFlow false layout.keyAllowed source
      let ready := layout.allowKey keyAllowed
      match rest with
      | [] => (ready.closeBlocks none).dropPlace?
      | here :: after =>
          (ready.freshen? here).bind fun fresh =>
            ((fresh.closeBlocks (some here.column)).token? (fuel + 1) here
                after).bind fun (next, left) => readTokens? fuel next left

end YamlLayout

/-- The tokens of a YAML text. -/
def YamlToken.ofText? (text : List Char) : Option (List YamlToken) :=
  (YamlChar.ofText? text).bind fun source =>
    (YamlLayout.readTokens? (source.length + 1) .start source).map
      YamlLayout.tokens

end VerbChain
