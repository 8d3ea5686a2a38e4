import SurrealZod.Yaml.Scalar
import SurrealZod.Yaml.Token

/-!
# The layout of a YAML text

What stands where in a text decides which tokens it holds: a block begins with an item or a key right of the block
around it, and ends where a line begins left of it. Only its colon shows that a scalar or a flow collection was a key,
so the places where a key may begin are kept until the colon comes. A key that has no question mark stands on one line
and is at most 1024 characters long.

Anchors, aliases, tags, directives and block scalars are refused.
-/

namespace SurrealZod

namespace Yaml

/-- A place where a key may begin: the count of tokens before it, its line and its column. A key is required where
nothing else can begin in a block mapping. -/
structure KeyPlace where
  tokens : Nat
  line : Nat
  column : Nat
  required : Bool

/-- How far a text is read: the place, the tokens before it, the last one first, and the columns of the open blocks, the
innermost first. A key may have begun in the innermost open collection, and one in each of the flow collections around
it and in the block around those. -/
structure Layout where
  cursor : Cursor
  tokens : List YamlToken := []
  blocks : List Nat := []
  key : Option KeyPlace := none
  outerKeys : List (Option KeyPlace) := []
  allowsKey : Bool := true

namespace Layout

def maxKeyLength : Nat := 1024

def inFlow (layout : Layout) : Bool := !layout.outerKeys.isEmpty

def margin (layout : Layout) : Nat := (layout.blocks.head?.map (· + 1)).getD 0

/-! ### Tokens and blocks -/

def emit (token : YamlToken) (layout : Layout) : Layout := { layout with tokens := token :: layout.tokens }

/-- The layout with the token of the next characters of the line. -/
def take (count : Nat) (token : YamlToken) (layout : Layout) : Layout :=
  let { rest, line, column } := layout.cursor
  { layout with cursor := { rest := rest.drop count, line, column := column + count } }.emit token

/-- Ends the blocks that begin at a column or right of it. -/
def closeBlocks (column : Nat) (layout : Layout) : Layout :=
  if layout.inFlow then layout
  else
    let closed := layout.blocks.takeWhile (column ≤ ·)
    { layout with
      tokens := List.replicate closed.length .blockEnd ++ layout.tokens
      blocks := layout.blocks.drop closed.length }

/-- Begins a block at a column, if the column is right of the block around it. A number of tokens that are read already
stand behind its token. -/
def openBlock (column : Nat) (token : YamlToken) (behind : Nat) (layout : Layout) : Layout :=
  if layout.inFlow ∨ column < layout.margin then layout
  else
    { layout with
      tokens := layout.tokens.take behind ++ token :: layout.tokens.drop behind
      blocks := column :: layout.blocks }

/-! ### Keys -/

/-- Gives up the place of a key, unless the key is required there. -/
def forget? : Option KeyPlace → Option (Option KeyPlace)
  | some place => if place.required then none else some none
  | none => some none

def dropKey? (layout : Layout) : Option Layout := do return { layout with key := ← forget? layout.key }

/-- Whether a key that began at a place can still end here. -/
def reaches (cursor : Cursor) (place : KeyPlace) : Bool :=
  place.line = cursor.line && cursor.column ≤ place.column + maxKeyLength

/-- Gives up the places of the keys that would be too long, or on more than one line. -/
def dropLostKeys? (layout : Layout) : Option Layout := do
  let check (key : Option KeyPlace) := if key.all (reaches layout.cursor) then some key else forget? key
  return { layout with key := ← check layout.key, outerKeys := ← layout.outerKeys.mapM check }

/-- Notes that a key may begin here, if one is allowed. -/
def markKey? (layout : Layout) : Option Layout :=
  if !layout.allowsKey then some layout
  else do
    let { line, column, .. } := layout.cursor
    let required := !layout.inFlow && layout.blocks.head? = some column
    let layout ← layout.dropKey?
    return { layout with key := some { tokens := layout.tokens.length, line, column, required } }

/-! ### Reading tokens -/

/-- Skips white space, comments and line breaks, and tells whether a key is allowed behind them. A tab is no
indentation: where a key may begin it is not skipped. Outside of flow collections a new line may begin with a key. -/
def skipBlanks (inFlow inComment allowsKey : Bool) (line column : Nat) : Text → Cursor × Bool
  | [] => ({ rest := [], line, column }, allowsKey)
  | c :: rest =>
    if isBreak c then skipBlanks inFlow false (allowsKey || !inFlow) (line + 1) 0 rest
    else if inComment || c = '#' then skipBlanks inFlow true allowsKey line (column + 1) rest
    else if c = ' ' || (c = '\t' && (inFlow || !allowsKey)) then
      skipBlanks inFlow false allowsKey line (column + 1) rest
    else ({ rest := c :: rest, line, column }, allowsKey)

/-- Goes on to the next token, and ends the blocks and gives up the keys that end before it. -/
def advance? (layout : Layout) : Option Layout := do
  let { rest, line, column } := layout.cursor
  let (cursor, allowsKey) := skipBlanks layout.inFlow false layout.allowsKey line column rest
  let layout ← { layout with cursor, allowsKey }.dropLostKeys?
  return layout.closeBlocks (cursor.column + 1)

def takeBoundary? (token : YamlToken) (layout : Layout) : Option Layout := do
  let layout ← (layout.closeBlocks 0).dropKey?
  return { layout with allowsKey := false }.take 3 token

/-- Reads the opening bracket of a flow collection. The collection may be a key. -/
def openFlow? (token : YamlToken) (layout : Layout) : Option Layout := do
  let layout ← layout.markKey?
  return { layout with key := none, outerKeys := layout.key :: layout.outerKeys, allowsKey := true }.take 1 token

def closeFlow? (token : YamlToken) (layout : Layout) : Option Layout := do
  let layout ← layout.dropKey?
  return { layout with
    key := layout.outerKeys.head?.join, outerKeys := layout.outerKeys.drop 1, allowsKey := false }.take 1 token

/-- Reads the comma between two entries of a flow collection. -/
def takeComma? (layout : Layout) : Option Layout := do
  return { ← layout.dropKey? with allowsKey := true }.take 1 .comma

/-- Reads a dash or a question mark, which begins a block if it is right of the block around it. -/
def takeIndicator? (block token : YamlToken) (allowsKey : Bool) (layout : Layout) : Option Layout := do
  guard (layout.inFlow ∨ layout.allowsKey)
  let layout ← (layout.openBlock layout.cursor.column block 0).dropKey?
  return { layout with allowsKey }.take 1 token

/-- Reads a colon. The key before it begins a block mapping if it is right of the block around it. A colon without a key
on the same line belongs to a question mark. -/
def takeColon? (layout : Layout) : Option Layout :=
  match layout.key with
  | some place =>
    let behind := layout.tokens.length - place.tokens
    let tokens := layout.tokens.take behind ++ .key :: layout.tokens.drop behind
    let layout := { layout with tokens, key := none, allowsKey := false }
    some ((layout.openBlock place.column .blockMapping (behind + 1)).take 1 .value)
  | none => do
    guard (layout.inFlow ∨ layout.allowsKey)
    let layout := layout.openBlock layout.cursor.column .blockMapping 0
    return { layout with allowsKey := !layout.inFlow }.take 1 .value

/-- Reads a quoted scalar, which may be a key. -/
def takeQuoted? (quote : Char) (layout : Layout) : Option Layout := do
  let layout ← layout.markKey?
  let { rest, line, column } := layout.cursor
  let (text, cursor) ←
    readQuoted? quote rest.length [] .none { rest := rest.drop 1, line, column := column + 1 }
  return { layout with cursor, allowsKey := false }.emit (.scalar false text)

/-- Reads a plain scalar, which may be a key. Behind its last line another key may begin. -/
def takePlain? (layout : Layout) : Option Layout := do
  let layout ← layout.markKey?
  let { rest, line, column } := layout.cursor
  let (text, gap, cursor) ← readPlain? layout.inFlow layout.margin [] .none line column rest
  return { layout with cursor, allowsKey := gap.isFolded }.emit (.scalar true text)

/-- Reads the token that begins here. A dash, a question mark or a colon that stands alone is a token, and so are the
latter two in flow collections. -/
def take? (layout : Layout) : Option Layout :=
  match layout.cursor.rest with
  | [] => none
  | c :: rest =>
    let alone := atBlank rest
    if layout.cursor.column = 0 ∧ atMarker '-' (c :: rest) then layout.takeBoundary? .documentStart
    else if layout.cursor.column = 0 ∧ atMarker '.' (c :: rest) then layout.takeBoundary? .documentEnd
    else if c = '[' then layout.openFlow? .flowSequence
    else if c = '{' then layout.openFlow? .flowMapping
    else if c = ']' then layout.closeFlow? .flowSequenceEnd
    else if c = '}' then layout.closeFlow? .flowMappingEnd
    else if c = ',' then layout.takeComma?
    else if c = '-' ∧ alone then layout.takeIndicator? .blockSequence .item true
    else if c = '?' ∧ (layout.inFlow ∨ alone) then layout.takeIndicator? .blockMapping .key (!layout.inFlow)
    else if c = ':' ∧ (layout.inFlow ∨ alone) then layout.takeColon?
    else if c = '\'' ∨ c = '"' then layout.takeQuoted? c
    else if isIndicator c ∨ isSpace c then none
    else layout.takePlain?

/-- Reads the tokens up to the end of the text. Every token takes one unit of fuel. -/
def takeAll? : Nat → Layout → Option (List YamlToken)
  | 0, _ => none
  | fuel + 1, layout => do
    let layout ← layout.advance?
    if layout.cursor.rest.isEmpty then return (← (layout.closeBlocks 0).dropKey?).tokens.reverse
    else takeAll? fuel (← layout.take?)

end Layout

/-- The place where a text is read from. A byte order mark at its start takes a column. -/
def Cursor.start : Text → Cursor
  | '\ufeff' :: rest => { rest, column := 1 }
  | t => { rest := t }

def tokens? (t : Text) : Option (List YamlToken) :=
  if t.all isAllowed then Layout.takeAll? (t.length + 1) { cursor := .start (normalizeBreaks t) } else none

end Yaml

end SurrealZod
