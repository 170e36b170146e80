import ApiOutline.Yaml.Token.Block
import ApiOutline.Yaml.Token.Plain
import ApiOutline.Yaml.Token.Property
import ApiOutline.Yaml.Token.Quoted

/-!
The tokens of a YAML text, from left to right.

Outside brackets the layout makes tokens of its own: a collection begins where an item or a key
stands deeper than the collection around it, and ends where something stands less deep.  A key needs
no mark.  What may turn out to be one is remembered until a colon comes, and the token that marks it
is then put in front of it.  Such a key has to end on its line and to be short.
-/

namespace ApiOutline.Yaml

/-- Something that is a key if a colon follows it. -/
structure MaybeKey where
  /-- How many tokens stand before it. -/
  position : Nat
  /-- Where it starts. -/
  start : Glyph
  /-- Whether nothing else than a key may stand there. -/
  isRequired : Bool
  deriving DecidableEq, Repr

/-- A text on the way to its tokens. -/
structure Lexer where
  /-- What is still to be read. -/
  rest : List Glyph
  /-- The tokens so far, the last one first. -/
  tokens : List Token := []
  /-- The columns of the open collections that the layout makes, innermost first. -/
  columns : List Nat := []
  /-- What may be a key inside the innermost brackets. -/
  maybeKey : Option MaybeKey := none
  /-- What may be keys outside of them, one for each pair of open brackets, innermost first. -/
  outerKeys : List (Option MaybeKey) := []
  /-- Whether a key may start here. -/
  keyAllowed : Bool := true

namespace Lexer

/-- Where the lexer is. -/
def here (l : Lexer) : Glyph := l.rest.head?.getD ⟨endMark, 0, 0, 0⟩

/-- Whether brackets are open. -/
def inFlow (l : Lexer) : Bool := !l.outerKeys.isEmpty

def push (l : Lexer) (token : Token) : Lexer := { l with tokens := token :: l.tokens }

/-- Puts a token in front of those after a position. -/
def insert (l : Lexer) (position : Nat) (token : Token) : Lexer :=
  let after := l.tokens.length - position
  { l with tokens := l.tokens.take after ++ token :: l.tokens.drop after }

/-- Begins a collection at a column, before the token at a position, if it stands deeper than the
collection around it. -/
def beginBlock (l : Lexer) (column position : Nat) (token : Token) : Lexer :=
  if !l.inFlow && l.columns.head?.all (· < column) then
    { l.insert position token with columns := column :: l.columns }
  else l

/-- Begins a collection with what comes next. -/
def beginBlockHere (l : Lexer) (token : Token) : Lexer :=
  l.beginBlock l.here.column l.tokens.length token

/-- Ends the collections whose columns fail a test, from the innermost on. -/
def endBlocks (l : Lexer) (stays : Nat → Bool) : Lexer :=
  if l.inFlow then l
  else
    let ended := l.columns.takeWhile (!stays ·)
    { l with
      tokens := List.replicate ended.length .blockEnd ++ l.tokens
      columns := l.columns.dropWhile (!stays ·) }

/-- How many bytes may stand between the start of a key and its colon. -/
def keyReach : Nat := 1024

/-- Whether something can no longer be a key at a place. -/
def isOver (place : Glyph) (k : MaybeKey) : Bool :=
  k.start.line < place.line || k.start.offset + keyReach < place.offset

/-- Gives up what can no longer be a key; what has to be one is an error. -/
def checkKey? (place : Glyph) : Option MaybeKey → Option (Option MaybeKey)
  | none => some none
  | some k =>
    if !isOver place k then some (some k) else if k.isRequired then none else some none

/-- Gives up all that can no longer be keys. -/
def checkKeys? (l : Lexer) : Option Lexer := do
  some { l with
    maybeKey := ← checkKey? l.here l.maybeKey
    outerKeys := ← l.outerKeys.mapM (checkKey? l.here) }

/-- Gives up what may be a key, since something else follows it. -/
def dropKey? (l : Lexer) : Option Lexer :=
  if l.maybeKey.any (·.isRequired) then none else some { l with maybeKey := none }

/-- Remembers that what comes next may be a key. -/
def saveKey? (l : Lexer) : Option Lexer :=
  if !l.keyAllowed then some l
  else do
    let isRequired := !l.inFlow && l.columns.head? == some l.here.column
    some { ← l.dropKey? with maybeKey := some ⟨l.tokens.length, l.here, isRequired⟩ }

/-- Adds a token of some characters. -/
def take (l : Lexer) (width : Nat) (token : Token) : Lexer :=
  { l.push token with rest := l.rest.drop width }

/-- Adds a token that has been read and goes on after it. -/
def resume (l : Lexer) (read : Token × List Glyph) : Lexer :=
  { l.push read.1 with rest := read.2 }

/-- Reads a directive, or a mark of a document: either ends all collections. -/
def outermost? (l : Lexer) : Option Lexer := do
  some { ← (l.endBlocks fun _ => false).dropKey? with keyAllowed := false }

def openFlow? (l : Lexer) (token : Token) : Option Lexer := do
  let l ← l.saveKey?
  some { l.take 1 token with
    maybeKey := none, outerKeys := l.maybeKey :: l.outerKeys, keyAllowed := true }

def closeFlow? (l : Lexer) (token : Token) : Option Lexer := do
  let l := { ← l.dropKey? with keyAllowed := false }
  match l.outerKeys with
  | [] => some (l.take 1 token)
  | outer :: rest => some { l.take 1 token with maybeKey := outer, outerKeys := rest }

def comma? (l : Lexer) : Option Lexer := do
  some { (← l.dropKey?).take 1 .flowEntry with keyAllowed := true }

/-- Reads the dash before an item. -/
def dash? (l : Lexer) : Option Lexer := do
  if !l.inFlow && !l.keyAllowed then none
  else
    let l := l.beginBlockHere .blockSequenceStart
    some { (← l.dropKey?).take 1 .blockEntry with keyAllowed := true }

/-- Reads the question mark before a key. -/
def questionMark? (l : Lexer) : Option Lexer := do
  if !l.inFlow && !l.keyAllowed then none
  else
    let l := l.beginBlockHere .blockMappingStart
    some { (← l.dropKey?).take 1 .key with keyAllowed := !l.inFlow }

/-- Reads the colon before a value.  If something before it may be a key, it is one. -/
def colon? (l : Lexer) : Option Lexer :=
  match l.maybeKey with
  | some k =>
    let l := (l.insert k.position .key).beginBlock k.start.column k.position .blockMappingStart
    some { l.take 1 .value with maybeKey := none, keyAllowed := false }
  | none =>
    if !l.inFlow && !l.keyAllowed then none
    else
      let l := l.beginBlockHere .blockMappingStart
      some { l.take 1 .value with keyAllowed := !l.inFlow }

/-- Reads an alias or an anchor. -/
def name? (l : Lexer) (token : List Char → Token) : Option Lexer := do
  let l ← l.saveKey?
  let (name, rest) ← nodeName? (l.rest.drop 1)
  some { l.resume (token name, rest) with keyAllowed := false }

def readTag? (l : Lexer) : Option Lexer := do
  let l ← l.saveKey?
  some { l.resume (← tag? l.inFlow l.rest) with keyAllowed := false }

def block? (l : Lexer) (style : Style) : Option Lexer := do
  let l ← l.dropKey?
  let (text, rest) ← blockScalar? (style == .literal) l.columns.head? (l.rest.drop 1)
  some { l.resume (.scalar style text, rest) with keyAllowed := true }

def quoted? (l : Lexer) (style : Style)
    (read : List Glyph → Option (List Char × List Glyph)) : Option Lexer := do
  let l ← l.saveKey?
  let (text, rest) ← read (l.rest.drop 1)
  some { l.resume (.scalar style text, rest) with keyAllowed := false }

/-- Reads a plain scalar.  After line breaks a key may start again. -/
def readPlain? (l : Lexer) : Option Lexer := do
  let l ← l.saveKey?
  let scalar ← plain? l.inFlow ((l.columns.head?.map (· + 1)).getD 0) l.rest
  some { l.resume (.scalar .plain scalar.text, scalar.rest) with keyAllowed := scalar.isBroken }

/-- Whether a plain scalar can start with a character, given the one after it. -/
def startsPlain (inFlow : Bool) (c next : Char) : Bool :=
  if c = '-' then !isBlank next
  else if c = '?' ∨ c = ':' then !inFlow && !isGap next
  else !isGap c && !indicators.contains c

/-- Skips blanks, comments and line breaks, and tells whether a key may start afterwards.  Outside
brackets it may after a line break, and where it may, a tab is no blank. -/
def skipGap (inFlow : Bool) (inComment keyAllowed : Bool) : List Glyph → List Glyph × Bool
  | [] => ([], keyAllowed)
  | g :: rest =>
    if isBreak g.char then skipGap inFlow false (keyAllowed || !inFlow) rest
    else if g.char = endMark then (g :: rest, keyAllowed)
    else if inComment || g.char == ' ' || (g.char == '\t' && (inFlow || !keyAllowed)) then
      skipGap inFlow inComment keyAllowed rest
    else if g.char = '#' then skipGap inFlow true keyAllowed rest
    else if g.char.toNat = 0xFEFF ∧ g.column = 0 then skipGap inFlow inComment keyAllowed rest
    else (g :: rest, keyAllowed)

/-- Reads the token at the place of the lexer, which is not the end of the text. -/
def token? (l : Lexer) : Option Lexer :=
  let c := charAt 0 l.rest
  let next := charAt 1 l.rest
  if l.here.column = 0 ∧ c = '%' then do
    let l ← l.outermost?
    some (l.resume (← directive? (l.rest.drop 1)))
  else if isDocumentMark l.rest then do
    some ((← l.outermost?).take 3 (if c = '-' then .documentStart else .documentEnd))
  else if c = '[' then l.openFlow? .flowSequenceStart
  else if c = '\x7b' then l.openFlow? .flowMappingStart
  else if c = ']' then l.closeFlow? .flowSequenceEnd
  else if c = '\x7d' then l.closeFlow? .flowMappingEnd
  else if c = ',' then l.comma?
  else if c = '-' ∧ isGap next then l.dash?
  else if c = '?' ∧ (l.inFlow || isGap next) then l.questionMark?
  else if c = ':' ∧ (l.inFlow || isGap next) then l.colon?
  else if c = '*' then l.name? .alias
  else if c = '&' then l.name? .anchor
  else if c = '!' then l.readTag?
  else if c = '|' ∧ !l.inFlow then l.block? .literal
  else if c = '>' ∧ !l.inFlow then l.block? .folded
  else if c = singleQuote then l.quoted? .singleQuoted singleQuoted?
  else if c = '"' then l.quoted? .doubleQuoted doubleQuoted?
  else if startsPlain l.inFlow c next then l.readPlain?
  else none

/-- Reads tokens up to the end of the text; `fuel` bounds how many. -/
def run? : (fuel : Nat) → Lexer → Option (List Token)
  | 0, _ => none
  | fuel + 1, l => do
    let (rest, keyAllowed) := skipGap l.inFlow false l.keyAllowed l.rest
    let l ← { l with rest, keyAllowed }.checkKeys?
    let l := l.endBlocks (· ≤ l.here.column)
    if charAt 0 l.rest = endMark then
      let l ← l.outermost?
      some (l.push .streamEnd).tokens.reverse
    else run? fuel (← l.token?)

end Lexer

/-- The tokens of a text.  Every token but the last takes a character at least. -/
def tokens? (text : String) : Option (List Token) := do
  let glyphs ← glyphs? text
  Lexer.run? (glyphs.length + 1) { rest := glyphs }

end ApiOutline.Yaml
