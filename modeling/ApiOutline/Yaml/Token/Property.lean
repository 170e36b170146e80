import ApiOutline.Yaml.Glyph
import ApiOutline.Yaml.Scalar
import ApiOutline.Yaml.Token

/-!
The properties of nodes, which are anchors and tags, and the directives before a document.

A tag is a handle and a suffix, or stands whole between angle brackets.  The bytes of a suffix may
be written with a percent sign and two digits each.
-/

namespace ApiOutline.Yaml

/-- Whether a character may stand in a name. -/
def isNamePart (c : Char) : Bool := c.isAlphanum || c == '_' || c == '-'

/-- Reads the name of an anchor or alias.  After it comes a gap, or a mark that may follow a
node. -/
def nodeName? (glyphs : List Glyph) : Option (List Char × List Glyph) :=
  let (name, rest) := span isNamePart glyphs
  let next := charAt 0 rest
  if !name.isEmpty && (isGap next || "?:,]\x7d%@`".toList.contains next) then some (name, rest)
  else none

/-- The characters of tags that may stand anywhere. -/
def tagMarks : List Char := ";/?:@&=+$.!~*'()".toList

/-- The characters of tags that are marks of structure elsewhere. -/
def wideTagMarks : List Char := ",[]".toList

/-- Whether a character may stand in a tag; between brackets and in a directive, more may. -/
def isTagPart (wide : Bool) (c : Char) : Bool :=
  isNamePart c || tagMarks.contains c || (wide && wideTagMarks.contains c)

/-- How many bytes follow the first byte of a character. -/
def followers? (byte : Nat) : Option Nat :=
  if byte < 0x80 then some 0
  else if 0xC0 ≤ byte ∧ byte < 0xE0 then some 1
  else if 0xE0 ≤ byte ∧ byte < 0xF0 then some 2
  else if 0xF0 ≤ byte ∧ byte < 0xF8 then some 3
  else none

/-- How many bytes of a character are still to come after a byte, when some were to come before
it. -/
def stillOwed? (owed byte : Nat) : Option Nat :=
  if owed = 0 then followers? byte
  else if 0x80 ≤ byte ∧ byte < 0xC0 then some (owed - 1)
  else none

/-- Reads a part of a tag, where some bytes of a character are still to come, and these with a
percent sign. -/
def tagText? (wide : Bool) (owed : Nat) : List Glyph → Option (Tag × List Glyph)
  | [] => if owed = 0 then some ([], []) else none
  | g :: rest =>
    if g.char = '%' then
      match rest with
      | high :: low :: rest => do
        let byte ← digits? 16 [high.char, low.char]
        let (tag, rest) ← tagText? wide (← stillOwed? owed byte) rest
        some (UInt8.ofNat byte :: tag, rest)
      | _ => none
    else if owed ≠ 0 then none
    else if isTagPart wide g.char then do
      let (tag, rest) ← tagText? wide 0 rest
      some (UInt8.ofNat g.char.toNat :: tag, rest)
    else some ([], g :: rest)

/-- A tag up to its first zero byte, which ends it. -/
def upToZero (tag : Tag) : Tag := tag.takeWhile (· != 0)

/-- Reads what may be a handle: an exclamation mark, a name and another exclamation mark, of which
the last two may be missing. -/
def handle (glyphs : List Glyph) : List Char × List Glyph :=
  let (name, rest) := span isNamePart (glyphs.drop 1)
  if charAt 0 rest == '!' then ('!' :: name ++ ['!'], rest.drop 1) else ('!' :: name, rest)

/-- Whether a handle has its second exclamation mark. -/
def isClosedHandle (handle : List Char) : Bool :=
  1 < handle.length && handle.getLast? == some '!'

/-- The bytes of a text of characters below eighty in base sixteen. -/
def bytesOf (s : List Char) : Tag := s.map fun c => UInt8.ofNat c.toNat

/-- Reads a tag between angle brackets, after the first of them. -/
def verbatimTag? (glyphs : List Glyph) : Option (Token × List Glyph) := do
  let (tag, rest) ← tagText? true 0 glyphs
  if !tag.isEmpty && charAt 0 rest == '>' then some (.tag [] (upToZero tag), rest.drop 1)
  else none

/-- Reads a tag with a handle.  A start that is no whole handle belongs to the suffix, with the
shortest handle before it.  An exclamation mark alone is a tag of its own. -/
def shortTag? (glyphs : List Glyph) : Option (Token × List Glyph) := do
  let (handle, rest) := handle glyphs
  let (tag, rest) ← tagText? false 0 rest
  if isClosedHandle handle then
    if tag.isEmpty then none else some (.tag handle (upToZero tag), rest)
  else match upToZero (bytesOf (handle.drop 1) ++ tag) with
    | [] => some (.tag [] (bytesOf handle), rest)
    | suffix => some (.tag ['!'] suffix, rest)

/-- Reads a tag.  After it comes a gap, or inside brackets a comma. -/
def tag? (inFlow : Bool) (glyphs : List Glyph) : Option (Token × List Glyph) := do
  let (token, rest) ←
    if charAt 1 glyphs == '<' then verbatimTag? (glyphs.drop 2) else shortTag? glyphs
  if isGap (charAt 0 rest) || (inFlow && charAt 0 rest == ',') then some (token, rest) else none

/-- Reads a number of a version, of at most nine digits. -/
def versionNumber? (glyphs : List Glyph) : Option (Nat × List Glyph) := do
  let (digits, rest) := span Char.isDigit glyphs
  if digits.length ≤ 9 then some (← digits? 10 digits, rest) else none

def versionDirective? (glyphs : List Glyph) : Option (Token × List Glyph) := do
  let (major, rest) ← versionNumber? (dropBlanks glyphs)
  if charAt 0 rest == '.' then
    let (minor, rest) ← versionNumber? (rest.drop 1)
    some (.versionDirective major minor, rest)
  else none

/-- Reads the handle and the start of tags in a directive. -/
def tagDirective? (glyphs : List Glyph) : Option (Token × List Glyph) := do
  let glyphs := dropBlanks glyphs
  let (handle, rest) := handle glyphs
  if charAt 0 glyphs == '!' && (handle == ['!'] || isClosedHandle handle) &&
      isBlank (charAt 0 rest) then
    let (start, rest) ← tagText? true 0 (dropBlanks rest)
    if !start.isEmpty && isGap (charAt 0 rest) then
      some (.tagDirective handle (upToZero start), rest)
    else none
  else none

/-- Reads a directive, after its percent sign, with the rest of its line. -/
def directive? (glyphs : List Glyph) : Option (Token × List Glyph) := do
  let (name, rest) := span isNamePart glyphs
  let (token, rest) ←
    if !isGap (charAt 0 rest) then none
    else if name = "YAML".toList then versionDirective? rest
    else if name = "TAG".toList then tagDirective? rest
    else none
  some (token, ← nextLine? rest)

end ApiOutline.Yaml
