/-!
The characters of a YAML text with their places.

Layout carries meaning in YAML, so every reader of a part of the text is given characters that know
the line and the column they stand in.  Line breaks are unified first: a carriage return, a line
feed, the two of them together and the next-line character are all one line feed.  The line and
paragraph separators break lines too and stay what they are.  The text is followed by a zero
character, which no text has in it, so that its end has a place as well.
-/

namespace ApiOutline.Yaml

/-- A character and where it stands: how many bytes and how many lines are before it, and how many
characters of its own line. -/
structure Glyph where
  /-- The character. -/
  char : Char
  /-- How many bytes stand before it, in UTF-8. -/
  offset : Nat
  /-- How many lines stand before its own. -/
  line : Nat
  /-- How many characters of its line stand before it. -/
  column : Nat
  deriving DecidableEq, Repr

/-- The character after the last one of a text. -/
def endMark : Char := Char.ofNat 0

/-- Whether a character is a blank inside a line. -/
def isBlank (c : Char) : Bool := c == ' ' || c == '\t'

/-- Whether a character breaks a line. -/
def isBreak (c : Char) : Bool := c == '\n' || c.toNat == 0x2028 || c.toNat == 0x2029

/-- Whether a line ends at a character: at a break, and at the end of the text. -/
def isLineEnd (c : Char) : Bool := isBreak c || c == endMark

/-- Whether a word ends at a character. -/
def isGap (c : Char) : Bool := isBlank c || isLineEnd c

/-- Whether a character may stand in a text. -/
def isAllowed (c : Char) : Bool :=
  let n := c.toNat
  n == 0x09 || n == 0x0A || n == 0x0D || (0x20 ≤ n && n ≤ 0x7E) || n == 0x85 ||
    (0xA0 ≤ n && n != 0xFFFE && n != 0xFFFF)

/-- A text with one character for each line break. -/
def unifyBreaks : List Char → List Char
  | [] => []
  | '\r' :: '\n' :: rest => '\n' :: unifyBreaks rest
  | c :: rest => (if c = '\r' ∨ c.toNat = 0x85 then '\n' else c) :: unifyBreaks rest

/-- The characters of a text with their places, the first of which is given. -/
def place (offset line column : Nat) : List Char → List Glyph
  | [] => [⟨endMark, offset, line, column⟩]
  | c :: rest =>
    ⟨c, offset, line, column⟩ ::
      (if isBreak c then place (offset + c.utf8Size) (line + 1) 0 rest
       else place (offset + c.utf8Size) line (column + 1) rest)

/-- The characters of a text with their places; a text with a character that may not stand in it has
none. -/
def glyphs? (text : String) : Option (List Glyph) :=
  if text.toList.all isAllowed then some (place 0 0 0 (unifyBreaks text.toList)) else none

/-- The character at a distance. -/
def charAt (distance : Nat) (glyphs : List Glyph) : Char :=
  ((glyphs.drop distance).head?.map Glyph.char).getD endMark

/-- Whether the mark between documents, or that of their end, stands at the start of a line. -/
def isDocumentMark (glyphs : List Glyph) : Bool :=
  let mark := (glyphs.take 3).map Glyph.char
  glyphs.head?.any (·.column == 0) && (mark == "---".toList || mark == "...".toList) &&
    isGap (charAt 3 glyphs)

/-- The characters up to the first that fails a test, and what follows them. -/
def span (holds : Char → Bool) (glyphs : List Glyph) : List Char × List Glyph :=
  ((glyphs.takeWhile (holds ·.char)).map Glyph.char, glyphs.dropWhile (holds ·.char))

/-- What follows some blanks. -/
def dropBlanks (glyphs : List Glyph) : List Glyph := glyphs.dropWhile (isBlank ·.char)

/-- The start of the next line, after nothing but blanks and a comment. -/
def nextLine? (glyphs : List Glyph) : Option (List Glyph) :=
  let rest := dropBlanks glyphs
  let rest := if charAt 0 rest == '#' then rest.dropWhile (!isLineEnd ·.char) else rest
  if isBreak (charAt 0 rest) then some (rest.drop 1)
  else if charAt 0 rest == endMark then some rest
  else none

end ApiOutline.Yaml
