import ApiOutline.Yaml.Token.Gap

/-!
Plain scalars: texts without quotes.

A plain scalar goes on over line breaks, as long as its lines are indented more than the collection
around it.  It ends before a colon with a gap after it and before a comment, and inside brackets
also before a comma and a bracket.
-/

namespace ApiOutline.Yaml

/-- The brackets of both kinds, and the comma. -/
def flowMarks : List Char := ",[]\x7b\x7d".toList

/-- Whether a plain scalar ends before a character, given the one after it. -/
def endsPlain (inFlow : Bool) (c next : Char) : Bool :=
  (c == ':' && isGap next) || (inFlow && flowMarks.contains c)

/-- Whether a colon inside brackets stands where it is neither part of a word nor before a gap. -/
def isStrayColon (inFlow : Bool) (c next : Char) : Bool :=
  inFlow && c == ':' && ('?' :: flowMarks).contains next

/-- A plain scalar as it is read. -/
structure PlainText where
  /-- The text. -/
  text : List Char
  /-- Whether lines are broken after its last word. -/
  isBroken : Bool
  /-- What follows it, and the gap after it. -/
  rest : List Glyph

/-- The plain scalar that has been read from right to left, with the gap after it. -/
def PlainText.ofReversed (reversed : List Char) (gap : Option Gap) (rest : List Glyph) :
    PlainText :=
  ⟨reversed.reverse, gap.any (·.isBroken), rest⟩

/-- Reads a plain scalar on from the words and the gap before some characters.  Lines that stand
left of `margin` are no part of it, and a tab there is an error. -/
def plainFrom? (inFlow : Bool) (margin : Nat) (reversed : List Char) (gap : Option Gap) :
    List Glyph → Option PlainText
  | [] => some (.ofReversed reversed gap [])
  | g :: rest =>
    if g.char = endMark then some (.ofReversed reversed gap (g :: rest))
    else if isGap g.char then
      if gap.any (·.isBroken) && g.char == '\t' && g.column < margin then none
      else plainFrom? inFlow margin reversed (some ((gap.getD {}).add g.char)) rest
    else if gap.isSome &&
        ((!inFlow && g.column < margin) || isDocumentMark (g :: rest) || g.char == '#') then
      some (.ofReversed reversed gap (g :: rest))
    else if isStrayColon inFlow g.char (charAt 0 rest) then none
    else if endsPlain inFlow g.char (charAt 0 rest) then
      some (.ofReversed reversed gap (g :: rest))
    else plainFrom? inFlow margin (g.char :: closeGap reversed gap) none rest

def plain? (inFlow : Bool) (margin : Nat) (glyphs : List Glyph) : Option PlainText :=
  plainFrom? inFlow margin [] none glyphs

end ApiOutline.Yaml
