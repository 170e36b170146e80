import ApiOutline.Yaml.Glyph

/-!
What stands between two words of a scalar: blanks, or line breaks with blanks around them.

Blanks inside a line are part of the scalar.  A single line break is read as one blank, and of
several the first is dropped.
-/

namespace ApiOutline.Yaml

/-- The blanks and line breaks between two words. -/
structure Gap where
  /-- The blanks, as long as no line is broken. -/
  blanks : List Char := []
  /-- Whether a line is broken. -/
  isBroken : Bool := false
  /-- The first line break; there is none after a break that does not count. -/
  firstBreak : List Char := []
  /-- The line breaks after the first. -/
  furtherBreaks : List Char := []
  deriving DecidableEq, Repr

namespace Gap

/-- The gap after a line break that does not count. -/
def afterBreak : Gap := { isBroken := true }

/-- The gap with one more blank or line break. -/
def add (gap : Gap) (c : Char) : Gap :=
  if isBlank c then
    if gap.isBroken then gap else { gap with blanks := gap.blanks ++ [c] }
  else if gap.isBroken then { gap with furtherBreaks := gap.furtherBreaks ++ [c] }
  else { isBroken := true, firstBreak := [c] }

/-- What a gap is read as. -/
def text (gap : Gap) : List Char :=
  if !gap.isBroken then gap.blanks
  else if gap.firstBreak = ['\n'] then
    if gap.furtherBreaks.isEmpty then [' '] else gap.furtherBreaks
  else gap.firstBreak ++ gap.furtherBreaks

end Gap

/-- A text from right to left, with a gap at its end. -/
def closeGap (reversed : List Char) (gap : Option Gap) : List Char :=
  match gap with
  | none => reversed
  | some gap => gap.text.reverse ++ reversed

end ApiOutline.Yaml
