import ApiOutline.Yaml.Escape
import ApiOutline.Yaml.Scalar
import ApiOutline.Yaml.Token.Gap

/-!
Scalars in quotes.

They end at the next quote and may go on over any lines but a mark of a document.  Inside single
quotes a quote is written twice.  Inside double quotes a backslash makes a character of the letters
after it, and a line break after it does not count.
-/

namespace ApiOutline.Yaml

def singleQuote : Char := Char.ofNat 0x27

/-- Reads on inside single quotes; `afterQuote` tells whether a quote has just been read, of which
it is open whether it is the first of two. -/
def singleQuotedFrom? (reversed : List Char) (gap : Option Gap) (afterQuote : Bool) :
    List Glyph → Option (List Char × List Glyph)
  | [] => none
  | g :: rest =>
    if afterQuote then
      if g.char = singleQuote then singleQuotedFrom? (singleQuote :: reversed) none false rest
      else some (reversed.reverse, g :: rest)
    else if g.char = endMark || isDocumentMark (g :: rest) then none
    else if isGap g.char then
      singleQuotedFrom? reversed (some ((gap.getD {}).add g.char)) false rest
    else if g.char = singleQuote then singleQuotedFrom? (closeGap reversed gap) none true rest
    else singleQuotedFrom? (g.char :: closeGap reversed gap) none false rest

/-- Reads a scalar in single quotes, after the first of them. -/
def singleQuoted? (glyphs : List Glyph) : Option (List Char × List Glyph) :=
  singleQuotedFrom? [] none false glyphs

/-- A backslash and what has been read after it. -/
inductive Escape where
  /-- Nothing has been read after it. -/
  | begun
  /-- Some digits are still to be read, and those before them have a value. -/
  | number (owed value : Nat)

/-- The character with a number, if there is one. -/
def charOf? (n : Nat) : Option Char :=
  if n < 0xD800 ∨ (0xDFFF < n ∧ n ≤ 0x10FFFF) then some (Char.ofNat n) else none

/-- Reads on inside double quotes, where a backslash may have been read. -/
def doubleQuotedFrom? (reversed : List Char) (gap : Option Gap) (escape : Option Escape) :
    List Glyph → Option (List Char × List Glyph)
  | [] => none
  | g :: rest =>
    match escape with
    | some .begun =>
      if isBreak g.char then doubleQuotedFrom? reversed (some .afterBreak) none rest
      else match escapes.lookup g.char, numberLetters.lookup g.char with
        | some n, _ => doubleQuotedFrom? (Char.ofNat n :: reversed) none none rest
        | none, some owed => doubleQuotedFrom? reversed none (some (.number owed 0)) rest
        | none, none => none
    | some (.number owed value) =>
      match digitValue? 16 g.char with
      | none => none
      | some digit =>
        let value := 16 * value + digit
        if 1 < owed then doubleQuotedFrom? reversed none (some (.number (owed - 1) value)) rest
        else match charOf? value with
          | none => none
          | some c => doubleQuotedFrom? (c :: reversed) none none rest
    | none =>
      if g.char = endMark || isDocumentMark (g :: rest) then none
      else if isGap g.char then
        doubleQuotedFrom? reversed (some ((gap.getD {}).add g.char)) none rest
      else
        let reversed := closeGap reversed gap
        if g.char = '"' then some (reversed.reverse, rest)
        else if g.char = '\\' then doubleQuotedFrom? reversed none (some .begun) rest
        else doubleQuotedFrom? (g.char :: reversed) none none rest

/-- Reads a scalar in double quotes, after the first of them. -/
def doubleQuoted? (glyphs : List Glyph) : Option (List Char × List Glyph) :=
  doubleQuotedFrom? [] none none glyphs

end ApiOutline.Yaml
