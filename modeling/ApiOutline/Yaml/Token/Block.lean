import ApiOutline.Yaml.Glyph

/-!
Block scalars: texts that stand indented on the lines after their mark.

A literal scalar keeps its line breaks, and a folded one reads a break between two lines of text as
a blank.  The indentation is that of the first line with text, or is given by a digit.  A sign tells
what becomes of the line breaks at the end: by default one of them is kept.
-/

namespace ApiOutline.Yaml

/-- What becomes of the line breaks at the end of a block scalar. -/
inductive Chomping where
  /-- None is kept. -/
  | strip
  /-- The first is kept. -/
  | clip
  /-- All are kept. -/
  | keep
  deriving DecidableEq, Repr

/-- The chomping that a sign stands for. -/
def Chomping.ofSign? (c : Char) : Option Chomping :=
  if c = '-' then some .strip else if c = '+' then some .keep else none

/-- What stands on the line of the mark of a block scalar. -/
structure BlockHeader where
  /-- What becomes of the line breaks at its end. -/
  chomping : Chomping
  /-- How far it is indented, if it is given. -/
  increment : Option Nat
  /-- The lines after the mark. -/
  rest : List Glyph

/-- The digit from one to nine that a character is. -/
def increment? (c : Char) : Option Nat :=
  if c.isDigit ∧ c ≠ '0' then some (c.toNat - 0x30) else none

/-- Reads the rest of the line of a mark.  A sign and a digit may stand there, in either order; zero
is no indentation. -/
def blockHeader? (glyphs : List Glyph) : Option BlockHeader :=
  let c := charAt 0 glyphs
  let next := charAt 1 glyphs
  match Chomping.ofSign? c with
  | some chomping =>
    if next.isDigit then do
      let n ← increment? next
      some ⟨chomping, some n, ← nextLine? (glyphs.drop 2)⟩
    else do some ⟨chomping, none, ← nextLine? (glyphs.drop 1)⟩
  | none =>
    if c.isDigit then do
      let n ← increment? c
      match Chomping.ofSign? next with
      | some chomping => some ⟨chomping, some n, ← nextLine? (glyphs.drop 2)⟩
      | none => some ⟨.clip, some n, ← nextLine? (glyphs.drop 1)⟩
    else do some ⟨.clip, none, ← nextLine? glyphs⟩

/-- The greatest column at which a line without text, or the first line with text, starts after its
blanks.  A tab among these is an error. -/
def deepestColumn? (deepest : Nat) : List Glyph → Option Nat
  | [] => some deepest
  | g :: rest =>
    if g.char = ' ' then deepestColumn? deepest rest
    else if g.char = '\t' then none
    else if isBreak g.char then deepestColumn? (max deepest g.column) rest
    else some (max deepest g.column)

/-- A block scalar as far as it has been read. -/
structure BlockText where
  /-- The text from right to left, without the line breaks at its end. -/
  reversed : List Char := []
  /-- The line break after the last line of text. -/
  lineBreak : List Char := []
  /-- The line breaks after that. -/
  furtherBreaks : List Char := []
  /-- Whether the last line of text starts with a blank. -/
  isIndented : Bool := false

/-- Begins another line of text, of which the first character is given.  A folded scalar reads the
break between two lines that do not start with a blank as a blank, or as nothing where more breaks
follow. -/
def BlockText.beginLine (literal : Bool) (b : BlockText) (c : Char) : BlockText :=
  let joined :=
    if !literal && b.lineBreak == ['\n'] && !b.isIndented && !isBlank c then
      if b.furtherBreaks.isEmpty then [' '] else b.furtherBreaks
    else b.lineBreak ++ b.furtherBreaks
  { reversed := c :: (joined.reverse ++ b.reversed), isIndented := isBlank c }

/-- The whole text, with the line breaks at its end that are kept. -/
def BlockText.text (chomping : Chomping) (b : BlockText) : List Char :=
  let ending := match chomping with
    | .strip => []
    | .clip => b.lineBreak
    | .keep => b.lineBreak ++ b.furtherBreaks
  b.reversed.reverse ++ ending

/-- Reads the lines of a block scalar on; `inLine` tells whether a line of text has been begun.  The
scalar ends with the first line of text that does not reach its indentation. -/
def blockLines? (literal : Bool) (indent : Nat) (b : BlockText) (inLine : Bool) :
    List Glyph → Option (BlockText × List Glyph)
  | [] => some (b, [])
  | g :: rest =>
    if inLine then
      if g.char = endMark then some (b, g :: rest)
      else if isBreak g.char then
        blockLines? literal indent { b with lineBreak := [g.char] } false rest
      else blockLines? literal indent { b with reversed := g.char :: b.reversed } true rest
    else if isBreak g.char then
      blockLines? literal indent { b with furtherBreaks := b.furtherBreaks ++ [g.char] } false rest
    else if isBlank g.char && g.column < indent then
      if g.char = '\t' then none else blockLines? literal indent b false rest
    else if g.char = endMark || g.column != indent then some (b, g :: rest)
    else blockLines? literal indent (b.beginLine literal g.char) true rest

/-- Reads a block scalar after its mark, inside collections of which the innermost starts at a
column, if there is one. -/
def blockScalar? (literal : Bool) (column : Option Nat) (glyphs : List Glyph) :
    Option (List Char × List Glyph) := do
  let header ← blockHeader? glyphs
  let indent ← match header.increment with
    | some n => some (column.getD 0 + n)
    | none => do
      let margin := (column.map (· + 1)).getD 1
      some (max margin (← deepestColumn? 0 header.rest))
  let (b, rest) ← blockLines? literal indent {} false header.rest
  some (b.text header.chomping, rest)

end ApiOutline.Yaml
