import ApiOutline.Yaml.Escape
import ApiOutline.Yaml.Glyph
import ApiOutline.Yaml.Scalar
import ApiOutline.Yaml.Token

/-!
Texts as YAML scalars.

A text is written without quotes where nothing in it could be read otherwise, and a text with line
feeds in literal lines.  What neither of them can hold is written in single quotes, and in double
quotes where it has characters that do not print, or blanks next to a line break.
-/

namespace ApiOutline.Yaml

/-! ## Choosing a style -/

/-- Whether a character can be written as it is. -/
def isPrintable (c : Char) : Bool :=
  let n := c.toNat
  n == 0x0A || (0x20 ≤ n && n ≤ 0x7E) || (0xA0 ≤ n && n != 0xFEFF && n != 0xFFFE && n != 0xFFFF)

/-- Whether a word ends before the rest of a text. -/
def isAtGap (rest : List Char) : Bool := isGap (rest.headD endMark)

/-- Whether a text has a colon before a gap, or a `#` after one; `afterGap` tells whether a gap
stands before the text. -/
def hasInnerMark (afterGap : Bool) : List Char → Bool
  | [] => false
  | c :: rest =>
    (c == ':' && isAtGap rest) || (c == '#' && afterGap) || hasInnerMark (isGap c) rest

/-- Whether the start of a text would be read as a mark of structure. -/
def hasLeadingMark : List Char → Bool
  | [] => false
  | c :: rest =>
    indicators.contains c || ((c == '?' || c == ':' || c == '-') && isAtGap rest) ||
      "---".toList.isPrefixOf (c :: rest) || "...".toList.isPrefixOf (c :: rest)

/-- Whether a text has a character of one kind right before one of another. -/
def hasPair (first second : Char → Bool) : List Char → Bool
  | c :: d :: rest => (first c && second d) || hasPair first second (d :: rest)
  | _ => false

/-- Whether a blank stands before a line break. -/
def hasBlankBeforeBreak (s : List Char) : Bool := hasPair (· == ' ') isBreak s

/-- Whether a blank stands after a line break. -/
def hasBlankAfterBreak (s : List Char) : Bool := hasPair isBreak (· == ' ') s

/-- Whether a text can be written without quotes. -/
def fitsPlain (s : List Char) : Bool :=
  !isTyped s && !hasLeadingMark s && !hasInnerMark false s && !s.any isBreak &&
    s.head? != some ' ' && s.getLast? != some ' '

/-- Whether a text of printable characters can be written in literal lines. -/
def fitsLiteral (s : List Char) : Bool := !hasBlankBeforeBreak s && s.getLast? != some ' '

/-- Whether a text of printable characters can be written in single quotes. -/
def fitsSingleQuotes (s : List Char) : Bool := !hasBlankBeforeBreak s && !hasBlankAfterBreak s

/-- The style that a text is written in. -/
def styleOf (s : List Char) : Style :=
  if !s.all isPrintable then .doubleQuoted
  else if s.contains '\n' then if fitsLiteral s then .literal else .doubleQuoted
  else if fitsPlain s then .plain
  else if fitsSingleQuotes s then .singleQuoted
  else .doubleQuoted

/-! ## Writing -/

/-- A line of what is written. -/
structure Line where
  /-- How many blanks stand before it. -/
  indent : Nat
  /-- What it says. -/
  text : String
  /-- What ends it: a line feed, unless its text ends with another line break of its own. -/
  ending : String := "\n"
  deriving DecidableEq, Repr

def blanks (n : Nat) : List Char := List.replicate n ' '

/-- A text with blanks after its line breaks, as long as its line goes on; `afterBreak` tells
whether a break stands before the text. -/
def indentBreaks (indent : Nat) (afterBreak : Bool) : List Char → List Char
  | [] => []
  | c :: rest =>
    if isBreak c then c :: indentBreaks indent true rest
    else (if afterBreak then blanks indent else []) ++ c :: indentBreaks indent false rest

/-- A number in base sixteen, in upper case, with zeros in front up to a width. -/
def hex (width n : Nat) : List Char :=
  let digits := (Nat.toDigits 16 n).map Char.toUpper
  List.replicate (width - digits.length) '0' ++ digits

/-- A character inside double quotes. -/
def escapeChar (c : Char) : List Char :=
  if isPrintable c && !isBreak c && c != '"' && c != '\\' then [c]
  else match escapeLetter? c with
    | some letter => ['\\', letter]
    | none =>
      if c.toNat ≤ 0xFF then '\\' :: 'x' :: hex 2 c.toNat else '\\' :: 'u' :: hex 4 c.toNat

def doubleQuotes (s : List Char) : List Char := '"' :: s.flatMap escapeChar ++ ['"']

/-- A character inside single quotes: the quote itself is written twice. -/
def doubleQuote (c : Char) : List Char := if c.toNat = 0x27 then [c, c] else [c]

/-- A text in single quotes, with blanks after its line breaks. -/
def singleQuotes (indent : Nat) (s : List Char) : List Char :=
  let quote := Char.ofNat 0x27
  let ending := if s.getLast?.any isBreak then blanks indent else []
  quote :: (indentBreaks indent false s).flatMap doubleQuote ++ ending ++ [quote]

/-- What follows the mark of literal lines: how deep they stand, where their start would not show
it, and what becomes of the breaks at their end. -/
def literalHint (s : List Char) : List Char :=
  let depth := if s.head?.any (fun c => c == ' ' || isBreak c) then ['2'] else []
  let ending := match s.reverse with
    | [] => ['-']
    | [c] => if isBreak c then ['+'] else ['-']
    | c :: before :: _ => if !isBreak c then ['-'] else if isBreak before then ['+'] else []
  depth ++ ending

/-- The lines between the line feeds of a literal text, whose last may end with another break. -/
def literalBody : List (List Char) → List Line
  | [] | [[]] => []
  | [last] => [⟨0, String.ofList last, if last.getLast?.any isBreak then "" else "\n"⟩]
  | piece :: rest => { indent := 0, text := String.ofList piece } :: literalBody rest

/-- The literal lines of a text. -/
def literalLines (indent : Nat) (s : List Char) : List Line :=
  { indent, text := String.ofList ('|' :: literalHint s) } ::
    literalBody ((indentBreaks indent true s).splitOn '\n')

/-- The lines of a text as a scalar, which stands at a column. -/
def scalarLines (column : Nat) (s : String) : List Line :=
  let chars := s.toList
  match styleOf chars with
  | .literal => literalLines column chars
  | .doubleQuoted => [{ indent := column, text := String.ofList (doubleQuotes chars) }]
  | .singleQuoted => [{ indent := column, text := String.ofList (singleQuotes column chars) }]
  | .plain | .folded => [{ indent := column, text := s }]

end ApiOutline.Yaml
