import ApiOutline.Value.Json
import ApiOutline.Yaml.Scalar.Printer

/-!
Values as YAML text, in block style.

The entries of a mapping stand two blanks deeper than the mapping's own key.  The items of a
sequence stand at the column of its key, each after a dash.  A key that breaks lines, or is long,
has a question mark before it, and its value stands on a line of its own.
-/

namespace ApiOutline.Yaml

/-- The greatest number of bytes in a key without a question mark. -/
def keyLimit : Nat := 128

/-- Whether a character counts as a line break in a key. -/
def breaksKey (c : Char) : Bool := isBreak c || c == '\r' || c.toNat == 0x85

/-- Whether a key is written without a question mark. -/
def isShortKey (key : String) : Bool :=
  key.utf8ByteSize ≤ keyLimit && !key.toList.any breaksKey

/-- Puts a mark before some lines, at a column. -/
def mark (column : Nat) (text : String) : List Line → List Line
  | [] => []
  | first :: rest => { first with indent := column, text := text ++ first.text } :: rest

/-- A key without a question mark. -/
def shortKey (key : String) : String := ((scalarLines 0 key).head?.map Line.text).getD ""

mutual

/-- The lines of a value that stands at a column. -/
def lines (column : Nat) : Value → List Line
  | .null => [{ indent := column, text := "null" }]
  | .bool b => [{ indent := column, text := if b then "true" else "false" }]
  | .number mantissa places => [{ indent := column, text := Value.jsonNumber mantissa places }]
  | .string s => scalarLines column s
  | .array [] => [{ indent := column, text := "[]" }]
  | .array (item :: rest) => mark column "- " (lines (column + 2) item) ++ itemLines column rest
  | .object [] => [{ indent := column, text := "\x7b\x7d" }]
  | .object (entry :: rest) => entryLine column entry ++ entryLines column rest

def itemLines (column : Nat) : List Value → List Line
  | [] => []
  | item :: rest => mark column "- " (lines (column + 2) item) ++ itemLines column rest

/-- The lines of one entry of a mapping. -/
def entryLine (column : Nat) : String × Value → List Line
  | (key, value) =>
    if isShortKey key then
      match value with
      | .array (item :: rest) =>
        { indent := column, text := shortKey key ++ ":" } ::
          (mark column "- " (lines (column + 2) item) ++ itemLines column rest)
      | .object (entry :: rest) =>
        { indent := column, text := shortKey key ++ ":" } ::
          (entryLine (column + 2) entry ++ entryLines (column + 2) rest)
      | value => mark column (shortKey key ++ ": ") (lines (column + 2) value)
    else
      mark column "? " (scalarLines (column + 2) key) ++
        mark column ": " (lines (column + 2) value)

def entryLines (column : Nat) : List (String × Value) → List Line
  | [] => []
  | entry :: rest => entryLine column entry ++ entryLines column rest

end

/-- A line as text, with its ending. -/
def Line.render (line : Line) : String :=
  String.ofList (blanks line.indent) ++ line.text ++ line.ending

def render (v : Value) : String := String.join ((lines 0 v).map Line.render)

end ApiOutline.Yaml
