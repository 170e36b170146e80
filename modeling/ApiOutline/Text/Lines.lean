/-!
The lines of a text.

A line ends at a line feed, and one carriage return right before that line feed belongs to the
ending.  A carriage return anywhere else is part of its line, and a text that ends in a line feed
has no further, empty line after it.
-/

namespace ApiOutline.Text

/-- Puts a character in front of the first line. -/
def consLine (c : Char) : List (List Char) → List (List Char)
  | [] => [[c]]
  | line :: rest => (c :: line) :: rest

/-- The lines of a text, without their endings. -/
def splitLines : List Char → List (List Char)
  | [] => []
  | '\n' :: cs => [] :: splitLines cs
  | '\r' :: '\n' :: cs => [] :: splitLines cs
  | c :: cs => consLine c (splitLines cs)

def lines (text : String) : List String :=
  (splitLines text.toList).map String.ofList

end ApiOutline.Text
