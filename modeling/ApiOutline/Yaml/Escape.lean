/-!
The letters that stand for a character after a backslash, inside double quotes.
-/

namespace ApiOutline.Yaml

/-- Letters after a backslash, with the characters they stand for. -/
def escapes : List (Char × Nat) :=
  [('0', 0x00), ('a', 0x07), ('b', 0x08), ('t', 0x09), ('\t', 0x09), ('n', 0x0A), ('v', 0x0B),
   ('f', 0x0C), ('r', 0x0D), ('e', 0x1B), (' ', 0x20), ('"', 0x22), ('/', 0x2F), ('\\', 0x5C),
   ('N', 0x85), ('_', 0xA0), ('L', 0x2028), ('P', 0x2029)]

/-- The letter that a character is written with after a backslash. -/
def escapeLetter? (c : Char) : Option Char :=
  (escapes.find? (·.2 == c.toNat)).map (·.1)

/-- The letters after a backslash that start a character's number, with how many digits it has. -/
def numberLetters : List (Char × Nat) := [('x', 2), ('u', 4), ('U', 8)]

end ApiOutline.Yaml
