/-!
Blank characters, and a text without the blanks around it.

A character is blank when it has the Unicode property `White_Space`; the zero-width marks and the
control characters 1C to 1F do not have it.  Every reader of a line in this library skips exactly
these characters, so the set is stated once, here.
-/

namespace ApiOutline.Text

/-- Whether a character has the property `White_Space`. -/
def isBlank (c : Char) : Bool :=
  let n := c.toNat
  (9 ≤ n && n ≤ 13) || n == 0x20 || n == 0x85 || n == 0xA0 || n == 0x1680 ||
    (0x2000 ≤ n && n ≤ 0x200A) || n == 0x2028 || n == 0x2029 || n == 0x202F || n == 0x205F ||
    n == 0x3000

/-- Whether a text holds nothing but blanks. -/
def isBlankText (s : List Char) : Bool := s.all isBlank

/-- A text without its leading blanks. -/
def trimStart (s : List Char) : List Char := s.dropWhile isBlank

/-- A text without its trailing blanks. -/
def trimEnd (s : List Char) : List Char := (s.reverse.dropWhile isBlank).reverse

/-- A text without the blanks around it. -/
def trim (s : List Char) : List Char := trimEnd (trimStart s)

/-- How many blanks a text starts with, whatever kinds of blank they are. -/
def indentWidth (s : List Char) : Nat := (s.takeWhile isBlank).length

/-- A text is its leading blanks and what is left without them. -/
theorem takeWhile_append_trimStart (s : List Char) : s.takeWhile isBlank ++ trimStart s = s :=
  List.takeWhile_append_dropWhile

/-- What is left without leading blanks does not start with one. -/
theorem trimStart_head {s : List Char} {c : Char} (first : (trimStart s).head? = some c) :
    isBlank c = false := by
  have kept := List.head?_dropWhile_not isBlank s
  rw [← trimStart, first] at kept
  exact kept

end ApiOutline.Text
