import ApiOutline.Text.Blank

/-!
Cutting a text: at blanks, at commas, at the first place where a character stands, at the first or
the last place where a mark does.  A text is a list of characters, and each cut is made of those of
`List` or is a recursion of its own.
-/

namespace ApiOutline.Text

/-- The longest stretches without a blank, in order. -/
def words (s : List Char) : List (List Char) :=
  (s.splitOnP isBlank).filter (!·.isEmpty)

/-- The entries of a comma list: trimmed, and none of them empty. -/
def commaItems (s : List Char) : List (List Char) :=
  ((s.splitOn ',').map trim).filter (!·.isEmpty)

/-- The two sides of the first character that satisfies `p`. -/
def cutWhere? (p : Char → Bool) : List Char → Option (List Char × List Char)
  | [] => none
  | c :: cs =>
    if p c then some ([], cs)
    else (cutWhere? p cs).map fun (before, after) => (c :: before, after)

/-- The two sides of the first occurrence of a separator. -/
def cut? (separator : Char) (s : List Char) : Option (List Char × List Char) :=
  cutWhere? (· == separator) s

/-- What stands before the first occurrence of `mark`. -/
def before? (mark : List Char) : List Char → Option (List Char)
  | [] => if mark.isEmpty then some [] else none
  | c :: cs => if mark.isPrefixOf (c :: cs) then some [] else (before? mark cs).map (c :: ·)

/-- What stands after the last occurrence of `mark`. -/
def afterLast? (mark : List Char) : List Char → Option (List Char)
  | [] => mark.isPrefixOf? []
  | c :: cs =>
    match afterLast? mark cs with
    | some rest => some rest
    | none => mark.isPrefixOf? (c :: cs)

/-- What stands before the last occurrence of a separator. -/
def beforeLast? (separator : Char) (s : List Char) : Option (List Char) :=
  (cut? separator s.reverse).map (·.2.reverse)

def occurs (mark s : List Char) : Bool := (before? mark s).isSome

end ApiOutline.Text
