import ApiOutline.Text.Upper

/-!
Identifiers: the names that an outline may give to its root, groups, endpoints and fields.
-/

namespace ApiOutline.Ident

/-- The characters an identifier may start with: an ASCII letter or an underscore. -/
def isHead (c : Char) : Bool := c.isAlpha || c == '_'

/-- The characters an identifier may go on with: an ASCII letter or digit, or an underscore. -/
def isTail (c : Char) : Bool := c.isAlphanum || c == '_'

/-- Whether a text is an identifier. -/
def isIdent : List Char → Bool
  | [] => false
  | c :: cs => isHead c && cs.all isTail

def isValid (s : String) : Bool := isIdent s.toList

/-- A name with its first character in upper case. -/
def capitalize (s : String) : String := String.ofList (Text.upperFirst s.toList)

/-- Whatever may stand first may also stand later. -/
theorem isTail_of_isHead {c : Char} (head : isHead c) : isTail c := by
  simp only [isHead, Bool.or_eq_true] at head
  rcases head with kind | kind <;> simp [isTail, Char.isAlphanum, kind]

end ApiOutline.Ident
