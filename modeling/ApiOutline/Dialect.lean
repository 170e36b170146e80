/-!
The two dialects of the outline language and the options of one compilation.
-/

namespace ApiOutline

/-- A dialect of the outline language.  Both share one grammar; the later one adds wildcard
endpoints and the response envelope. -/
inductive Dialect where
  | v1
  | v4
  deriving DecidableEq, Repr, Inhabited

namespace Dialect

def all : List Dialect := [.v1, .v4]

def name : Dialect → String
  | .v1 => "v1"
  | .v4 => "v4"

def ofName? (s : String) : Option Dialect := all.find? (·.name == s)

/-- Whether the name of an endpoint may end in a wildcard segment. -/
def allowsWildcard : Dialect → Bool
  | .v1 => false
  | .v4 => true

/-- Whether the directive that shapes the response envelope is known. -/
def hasEnvelope : Dialect → Bool
  | .v1 => false
  | .v4 => true

/-- A dialect is known by its name. -/
theorem ofName?_name (d : Dialect) : ofName? d.name = some d := by
  cases d <;> decide

end Dialect

/-- What a compilation depends on besides its text. -/
structure Options where
  /-- The dialect of the text. -/
  dialect : Dialect := .v4
  /-- How many blanks make one level of indentation; none counts as one. -/
  tabWidth : Nat := 4
  deriving DecidableEq, Repr, Inhabited

namespace Options

/-- The width of one level, never zero. -/
def levelWidth (o : Options) : Nat := max o.tabWidth 1

/-- A level is never zero columns wide, so that a width can be divided by it. -/
theorem levelWidth_pos (o : Options) : 0 < o.levelWidth :=
  Nat.lt_of_lt_of_le Nat.zero_lt_one (Nat.le_max_right _ _)

end Options

end ApiOutline
