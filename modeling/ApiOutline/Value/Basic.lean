/-!
Trees of plain values: what a document is before it is written as JSON or YAML, and what a record is
read from.
-/

namespace ApiOutline

/-- A plain value.  The entries of an object have an order, which is the order of writing. -/
inductive Value where
  | null
  | bool (b : Bool)
  /-- The decimal number `mantissa / 10 ^ places`. -/
  | number (mantissa : Int) (places : Nat)
  | string (s : String)
  | array (items : List Value)
  | object (entries : List (String × Value))
  deriving Repr, Inhabited

namespace Value

def ofNat (n : Nat) : Value := .number n 0

def ofStrings (texts : List String) : Value := .array (texts.map .string)

/-- A text, or nothing. -/
def ofOption : Option String → Value
  | none => .null
  | some s => .string s

def string? : Value → Option String
  | .string s => some s
  | _ => none

def bool? : Value → Option Bool
  | .bool b => some b
  | _ => none

/-- The natural number that a value is, if it fits into sixty-four bits. -/
def word? : Value → Option Nat
  | .number (.ofNat n) 0 => if n < Nat.pow 2 64 then some n else none
  | _ => none

/-- The values of an array that each have a reading. -/
def list? {α : Type} (read : Value → Option α) : Value → Option (List α)
  | .array items => items.mapM read
  | _ => none

def entries? : Value → Option (List (String × Value))
  | .object entries => some entries
  | _ => none

end Value

end ApiOutline
