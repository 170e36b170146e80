/-!
Plain scalars of YAML that are read as something else than text: nothing, a truth value, a number.

A scalar without quotes is taken for one of these whenever it has its form, so a text of such a form
has to be quoted.
-/

namespace ApiOutline.Yaml

/-- The characters that a plain scalar cannot start with. -/
def indicators : List Char := "#,[]\x7b\x7d&*!|>'\"%@`".toList

/-- Whether a plain scalar stands for nothing. -/
def isNull (s : List Char) : Bool :=
  s.isEmpty || ["null", "Null", "NULL", "~"].any (·.toList == s)

/-- Whether a plain scalar stands for a truth value. -/
def isBool (s : List Char) : Bool :=
  ["true", "True", "TRUE", "false", "False", "FALSE"].any (·.toList == s)

/-- The value of a digit, in a base up to sixteen. -/
def digitValue? (base : Nat) (c : Char) : Option Nat :=
  let n := c.toNat
  let value? : Option Nat :=
    if c.isDigit then some (n - 0x30)
    else if 0x61 ≤ n ∧ n ≤ 0x66 then some (n - 0x61 + 10)
    else if 0x41 ≤ n ∧ n ≤ 0x46 then some (n - 0x41 + 10)
    else none
  value?.filter (· < base)

/-- The value of some digits, most significant first; no digits have no value. -/
def digits? (base : Nat) (s : List Char) : Option Nat :=
  if s.isEmpty then none
  else s.foldlM (fun n c => (digitValue? base c).map (base * n + ·)) 0

/-- A scalar without the sign `+`. -/
def dropPlus (s : List Char) : List Char := (['+'].isPrefixOf? s).getD s

/-- The value of a number with a mark for its base. -/
def marked? (s : List Char) : Option Nat :=
  match s with
  | '0' :: 'x' :: rest => digits? 16 rest
  | '0' :: 'o' :: rest => digits? 8 rest
  | '0' :: 'b' :: rest => digits? 2 rest
  | _ => none

/-- Whether a scalar is a row of digits that starts with a needless zero, after a sign or without
one: it is not read as a number. -/
def isZeroPadded (s : List Char) : Bool :=
  let unsigned := match s with
    | '+' :: rest => rest
    | '-' :: rest => rest
    | _ => s
  match unsigned with
  | '0' :: c :: rest => (c :: rest).all Char.isDigit
  | _ => false

/-- The magnitude of a number without sign: decimal, or with the mark of another base. -/
def magnitude? (s : List Char) : Option Nat :=
  (marked? s).or (if isZeroPadded s then none else digits? 10 s)

/-- The natural number below `bound` that a plain scalar stands for, after a plus sign or without
one. -/
def natural? (bound : Nat) (s : List Char) : Option Nat :=
  (magnitude? (dropPlus s)).filter (· < bound)

/-- Whether a plain scalar stands for an integer in another base than ten, one that fits into a
hundred and twenty-eight bits. -/
def isMarkedInteger (s : List Char) : Bool :=
  match s with
  | '-' :: rest => ((marked? rest).filter (· ≤ Nat.pow 2 127)).isSome
  | _ => ((marked? (dropPlus s)).filter (· < Nat.pow 2 128)).isSome

/-- The least magnitude that is rounded to infinity: half a unit above the greatest double. -/
def overflow : Nat := Nat.pow 2 1024 - Nat.pow 2 970

/-- Whether the decimal number `digits * 10 ^ up / 10 ^ down` is rounded to a finite double.
Numbers of at most 308 places before the point are, those of more than 310 are not, and between them
the magnitude decides. -/
def isFinite (digits up down : Nat) : Bool :=
  let places := digits.repr.length + up
  digits == 0 || places ≤ 308 + down ||
    (places ≤ 310 + down && digits * Nat.pow 10 (up - down) < overflow * Nat.pow 10 (down - up))

/-- The exponent that ends a decimal number: how far up and how far down it moves the point. -/
def exponent? : List Char → Option (Nat × Nat)
  | [] => some (0, 0)
  | mark :: rest =>
    if mark = 'e' ∨ mark = 'E' then
      match rest with
      | '-' :: digits => (digits? 10 digits).map (0, ·)
      | '+' :: digits => (digits? 10 digits).map (·, 0)
      | digits => (digits? 10 digits).map (·, 0)
    else none

/-- Whether a text without sign is a decimal number, with a point and an exponent or without, that
is rounded to a finite double. -/
def isDecimal (s : List Char) : Bool :=
  let whole := s.takeWhile Char.isDigit
  let rest := s.dropWhile Char.isDigit
  let (fraction, rest) := match rest with
    | '.' :: rest => (rest.takeWhile Char.isDigit, rest.dropWhile Char.isDigit)
    | _ => ([], rest)
  match digits? 10 (whole ++ fraction), exponent? rest with
  | some digits, some (up, down) => isFinite digits up (down + fraction.length)
  | _, _ => false

/-- Whether a text without sign stands for infinity. -/
def isInfinity (s : List Char) : Bool := [".inf", ".Inf", ".INF"].any (·.toList == s)

/-- Whether a plain scalar stands for a decimal number, an infinity or no number at all. -/
def isFloat (s : List Char) : Bool :=
  match s with
  | '+' :: rest => isInfinity rest || isDecimal rest
  | '-' :: rest => isInfinity rest || isDecimal rest
  | _ => isInfinity s || [".nan", ".NaN", ".NAN"].any (·.toList == s) || isDecimal s

/-- Whether a plain scalar is read as something else than text, or is a row of digits that only its
first zero keeps from being a number. -/
def isTyped (s : List Char) : Bool :=
  isNull s || isBool s || isMarkedInteger s || isZeroPadded s || isFloat s

end ApiOutline.Yaml
