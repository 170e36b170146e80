import ApiOutline.Value.Basic

/-!
Values as JSON text, one entry a line, each level two blanks deeper than the one around it.
-/

namespace ApiOutline.Value

/-- A digit of base sixteen, in lower case. -/
def hexDigit (n : Nat) : Char := (Nat.toDigits 16 (n % 16)).headD '0'

/-- A character inside a quoted text. -/
def jsonChar (c : Char) : List Char :=
  if c = '"' then ['\\', '"']
  else if c = '\\' then ['\\', '\\']
  else if c.toNat = 0x08 then ['\\', 'b']
  else if c.toNat = 0x0C then ['\\', 'f']
  else if c = '\n' then ['\\', 'n']
  else if c = '\r' then ['\\', 'r']
  else if c = '\t' then ['\\', 't']
  else if c.toNat < 0x20 then
    ['\\', 'u', '0', '0', hexDigit (c.toNat / 16), hexDigit c.toNat]
  else [c]

def jsonString (s : String) : String :=
  "\"" ++ String.ofList (s.toList.flatMap jsonChar) ++ "\""

/-- A decimal number, with a point where it has places. -/
def jsonNumber (mantissa : Int) (places : Nat) : String :=
  let sign := if mantissa < 0 then "-" else ""
  if places = 0 then sign ++ mantissa.natAbs.repr
  else
    let fraction := (mantissa.natAbs % Nat.pow 10 places).repr
    sign ++ (mantissa.natAbs / Nat.pow 10 places).repr ++ "." ++
      String.ofList (List.replicate (places - fraction.length) '0') ++ fraction

/-- The start of a line some levels deep. -/
def jsonIndent (depth : Nat) : String := "\n" ++ String.ofList (List.replicate (2 * depth) ' ')

mutual

/-- A value as JSON text, inside something `depth` levels deep. -/
def jsonAt (depth : Nat) : Value → String
  | .null => "null"
  | .bool b => if b then "true" else "false"
  | .number mantissa places => jsonNumber mantissa places
  | .string s => jsonString s
  | .array [] => "[]"
  | .array (item :: rest) =>
    "[" ++ jsonIndent (depth + 1) ++ jsonAt (depth + 1) item ++ jsonItems (depth + 1) rest ++
      jsonIndent depth ++ "]"
  | .object [] => "\x7b\x7d"
  | .object ((key, value) :: rest) =>
    "\x7b" ++ jsonIndent (depth + 1) ++ jsonString key ++ ": " ++ jsonAt (depth + 1) value ++
      jsonEntries (depth + 1) rest ++ jsonIndent depth ++ "\x7d"

/-- The items of an array after its first. -/
def jsonItems (depth : Nat) : List Value → String
  | [] => ""
  | item :: rest => "," ++ jsonIndent depth ++ jsonAt depth item ++ jsonItems depth rest

/-- The entries of an object after its first. -/
def jsonEntries (depth : Nat) : List (String × Value) → String
  | [] => ""
  | (key, value) :: rest =>
    "," ++ jsonIndent depth ++ jsonString key ++ ": " ++ jsonAt depth value ++
      jsonEntries depth rest

end

def toJson (v : Value) : String := jsonAt 0 v

end ApiOutline.Value
