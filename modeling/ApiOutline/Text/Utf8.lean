/-!
Text as bytes: UTF-8, with a reading of bytes that are no text.

Bytes are read one at a time.  A byte that cannot go on with the character begun before it ends that
stretch as malformed and is read again as the start of a character, so a malformed stretch is the
longest start of a character that stands there, or else one byte.
-/

namespace ApiOutline.Text

/-- A character of which some bytes are still to come. -/
structure PartialChar where
  /-- How many bytes are to come. -/
  owed : Nat
  /-- The least value of the next byte. -/
  low : Nat
  /-- The greatest value of the next byte. -/
  high : Nat
  /-- The bits read so far. -/
  bits : Nat
  deriving DecidableEq, Repr

/-- What a byte is at the start of a character: a whole one, the start of a longer one, or
malformed. -/
def startChar (b : Nat) : List (Option Char) × Option PartialChar :=
  if b < 0x80 then ([some (Char.ofNat b)], none)
  else if 0xC2 ≤ b ∧ b ≤ 0xDF then ([], some ⟨1, 0x80, 0xBF, b - 0xC0⟩)
  else if b = 0xE0 then ([], some ⟨2, 0xA0, 0xBF, 0⟩)
  else if b = 0xED then ([], some ⟨2, 0x80, 0x9F, 0xD⟩)
  else if 0xE1 ≤ b ∧ b ≤ 0xEF then ([], some ⟨2, 0x80, 0xBF, b - 0xE0⟩)
  else if b = 0xF0 then ([], some ⟨3, 0x90, 0xBF, 0⟩)
  else if 0xF1 ≤ b ∧ b ≤ 0xF3 then ([], some ⟨3, 0x80, 0xBF, b - 0xF0⟩)
  else if b = 0xF4 then ([], some ⟨3, 0x80, 0x8F, 4⟩)
  else ([none], none)

/-- Reads one byte after the start of a character, if one was begun: the characters it completes and
the malformed stretches it ends, and what is begun afterwards. -/
def readByte (begun : Option PartialChar) (b : Nat) : List (Option Char) × Option PartialChar :=
  match begun with
  | none => startChar b
  | some p =>
    if p.low ≤ b ∧ b ≤ p.high then
      let bits := p.bits * 0x40 + (b - 0x80)
      if p.owed ≤ 1 then ([some (Char.ofNat bits)], none)
      else ([], some ⟨p.owed - 1, 0x80, 0xBF, bits⟩)
    else
      let (chars, begun) := startChar b
      (none :: chars, begun)

/-- The characters of some bytes, with `none` for each malformed stretch. -/
def decodeFrom (begun : Option PartialChar) : List UInt8 → List (Option Char)
  | [] => if begun.isSome then [none] else []
  | b :: bytes =>
    let (chars, begun) := readByte begun b.toNat
    chars ++ decodeFrom begun bytes

/-- The text that some bytes are; malformed bytes are none. -/
def decode? (bytes : List UInt8) : Option String :=
  ((decodeFrom none bytes).mapM id).map String.ofList

/-- The text that some bytes are, with a replacement character for each malformed stretch. -/
def decodeLossy (bytes : List UInt8) : String :=
  String.ofList ((decodeFrom none bytes).map (·.getD (Char.ofNat 0xFFFD)))

def encode (text : String) : List UInt8 := text.toUTF8.data.toList

end ApiOutline.Text
