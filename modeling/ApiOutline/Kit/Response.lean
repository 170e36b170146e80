import ApiOutline.Text.Split
import ApiOutline.TypeToken
import ApiOutline.Value.Basic

/-!
Responses declared in the source of a handler: the assignments to a key of the response, with what
their comments say about the value.
-/

namespace ApiOutline.Kit

/-- One key of a response. -/
structure Response where
  /-- The key. -/
  name : String
  /-- Whether the value is an array of objects. -/
  isArray : Bool := false
  /-- The type of the value. -/
  valueType : String := "object"
  /-- The name of the object that the value is; empty for none. -/
  objectName : String := ""
  /-- The comment; empty for none. -/
  comment : String := ""
  deriving DecidableEq, Repr, Inhabited

def Response.toValue (r : Response) : Value :=
  .object [("name", .string r.name), ("is_array", .bool r.isArray),
    ("value_type", .string r.valueType), ("type_object", .string r.objectName),
    ("comment", .string r.comment)]

/-- The words that name a type of value. -/
def valueTypes : List String := ["int", "num", "number", "float", "bool", "string", "str"]

/-- The key between the brackets of an assignment: in double quotes, or as it stands. -/
def key? : List Char → Option (List Char)
  | '"' :: quoted => Text.before? ['"', ']'] quoted
  | bare => Text.before? [']'] bare

/-- The first word of a trimmed comment, and the trimmed rest. -/
def headAndTail (comment : List Char) : List Char × List Char :=
  match Text.cutWhere? Text.isBlank comment with
  | some (head, tail) => (head, Text.trim tail)
  | none => (comment, [])

/-- What follows the mark of an object in the first word of a comment. -/
def object? (head : List Char) : Option (List Char) :=
  (['@'].isPrefixOf? head).or ("object=".toList.isPrefixOf? head)

/-- A response with what its comment says: an object, as one value or as an array; or else a type,
if more words follow or the word names one; or else nothing but a comment. -/
def Response.describe (r : Response) (comment : List Char) : Response :=
  let (head, tail) := headAndTail comment
  match object? head with
  | some object =>
    match TypeToken.arrayMarker.isPrefixOf? object with
    | some element =>
      { r with objectName := String.ofList element, isArray := true, comment := String.ofList tail }
    | none => { r with objectName := String.ofList object, comment := String.ofList tail }
  | none =>
    let word := String.ofList head
    if !tail.isEmpty then { r with valueType := word, comment := String.ofList tail }
    else if valueTypes.contains word then { r with valueType := word }
    else { r with comment := word }

/-- Reads a trimmed line that assigns to a key of the response.  The comment is what follows the
last two slashes. -/
def response? (line : List Char) : Option Response := do
  let rest ← "resp[".toList.isPrefixOf? line
  let key ← key? rest
  let response : Response := { name := String.ofList key }
  match Text.afterLast? ['/', '/'] line with
  | none => some response
  | some comment => some (response.describe (Text.trim comment))

end ApiOutline.Kit
