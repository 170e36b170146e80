/-!
Type tokens: the word that declares a field's type, and what it stands for.

A token is a bare name with any number of array markers before and after it.  The bare name is one
of the scalars, a string-keyed map of objects, or else the name of an object; so every token has a
reading.
-/

namespace ApiOutline.TypeToken

/-- The mark of an array. -/
def arrayMarker : List Char := ['[', ']']

/-- What a string-keyed map of objects starts with. -/
def mapLead : List Char := "map[str]".toList

/-- What a declared object resolves to. -/
def objectType : String := "struct"

/-- What a declared map of objects resolves to. -/
def objectMapType : String := "map[string]struct"

/-- The scalar tokens and the types they resolve to. -/
def scalars : List (String × String) :=
  [("str", "string"), ("string", "string"), ("int", "int64"), ("int32", "int32"),
   ("int64", "int64"), ("long", "int64"), ("float", "float64"), ("float32", "float32"),
   ("float64", "float64"), ("double", "float64"), ("time", "time.Time"), ("bool", "bool"),
   ("any", "interface\x7b\x7d"), ("dict", "map[string]interface\x7b\x7d"),
   ("json", "json.RawMessage"), ("JsonNode", "JsonNode")]

/-- The type of a scalar token. -/
def scalar? (token : String) : Option String := scalars.lookup token

/-- A token without the markers it starts with. -/
def dropLeadingMarkers : List Char → List Char
  | '[' :: ']' :: s => dropLeadingMarkers s
  | s => s

/-- A reversed token without the markers it ends with. -/
def dropMarkersReversed : List Char → List Char
  | ']' :: '[' :: s => dropMarkersReversed s
  | s => s

/-- A token without the markers it ends with. -/
def dropTrailingMarkers (s : List Char) : List Char := (dropMarkersReversed s.reverse).reverse

/-- A token without any of its markers: `[]int[]` declares the same as `[]int`. -/
def bare (s : List Char) : List Char := dropTrailingMarkers (dropLeadingMarkers s)

/-- Whether a token has a marker. -/
def isMarked (s : List Char) : Bool := (bare s).length != s.length

/-- A name, unless it is empty. -/
def nonEmpty? (s : List Char) : Option String :=
  if s.isEmpty then none else some (String.ofList s)

/-- What a type token stands for. -/
structure Reading where
  /-- The resolved type, with one array marker in front of it if the token has any. -/
  target : String
  /-- Whether the token has a marker. -/
  isArray : Bool
  /-- Whether fields may be declared inside. -/
  isNested : Bool
  /-- The name of the object, for a nested type that gives one. -/
  objectName : Option String
  deriving DecidableEq, Repr

/-- Reads a token.  A map of objects resolves to the same type with and without a marker. -/
def resolve (token : String) : Reading :=
  let name := bare token.toList
  let isArray := isMarked token.toList
  let marker := if isArray then "[]" else ""
  match scalar? (String.ofList name) with
  | some target => ⟨marker ++ target, isArray, false, none⟩
  | none =>
    match mapLead.isPrefixOf? name with
    | some object => ⟨objectMapType, isArray, true, nonEmpty? object⟩
    | none => ⟨marker ++ objectType, isArray, true, nonEmpty? name⟩

/-- A label for a type in written documentation. -/
inductive DocLabel where
  | number
  | string
  | boolean
  | date
  | object
  deriving DecidableEq, Repr

def DocLabel.name : DocLabel → String
  | .number => "Number"
  | .string => "String"
  | .boolean => "Boolean"
  | .date => "Date"
  | .object => "Object"

def docLabel (resolved : String) : DocLabel :=
  if resolved ∈ ["int32", "int64", "float32", "float64"] then .number
  else if resolved = "string" then .string
  else if resolved = "bool" then .boolean
  else if resolved = "time.Time" then .date
  else .object

/-- A type of a schema. -/
inductive SchemaType where
  | array
  | object
  | string
  | number
  | boolean
  deriving DecidableEq, Repr

def SchemaType.name : SchemaType → String
  | .array => "array"
  | .object => "object"
  | .string => "string"
  | .number => "number"
  | .boolean => "boolean"

/-- Whether the name of a resolved type starts with `lead`. -/
def hasLead (lead resolved : String) : Bool := lead.toList.isPrefixOf resolved.toList

/-- The schema type of a resolved type: a scalar counts by what its name starts with. -/
def schemaType (resolved : String) : SchemaType :=
  if hasLead "[]" resolved then .array
  else if resolved = objectType ∨ resolved = objectMapType then .object
  else if hasLead "str" resolved then .string
  else if hasLead "int" resolved || hasLead "float" resolved || hasLead "num" resolved then .number
  else if hasLead "bool" resolved then .boolean
  else .object

end ApiOutline.TypeToken
