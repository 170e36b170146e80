import ApiOutline.TypeToken

/-!
Fields: a named, typed entry of a request or a response.  What one line declares is a `FieldDecl`; a
`Field` is such a declaration together with the fields declared inside it.
-/

namespace ApiOutline

/-- What one line says about a field. -/
structure FieldDecl where
  /-- The name. -/
  name : String
  /-- The type as declared. -/
  declaredType : String
  /-- The type that the declaration resolves to. -/
  resolvedType : String
  /-- Whether the declaration has an array marker. -/
  isArray : Bool := false
  /-- Whether the field may hold further fields. -/
  isNested : Bool := false
  /-- Whether the field has to be present. -/
  required : Bool := true
  /-- The rule that values have to satisfy; empty for none. -/
  rule : String := ""
  /-- The comment; empty for none. -/
  comment : String := ""
  /-- The line of the declaration, counted from one; zero for none. -/
  line : Nat := 0
  deriving DecidableEq, Repr, Inhabited

/-- A comment as it follows a declaration. -/
def commentSuffix (comment : String) : String :=
  if comment.isEmpty then "" else " # " ++ comment

namespace FieldDecl

/-- A required field of the given types, without rule and comment.  It is an array when the declared
type starts or ends with an array marker. -/
def ofTypes (name declaredType resolvedType : String) : FieldDecl where
  name
  declaredType
  resolvedType
  isArray :=
    TypeToken.arrayMarker.isPrefixOf declaredType.toList ||
      TypeToken.arrayMarker.isSuffixOf declaredType.toList

/-- The resolved type of one element: without the array marker in front. -/
def elementType (d : FieldDecl) : String :=
  match TypeToken.arrayMarker.isPrefixOf? d.resolvedType.toList with
  | some element => String.ofList element
  | none => d.resolvedType

/-- Whether the field is a string-keyed map of objects. -/
def isMap (d : FieldDecl) : Bool := d.resolvedType == TypeToken.objectMapType

/-- The name of the object that a nested field declares. -/
def objectName? (d : FieldDecl) : Option String :=
  if d.isNested then
    let name := TypeToken.bare d.declaredType.toList
    TypeToken.nonEmpty? ((TypeToken.mapLead.isPrefixOf? name).getD name)
  else none

/-- The line that declares the field. -/
def render (d : FieldDecl) : String :=
  d.name ++ " " ++ d.declaredType ++ " " ++ (if d.required then "true" else "false") ++
    (if d.rule.isEmpty then "" else ":\"" ++ d.rule ++ "\"") ++ commentSuffix d.comment

end FieldDecl

/-- A field with the fields declared inside it. -/
structure Field extends FieldDecl where
  /-- The fields inside, in the order of their declaration. -/
  children : List Field := []
  deriving Repr, Inhabited

namespace Field

/-- A field with one more child, after the others. -/
def addChild (field child : Field) : Field :=
  { field with children := field.children ++ [child] }

mutual

/-- Decides whether two fields are equal, children included. -/
def decEq : (a b : Field) → Decidable (a = b)
  | ⟨d, cs⟩, ⟨e, ds⟩ =>
    if sameDecl : d = e then
      match decEqAll cs ds with
      | isTrue same => isTrue (by rw [sameDecl, same])
      | isFalse differ => isFalse fun equal => differ (by injection equal)
    else isFalse fun equal => sameDecl (by injection equal)

/-- Decides whether two lists of fields are equal. -/
def decEqAll : (as bs : List Field) → Decidable (as = bs)
  | [], [] => isTrue rfl
  | [], _ :: _ => isFalse nofun
  | _ :: _, [] => isFalse nofun
  | a :: as, b :: bs =>
    match decEq a b, decEqAll as bs with
    | isTrue same, isTrue rest => isTrue (by rw [same, rest])
    | isFalse differ, _ => isFalse fun equal => differ (by injection equal)
    | _, isFalse differ => isFalse fun equal => differ (by injection equal)

end

instance : DecidableEq Field := decEq

mutual

/-- The declarations of a field and of everything inside it in the order of their lines, each with
its depth. -/
def preorder (depth : Nat) : Field → List (Nat × FieldDecl)
  | ⟨d, children⟩ => (depth, d) :: preorderAll (depth + 1) children

/-- The declarations of some fields and of everything inside them, each with its depth. -/
def preorderAll (depth : Nat) : List Field → List (Nat × FieldDecl)
  | [] => []
  | f :: fs => preorder depth f ++ preorderAll depth fs

end

end Field

end ApiOutline
