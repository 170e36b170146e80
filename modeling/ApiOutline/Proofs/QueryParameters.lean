import ApiOutline.Proofs.Build
import ApiOutline.Proofs.ElementTypes
import Mathlib.Data.List.Basic

/-!
A field in the query beside the same field in the body.

An endpoint for both verbs documents each field of its request twice: as a parameter of the query,
and as a property of the definition that its body refers to.  The parameter takes its type from the
resolved type, the property from the declaration being an array.  These two agree for all fields
that a line can declare, except for an array of maps, whose resolved type has no marker.
-/

namespace ApiOutline.Swagger

universe u

open Schema (ofField ofFields)
open TypeToken (schemaType)

/-- A parameter of the query that says the same of a field as a property of the body: the same type,
elements of the same type if there are any, and elements exactly for an array. -/
def ParameterKind.Agrees : ParameterKind → Schema → Prop
  | .query type items, property =>
    property.type = some type ∧ property.items.map (·.type) = items.map some ∧
      (items.isSome = true ↔ type = .array)
  | .body _, _ => False

instance : (kind : ParameterKind) → (property : Schema) → Decidable (kind.Agrees property)
  | .query type items, property => inferInstanceAs (Decidable (property.type = some type ∧
      property.items.map (·.type) = items.map some ∧ (items.isSome = true ↔ type = .array)))
  | .body _, _ => inferInstanceAs (Decidable False)

/-- What a document says of a field of a request that is sent in the query of a `get` and in the
body of a `post`. -/
structure DocumentsField (doc : Document) (e : Endpoint) (name : String) (parameter : Parameter)
    (property : Schema) : Prop where
  get : ∃ op, doc.operation? e.groupPath .get = some op ∧ parameter ∈ op.parameters
  post : ∃ op, doc.operation? e.groupPath .post = some op ∧
    op.parameters = [⟨"body", e.comment, true, .body e.requestModelName⟩]
  body : ∃ definition, doc.definitions.get? e.requestModelName = some definition ∧
    definition.property? name = some property

/-! ## One field -/

section Field

variable {field : Field}

/-- The type of an array of maps does not tell that it is an array. -/
theorem schemaType_resolvedType (typed : field.Typed) : schemaType field.resolvedType =
    if field.isArray = true ∧ ¬ field.isMap = true then .array
    else schemaType field.elementType := by
  by_cases marked : field.isArray = true ∧ ¬ field.isMap = true
  · rw [typed.resolvedType, if_pos marked, if_pos marked, TypeToken.schemaType_marked]
  · rw [typed.resolvedType_of_unmarked marked, if_neg marked]

private theorem schemaType_elementType_map (typed : field.Typed) (map : field.isMap = true) :
    schemaType field.elementType = .object := by
  rw [← typed.resolvedType_of_unmarked fun marked => marked.2 map, beq_iff_eq.1 map]
  decide +kernel

/-- A parameter agrees with the schema of its field unless the field is both an array and a map. -/
theorem agrees_iff (typed : field.Typed) :
    (queryParameter field).kind.Agrees (ofField field) ↔
      ¬ (field.isArray = true ∧ field.isMap = true) := by
  have noArray : schemaType field.elementType ≠ .array :=
    (TypeToken.elementTypes_apart _ typed.element).2.2
  simp only [queryParameter, ParameterKind.Agrees, Schema.type_ofField typed,
    Schema.items_ofField typed, schemaType_resolvedType typed]
  cases array : field.isArray with
  | false => simp [noArray]
  | true =>
    cases map : field.isMap with
    | false => simp
    -- The marker is gone, so the parameter has the type of an element beside its elements.
    | true => simp [noArray, noArray.symm]

end Field

/-! ## One endpoint -/

section Endpoint

variable {envelope : Envelope} {described : List (Endpoint × Schema)} {doc : Document}

/-- The operation of an endpoint for each of its verbs. -/
theorem Describes.operation?_eq (describes : Describes envelope described doc)
    {d : Endpoint × Schema} (member : d ∈ described) {verb : Verb}
    (answers : verb ∈ d.1.method.verbs) :
    doc.operation? d.1.groupPath verb = some (operation envelope d.1 verb) := by
  rw [Document.operation?, describes.get?_path_iff.2 ⟨d, member, rfl, rfl⟩]
  exact List.lookup_graph (operation envelope d.1) answers

/-- The request of a described endpoint is defined as the schema of its fields. -/
theorem Describes.get?_request (describes : Describes envelope described doc)
    {d : Endpoint × Schema} (member : d ∈ described) :
    doc.definitions.get? d.1.requestModelName = some (requestSchema d.1) := by
  rw [SortedMap.get?_eq_some_iff, describes.definitions.mem_iff]
  exact List.mem_flatMap.2 ⟨d, member, List.mem_cons_self⟩

/-- An endpoint for both verbs documents a field by its parameter and by its property, which is
there as long as no later field takes the name. -/
theorem Describes.documentsField (describes : Describes envelope described doc)
    {d : Endpoint × Schema} (member : d ∈ described) (both : d.1.method = .any)
    {before after : List Field} {field : Field}
    (fields : d.1.requestFields = before ++ field :: after)
    (last : ∀ later ∈ after, later.name ≠ field.name) :
    DocumentsField doc d.1 field.name (queryParameter field) (ofField field) := by
  have answers : ∀ verb, verb ∈ d.1.method.verbs := by
    intro verb
    rw [both]
    cases verb <;> decide
  have declared : field ∈ d.1.requestFields := by
    rw [fields]
    exact List.mem_append_right _ List.mem_cons_self
  constructor
  case get =>
    exact ⟨_, describes.operation?_eq member (answers .get), List.mem_map_of_mem declared⟩
  case post =>
    exact ⟨_, describes.operation?_eq member (answers .post), rfl⟩
  case body =>
    refine ⟨_, describes.get?_request member, ?_⟩
    -- The description of the request changes nothing about its properties.
    rw [← Schema.property?_last last, ← fields]
    rfl

end Endpoint

/-! ## Every field that a line declares -/

/-- The parameter of a field and its property agree exactly if the field is no array of maps.  The
parameter of an array of maps is an object that has elements, its property is an array.  These two
are what every document says of the field for an endpoint with both verbs. -/
theorem query_and_body_agree_iff {scope : Outline.Scope} {line : Nat} {raw : List Char}
    {d : FieldDecl} (parsed : Outline.parseField scope line raw = .ok d) (children : List Field) :
    ((queryParameter ⟨d, children⟩).kind.Agrees (ofField ⟨d, children⟩) ↔
      ¬ (d.isArray = true ∧ d.isMap = true)) ∧
    (d.isArray = true → d.isMap = true →
      (queryParameter ⟨d, children⟩).kind = .query .object (some .object) ∧
      (ofField ⟨d, children⟩).type = some .array ∧
      (ofField ⟨d, children⟩).items.map (·.type) = some (some .object)) ∧
    ∀ {σ : Type u} (source : ResponseSource σ) (m : Model) (s t : σ) (doc : Document),
      build source m s = (.ok doc, t) → ∀ e ∈ m.endpoints, e.method = .any →
      ∀ before after, e.requestFields = before ++ ⟨d, children⟩ :: after →
      (∀ later ∈ after, later.name ≠ d.name) →
      DocumentsField doc e d.name (queryParameter ⟨d, children⟩) (ofField ⟨d, children⟩) := by
  have typed : d.Typed := Outline.typed_of_parsed parsed
  have typedField : (Field.mk d children).Typed := typed
  refine ⟨agrees_iff typedField, ?_, ?_⟩
  · intro array map
    have object := schemaType_elementType_map typedField map
    refine ⟨?_, ?_, ?_⟩
    · simp only [queryParameter, schemaType_resolvedType typedField, array, map, object]
      rfl
    · rw [Schema.type_ofField typedField, if_pos array]
    · rw [Schema.items_ofField typedField, if_pos array, object]
  · intro σ source m s t doc built e member both before after fields last
    obtain ⟨described, same, -, describes, -⟩ := describes_build built
    rw [← same] at member
    obtain ⟨whose, inside, rfl⟩ := List.mem_map.1 member
    exact describes.documentsField inside both fields last

/-- An array of numbers. -/
def idsField : Field where
  name := "ids"
  declaredType := "int[]"
  resolvedType := "[]int64"
  isArray := true
  line := 4

/-- An array of maps. -/
def tagsField : Field where
  name := "tags"
  declaredType := "map[str]Tag[]"
  resolvedType := TypeToken.objectMapType
  isArray := true
  isNested := true
  line := 5

/-- An endpoint for both verbs with these fields. -/
def searchEndpoint : Endpoint where
  name := "search"
  group := "user"
  method := .any
  requestFields := [idsField, tagsField]

/-- The model with this endpoint alone. -/
def searchModel : Model where
  routePrefix := "api"
  version := "v1"
  groups := [{ name := "user", endpoints := [searchEndpoint] }]

/-- The document of the endpoint says the same of its numbers twice, but not of its maps. -/
theorem query_and_body_agree_iff_search : ∃ doc, build noResponses searchModel () = (.ok doc, ()) ∧
    Outline.parseField .request 4 "        ids int[]".toList = .ok idsField.toFieldDecl ∧
    DocumentsField doc searchEndpoint "ids" (queryParameter idsField) (ofField idsField) ∧
    (queryParameter idsField).kind.Agrees (ofField idsField) ∧
    Outline.parseField .request 5 "        tags map[str]Tag[]".toList =
      .ok tagsField.toFieldDecl ∧
    DocumentsField doc searchEndpoint "tags" (queryParameter tagsField) (ofField tagsField) ∧
    (queryParameter tagsField).kind = .query .object (some .object) ∧
    (ofField tagsField).type = some .array := by
  obtain ⟨doc, built⟩ : ∃ doc, build noResponses searchModel () = (.ok doc, ()) := ⟨_, rfl⟩
  have ids : Outline.parseField .request 4 "        ids int[]".toList =
      .ok idsField.toFieldDecl := rfl
  have tags : Outline.parseField .request 5 "        tags map[str]Tag[]".toList =
      .ok tagsField.toFieldDecl := rfl
  obtain ⟨agree, -, documented⟩ := query_and_body_agree_iff ids []
  obtain ⟨-, differ, documentedTags⟩ := query_and_body_agree_iff tags []
  obtain ⟨parameter, property, -⟩ := differ rfl (by decide +kernel)
  refine ⟨doc, built, ids, ?_, agree.2 (by decide +kernel), tags, ?_, parameter, property⟩
  · refine documented noResponses searchModel () () doc built searchEndpoint List.mem_cons_self rfl
      [] [tagsField] rfl ?_
    decide +kernel
  · refine documentedTags noResponses searchModel () () doc built searchEndpoint
      List.mem_cons_self rfl [idsField] [] rfl ?_
    exact fun _ none => absurd none List.not_mem_nil

/-- The query has an object that has elements where the body has an array. -/
theorem query_differs_tags :
    Outline.parseField .request 5 "        tags map[str]Tag[]".toList =
      .ok tagsField.toFieldDecl ∧
    (queryParameter tagsField).kind = .query .object (some .object) ∧
    (ofField tagsField).type = some .array ∧
    ¬ (queryParameter tagsField).kind.Agrees (ofField tagsField) := by
  refine ⟨rfl, ?_⟩
  decide +kernel

end ApiOutline.Swagger
