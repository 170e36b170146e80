import ApiOutline.Proofs.Properties
import ApiOutline.Proofs.WellFormed

/-!
The type of one element, as documentation and as schemas have it.

However a token is marked, an element of what it declares has one of few types: that of a scalar, an
object, or a map of objects.  Documentation labels such a type by its whole name, a schema by how
the name starts.  The two go together for all of them but one: what may be anything is an object to
the documentation, and a number to the schema, because its name starts like that of an integer.
-/

namespace ApiOutline

namespace TypeToken

/-- The type of what may be anything. -/
def anyType : String := "interface\x7b\x7d"

/-- The types that an element can have, and whether fields may be declared inside. -/
def elementTypes : List (String × Bool) :=
  scalars.map (fun scalar => (scalar.2, false)) ++ [(objectType, true), (objectMapType, true)]

private theorem mem_scalars {name target : String} (found : scalar? name = some target) :
    (name, target) ∈ scalars := by
  obtain ⟨before, after, whole, -⟩ := List.lookup_eq_some_iff.1 found
  rw [whole]
  exact List.mem_append_right before List.mem_cons_self

/-- The names of these types tell an array from an element, a nested type from a scalar, and what
may be anything from all others. -/
theorem elementTypes_apart : ∀ element ∈ elementTypes,
    arrayMarker.isPrefixOf? element.1.toList = none ∧
      (element.2 = true → schemaType element.1 = .object) ∧ schemaType element.1 ≠ .array := by
  decide +kernel

private theorem scalars_apart : ∀ scalar ∈ scalars,
    scalar.2 ≠ objectMapType ∧ (scalar.2 = anyType ↔ scalar.1 = "any") := by
  decide +kernel

/-- What a token resolves to, by its bare name: a scalar, a map of objects or an object. -/
theorem resolve_cases (token : String) :
    (∃ target, scalar? (String.ofList (bare token.toList)) = some target ∧
      resolve token = ⟨(if isMarked token.toList then "[]" else "") ++ target,
        isMarked token.toList, false, none⟩) ∨
    scalar? (String.ofList (bare token.toList)) = none ∧
      ((∃ object, mapLead.isPrefixOf? (bare token.toList) = some object ∧
        resolve token = ⟨objectMapType, isMarked token.toList, true, nonEmpty? object⟩) ∨
      (mapLead.isPrefixOf? (bare token.toList) = none ∧
        resolve token = ⟨(if isMarked token.toList then "[]" else "") ++ objectType,
          isMarked token.toList, true, nonEmpty? (bare token.toList)⟩)) := by
  cases found : scalar? (String.ofList (bare token.toList)) with
  | some target => exact .inl ⟨target, rfl, by simp only [resolve, found]⟩
  | none =>
    refine .inr ⟨rfl, ?_⟩
    cases map : mapLead.isPrefixOf? (bare token.toList) with
    | some object => exact .inl ⟨object, rfl, by simp only [resolve, found, map]⟩
    | none => exact .inr ⟨rfl, by simp only [resolve, found, map]⟩

/-- What a token resolves to is the type of an element, with one marker before it if the token has
any, but never before a map. -/
theorem resolve_element (token : String) : ∃ element,
    (element, (resolve token).isNested) ∈ elementTypes ∧
    (resolve token).target =
      (if (resolve token).isArray = true ∧ element ≠ objectMapType then "[]" else "") ++ element ∧
    (element = anyType ↔ bare token.toList = "any".toList) := by
  rcases resolve_cases token with ⟨target, found, same⟩ | ⟨missing, nested⟩
  · have listed := mem_scalars found
    obtain ⟨noMap, isAny⟩ := scalars_apart _ listed
    refine ⟨target, ?_, ?_, ?_⟩
    · rw [same]
      exact List.mem_append_left _ (List.mem_map_of_mem listed)
    · simp only [same, noMap, ne_eq, not_false_eq_true, and_true]
    · rw [isAny, ← String.toList_inj, String.toList_ofList]
  · have other : bare token.toList ≠ "any".toList := by
      intro isAny
      rw [isAny] at missing
      exact absurd missing (by decide +kernel)
    rcases nested with ⟨object, -, same⟩ | ⟨-, same⟩
    · refine ⟨objectMapType, ?_, ?_, iff_of_false (by decide +kernel) other⟩
      · rw [same]
        exact List.mem_append_right _ (List.mem_cons_of_mem _ List.mem_cons_self)
      · simp only [same, ne_eq, not_true_eq_false, and_false, if_false, String.empty_append]
    · have noMap : objectType ≠ objectMapType := by decide +kernel
      refine ⟨objectType, ?_, ?_, iff_of_false (by decide +kernel) other⟩
      · rw [same]
        exact List.mem_append_right _ List.mem_cons_self
      · simp only [same, noMap, ne_eq, not_false_eq_true, and_true]

/-- A type with a marker before it is an array, whatever its elements are. -/
theorem schemaType_marked (element : String) : schemaType ("[]" ++ element) = .array := by
  have starts : hasLead "[]" ("[]" ++ element) = true := by
    rw [hasLead, String.toList_append, List.isPrefixOf_iff_prefix]
    exact List.prefix_append _ _
  rw [schemaType, if_pos starts]

private theorem isPrefixOf?_element {element : String} {isNested : Bool}
    (listed : (element, isNested) ∈ elementTypes) :
    arrayMarker.isPrefixOf? element.toList = none :=
  (elementTypes_apart _ listed).1

private theorem schemaType_nested {element : String} (listed : (element, true) ∈ elementTypes) :
    schemaType element = .object :=
  (elementTypes_apart _ listed).2.1 rfl

end TypeToken

open TypeToken (anyType bare docLabel elementTypes objectMapType schemaType)

/-! ## Declarations -/

/-- A declaration as it is read from a line: its resolved type is that of an element, with a marker
before it if it is an array, but not an array of maps. -/
structure FieldDecl.Typed (d : FieldDecl) : Prop where
  element : (d.elementType, d.isNested) ∈ elementTypes
  resolvedType : d.resolvedType =
    (if d.isArray = true ∧ ¬ d.isMap = true then "[]" else "") ++ d.elementType
  isAny : d.elementType = anyType ↔ bare d.declaredType.toList = "any".toList

/-- A field that is no array, or that is a map, is resolved to the type of its elements. -/
theorem FieldDecl.Typed.resolvedType_of_unmarked {d : FieldDecl} (typed : d.Typed)
    (unmarked : ¬ (d.isArray = true ∧ ¬ d.isMap = true)) : d.resolvedType = d.elementType := by
  rw [typed.resolvedType, if_neg unmarked, String.empty_append]

/-- The elements of an array have the type that follows the marker. -/
theorem FieldDecl.elementType_of_marked {d : FieldDecl} {element : String}
    (marked : d.resolvedType = "[]" ++ element) : d.elementType = element := by
  have dropped : TypeToken.arrayMarker.isPrefixOf? d.resolvedType.toList =
      some element.toList := by
    rw [marked, String.toList_append]
    exact Text.isPrefixOf?_append _ _
  rw [elementType, dropped]
  exact String.ofList_toList

theorem FieldDecl.elementType_of_unmarked {d : FieldDecl} {element : String} {isNested : Bool}
    (listed : (element, isNested) ∈ elementTypes) (unmarked : d.resolvedType = element) :
    d.elementType = element := by
  have kept : TypeToken.arrayMarker.isPrefixOf? d.resolvedType.toList = none := by
    rw [unmarked]
    exact TypeToken.isPrefixOf?_element listed
  rw [elementType, kept]
  exact unmarked

/-- Every field that is read from a line is typed. -/
theorem Outline.typed_of_parsed {scope : Scope} {line : Nat} {raw : List Char} {d : FieldDecl}
    (parsed : parseField scope line raw = .ok d) : d.Typed := by
  have wellFormed : Field.WellFormed ⟨d, []⟩ := (parseField_wellFormed parsed (.inr rfl)).1
  have target : d.resolvedType = (TypeToken.resolve d.declaredType).target :=
    wellFormed.resolvedType
  have isArray : d.isArray = (TypeToken.resolve d.declaredType).isArray := wellFormed.isArray
  have isNested : d.isNested = (TypeToken.resolve d.declaredType).isNested := wellFormed.isNested
  obtain ⟨element, listed, same, isAny⟩ := TypeToken.resolve_element d.declaredType
  rw [← isNested] at listed
  rw [← target, ← isArray] at same
  by_cases marked : d.isArray = true ∧ element ≠ objectMapType
  · rw [if_pos marked] at same
    have noMap : ¬ d.isMap = true := by
      intro isMap
      have array := TypeToken.schemaType_marked element
      rw [← same, beq_iff_eq.1 isMap] at array
      exact absurd array (by decide +kernel)
    obtain rfl := FieldDecl.elementType_of_marked same
    refine ⟨listed, ?_, isAny⟩
    rw [if_pos ⟨marked.1, noMap⟩]
    exact same
  · rw [if_neg marked, String.empty_append] at same
    have unmarked : ¬ (d.isArray = true ∧ ¬ d.isMap = true) := by
      rintro ⟨array, noMap⟩
      apply marked
      exact ⟨array, fun isMap => noMap (beq_iff_eq.2 (same.trans isMap))⟩
    obtain rfl := FieldDecl.elementType_of_unmarked listed same
    refine ⟨listed, ?_, isAny⟩
    rw [if_neg unmarked, String.empty_append]
    exact same

/-! ## Documentation and schemas -/

/-- The node of one element: that of the array's element, or the node itself. -/
def DocNode.element (node : DocNode) : DocNode := node.arrayItem.getD node

/-- The schema of one element: that of the array's element, or the schema itself. -/
def Swagger.Schema.element (s : Schema) : Schema := s.items.getD s

theorem Field.element_docNode (field : Field) : field.docNode.element =
    pushDocs { name := field.name, label := (docLabel field.elementType).name
               description := field.comment } field.children := by
  obtain ⟨d, children⟩ := field
  cases array : d.isArray with
  | true =>
    simp only [docNode, array, if_true, DocNode.element, Option.getD_some]
  | false =>
    simp only [docNode, array, Bool.false_eq_true, if_false, DocNode.element]
    rw [pushDocs_frame]
    rfl

/-- The documentation of a field names the type of its elements. -/
theorem Field.label_docNode (field : Field) :
    field.docNode.element.label = (docLabel field.elementType).name := by
  rw [element_docNode, pushDocs_frame]

namespace Swagger.Schema

variable {field : Field}

/-- The type of a field's schema: what is nested is an object, and its type says so too. -/
theorem type_ofField (typed : field.Typed) : (ofField field).type =
    some (if field.isArray then .array else schemaType field.elementType) := by
  obtain ⟨d, children⟩ := field
  cases array : d.isArray with
  | true => simp only [ofField, array, if_true]; rfl
  | false =>
    cases nested : d.isNested with
    | true =>
      have object : schemaType d.elementType = .object :=
        TypeToken.schemaType_nested (nested ▸ typed.element)
      simp only [ofField, array, nested, Bool.false_eq_true, if_true, if_false, object]
      exact type_setFields _ children
    | false =>
      have same : d.resolvedType = d.elementType :=
        typed.resolvedType_of_unmarked (by simp [array])
      simp only [ofField, array, nested, Bool.false_eq_true, if_false, same]
      rfl

/-- The element of a field's schema is there for arrays, and has the type of an element. -/
theorem items_ofField (typed : field.Typed) : (ofField field).items.map (·.type) =
    if field.isArray then some (some (schemaType field.elementType)) else none := by
  obtain ⟨d, children⟩ := field
  cases array : d.isArray with
  | true =>
    cases nested : d.isNested with
    | true =>
      have object : schemaType d.elementType = .object :=
        TypeToken.schemaType_nested (nested ▸ typed.element)
      simp only [ofField, array, nested, if_true, Option.map_some, object, type_setFields]
      rfl
    | false => simp only [ofField, array, nested, Bool.false_eq_true, if_true, if_false]; rfl
  | false =>
    cases nested : d.isNested with
    | true =>
      simp only [ofField, array, nested, Bool.false_eq_true, if_true, if_false, items_setFields]
      rfl
    | false => simp only [ofField, array, nested, Bool.false_eq_true, if_false]; rfl

private theorem element_ofField (typed : field.Typed) :
    (ofField field).element.type = some (schemaType field.elementType) := by
  have type := type_ofField typed
  have items := items_ofField typed
  cases array : field.isArray with
  | true =>
    rw [array, if_pos rfl] at items
    obtain ⟨inner, found, same⟩ := Option.map_eq_some_iff.1 items
    rw [element, found]
    exact same
  | false =>
    rw [array, if_neg Bool.false_ne_true] at items type
    rw [element, Option.map_eq_none_iff.1 items]
    exact type

/-- What is inside of an element is there if the field is nested. -/
theorem properties_element_ofField (field : Field) : (ofField field).element.properties =
    if field.isNested then (ofFields field.children).properties else [] := by
  obtain ⟨d, children⟩ := field
  cases array : d.isArray with
  | true =>
    simp only [ofField, array, if_true, element, Option.getD_some]
    cases nested : d.isNested <;> rfl
  | false =>
    simp only [ofField, array, Bool.false_eq_true, if_false, element]
    cases nested : d.isNested with
    | true =>
      simp only [if_true, items_setFields]
      rfl
    | false => rfl

end Swagger.Schema

/-! ## Places that both have -/

/-- A node among those of an object, and the property that a schema has for its name, unless a later
node takes the name. -/
def Swagger.Beside (object : DocNode) (schema : Schema) (node : DocNode) (property : Schema) :
    Prop :=
  ∃ before after, object.properties = before ++ node :: after ∧
    (∀ later ∈ after, later.name ≠ node.name) ∧ schema.property? node.name = some property

/-- A node and a property that are reached in the same way, at any depth. -/
inductive Swagger.SamePlace (object : DocNode) (schema : Schema) : DocNode → Schema → Prop where
  | outermost {node : DocNode} {property : Schema} (beside : Beside object schema node property) :
      SamePlace object schema node property
  | inner {outerNode node : DocNode} {outer property : Schema}
      (place : SamePlace object schema outerNode outer)
      (beside : Beside outerNode.element outer.element node property) :
      SamePlace object schema node property

namespace Swagger

variable {fields : List Field} {node : DocNode} {property : Schema}

private theorem field_of_beside {object : DocNode} {schema : Schema}
    (nodes : object.properties = fields.map Field.docNode)
    (properties : schema.properties = (Schema.ofFields fields).properties)
    (beside : Beside object schema node property) :
    ∃ field ∈ fields, field.docNode = node ∧ Schema.ofField field = property := by
  obtain ⟨before, after, listed, last, found⟩ := beside
  obtain ⟨first, rest, rfl, rfl, later⟩ := List.map_eq_append_iff.1 (nodes.symm.trans listed)
  obtain ⟨field, others, rfl, rfl, rfl⟩ := List.map_eq_cons_iff.1 later
  have lastField : ∀ other ∈ others, other.name ≠ field.name := by
    intro other member
    rw [← other.docNode_name, ← field.docNode_name]
    exact last _ (List.mem_map_of_mem member)
  rw [field.docNode_name, Schema.property?, properties, ← Schema.property?,
    Schema.property?_last lastField] at found
  exact ⟨field, List.mem_append_right _ List.mem_cons_self, rfl, Option.some.inj found⟩

/-- Where both have something, it comes from one field. -/
theorem field_of_samePlace {name description : String}
    (place : SamePlace (Field.docModel name description fields) (Schema.ofFields fields)
      node property) :
    ∃ field, Field.Within fields field ∧ field.docNode = node ∧
      Schema.ofField field = property := by
  induction place with
  | outermost beside =>
    have nodes : (Field.docModel name description fields).properties =
        fields.map Field.docNode := by
      rw [Field.docModel, Field.pushDocs_frame]
      rfl
    obtain ⟨field, member, same⟩ := field_of_beside nodes rfl beside
    exact ⟨field, .outermost member, same⟩
  | inner _ beside outer =>
    obtain ⟨outerField, within, rfl, rfl⟩ := outer
    cases nested : outerField.isNested with
    | true =>
      have nodes : outerField.docNode.element.properties =
          outerField.children.map Field.docNode := by
        rw [Field.element_docNode, Field.pushDocs_frame]
        rfl
      have properties := Schema.properties_element_ofField outerField
      rw [nested, if_pos rfl] at properties
      obtain ⟨field, member, same⟩ := field_of_beside nodes properties beside
      exact ⟨field, .child within member, same⟩
    | false =>
      -- A schema that is not nested has no properties, whatever was declared inside.
      have properties := Schema.properties_element_ofField outerField
      rw [nested, if_neg Bool.false_ne_true] at properties
      obtain ⟨-, -, -, -, found⟩ := beside
      rw [Schema.property?, properties] at found
      cases found

end Swagger

/-! ## Labels beside types -/

/-- A label of documentation and a type of a schema that say the same. -/
structure LabelMatches (label : String) (type : Option TypeToken.SchemaType) : Prop where
  number : label = "Number" ↔ type = some .number
  string : label = "String" ↔ type = some .string
  boolean : label = "Boolean" ↔ type = some .boolean
  object : label = "Object" ∨ label = "Date" ↔ type = some .object

instance (label : String) (type : Option TypeToken.SchemaType) :
    Decidable (LabelMatches label type) :=
  decidable_of_iff ((label = "Number" ↔ type = some .number) ∧
      (label = "String" ↔ type = some .string) ∧ (label = "Boolean" ↔ type = some .boolean) ∧
      (label = "Object" ∨ label = "Date" ↔ type = some .object))
    ⟨fun ⟨number, string, boolean, object⟩ => ⟨number, string, boolean, object⟩,
      fun ⟨number, string, boolean, object⟩ => ⟨number, string, boolean, object⟩⟩

/-- Of the types that an element can have, only that of what may be anything has a label and a
schema type that differ. -/
theorem labelMatches_elementTypes : ∀ element ∈ elementTypes,
    (LabelMatches (docLabel element.1).name (some (schemaType element.1)) ↔
      element.1 ≠ anyType) := by
  decide +kernel

/-- The label of a field's element and the type of its schema say the same exactly if the element is
not declared as anything.  Otherwise the documentation has an object, and the schema a number. -/
theorem labelMatches_iff_of_typed {field : Field} (typed : field.Typed) :
    (LabelMatches field.docNode.element.label (Swagger.Schema.ofField field).element.type ↔
      bare field.declaredType.toList ≠ "any".toList) ∧
    (bare field.declaredType.toList = "any".toList →
      field.docNode.element.label = "Object" ∧
      (Swagger.Schema.ofField field).element.type = some .number) := by
  rw [field.label_docNode, Swagger.Schema.element_ofField typed, Ne, ← typed.isAny]
  constructor
  · exact labelMatches_elementTypes _ typed.element
  · intro isAny
    rw [isAny]
    decide +kernel

/-- In fields as lines declare them, labels and types say the same, of each field at any depth and
at each place that the documentation and the schema of all fields both have, but for what is
declared as anything: it is an object to the documentation, and a number to the schema. -/
theorem labels_match_types_iff {fields : List Field}
    (parsed : ∀ f, Field.Within fields f →
      ∃ scope line raw, Outline.parseField scope line raw = .ok f.toFieldDecl) :
    (∀ field, Field.Within fields field →
      (LabelMatches field.docNode.element.label (Swagger.Schema.ofField field).element.type ↔
        bare field.declaredType.toList ≠ "any".toList) ∧
      (bare field.declaredType.toList = "any".toList →
        field.docNode.element.label = "Object" ∧
        (Swagger.Schema.ofField field).element.type = some .number)) ∧
    ∀ name description node property,
      Swagger.SamePlace (Field.docModel name description fields) (Swagger.Schema.ofFields fields)
        node property →
      ∃ field, Field.Within fields field ∧ field.docNode = node ∧
        Swagger.Schema.ofField field = property ∧
        (LabelMatches node.element.label property.element.type ↔
          bare field.declaredType.toList ≠ "any".toList) := by
  have typed : ∀ field, Field.Within fields field → field.Typed := by
    intro field within
    obtain ⟨scope, line, raw, read⟩ := parsed field within
    exact Outline.typed_of_parsed read
  constructor
  · intro field within
    exact labelMatches_iff_of_typed (typed field within)
  · intro name description node property place
    obtain ⟨field, within, rfl, rfl⟩ := Swagger.field_of_samePlace place
    exact ⟨field, within, rfl, rfl, (labelMatches_iff_of_typed (typed field within)).1⟩

/-- A date. -/
def dateField : Field where
  name := "t"
  declaredType := "time"
  resolvedType := "time.Time"
  line := 2

/-- An array of anything. -/
def anyField : Field where
  name := "v"
  declaredType := "any[]"
  resolvedType := "[]interface\x7b\x7d"
  isArray := true
  line := 3

/-- An array of objects that hold both. -/
def datedField : Field where
  name := "o"
  declaredType := "[]O"
  resolvedType := "[]struct"
  isArray := true
  isNested := true
  line := 1
  children := [dateField, anyField]

/-- The date inside is an object to both, where both have it.  What may be anything is an object to
the documentation alone. -/
theorem labels_match_types_iff_dated :
    (∀ f, Field.Within [datedField] f →
      ∃ scope line raw, Outline.parseField scope line raw = .ok f.toFieldDecl) ∧
    Swagger.SamePlace (Field.docModel "Req" "" [datedField]) (Swagger.Schema.ofFields [datedField])
      dateField.docNode (Swagger.Schema.ofField dateField) ∧
    (∃ field, Field.Within [datedField] field ∧ field.docNode = dateField.docNode ∧
      Swagger.Schema.ofField field = Swagger.Schema.ofField dateField ∧
      bare field.declaredType.toList ≠ "any".toList) ∧
    Field.Within [datedField] anyField ∧ anyField.docNode.element.label = "Object" ∧
    (Swagger.Schema.ofField anyField).element.type = some .number := by
  have parsed : ∀ f, Field.Within [datedField] f →
      ∃ scope line raw, Outline.parseField scope line raw = .ok f.toFieldDecl := by
    intro f within
    simp only [datedField, dateField, anyField, Field.within_cons, Field.not_within_nil, or_false,
      false_or] at within
    rcases within with rfl | rfl | rfl
    · exact ⟨.request, 1, "o []O".toList, rfl⟩
    · exact ⟨.request, 2, "t time".toList, rfl⟩
    · exact ⟨.request, 3, "v any[]".toList, rfl⟩
  have outer : Swagger.SamePlace (Field.docModel "Req" "" [datedField])
      (Swagger.Schema.ofFields [datedField]) datedField.docNode
      (Swagger.Schema.ofField datedField) :=
    .outermost ⟨[], [], rfl, List.forall_mem_nil _, rfl⟩
  have inside : Swagger.Beside datedField.docNode.element
      (Swagger.Schema.ofField datedField).element dateField.docNode
      (Swagger.Schema.ofField dateField) :=
    ⟨[], [anyField.docNode], rfl, by decide +kernel, rfl⟩
  have place := outer.inner inside
  have any : Field.Within [datedField] anyField :=
    .child (.outermost List.mem_cons_self) (List.mem_cons_of_mem _ List.mem_cons_self)
  obtain ⟨eachField, eachPlace⟩ := labels_match_types_iff parsed
  obtain ⟨field, within, node, property, same⟩ := eachPlace "Req" "" _ _ place
  refine ⟨parsed, place, ⟨field, within, node, property, same.1 (by decide +kernel)⟩, any, ?_⟩
  exact (eachField anyField any).2 (by decide +kernel)

/-- What may be anything is an object to the documentation and a number to the schema. -/
theorem label_differs_any : ∃ d, Outline.parseField .request 4 "        v any".toList = .ok d ∧
    (Field.docNode ⟨d, []⟩).element.label = "Object" ∧
    (Swagger.Schema.ofField ⟨d, []⟩).element.type = some .number ∧
    ¬ LabelMatches (Field.docNode ⟨d, []⟩).element.label
      (Swagger.Schema.ofField ⟨d, []⟩).element.type := by
  refine ⟨{ name := "v", declaredType := "any", resolvedType := anyType, line := 4 }, rfl, ?_⟩
  decide +kernel

end ApiOutline
