import ApiOutline.Proofs.Properties
import ApiOutline.Proofs.SortedMap
import ApiOutline.Proofs.WellFormed

/-!
The documentation tree and the schema of the same fields.

The tree has a node for each field; the schema has a property for each name.  So where fields share
a name they differ, and it is the last of these fields that the property stands for.  In everything
else the two have one shape, at every depth: which names have to be present, what is an array, and
what is inside of an object or of the elements of an array.
-/

namespace ApiOutline

namespace Swagger

open Schema (ofField ofFields ofType setFields)

mutual

/-- A node with properties and a schema with properties, both for the same fields. -/
inductive SameShape : List Field → DocNode → Schema → Prop where
  | object {fields : List Field} {node : DocNode} {schema : Schema}
      -- The names that have to be present are the same list, which names none of them twice.
      (required : schema.required = node.required)
      (distinct : node.required.Nodup)
      (asked : ∀ name, name ∈ node.required ↔ ∃ f ∈ fields, f.name = name ∧ f.required = true)
      -- The node has the nodes of all fields in order, the schema one property for each name.
      (properties : node.properties = fields.map Field.docNode)
      (names : node.properties.map (·.name) = fields.map (·.name))
      (keys : ∀ name, name ∈ schema.properties.map (·.1) ↔ name ∈ node.properties.map (·.name))
      (sorted : Entries.Sorted schema.properties)
      -- The property of a name is that of the last field which has the name.
      (last : ∀ before field after property, fields = before ++ field :: after →
        (∀ later ∈ after, later.name ≠ field.name) → schema.property? field.name = some property →
        SameElement field.children field.docNode property) :
      SameShape fields node schema

/-- The node of a field and a property, with the fields inside of it: both are arrays and their
elements have the same shape, or neither is and they themselves have it. -/
inductive SameElement : List Field → DocNode → Schema → Prop where
  | array {children : List Field} {node item : DocNode} {property element : Schema}
      (isArray : node.arrayItem = some item) (type : property.type = some .array)
      (items : property.items = some element) (same : SameShape children item element) :
      SameElement children node property
  | plain {children : List Field} {node : DocNode} {property : Schema}
      (isPlain : node.arrayItem = none) (items : property.items = none)
      (same : SameShape children node property) : SameElement children node property

end

variable {fields : List Field}

private theorem mem_keys_ofFields {name : String} :
    name ∈ (ofFields fields).properties.map (·.1) ↔ name ∈ fields.map (·.name) := by
  have found : (ofFields fields).property? name =
      (fields.reverse.find? (·.name == name)).map ofField := by
    rw [ofFields, Schema.setFields_eq_setAll, Schema.property?_setAll _ _ _ _ rfl]
  rw [← Entries.isSome_lookup_iff, ← Schema.property?, found, Option.isSome_map,
    List.find?_isSome, List.mem_map]
  simp only [List.mem_reverse, beq_iff_eq]

/-- Fields that each have the same shape on both sides have it together, in any node that started
without properties and any schema with the properties of the fields. -/
theorem sameShape_pushDocs {leaf : DocNode} {schema : Schema}
    (elements : ∀ field ∈ fields, SameElement field.children field.docNode (ofField field))
    (noNames : leaf.required = []) (noNodes : leaf.properties = [])
    (required : schema.required = (ofFields fields).required)
    (entries : schema.properties = (ofFields fields).properties) :
    SameShape fields (Field.pushDocs leaf fields) schema := by
  have listed := Field.required_pushDocs noNames fields
  have properties : (Field.pushDocs leaf fields).properties = fields.map Field.docNode := by
    rw [Field.pushDocs_frame, noNodes, List.nil_append]
  have names : (Field.pushDocs leaf fields).properties.map (·.name) = fields.map (·.name) := by
    rw [properties, List.map_map]
    exact List.map_congr_left fun field _ => field.docNode_name
  constructor
  case required =>
    rw [required, listed, ofFields, Schema.setFields_eq_setAll,
      Schema.required_setAll _ _ _ _ rfl]
  case distinct => exact listed ▸ nodup_eraseDups _
  case asked =>
    intro name
    rw [listed, mem_requiredNames]
  case properties => exact properties
  case names => exact names
  case keys =>
    intro name
    rw [entries, names, mem_keys_ofFields]
  case sorted =>
    rw [entries, ofFields, Schema.setFields_eq_setAll]
    exact Schema.sorted_setAll _ _ _ _ .nil
  case last =>
    rintro before field after property rfl last found
    rw [Schema.property?, entries, ← Schema.property?, Schema.property?_last last] at found
    cases found
    exact elements field (by simp)

mutual

/-- A field has the same shape on both sides, if what is not nested has nothing inside. -/
theorem sameElement_ofField : (field : Field) →
    (field.isNested = false → field.children = []) →
    (∀ f, Field.Within field.children f → f.isNested = false → f.children = []) →
    SameElement field.children field.docNode (ofField field)
  | ⟨d, children⟩, bare, leaves => by
    have elements := sameElement_all children leaves
    cases array : d.isArray with
    | true =>
      simp only [Field.docNode, ofField, array, if_true]
      apply SameElement.array rfl rfl rfl
      cases nested : d.isNested with
      | true => exact sameShape_pushDocs elements rfl rfl rfl rfl
      | false =>
        cases bare nested
        exact sameShape_pushDocs elements rfl rfl rfl rfl
    | false =>
      simp only [Field.docNode, ofField, array, Bool.false_eq_true, if_false]
      cases nested : d.isNested with
      | true =>
        apply SameElement.plain
        · rw [Field.pushDocs_frame]
        · exact Schema.items_setFields (ofType .object) children
        · exact sameShape_pushDocs elements rfl rfl rfl rfl
      | false =>
        cases bare nested
        apply SameElement.plain
        · rfl
        · rfl
        · exact sameShape_pushDocs elements rfl rfl rfl rfl

private theorem sameElement_all : (fields : List Field) →
    (∀ f, Field.Within fields f → f.isNested = false → f.children = []) →
    ∀ field ∈ fields, SameElement field.children field.docNode (ofField field)
  | [], _ => List.forall_mem_nil _
  | field :: rest, leaves => by
    rw [List.forall_mem_cons]
    constructor
    · apply sameElement_ofField field
      · exact leaves field (Field.within_cons.2 (.inl rfl))
      · exact fun f within => leaves f (Field.within_cons.2 (.inr (.inl within)))
    · exact sameElement_all rest fun f within => leaves f (Field.within_cons.2 (.inr (.inr within)))

end

/-- The documentation of fields and their schema have the same shape, whatever names the fields
share, as long as what is not nested has nothing inside. -/
theorem docModel_sameShape (name description : String) (fields : List Field)
    (leaves : ∀ f, Field.Within fields f → f.isNested = false → f.children = []) :
    SameShape fields (Field.docModel name description fields) (ofFields fields) :=
  sameShape_pushDocs (sameElement_all fields leaves) rfl rfl rfl rfl

/-- Fields that share a name: one that has to be present, and a later one that need not, is an array
and has two fields of one name inside. -/
def sharedNames : List Field :=
  [{ name := "a", declaredType := "str", resolvedType := "string" },
    { name := "b", declaredType := "map[str]B", resolvedType := "map[string]struct"
      isNested := true },
    { name := "a", declaredType := "[]A", resolvedType := "[]struct", isArray := true
      isNested := true, required := false
      children := [
        { name := "c", declaredType := "str", resolvedType := "string", required := false },
        { name := "c", declaredType := "int[]", resolvedType := "[]int64", isArray := true }] }]

theorem docModel_sameShape_sharedNames :
    (∀ f, Field.Within sharedNames f → f.isNested = false → f.children = []) ∧
    SameShape sharedNames (Field.docModel "A" "" sharedNames) (ofFields sharedNames) := by
  have leaves : ∀ f, Field.Within sharedNames f → f.isNested = false → f.children = [] := by
    intro f within scalar
    simp only [sharedNames, Field.within_cons, Field.not_within_nil, or_false, false_or] at within
    rcases within with rfl | rfl | rfl | rfl | rfl
    · rfl
    · rfl
    · cases scalar
    · rfl
    · rfl
  exact ⟨leaves, docModel_sameShape "A" "" sharedNames leaves⟩

end Swagger

end ApiOutline
