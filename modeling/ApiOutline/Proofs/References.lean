import ApiOutline.Proofs.Build
import ApiOutline.Proofs.Properties
import ApiOutline.Swagger.Kits
import ApiOutline.Swagger.Printer

/-!
The references of a document, wherever they stand in it.

A schema refers to a definition itself, through a property or through its element.  Schemas that are
made from fields or from the responses of handlers refer to nothing; what an operation refers to are
the definitions of its own endpoint.  So the references of a written document lead to definitions
that it holds, and end there.
-/

namespace ApiOutline

/-- A value that holds a reference, at any depth: an entry `$ref` that is a text. -/
inductive Value.HasRef : Value → String → Prop where
  | here {entries : List (String × Value)} {target : String}
      (member : ("$ref", .string target) ∈ entries) : HasRef (.object entries) target
  | entry {entries : List (String × Value)} {target : String} {e : String × Value}
      (member : e ∈ entries) (inner : HasRef e.2 target) : HasRef (.object entries) target
  | item {items : List Value} {target : String} {v : Value}
      (member : v ∈ items) (inner : HasRef v target) : HasRef (.array items) target

namespace Value

variable {entries more : List (String × Value)} {items : List Value} {target key text : String}
  {value : Value}

@[simp]
theorem not_hasRef_string : ¬ (Value.string text).HasRef target := nofun

@[simp]
theorem not_hasRef_bool {b : Bool} : ¬ (Value.bool b).HasRef target := nofun

private theorem hasRef_array :
    (Value.array items).HasRef target ↔ ∃ v ∈ items, v.HasRef target := by
  constructor
  · rintro (_ | _ | ⟨member, inner⟩)
    exact ⟨_, member, inner⟩
  · rintro ⟨v, member, inner⟩
    exact .item member inner

private theorem hasRef_object : (Value.object entries).HasRef target ↔
    ("$ref", .string target) ∈ entries ∨ ∃ e ∈ entries, e.2.HasRef target := by
  constructor
  · rintro (member | ⟨member, inner⟩ | _)
    · exact .inl member
    · exact .inr ⟨_, member, inner⟩
  · rintro (member | ⟨e, member, inner⟩)
    · exact .here member
    · exact .entry member inner

@[simp]
theorem not_hasRef_nil : ¬ (Value.object []).HasRef target := by
  simp [hasRef_object]

@[simp]
theorem hasRef_cons : (Value.object ((key, value) :: entries)).HasRef target ↔
    (key = "$ref" ∧ value = .string target) ∨ value.HasRef target ∨
      (Value.object entries).HasRef target := by
  simp only [hasRef_object, List.mem_cons, Prod.mk.injEq, exists_eq_or_imp]
  grind

@[simp]
theorem hasRef_append : (Value.object (entries ++ more)).HasRef target ↔
    (Value.object entries).HasRef target ∨ (Value.object more).HasRef target := by
  simp only [hasRef_object, List.mem_append]
  grind

private theorem hasRef_array_map {α : Type} {l : List α} {f : α → Value} :
    (Value.array (l.map f)).HasRef target ↔ ∃ a ∈ l, (f a).HasRef target := by
  simp only [hasRef_array, List.mem_map, exists_exists_and_eq_and]

private theorem hasRef_object_map {α : Type} {l : List α} {f : α → String × Value} :
    (Value.object (l.map f)).HasRef target ↔
      ∃ a ∈ l, f a = ("$ref", .string target) ∨ (f a).2.HasRef target := by
  simp only [hasRef_object, List.mem_map, exists_exists_and_eq_and, ← exists_or, ← and_or_left]

@[simp]
theorem not_hasRef_ofStrings {texts : List String} : ¬ (ofStrings texts).HasRef target := by
  simp [ofStrings, hasRef_array_map]

end Value

namespace Swagger

/-! ## Schemas -/

/-- A schema that refers to a definition: itself, through a property or through its element. -/
inductive Schema.Refers : Schema → String → Prop where
  | named {s : Schema} {definition : String} (names : s.reference = some definition) :
      Refers s definition
  | property {s : Schema} {definition : String} {p : String × Schema}
      (member : p ∈ s.properties) (inner : Refers p.2 definition) : Refers s definition
  | element {s : Schema} {definition : String} {i : Schema}
      (items : s.items = some i) (inner : Refers i definition) : Refers s definition

namespace Schema

variable {s property payload : Schema} {definition name target : String} {required : Bool}

/-- A schema refers to a definition itself, through a property or through its element. -/
theorem refers_iff : s.Refers definition ↔ s.reference = some definition ∨
    (∃ p ∈ s.properties, p.2.Refers definition) ∨ ∃ i, s.items = some i ∧ i.Refers definition := by
  constructor
  · rintro (names | ⟨member, inner⟩ | ⟨items, inner⟩)
    · exact .inl names
    · exact .inr (.inl ⟨_, member, inner⟩)
    · exact .inr (.inr ⟨_, items, inner⟩)
  · rintro (names | ⟨p, member, inner⟩ | ⟨i, items, inner⟩)
    · exact .named names
    · exact .property member inner
    · exact .element items inner

private theorem toValue_ne_string : s.toValue ≠ .string target := by
  cases s
  simp [toValue]

@[simp]
theorem not_hasRef_textEntry {key text : String} (other : key ≠ "$ref") :
    ¬ (Value.object (textEntry key text)).HasRef target := by
  unfold textEntry
  split <;> simp [other]

@[simp]
theorem hasRef_optionEntry {key : String} {text : Option String} :
    (Value.object (optionEntry key text)).HasRef target ↔ key = "$ref" ∧ text = some target := by
  cases text <;> simp [optionEntry]

@[simp]
theorem not_hasRef_listEntry {key : String} {texts : List String} :
    ¬ (Value.object (listEntry key texts)).HasRef target := by
  unfold listEntry
  split <;> simp [Value.ofStrings, Value.hasRef_array_map]

private theorem hasRef_propertiesEntry {properties : List (String × Schema)} :
    (Value.object (propertiesEntry properties)).HasRef target ↔
      (Value.object (propertyEntries properties)).HasRef target := by
  cases properties with
  | nil => rfl
  | cons p rest => simp [propertiesEntry, propertyEntries]

mutual

/-- A written schema holds the references of the schema. -/
theorem hasRef_toValue : (s : Schema) →
    (s.toValue.HasRef target ↔ ∃ d, s.Refers d ∧ target = definitionRef d)
  | ⟨type, reference, title, description, required, properties, items⟩ => by
    have throughProperties := hasRef_propertyEntries properties
    have throughItems := hasRef_itemsEntry items
    have parts : (toValue ⟨type, reference, title, description, required, properties, items⟩).HasRef
        target ↔ (∃ d, reference = some d ∧ definitionRef d = target) ∨
          (∃ p ∈ properties, ∃ d, p.2.Refers d ∧ target = definitionRef d) ∨
          ∃ i, items = some i ∧ ∃ d, i.Refers d ∧ target = definitionRef d := by
      simp [toValue, hasRef_propertiesEntry, throughProperties, throughItems]
    rw [parts]
    constructor
    · rintro (⟨d, names, rfl⟩ | ⟨p, member, d, inner, same⟩ | ⟨i, element, d, inner, same⟩)
      · exact ⟨d, .named names, rfl⟩
      · exact ⟨d, .property member inner, same⟩
      · exact ⟨d, .element element inner, same⟩
    · rintro ⟨d, names | ⟨member, inner⟩ | ⟨element, inner⟩, same⟩
      · exact .inl ⟨d, names, same.symm⟩
      · exact .inr (.inl ⟨_, member, d, inner, same⟩)
      · exact .inr (.inr ⟨_, element, d, inner, same⟩)

private theorem hasRef_propertyEntries : (properties : List (String × Schema)) →
    ((Value.object (propertyEntries properties)).HasRef target ↔
      ∃ p ∈ properties, ∃ d, p.2.Refers d ∧ target = definitionRef d)
  | [] => by simp [propertyEntries]
  | (name, s) :: rest => by
    have first := hasRef_toValue s
    have others := hasRef_propertyEntries rest
    simp only [propertyEntries, Value.hasRef_cons, toValue_ne_string, and_false, false_or, first,
      others, List.mem_cons, exists_eq_or_imp]

private theorem hasRef_itemsEntry : (items : Option Schema) →
    ((Value.object (itemsEntry items)).HasRef target ↔
      ∃ i, items = some i ∧ ∃ d, i.Refers d ∧ target = definitionRef d)
  | none => by simp [itemsEntry]
  | some i => by
    have inner := hasRef_toValue i
    simp [itemsEntry, inner]

end

private theorem not_refers_ofType {type : TypeToken.SchemaType} :
    ¬ (ofType type).Refers definition := by
  rw [refers_iff]
  simp [ofType]

private theorem refers_refer : (refer name).Refers definition ↔ name = definition := by
  rw [refers_iff]
  simp [refer]

private theorem refers_described {title : Option String} {text : String} :
    ({ s with title := title, description := text } : Schema).Refers definition ↔
      s.Refers definition := by
  rw [refers_iff, refers_iff]

private theorem refers_array {text : String} :
    ({ ofType .array with description := text, items := some s } : Schema).Refers definition ↔
      s.Refers definition := by
  rw [refers_iff]
  simp [ofType]

/-- A property adds nothing but its own references. -/
theorem Refers.of_setProperty
    (found : (s.setProperty name property required).Refers definition) :
    s.Refers definition ∨ property.Refers definition := by
  rcases found with names | ⟨member, inner⟩ | ⟨items, inner⟩
  · exact .inl (.named names)
  · rcases Entries.mem_insert member with rfl | old
    · exact .inr inner
    · exact .inl (.property old inner)
  · exact .inl (.element items inner)

/-- What a property refers to, the schema refers to. -/
theorem Refers.of_property? (found : s.property? name = some property)
    (inner : property.Refers definition) : s.Refers definition := by
  obtain ⟨before, after, whole, -⟩ := List.lookup_eq_some_iff.1 found
  refine .property (p := (name, property)) ?_ inner
  rw [whole]
  exact List.mem_append_right before List.mem_cons_self

mutual

private theorem not_refers_ofField : (field : Field) → ¬ (ofField field).Refers definition
  | ⟨d, children⟩ => by
    have object := not_refers_setFields (ofType .object) not_refers_ofType children
    rw [ofField]
    split
    · refine mt refers_array.1 (mt refers_described.1 ?_)
      split
      · exact object
      · exact not_refers_ofType
    · split
      · exact mt refers_described.1 object
      · exact mt refers_described.1 not_refers_ofType

private theorem not_refers_setFields :
    (s : Schema) → ¬ s.Refers definition → (fields : List Field) →
    ¬ (setFields s fields).Refers definition
  | s, start, [] => start
  | s, start, field :: rest => by
    have property : ¬ (ofField field).Refers definition := not_refers_ofField field
    rw [setFields]
    refine not_refers_setFields _ ?_ rest
    intro found
    exact found.of_setProperty.elim start property

end

/-- What is set property by property refers to nothing but what its properties refer to. -/
theorem Refers.of_setAll {ι : Type} {names : ι → String} {schemas : ι → Schema} {asked : ι → Bool}
    {items : List ι} (found : (setAll names schemas asked items s).Refers definition) :
    s.Refers definition ∨ ∃ a ∈ items, (schemas a).Refers definition := by
  induction items generalizing s with
  | nil => exact .inl found
  | cons a rest ih =>
    rcases ih found with first | ⟨b, member, inner⟩
    · exact first.of_setProperty.imp_right fun inner => ⟨a, List.mem_cons_self, inner⟩
    · exact .inr ⟨b, List.mem_cons_of_mem a member, inner⟩

private theorem not_refers_ofResponse {r : Kit.Response} : ¬ (ofResponse r).Refers definition := by
  have element : ¬ (if r.objectName.isEmpty then ofType (TypeToken.schemaType r.valueType)
      else { ofType .object with title := some r.objectName }).Refers definition := by
    split
    · exact not_refers_ofType
    · exact mt refers_described.1 not_refers_ofType
  rw [ofResponse]
  by_cases array : r.isArray = true
  · simp only [array, ↓reduceIte]
    exact mt refers_array.1 element
  · simp only [array, Bool.false_eq_true, ↓reduceIte]
    exact mt refers_described.1 element

private theorem not_refers_ofResponses {responses : List Kit.Response} :
    ¬ (ofResponses responses).Refers definition := by
  intro found
  rcases Refers.of_setAll found with start | ⟨r, -, inner⟩
  · exact not_refers_ofType start
  · exact not_refers_ofResponse inner

end Schema

end Swagger

/-! ## Envelopes -/

/-- The keys of a wrapped response, with those that the envelope repeats. -/
def Envelope.listed (envelope : Envelope) : List String :=
  envelope.fields ++
    if envelope.dataField ∈ envelope.fields then [] else [envelope.dataField]

/-- The key for data is always listed. -/
theorem Envelope.dataField_mem_listed (envelope : Envelope) :
    envelope.dataField ∈ envelope.listed := by
  rw [listed, List.mem_append]
  split
  · next member => exact .inl member
  · exact .inr List.mem_cons_self

namespace Swagger

/-- A payload is wrapped by setting a property for each key that is listed. -/
theorem wrap_eq_setAll (envelope : Envelope) (payload : Schema) :
    wrap envelope payload =
      Schema.setAll id (fun key => if key = envelope.dataField then payload else {})
        (fun _ => true) envelope.listed (Schema.ofType .object) := by
  by_cases member : envelope.dataField ∈ envelope.fields
  · rw [wrap, if_pos (List.contains_iff_mem.2 member), Schema.setAll, Envelope.listed,
      if_pos member, List.append_nil]
    rfl
  · rw [wrap, if_neg (mt List.contains_iff_mem.1 member), Schema.setAll, Envelope.listed,
      if_neg member, List.foldl_append, List.foldl_cons, List.foldl_nil, if_pos rfl]
    rfl

/-- Each key has the payload or a schema that says nothing; no other name has anything. -/
theorem property?_wrap_key (envelope : Envelope) (payload : Schema) (key : String) :
    (wrap envelope payload).property? key =
      if key ∈ envelope.listed then some (if key = envelope.dataField then payload else {})
      else none := by
  rw [wrap_eq_setAll, Schema.property?_setAll _ _ _ _ rfl]
  split
  · next member =>
    obtain ⟨found, isKey⟩ : ∃ found, envelope.listed.reverse.find? (id · == key) = some found := by
      apply Option.isSome_iff_exists.1
      rw [List.find?_isSome]
      exact ⟨key, List.mem_reverse.2 member, beq_self_eq_true key⟩
    have same : found = key := by simpa using List.find?_some isKey
    rw [isKey, same]
    rfl
  · next foreign =>
    rw [Option.map_eq_none_iff, List.find?_eq_none]
    intro other member same
    apply foreign
    rw [← beq_iff_eq.1 same]
    exact List.mem_reverse.1 member

/-- An envelope holds its payload under the key for data, whether or not that is one of its keys. -/
theorem property?_wrap {envelope : Envelope} {inner : Schema} :
    (wrap envelope inner).property? envelope.dataField = some inner := by
  rw [property?_wrap_key, if_pos envelope.dataField_mem_listed, if_pos rfl]

/-! ## Operations -/

section Operations

variable {envelope : Envelope} {inner : Schema} {e : Endpoint} {verb : Verb}
  {definition target : String}

private theorem refers_wrap :
    (wrap envelope inner).Refers definition ↔ inner.Refers definition := by
  constructor
  · intro found
    rw [wrap_eq_setAll] at found
    rcases Schema.Refers.of_setAll found with start | ⟨key, -, within⟩
    · exact absurd start Schema.not_refers_ofType
    · split at within
      · exact within
      · rw [Schema.refers_iff] at within
        simp at within
  · exact Schema.Refers.of_property? property?_wrap

private theorem refers_responseSchema :
    (responseSchema envelope e).Refers definition ↔ e.responseModelName = definition := by
  rw [← Schema.refers_refer]
  simp only [responseSchema]
  split
  · rfl
  · exact refers_wrap

private theorem not_hasRef_queryParameter {field : Field} :
    ¬ (queryParameter field).toValue.HasRef target := by
  have element (type : TypeToken.SchemaType) : ¬ (Schema.ofType type).toValue.HasRef target := by
    rw [Schema.hasRef_toValue]
    rintro ⟨d, refers, -⟩
    exact Schema.not_refers_ofType refers
  by_cases array : field.isArray = true
  · simp [queryParameter, Parameter.toValue, array, element]
  · simp [queryParameter, Parameter.toValue, array]

private theorem hasRef_body {p : Parameter} (body : p.kind = .body definition) :
    p.toValue.HasRef target ↔ target = definitionRef definition := by
  simp [Parameter.toValue, body, Schema.hasRef_toValue, Schema.refers_refer]

private theorem hasRef_parameters :
    (Value.array ((parameters e verb).map Parameter.toValue)).HasRef target ↔
      verb = .post ∧ target = definitionRef e.requestModelName := by
  rw [Value.hasRef_array_map]
  cases verb with
  | get => simp [parameters, not_hasRef_queryParameter]
  | post => simp [parameters, hasRef_body]

/-- The references of an operation: the response, and the request if that is sent in the body. -/
theorem hasRef_operation : (operation envelope e verb).toValue.HasRef target ↔
    target = definitionRef e.responseModelName ∨
      verb = .post ∧ target = definitionRef e.requestModelName := by
  have response : (responseSchema envelope e).toValue.HasRef target ↔
      target = definitionRef e.responseModelName := by
    simp [Schema.hasRef_toValue, refers_responseSchema]
  simp [Operation.toValue, operation, hasRef_parameters, response, or_comm]

end Operations

theorem Operation.toValue_ne_string {o : Operation} {text : String} : o.toValue ≠ .string text := by
  simp [toValue]

/-- The references of a written document stand in its operations and in its definitions. -/
theorem Document.hasRef_toValue {doc : Document} {target : String} : doc.toValue.HasRef target ↔
    (∃ p ∈ doc.paths.entries, ∃ o ∈ p.2, o.2.toValue.HasRef target) ∨
      ∃ d ∈ doc.definitions.entries, d.2.toValue.HasRef target := by
  simp [toValue, Value.hasRef_array_map, Value.hasRef_object_map, Schema.toValue_ne_string,
    Operation.toValue_ne_string]

/-! ## Documents -/

section Documents

universe u

variable {σ : Type u} {source : ResponseSource σ} {envelope : Envelope} {doc : Document}
  {described : List (Endpoint × Schema)} {e : Endpoint} {response : Schema} {m : Model} {s t : σ}
  {definition target : String}

private theorem not_refers_requestSchema : ¬ (requestSchema e).Refers definition :=
  mt Schema.refers_described.1
    (Schema.not_refers_setFields _ Schema.not_refers_ofType e.requestFields)

private theorem not_refers_of_payload (given : payload source e s = (.ok response, t)) :
    ¬ response.Refers definition := by
  unfold payload at given
  split at given
  · rcases asked : source e s with ⟨fault | responses, u⟩
    · rw [asked] at given
      cases given
    · rw [asked] at given
      cases given
      exact Schema.not_refers_ofResponses
  · cases given
    exact Schema.not_refers_setFields _ Schema.not_refers_ofType e.responseFields

/-- No payload that is answered refers to a definition. -/
theorem Answers.not_refers (answers : Answers source s described t) :
    ∀ d ∈ described, ¬ d.2.Refers definition := by
  induction answers with
  | done => exact List.forall_mem_nil _
  | next given _ ih => exact List.forall_mem_cons.2 ⟨not_refers_of_payload given, ih⟩

private theorem not_refers_of_definition (describes : Describes envelope described doc)
    (plain : ∀ d ∈ described, ¬ d.2.Refers definition) :
    ∀ d ∈ doc.definitions.entries, ¬ d.2.Refers definition := by
  intro d member
  obtain ⟨whose, inside, one⟩ := List.mem_flatMap.1 (describes.definitions.mem_iff.1 member)
  rcases List.mem_cons.1 one with rfl | one
  · exact not_refers_requestSchema
  · cases List.mem_singleton.1 one
    exact plain whose inside

private theorem exists_verb (method : Method) : ∃ verb, verb ∈ method.verbs := by
  cases method with
  | get => exact ⟨.get, List.mem_cons_self⟩
  | post => exact ⟨.post, List.mem_cons_self⟩
  | any => exact ⟨.get, List.mem_cons_self⟩

/-- The references of a document are those of its operations. -/
theorem hasRef_of_describes (describes : Describes envelope described doc)
    (plain : ∀ d ∈ described, ∀ definition, ¬ d.2.Refers definition) :
    doc.toValue.HasRef target ↔ ∃ d ∈ described, target = definitionRef d.1.responseModelName ∨
      .post ∈ d.1.method.verbs ∧ target = definitionRef d.1.requestModelName := by
  have noDefinition : ¬ ∃ d ∈ doc.definitions.entries, d.2.toValue.HasRef target := by
    rintro ⟨d, member, found⟩
    obtain ⟨name, refers, -⟩ := (Schema.hasRef_toValue d.2).1 found
    exact not_refers_of_definition describes (fun d inside => plain d inside name) d member refers
  rw [Document.hasRef_toValue, or_iff_left noDefinition]
  constructor
  · rintro ⟨p, member, o, along, found⟩
    obtain ⟨d, inside, rfl⟩ := List.mem_map.1 (describes.paths.mem_iff.1 member)
    obtain ⟨verb, answers, rfl⟩ := List.mem_map.1 along
    refine ⟨d, inside, (hasRef_operation.1 found).imp_right ?_⟩
    rintro ⟨rfl, same⟩
    exact ⟨answers, same⟩
  · rintro ⟨d, inside, refers⟩
    have member := describes.paths.mem_iff.2 (List.mem_map_of_mem inside)
    obtain ⟨verb, answers, sent⟩ : ∃ verb ∈ d.1.method.verbs,
        target = definitionRef d.1.responseModelName ∨
          verb = .post ∧ target = definitionRef d.1.requestModelName := by
      rcases refers with same | ⟨posts, same⟩
      · obtain ⟨verb, answers⟩ := exists_verb d.1.method
        exact ⟨verb, answers, .inl same⟩
      · exact ⟨.post, posts, .inr ⟨rfl, same⟩⟩
    exact ⟨_, member, _, List.mem_map_of_mem answers, hasRef_operation.2 sent⟩

/-- A document with a path for each endpoint and an operation for each of its verbs, with the two
definitions of each endpoint, and with references that lead to definitions and end there. -/
structure Document.Represents (doc : Document) (m : Model) : Prop where
  paths : doc.paths.keys.Perm (m.endpoints.map Endpoint.groupPath)
  size_paths : doc.paths.size = m.endpoints.length
  verbs : ∀ e ∈ m.endpoints, ∃ operations, doc.paths.get? e.groupPath = some operations ∧
    operations.map Prod.fst = e.method.verbs
  definitions : doc.definitions.keys.Perm
    (m.endpoints.flatMap fun e => [e.requestModelName, e.responseModelName])
  size_definitions : doc.definitions.size = 2 * m.endpoints.length
  references : ∀ target, doc.toValue.HasRef target ↔
    ∃ e ∈ m.endpoints, target = definitionRef e.responseModelName ∨
      .post ∈ e.method.verbs ∧ target = definitionRef e.requestModelName
  defined : ∀ target, doc.toValue.HasRef target →
    ∃ name, doc.definitions.contains name = true ∧ target = definitionRef name
  closed : ∀ name schema, doc.definitions.get? name = some schema →
    ∀ target, ¬ schema.toValue.HasRef target

/-- Every document that is built represents its model, wherever responses come from. -/
theorem build_represents (built : (build source m s).1 = .ok doc) : doc.Represents m := by
  obtain ⟨described, same, answers, describes, -⟩ := describes_build (Prod.ext built rfl)
  have plain : ∀ d ∈ described, ∀ definition, ¬ d.2.Refers definition :=
    fun d inside definition => answers.not_refers d inside
  have references : ∀ target, doc.toValue.HasRef target ↔ ∃ d ∈ described,
      target = definitionRef d.1.responseModelName ∨
        .post ∈ d.1.method.verbs ∧ target = definitionRef d.1.requestModelName :=
    fun _ => hasRef_of_describes describes plain
  constructor
  case paths =>
    rw [← same, SortedMap.keys, List.map_map]
    refine (describes.paths.map Prod.fst).trans ?_
    rw [List.map_map]
    exact .refl _
  case size_paths =>
    rw [← same, SortedMap.size, describes.paths.length_eq, List.length_map, List.length_map]
  case verbs =>
    intro e member
    rw [← same] at member
    obtain ⟨d, inside, rfl⟩ := List.mem_map.1 member
    refine ⟨operations m.settings.envelope d.1, ?_, ?_⟩
    · exact describes.get?_path_iff.2 ⟨d, inside, rfl, rfl⟩
    · rw [operations, List.map_map]
      exact List.map_id _
  case definitions =>
    rw [← same, List.flatMap_map]
    refine (describes.definitions.map Prod.fst).trans ?_
    rw [List.map_flatMap]
    exact .refl _
  case size_definitions =>
    have pair : ∀ d ∈ described, (definitionsOf d).length = 2 := fun _ _ => rfl
    rw [SortedMap.size, describes.definitions.length_eq, ← same, List.length_map,
      List.length_flatMap, List.map_congr_left pair, List.map_const', List.sum_replicate_nat,
      Nat.mul_comm]
  case references =>
    intro target
    rw [references, ← same]
    simp
  case defined =>
    intro target found
    obtain ⟨d, inside, refers⟩ := (references target).1 found
    rcases refers with rfl | ⟨-, rfl⟩
    · exact ⟨_, describes.contains_definition.2 ⟨d, inside, .inr rfl⟩, rfl⟩
    · exact ⟨_, describes.contains_definition.2 ⟨d, inside, .inl rfl⟩, rfl⟩
  case closed =>
    intro name schema known target found
    obtain ⟨definition, refers, -⟩ := (Schema.hasRef_toValue schema).1 found
    have member := SortedMap.get?_eq_some_iff.1 known
    exact not_refers_of_definition describes (fun d inside => plain d inside definition) _ member
      refers

/-- A group with an endpoint for both verbs, whose response is left to its kit, and one with a raw
response of its own. -/
def webModel : Model where
  routePrefix := "api"
  version := "v1"
  groups := [{
    name := "web"
    endpoints := [
      { name := "files.*", group := "web", method := .any },
      { name := "login", group := "web", method := .post, protocol := .respRaw
        requestFields := [⟨.ofTypes "user" "string" "string", []⟩]
        responseFields := [⟨.ofTypes "token" "string" "string", []⟩] }] }]

/-- The kit of the group, with a response that is an array of objects. -/
def webKit : Kit.Reader :=
  .ofFiles [("./gopher/app/api/web/web_kit.go", .ok
    "func FilesApi(req *Req) Resp \x7b\n\tresp[\"list\"] = all // @[]File every file\n\x7d\n")]

theorem build_represents_webModel : ∃ doc, (documentWithKits webKit {} webModel {}).1 = .ok doc ∧
    doc.definitions.keys = ["ReqWebFiles", "ReqWebLogin", "RespWebFiles", "RespWebLogin"] ∧
    ((doc.definitions.get? "RespWebFiles").bind (·.property? "list")).isSome = true ∧
    doc.Represents webModel := by
  obtain ⟨doc, built, keys, described⟩ : ∃ doc,
      (documentWithKits webKit {} webModel {}).1 = .ok doc ∧
      doc.definitions.keys = ["ReqWebFiles", "ReqWebLogin", "RespWebFiles", "RespWebLogin"] ∧
      ((doc.definitions.get? "RespWebFiles").bind (·.property? "list")).isSome = true :=
    ⟨_, rfl, rfl, rfl⟩
  exact ⟨doc, built, keys, described, build_represents built⟩

end Documents

end Swagger

end ApiOutline
