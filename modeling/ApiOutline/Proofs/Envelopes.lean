import ApiOutline.Proofs.QueryParameters
import ApiOutline.Proofs.References

/-!
The payload of a response and the envelope around it.

The keys of an envelope may repeat, and the key of the payload may be one of them or not.  A
response lists each key once, in the order in which they come first, and the key of the payload last
if it is none of them.  It says nothing of the values under the other keys, so the definition of the
payload is referred to in one place only, whatever keys there are.
-/

namespace ApiOutline

universe u v

/-- Repeated keys are listed where they come first, and the key for data stays last unless the
envelope has it already. -/
theorem Envelope.eraseDups_listed (envelope : Envelope) :
    envelope.listed.eraseDups = envelope.fields.eraseDups ++
      if envelope.dataField ∈ envelope.fields then [] else [envelope.dataField] := by
  rw [listed]
  split
  · rw [List.append_nil, List.append_nil]
  · next fresh => rw [eraseDups_concat, if_neg fresh]

/-- Where only one entry of a map yields anything, the map yields what that entry does. -/
theorem SortedMap.flatMap_entries {α : Type u} {β : Type v} {m : SortedMap α} {key : String}
    {value : α} {f : α → List β} (found : m.get? key = some value)
    (silent : ∀ other v, other ≠ key → m.get? other = some v → f v = []) :
    m.entries.flatMap (fun entry => f entry.2) = f value := by
  obtain ⟨before, after, whole⟩ := List.append_of_mem (get?_eq_some_iff.1 found)
  have distinct := m.nodup_keys
  rw [keys, whole, List.map_append, List.map_cons, List.nodup_middle] at distinct
  have quiet : ∀ entry ∈ before ++ after, f entry.2 = [] := by
    intro entry beside
    have member : entry ∈ m.entries := by
      rw [whole]
      exact List.perm_middle.mem_iff.2 (List.mem_cons_of_mem _ beside)
    refine silent entry.1 entry.2 ?_ (get?_eq_some_iff.2 member)
    intro same
    apply (List.nodup_cons.1 distinct).1
    rw [← List.map_append]
    exact List.mem_map.2 ⟨entry, beside, same⟩
  obtain ⟨early, late⟩ := List.forall_mem_append.1 quiet
  rw [whole, List.flatMap_append, List.flatMap_cons, List.flatMap_eq_nil_iff.2 early,
    List.flatMap_eq_nil_iff.2 late, List.nil_append, List.append_nil]

namespace Swagger

/-- A response that wraps a definition: an object with the keys of the envelope, each of them
required, with the definition under the key for data and nothing said of the others. -/
structure Wraps (envelope : Envelope) (definition : String) (s : Schema) : Prop where
  object : s = { Schema.ofType .object with required := s.required, properties := s.properties }
  required : s.required = envelope.fields.eraseDups ++
    if envelope.dataField ∈ envelope.fields then [] else [envelope.dataField]
  keys : (s.properties.map (·.1)).Perm s.required
  payload : s.property? envelope.dataField = some (Schema.refer definition)
  others : ∀ key ∈ s.required, key ≠ envelope.dataField → s.property? key = some {}

/-! ## Wrapping -/

private theorem required_wrap (envelope : Envelope) (payload : Schema) :
    (wrap envelope payload).required = envelope.listed.eraseDups := by
  rw [wrap_eq_setAll, Schema.required_setAll _ _ _ _ rfl, List.filter_true, List.map_id]

private theorem sorted_wrap (envelope : Envelope) (payload : Schema) :
    Entries.Sorted (wrap envelope payload).properties := by
  rw [wrap_eq_setAll]
  exact Schema.sorted_setAll _ _ _ _ .nil

private theorem nodup_keys_wrap (envelope : Envelope) (payload : Schema) :
    ((wrap envelope payload).properties.map (·.1)).Nodup :=
  SortedMap.nodup_keys ⟨_, sorted_wrap envelope payload⟩

private theorem keys_wrap (envelope : Envelope) (payload : Schema) :
    ((wrap envelope payload).properties.map (·.1)).Perm envelope.listed.eraseDups := by
  rw [List.perm_ext_iff_of_nodup (nodup_keys_wrap envelope payload) (nodup_eraseDups _)]
  intro key
  rw [← Entries.isSome_lookup_iff, ← Schema.property?, property?_wrap_key, List.mem_eraseDups]
  split
  · next member => exact iff_of_true rfl member
  · next foreign => exact iff_of_false Bool.false_ne_true foreign

private theorem wraps_wrap (envelope : Envelope) (definition : String) :
    Wraps envelope definition (wrap envelope (Schema.refer definition)) where
  object := by
    rw [wrap_eq_setAll]
    exact Schema.setAll_frame _ _ _ _ _
  required := by rw [required_wrap, Envelope.eraseDups_listed]
  keys := by
    rw [required_wrap]
    exact keys_wrap _ _
  payload := property?_wrap
  others := by
    intro key member other
    rw [required_wrap, List.mem_eraseDups] at member
    rw [property?_wrap_key, if_pos member, if_neg other]

/-! ## How often a definition is referred to -/

namespace Schema

mutual

/-- The definitions that a schema refers to, each as often as it does. -/
def references : Schema → List String
  | ⟨_, reference, _, _, _, properties, items⟩ =>
    reference.toList ++ propertyReferences properties ++ itemReferences items

/-- The definitions that some properties refer to. -/
def propertyReferences : List (String × Schema) → List String
  | [] => []
  | (_, property) :: rest => references property ++ propertyReferences rest

/-- The definitions that an element refers to, if there is one. -/
def itemReferences : Option Schema → List String
  | none => []
  | some element => references element

end

private theorem propertyReferences_eq_flatMap (properties : List (String × Schema)) :
    propertyReferences properties = properties.flatMap (references ·.2) := by
  induction properties with
  | nil => rw [propertyReferences, List.flatMap_nil]
  | cons property rest ih => rw [propertyReferences, ih, List.flatMap_cons]

private theorem references_object {s : Schema}
    (object : s = { ofType .object with required := s.required, properties := s.properties }) :
    s.references = s.properties.flatMap (references ·.2) := by
  rw [object, references, ← propertyReferences_eq_flatMap]
  simp [ofType, itemReferences]

private theorem references_empty : references {} = [] := by
  simp [references, propertyReferences, itemReferences]

private theorem references_refer (definition : String) :
    (refer definition).references = [definition] := by
  simp [refer, references, propertyReferences, itemReferences]

end Schema

/-- The payload of an envelope is referred to once. -/
theorem references_wrap (envelope : Envelope) (definition : String) :
    (wrap envelope (Schema.refer definition)).references = [definition] := by
  let properties : SortedMap Schema := ⟨_, sorted_wrap envelope (Schema.refer definition)⟩
  have payload : properties.get? envelope.dataField = some (Schema.refer definition) :=
    property?_wrap
  have silent : ∀ key property, key ≠ envelope.dataField → properties.get? key = some property →
      property.references = [] := by
    intro key property other found
    have said : (wrap envelope (Schema.refer definition)).property? key = some property := found
    rw [property?_wrap_key, if_neg other] at said
    split at said
    · cases said
      exact Schema.references_empty
    · cases said
  calc (wrap envelope (Schema.refer definition)).references
      = properties.entries.flatMap (Schema.references ·.2) :=
        Schema.references_object (wraps_wrap envelope definition).object
    _ = (Schema.refer definition).references := SortedMap.flatMap_entries payload silent
    _ = [definition] := Schema.references_refer definition

/-! ## Documents -/

section Documents

variable {σ : Type u} {source : ResponseSource σ} {m : Model} {s : σ} {doc : Document}

/-- Every operation of a document that is built answers with the definition of its endpoint's
response: bare where the response is raw, and in the envelope otherwise, with all keys of the
envelope.  Either way it refers to that definition once. -/
theorem response_in_envelope (built : (build source m s).1 = .ok doc) {e : Endpoint}
    (member : e ∈ m.endpoints) {verb : Verb} (answers : verb ∈ e.method.verbs) :
    ∃ op, doc.operation? e.groupPath verb = some op ∧
      (e.protocol = .raw ∨ e.protocol = .respRaw →
        op.response = Schema.refer e.responseModelName) ∧
      (¬ (e.protocol = .raw ∨ e.protocol = .respRaw) →
        Wraps m.settings.envelope e.responseModelName op.response) ∧
      op.response.references = [e.responseModelName] ∧
      doc.definitions.contains e.responseModelName = true := by
  obtain ⟨described, same, -, describes, -⟩ := describes_build (Prod.ext built rfl)
  rw [← same] at member
  obtain ⟨d, inside, rfl⟩ := List.mem_map.1 member
  have defined : doc.definitions.contains d.1.responseModelName = true :=
    describes.contains_definition.2 ⟨d, inside, .inr rfl⟩
  refine ⟨_, describes.operation?_eq inside answers, ?_⟩
  rw [operation, responseSchema]
  cases protocol : d.1.protocol with
  | raw | respRaw =>
    refine ⟨fun _ => rfl, fun wrapped => absurd ?_ wrapped, Schema.references_refer _, defined⟩
    simp
  | json | reqRaw =>
    refine ⟨fun raw => ?_, fun _ => wraps_wrap _ _, references_wrap _ _, defined⟩
    simp at raw

def listEndpoint : Endpoint := { name := "list", group := "web", method := .any }

/-- The endpoint under an envelope that two directives have made: a key repeats, and the key of the
payload is empty. -/
def listModel : Model where
  routePrefix := "api"
  version := "v1"
  groups := [{ name := "web", endpoints := [listEndpoint] }]
  settings := ["- resp: fields=stat,msg,stat in=body", "- resp: in="].foldl
    (fun s raw => (Outline.applyDirective .envelope raw.toList s).1) {}

theorem response_in_envelope_unlisted : ∃ doc op, document listModel = .ok doc ∧
    listModel.settings.envelope = ⟨["stat", "msg", "stat"], ""⟩ ∧
    doc.operation? "/web/list" .get = some op ∧ op.response.required = ["stat", "msg", ""] ∧
    op.response.property? "" = some (Schema.refer "RespWebList") ∧
    op.response.references = ["RespWebList"] := by
  obtain ⟨doc, built⟩ : ∃ doc, document listModel = .ok doc := ⟨_, rfl⟩
  have envelope : listModel.settings.envelope = ⟨["stat", "msg", "stat"], ""⟩ := by decide +kernel
  have path : listEndpoint.groupPath = "/web/list" := rfl
  have name : listEndpoint.responseModelName = "RespWebList" := rfl
  obtain ⟨op, found, -, wrapped, once, -⟩ :=
    @response_in_envelope Unit noResponses listModel () doc built listEndpoint List.mem_cons_self
      .get List.mem_cons_self
  have wraps := wrapped (by decide)
  have required := wraps.required
  have payload := wraps.payload
  rw [envelope, name] at payload
  rw [envelope] at required
  rw [path] at found
  rw [name] at once
  exact ⟨doc, op, built, envelope, found, required, payload, once⟩

end Documents

end Swagger

end ApiOutline
