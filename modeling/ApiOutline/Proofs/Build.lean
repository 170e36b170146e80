import ApiOutline.Proofs.Names
import ApiOutline.Proofs.SortedMap
import ApiOutline.Swagger.Document

/-!
What building a document does, endpoint by endpoint.

A document that describes some endpoints has a path for each of them and two definitions, and
nothing else.  One more endpoint shares its path or the name of its request with one of them, which
is a conflict, or else it adds a path and two definitions of its own.  The name of its response
needs no attention: it repeats only where the name of its request does.
-/

namespace ApiOutline.Swagger

universe u

/-- Two endpoints that one document can describe. -/
def Apart (a b : Endpoint) : Prop :=
  a.groupPath ≠ b.groupPath ∧ a.requestModelName ≠ b.requestModelName

theorem pairwise_apart_concat {endpoints : List Endpoint} {e : Endpoint}
    (distinct : endpoints.Pairwise Apart) (apart : ∀ d ∈ endpoints, Apart d e) :
    (endpoints ++ [e]).Pairwise Apart := by
  refine List.pairwise_append.2 ⟨distinct, List.pairwise_singleton _ _, ?_⟩
  intro d member last final
  rw [List.mem_singleton.1 final]
  exact apart d member

/-- The operations along the path of an endpoint. -/
def operations (envelope : Envelope) (e : Endpoint) : List (Verb × Operation) :=
  e.method.verbs.map fun verb => (verb, operation envelope e verb)

/-- The definition of an endpoint's request. -/
def requestSchema (e : Endpoint) : Schema :=
  { Schema.ofFields e.requestFields with description := e.comment }

/-- A document with one more endpoint, and the schema of its response. -/
def Document.withEndpoint (envelope : Envelope) (e : Endpoint) (doc : Document)
    (response : Schema) : Document :=
  { doc with
    paths := doc.paths.insert e.groupPath (operations envelope e)
    definitions := (doc.definitions.insert e.requestModelName (requestSchema e)).insert
      e.responseModelName response }

/-- The two definitions of an endpoint. -/
def definitionsOf (described : Endpoint × Schema) : List (String × Schema) :=
  [(described.1.requestModelName, requestSchema described.1),
    (described.1.responseModelName, described.2)]

/-- A document that describes some endpoints, each with the schema of its response, and no other. -/
structure Describes (envelope : Envelope) (described : List (Endpoint × Schema))
    (doc : Document) : Prop where
  paths : doc.paths.entries.Perm
    (described.map fun d => (d.1.groupPath, operations envelope d.1))
  definitions : doc.definitions.entries.Perm (described.flatMap definitionsOf)

section Step

variable {σ : Type u} {source : ResponseSource σ} {envelope : Envelope} {doc doc' : Document}
  {described : List (Endpoint × Schema)} {e : Endpoint} {s t : σ}

/-! ## One endpoint -/

/-- A document has the paths of the endpoints it describes, and no others. -/
theorem Describes.contains_path (describes : Describes envelope described doc) {path : String} :
    doc.paths.contains path = true ↔ ∃ d ∈ described, d.1.groupPath = path := by
  rw [SortedMap.contains_iff, SortedMap.keys, (describes.paths.map Prod.fst).mem_iff]
  simp

/-- Along a path stand the operations of the endpoint that it belongs to. -/
theorem Describes.get?_path_iff (describes : Describes envelope described doc) {path : String}
    {along : List (Verb × Operation)} : doc.paths.get? path = some along ↔
      ∃ d ∈ described, d.1.groupPath = path ∧ operations envelope d.1 = along := by
  rw [SortedMap.get?_eq_some_iff, describes.paths.mem_iff]
  simp

/-- A document defines the request and the response of each endpoint it describes, and nothing else.
-/
theorem Describes.contains_definition (describes : Describes envelope described doc)
    {name : String} :
    doc.definitions.contains name = true ↔
      ∃ d ∈ described, name = d.1.requestModelName ∨ name = d.1.responseModelName := by
  rw [SortedMap.contains_iff, SortedMap.keys, (describes.definitions.map Prod.fst).mem_iff]
  simp [definitionsOf, List.map_flatMap]

/-- The name of a request is taken by the request of another endpoint only: no response has such a
name. -/
theorem Describes.contains_request (describes : Describes envelope described doc) :
    doc.definitions.contains e.requestModelName = true ↔
      ∃ d ∈ described, d.1.requestModelName = e.requestModelName := by
  rw [describes.contains_definition]
  constructor
  · rintro ⟨d, member, same | same⟩
    · exact ⟨d, member, same.symm⟩
    · exact absurd same (Endpoint.requestModelName_ne_responseModelName e d.1)
  · rintro ⟨d, member, same⟩
    exact ⟨d, member, .inl same.symm⟩

/-- The name of a response is taken exactly if the name of the request beside it is. -/
theorem Describes.contains_response (describes : Describes envelope described doc) :
    doc.definitions.contains e.responseModelName = true ↔
      ∃ d ∈ described, d.1.requestModelName = e.requestModelName := by
  rw [describes.contains_definition]
  constructor
  · rintro ⟨d, member, same | same⟩
    · exact absurd same.symm (Endpoint.requestModelName_ne_responseModelName d.1 e)
    · exact ⟨d, member, Endpoint.responseModelName_eq_iff.1 same.symm⟩
  · rintro ⟨d, member, same⟩
    exact ⟨d, member, .inr (Endpoint.responseModelName_eq_iff.2 same).symm⟩

/-- An endpoint whose path is taken is refused before the source is asked for anything. -/
theorem addEndpoint_path_taken (describes : Describes envelope described doc)
    (taken : ∃ d ∈ described, d.1.groupPath = e.groupPath) (s : σ) :
    addEndpoint source envelope doc e s = (.error (.conflict .path e.groupPath), s) := by
  rw [addEndpoint, if_pos (describes.contains_path.2 taken)]

/-- An endpoint whose path is free is refused if the name of its request is taken, and again the
source is not asked. -/
theorem addEndpoint_request_taken (describes : Describes envelope described doc)
    (free : ∀ d ∈ described, d.1.groupPath ≠ e.groupPath)
    (taken : ∃ d ∈ described, d.1.requestModelName = e.requestModelName) (s : σ) :
    addEndpoint source envelope doc e s =
      (.error (.conflict .definition e.requestModelName), s) := by
  have newPath : ¬ doc.paths.contains e.groupPath = true := by
    intro found
    obtain ⟨d, member, same⟩ := describes.contains_path.1 found
    exact free d member same
  rw [addEndpoint, if_neg newPath]
  simp only [Document.define, if_pos (describes.contains_request.2 taken)]

private theorem fresh_of_apart (describes : Describes envelope described doc)
    (apart : ∀ d ∈ described, Apart d.1 e) :
    doc.paths.contains e.groupPath = false ∧
      doc.definitions.contains e.requestModelName = false ∧
      doc.definitions.contains e.responseModelName = false := by
  refine ⟨Bool.eq_false_iff.2 ?_, Bool.eq_false_iff.2 ?_, Bool.eq_false_iff.2 ?_⟩
  · intro found
    obtain ⟨d, member, same⟩ := describes.contains_path.1 found
    exact (apart d member).1 same
  · intro found
    obtain ⟨d, member, same⟩ := describes.contains_request.1 found
    exact (apart d member).2 same
  · intro found
    obtain ⟨d, member, same⟩ := describes.contains_response.1 found
    exact (apart d member).2 same

/-- An endpoint apart from those described is added, unless its response cannot be had. -/
theorem addEndpoint_apart (describes : Describes envelope described doc)
    (apart : ∀ d ∈ described, Apart d.1 e) (s : σ) :
    addEndpoint source envelope doc e s =
      ((payload source e s).1.map (doc.withEndpoint envelope e), (payload source e s).2) := by
  obtain ⟨newPath, newRequest, newResponse⟩ := fresh_of_apart describes apart
  have differ := Endpoint.requestModelName_ne_responseModelName e e
  have stillNew := (SortedMap.contains_insert_of_ne differ.symm (requestSchema e)).trans newResponse
  rw [requestSchema] at stillNew
  simp only [addEndpoint, Document.define, newPath, newRequest, Bool.false_eq_true, ↓reduceIte]
  rcases payload source e s with ⟨fault | response, t⟩
  · rfl
  · simp only [stillNew, Bool.false_eq_true, ↓reduceIte]
    rfl

/-- A document that is given one more endpoint describes that one as well. -/
theorem describes_withEndpoint (describes : Describes envelope described doc)
    (apart : ∀ d ∈ described, Apart d.1 e) (response : Schema) :
    Describes envelope (described ++ [(e, response)]) (doc.withEndpoint envelope e response) := by
  obtain ⟨newPath, newRequest, newResponse⟩ := fresh_of_apart describes apart
  have differ := Endpoint.requestModelName_ne_responseModelName e e
  constructor
  · rw [List.map_append]
    refine (SortedMap.entries_insert newPath _).trans ?_
    exact (describes.paths.cons _).trans (List.perm_append_singleton _ _).symm
  · have stillNew :=
      (SortedMap.contains_insert_of_ne differ.symm (requestSchema e)).trans newResponse
    have added := (SortedMap.entries_insert stillNew response).trans
      ((SortedMap.entries_insert newRequest (requestSchema e)).cons _)
    have both := describes.definitions.append_left (definitionsOf (e, response))
    rw [List.flatMap_append, List.flatMap_singleton]
    refine added.trans ((List.Perm.swap _ _ _).trans ?_)
    exact both.trans List.perm_append_comm

/-- What an endpoint shares with those described: its path, the name of its request, or neither. -/
theorem clash_or_apart (described : List (Endpoint × Schema)) (e : Endpoint) :
    (∃ d ∈ described, d.1.groupPath = e.groupPath) ∨
      ((∀ d ∈ described, d.1.groupPath ≠ e.groupPath) ∧
        ∃ d ∈ described, d.1.requestModelName = e.requestModelName) ∨
      ∀ d ∈ described, Apart d.1 e := by
  by_cases pathTaken : ∃ d ∈ described, d.1.groupPath = e.groupPath
  · exact .inl pathTaken
  have free : ∀ d ∈ described, d.1.groupPath ≠ e.groupPath :=
    fun d member same => pathTaken ⟨d, member, same⟩
  by_cases requestTaken : ∃ d ∈ described, d.1.requestModelName = e.requestModelName
  · exact .inr (.inl ⟨free, requestTaken⟩)
  · exact .inr (.inr fun d member => ⟨free d member, fun same => requestTaken ⟨d, member, same⟩⟩)

private theorem addEndpoint_ok (describes : Describes envelope described doc)
    (added : addEndpoint source envelope doc e s = (.ok doc', t)) :
    (∀ d ∈ described, Apart d.1 e) ∧ ∃ response, payload source e s = (.ok response, t) ∧
      doc' = doc.withEndpoint envelope e response := by
  rcases clash_or_apart described e with pathTaken | ⟨free, requestTaken⟩ | apart
  · rw [addEndpoint_path_taken describes pathTaken] at added
    cases added
  · rw [addEndpoint_request_taken describes free requestTaken] at added
    cases added
  · refine ⟨apart, ?_⟩
    rw [addEndpoint_apart describes apart] at added
    rcases given : payload source e s with ⟨fault | response, after⟩
    · rw [given] at added
      cases added
    · rw [given] at added
      cases added
      exact ⟨response, rfl, rfl⟩

end Step

/-! ## Many endpoints -/

section Run

variable {σ : Type u} {source : ResponseSource σ} {envelope : Envelope} {doc doc' : Document}
  {described : List (Endpoint × Schema)} {endpoints : List Endpoint} {s t : σ}

/-- The schemas that a source gives for the responses of endpoints, one after the other. -/
inductive Answers (source : ResponseSource σ) : σ → List (Endpoint × Schema) → σ → Prop where
  | done (s : σ) : Answers source s [] s
  | next {e : Endpoint} {response : Schema} {rest : List (Endpoint × Schema)} {s t u : σ}
      (given : payload source e s = (.ok response, t)) (more : Answers source t rest u) :
      Answers source s ((e, response) :: rest) u

/-- Endpoints that could be added are apart from each other and from those before them, and the
document describes them as well. -/
theorem addEndpoints_ok (describes : Describes envelope described doc)
    (distinct : (described.map Prod.fst).Pairwise Apart)
    (added : addEndpoints source envelope endpoints doc s = (.ok doc', t)) :
    ∃ new, new.map Prod.fst = endpoints ∧ Answers source s new t ∧
      Describes envelope (described ++ new) doc' ∧
      ((described ++ new).map Prod.fst).Pairwise Apart := by
  induction endpoints generalizing described doc s with
  | nil =>
    cases added
    refine ⟨[], rfl, .done _, ?_, ?_⟩
    · rw [List.append_nil]
      exact describes
    · rw [List.append_nil]
      exact distinct
  | cons e rest ih =>
    rcases first : addEndpoint source envelope doc e s with ⟨fault | next, u⟩
    · rw [addEndpoints, first] at added
      cases added
    · rw [addEndpoints, first] at added
      obtain ⟨apart, response, given, rfl⟩ := addEndpoint_ok describes first
      have stillDistinct : ((described ++ [(e, response)]).map Prod.fst).Pairwise Apart := by
        rw [List.map_append]
        exact pairwise_apart_concat distinct (List.forall_mem_map.2 apart)
      obtain ⟨new, same, answers, describesAll, distinctAll⟩ :=
        ih (describes_withEndpoint describes apart response) stillDistinct added
      refine ⟨(e, response) :: new, congrArg (e :: ·) same, .next given answers, ?_, ?_⟩
      · rw [List.append_cons]
        exact describesAll
      · rw [List.append_cons]
        exact distinctAll

/-- Endpoints go into the paths and the definitions, and nowhere else. -/
theorem addEndpoints_frame (describes : Describes envelope described doc)
    (added : addEndpoints source envelope endpoints doc s = (.ok doc', t)) :
    doc' = { doc with paths := doc'.paths, definitions := doc'.definitions } := by
  induction endpoints generalizing described doc s with
  | nil =>
    cases added
    rfl
  | cons e rest ih =>
    rcases first : addEndpoint source envelope doc e s with ⟨fault | next, u⟩
    · rw [addEndpoints, first] at added
      cases added
    · rw [addEndpoints, first] at added
      obtain ⟨apart, response, -, rfl⟩ := addEndpoint_ok describes first
      have later := ih (describes_withEndpoint describes apart response) added
      exact later

/-- A document to which nothing has been added describes no endpoint. -/
theorem describes_start (envelope : Envelope) (m : Model) :
    Describes envelope [] (Document.ofModel m) :=
  ⟨.refl _, .refl _⟩

/-- A document that was built describes the endpoints of its model. -/
theorem describes_build {m : Model} (built : build source m s = (.ok doc, t)) :
    ∃ described, described.map Prod.fst = m.endpoints ∧ Answers source s described t ∧
      Describes m.settings.envelope described doc ∧ m.endpoints.Pairwise Apart := by
  obtain ⟨described, same, answers, describes, distinct⟩ :=
    addEndpoints_ok (describes_start _ m) .nil built
  rw [List.nil_append] at describes distinct
  exact ⟨described, same, answers, describes, same ▸ distinct⟩

/-- Nothing of a document depends on the endpoints but its paths and its definitions. -/
theorem build_frame {m : Model} (built : build source m s = (.ok doc, t)) :
    doc = { Document.ofModel m with paths := doc.paths, definitions := doc.definitions } :=
  addEndpoints_frame (describes_start _ m) built

end Run

/-! ## Two sources -/

section Sources

universe v

variable {σ : Type u} {τ : Type v} {source : ResponseSource σ} {source' : ResponseSource τ}
  {related : σ → τ → Prop} {envelope : Envelope} {doc : Document}
  {described : List (Endpoint × Schema)} {endpoints : List Endpoint} {e : Endpoint} {s : σ} {t : τ}

/-- Two sources that give the same responses, in related states, to those of the endpoints that have
none of their own. -/
def AgreeOn (related : σ → τ → Prop) (source : ResponseSource σ) (source' : ResponseSource τ)
    (endpoints : List Endpoint) : Prop :=
  ∀ e ∈ endpoints, e.responseFields = [] → ∀ s t, related s t →
    (source e s).1 = (source' e t).1 ∧ related (source e s).2 (source' e t).2

private theorem payload_agree (agree : AgreeOn related source source' endpoints)
    (member : e ∈ endpoints) (start : related s t) :
    (payload source e s).1 = (payload source' e t).1 ∧
      related (payload source e s).2 (payload source' e t).2 := by
  unfold payload
  by_cases none : e.responseFields = []
  · obtain ⟨same, after⟩ := agree e member none s t start
    simp only [none, List.isEmpty_nil, ↓reduceIte, same]
    exact ⟨trivial, after⟩
  · have filled : e.responseFields.isEmpty = false :=
      Bool.eq_false_iff.2 (mt List.isEmpty_iff.1 none)
    simp only [filled, Bool.false_eq_true, ↓reduceIte]
    exact ⟨trivial, start⟩

/-- What a source says goes nowhere but into the definition of a response, so it cannot change what
is a conflict. -/
theorem addEndpoint_agree (describes : Describes envelope described doc)
    (agree : AgreeOn related source source' endpoints) (member : e ∈ endpoints)
    (start : related s t) :
    (addEndpoint source envelope doc e s).1 = (addEndpoint source' envelope doc e t).1 ∧
      related (addEndpoint source envelope doc e s).2 (addEndpoint source' envelope doc e t).2 := by
  rcases clash_or_apart described e with pathTaken | ⟨free, requestTaken⟩ | apart
  · rw [addEndpoint_path_taken describes pathTaken, addEndpoint_path_taken describes pathTaken]
    exact ⟨rfl, start⟩
  · rw [addEndpoint_request_taken describes free requestTaken,
      addEndpoint_request_taken describes free requestTaken]
    exact ⟨rfl, start⟩
  · obtain ⟨same, after⟩ := payload_agree agree member start
    rw [addEndpoint_apart describes apart, addEndpoint_apart describes apart, same]
    exact ⟨rfl, after⟩

private theorem addEndpoints_agree (describes : Describes envelope described doc)
    (agree : AgreeOn related source source' endpoints) (start : related s t) :
    (addEndpoints source envelope endpoints doc s).1 =
        (addEndpoints source' envelope endpoints doc t).1 ∧
      related (addEndpoints source envelope endpoints doc s).2
        (addEndpoints source' envelope endpoints doc t).2 := by
  induction endpoints generalizing described doc s t with
  | nil => exact ⟨rfl, start⟩
  | cons e rest ih =>
    obtain ⟨same, after⟩ := addEndpoint_agree describes agree List.mem_cons_self start
    have later : AgreeOn related source source' rest :=
      fun e member => agree e (List.mem_cons_of_mem _ member)
    unfold addEndpoints
    rcases first : addEndpoint source envelope doc e s with ⟨fault | next, u⟩
    · rcases second : addEndpoint source' envelope doc e t with ⟨outcome, v⟩
      rw [first, second] at same after
      cases same
      exact ⟨rfl, after⟩
    · obtain ⟨apart, response, -, rfl⟩ := addEndpoint_ok describes first
      rcases second : addEndpoint source' envelope doc e t with ⟨outcome, v⟩
      rw [first, second] at same after
      cases same
      exact ih (describes_withEndpoint describes apart response) later after

/-- Sources that answer alike build the same document, or fail with the same fault. -/
theorem build_agree {m : Model} (agree : AgreeOn related source source' m.endpoints)
    (start : related s t) :
    (build source m s).1 = (build source' m t).1 ∧
      related (build source m s).2 (build source' m t).2 :=
  addEndpoints_agree (describes_start m.settings.envelope m) agree start

end Sources

end ApiOutline.Swagger
