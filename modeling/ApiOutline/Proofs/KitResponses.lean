import ApiOutline.Proofs.Conflicts
import ApiOutline.Proofs.Properties
import ApiOutline.Proofs.References
import ApiOutline.Proofs.Visits

/-!
What kits add to the document of a model.

Kits are asked for the responses of those endpoints that declare none, and what they say goes into
the definitions of these responses and nowhere else.  So a document with kits is the document
without them, up to those definitions; and where there are no such endpoints, or no kit says
anything, it is that document.
-/

namespace ApiOutline

namespace Swagger

/-! ## The keys that a handler declares -/

/-- The schema of an object with the keys that are declared: all of them required, in the order in
which they come first, and each of them as it is declared last. -/
structure Schema.Lists (s : Schema) (responses : List Kit.Response) : Prop where
  object : s = { ofType .object with required := s.required, properties := s.properties }
  required : s.required = (responses.map (·.name)).eraseDups
  properties : ∀ key, s.property? key =
    (responses.reverse.find? (·.name == key)).map ofResponse
  sorted : Entries.Sorted s.properties

/-- The schema of declared responses lists them. -/
theorem Schema.lists_ofResponses (responses : List Kit.Response) :
    (ofResponses responses).Lists responses := by
  have set : ofResponses responses =
      setAll Kit.Response.name ofResponse (fun _ => true) responses (ofType .object) := rfl
  rw [set]
  constructor
  case object => exact setAll_frame _ _ _ _ _
  case required =>
    rw [required_setAll _ _ _ _ rfl, List.filter_true]
  case properties => exact property?_setAll _ _ _ _ rfl
  case sorted => exact sorted_setAll _ _ _ _ .nil

end Swagger

/-! ## What a cache keeps -/

namespace Kit.Cache

variable {reader : Reader} {c after : Cache} {path other : String} {paths : List String} {kit : Kit}

/-- A kit that has been read is known afterwards. -/
theorem find?_of_get (got : c.get reader path = (.ok kit, after)) :
    after.find? path = some kit := by
  rcases c.get_cases reader path with ⟨_, known, same⟩ | ⟨-, _, -, same⟩ | ⟨-, _, -, same⟩
  · cases same.symm.trans got
    exact known
  · cases same.symm.trans got
    rw [find?_remember, if_pos rfl]
  · cases same.symm.trans got

private theorem find?_get (known : c.find? other = some kit) (reader : Reader) (path : String) :
    (c.get reader path).2.find? other = some kit := by
  rcases c.get_cases reader path with ⟨_, -, got⟩ | ⟨unknown, _, -, got⟩ | ⟨-, _, -, got⟩
  · rw [got]
    exact known
  · have apart : Path.components other ≠ Path.components path := by
      intro same
      rw [find?_congr same, unknown] at known
      cases known
    rw [got, find?_remember, if_neg apart]
    exact known
  · rw [got]
    exact known

/-- A kit that is known stays known, whatever is read after it. -/
theorem find?_getAll (known : c.find? other = some kit) (reader : Reader) (paths : List String) :
    (c.getAll reader paths).find? other = some kit := by
  induction paths generalizing c with
  | nil => exact known
  | cons path rest ih => exact ih (find?_get known reader path)

/-- What a visit finds is there after all visits. -/
theorem find?_of_visit {v : Visit} (member : v ∈ c.visits reader paths)
    (found : v.outcome = .ok kit) : (c.getAll reader paths).find? v.path = some kit := by
  induction paths generalizing c with
  | nil => cases member
  | cons path rest ih =>
    rcases List.mem_cons.1 member with rfl | later
    · exact find?_getAll (find?_of_get (Prod.ext found rfl)) reader rest
    · exact ih later

end Kit.Cache

namespace Swagger

open Kit (Cache Layout Reader)

variable {reader : Reader} {layout : Layout} {c after : Cache} {e : Endpoint} {response : Schema}
  {described : List (Endpoint × Schema)}

/-- The definition of the response of an endpoint: by its own fields, or else by the kits that a
cache knows. -/
def responseIn (layout : Layout) (c : Cache) (e : Endpoint) : Schema :=
  if e.responseFields.isEmpty then
    Schema.ofResponses (((c.find? (layout.kitPath e.group)).getD {}).responses e.handlerName)
  else Schema.ofFields e.responseFields

/-- The paths of the kits that have to be looked into for some endpoints. -/
def kitPaths (layout : Layout) (endpoints : List Endpoint) : List String :=
  (endpoints.filter (·.responseFields.isEmpty)).map fun e => layout.kitPath e.group

private theorem payload_kits
    (given : payload (kitResponses reader layout) e c = (.ok response, after)) :
    (e.responseFields.isEmpty = false ∧ after = c ∧ response = Schema.ofFields e.responseFields) ∨
      (e.responseFields.isEmpty = true ∧ ∃ kit,
        c.get reader (layout.kitPath e.group) = (.ok kit, after) ∧
        response = Schema.ofResponses (kit.responses e.handlerName)) := by
  unfold payload at given
  split at given
  · next none =>
    rcases got : c.get reader (layout.kitPath e.group) with ⟨fault | kit, later⟩
    · simp only [kitResponses, Cache.declaredResponses, got, Except.map] at given
      cases given
    · simp only [kitResponses, Cache.declaredResponses, got, Except.map] at given
      cases given
      exact .inr ⟨none, kit, rfl, rfl⟩
  · next some =>
    cases given
    exact .inl ⟨Bool.eq_false_iff.2 some, rfl, rfl⟩

private theorem responseIn_of_declared (declared : e.responseFields.isEmpty = false) (c : Cache) :
    responseIn layout c e = Schema.ofFields e.responseFields := by
  rw [responseIn, declared]
  rfl

private theorem responseIn_of_found {kit : Kit} (undeclared : e.responseFields.isEmpty = true)
    (found : c.find? (layout.kitPath e.group) = some kit) :
    responseIn layout c e = Schema.ofResponses (kit.responses e.handlerName) := by
  rw [responseIn, if_pos undeclared, found]
  rfl

private theorem kitPaths_cons_of_declared (declared : e.responseFields.isEmpty = false)
    (rest : List Endpoint) : kitPaths layout (e :: rest) = kitPaths layout rest := by
  rw [kitPaths, List.filter_cons_of_neg (by simp [declared])]
  rfl

private theorem kitPaths_cons_of_undeclared (undeclared : e.responseFields.isEmpty = true)
    (rest : List Endpoint) :
    kitPaths layout (e :: rest) = layout.kitPath e.group :: kitPaths layout rest := by
  rw [kitPaths, List.filter_cons_of_pos (by simp [undeclared])]
  rfl

/-- Where every response could be had, the cache was visited for the kits of the undeclared ones, no
visit failed, and every response is what the kits that are known then say. -/
theorem answers_kits (answers : Answers (kitResponses reader layout) c described after) :
    after = c.getAll reader (kitPaths layout (described.map Prod.fst)) ∧
    (∀ v ∈ c.visits reader (kitPaths layout (described.map Prod.fst)), v.failed = false) ∧
    ∀ d ∈ described, d.2 = responseIn layout after d.1 ∧
      (d.1.responseFields.isEmpty = true →
        ∃ kit, after.find? (layout.kitPath d.1.group) = some kit) := by
  induction answers with
  | done c =>
    exact ⟨rfl, List.forall_mem_nil _, List.forall_mem_nil _⟩
  | @next e response rest c t after given more ih =>
    obtain ⟨reached, fine, known⟩ := ih
    rw [List.map_cons]
    rcases payload_kits given with ⟨declared, rfl, rfl⟩ | ⟨undeclared, kit, got, rfl⟩
    · rw [kitPaths_cons_of_declared declared]
      refine ⟨reached, fine, List.forall_mem_cons.2 ⟨⟨?_, ?_⟩, known⟩⟩
      · exact (responseIn_of_declared declared after).symm
      · intro undeclared
        rw [declared] at undeclared
        cases undeclared
    · have kept : after.find? (layout.kitPath e.group) = some kit := by
        rw [reached]
        exact Cache.find?_getAll (Cache.find?_of_get got) reader _
      have first : c.visit reader (layout.kitPath e.group) =
          ⟨layout.kitPath e.group, c, .ok kit, t⟩ := by rw [Cache.visit, got]
      rw [kitPaths_cons_of_undeclared undeclared, Cache.visits, first]
      refine ⟨?_, List.forall_mem_cons.2 ⟨rfl, fine⟩, List.forall_mem_cons.2 ⟨⟨?_, ?_⟩, known⟩⟩
      · rw [Cache.getAll, List.foldl_cons, got]
        exact reached
      · exact (responseIn_of_found undeclared kept).symm
      · exact fun _ => ⟨kit, kept⟩

/-- The paths that are noted are those of the kits of undeclared responses. -/
theorem answers_noted {s t : Cache × List String}
    (answers : Answers (Kit.notedResponses reader layout) s described t) :
    t.2 = s.2 ++ kitPaths layout (described.map Prod.fst) := by
  induction answers with
  | done s => exact (List.append_nil _).symm
  | @next e response rest s t u given more ih =>
    rw [ih, List.map_cons]
    unfold payload at given
    split at given
    · next undeclared =>
      rw [kitPaths_cons_of_undeclared undeclared, List.append_cons, ← (Prod.mk.inj given).2]
    · next declared =>
      rw [kitPaths_cons_of_declared (Bool.eq_false_iff.2 declared), ← (Prod.mk.inj given).2]

/-- Without kits, responses are as if nothing were known. -/
theorem answers_noResponses {s t : Unit} (answers : Answers noResponses s described t) :
    ∀ d ∈ described, d.2 = responseIn layout {} d.1 := by
  induction answers with
  | done => exact List.forall_mem_nil _
  | next given _ ih =>
    refine List.forall_mem_cons.2 ⟨?_, ih⟩
    unfold payload at given
    rw [responseIn]
    split at given
    · next undeclared =>
      cases given
      rw [if_pos undeclared]
      rfl
    · next declared =>
      cases given
      rw [if_neg declared]

/-! ## Two documents of one model -/

section Compare

variable {envelope : Envelope} {endpoints : List Endpoint} {schema schema' : Endpoint → Schema}
  {doc doc' : Document}

private theorem described_eq_map (each : ∀ d ∈ described, d.2 = schema d.1) :
    described = (described.map Prod.fst).map fun e => (e, schema e) := by
  rw [List.map_map]
  refine (List.map_id described).symm.trans (List.map_congr_left ?_)
  intro d member
  exact Prod.ext rfl (each d member)

/-- Under each name stands the request or the response of the endpoint that the name belongs to. -/
theorem Describes.get?_definition_iff
    (describes : Describes envelope (endpoints.map fun e => (e, schema e)) doc) {name : String}
    {s : Schema} : doc.definitions.get? name = some s ↔ ∃ e ∈ endpoints,
      name = e.requestModelName ∧ s = requestSchema e ∨
        name = e.responseModelName ∧ s = schema e := by
  rw [SortedMap.get?_eq_some_iff, describes.definitions.mem_iff]
  simp [definitionsOf]

private theorem paths_eq_of_describes
    (describes : Describes envelope (endpoints.map fun e => (e, schema e)) doc)
    (describes' : Describes envelope (endpoints.map fun e => (e, schema' e)) doc') :
    doc.paths = doc'.paths := by
  refine SortedMap.eq_of_perm (describes.paths.trans ?_)
  refine .trans ?_ describes'.paths.symm
  rw [List.map_map, List.map_map]
  exact .refl _

private theorem get?_definition_congr
    (describes : Describes envelope (endpoints.map fun e => (e, schema e)) doc)
    (describes' : Describes envelope (endpoints.map fun e => (e, schema' e)) doc') {name : String}
    (same : ∀ e ∈ endpoints, e.responseModelName = name → schema e = schema' e) :
    doc.definitions.get? name = doc'.definitions.get? name := by
  refine Option.ext fun s => ?_
  rw [describes.get?_definition_iff, describes'.get?_definition_iff]
  refine exists_congr fun e => and_congr_right fun member => or_congr_right ?_
  refine and_congr_right fun named => ?_
  rw [same e member named.symm]

private theorem definitions_eq_of_describes
    (describes : Describes envelope (endpoints.map fun e => (e, schema e)) doc)
    (describes' : Describes envelope (endpoints.map fun e => (e, schema' e)) doc')
    (same : ∀ e ∈ endpoints, schema e = schema' e) : doc.definitions = doc'.definitions := by
  have alike : (endpoints.map fun e => (e, schema e)) = endpoints.map fun e => (e, schema' e) := by
    refine List.map_congr_left ?_
    intro e member
    rw [same e member]
  rw [alike] at describes
  exact SortedMap.eq_of_perm (describes.definitions.trans describes'.definitions.symm)

private theorem keys_eq_of_describes
    (describes : Describes envelope (endpoints.map fun e => (e, schema e)) doc)
    (describes' : Describes envelope (endpoints.map fun e => (e, schema' e)) doc') :
    doc.definitions.keys = doc'.definitions.keys := by
  refine SortedMap.keys_eq_of_perm ((describes.definitions.map Prod.fst).trans ?_)
  refine .trans ?_ (describes'.definitions.map Prod.fst).symm
  rw [List.flatMap_map, List.flatMap_map, List.map_flatMap, List.map_flatMap]
  exact .refl _

end Compare

/-- A document that differs from another in nothing but the definitions of those responses that
endpoints leave undeclared, which are as the kits say that a cache knows. -/
structure Refines (layout : Layout) (c : Cache) (endpoints : List Endpoint)
    (doc doc₀ : Document) : Prop where
  frame : doc = { doc₀ with definitions := doc.definitions }
  keys : doc.definitions.keys = doc₀.definitions.keys
  others : ∀ name, (∀ e ∈ endpoints, e.responseFields = [] → e.responseModelName ≠ name) →
    doc.definitions.get? name = doc₀.definitions.get? name
  undeclared : ∀ e ∈ endpoints, e.responseFields = [] →
    ∃ kit schema, c.find? (layout.kitPath e.group) = some kit ∧
      doc.definitions.get? e.responseModelName = some schema ∧
      schema.Lists (kit.responses e.handlerName)

section Kits

variable {m : Model} {doc doc₀ : Document}

private theorem describes_document (built : document m = .ok doc₀) (layout : Layout) :
    Describes m.settings.envelope (m.endpoints.map fun e => (e, responseIn layout {} e)) doc₀ := by
  obtain ⟨described, same, answers, describes, -⟩ := describes_build (Prod.ext built rfl)
  rw [described_eq_map (answers_noResponses answers), same] at describes
  exact describes

/-- What a building that succeeds has come to: it has visited the cache for the kit of every
undeclared response, none of them in vain, and describes the responses as these kits have them. -/
structure BuiltWithKits (reader : Reader) (layout : Layout) (m : Model) (c : Cache)
    (doc : Document) (after : Cache) : Prop where
  reached : after = c.getAll reader (kitPaths layout m.endpoints)
  fine : ∀ v ∈ c.visits reader (kitPaths layout m.endpoints), v.failed = false
  known : ∀ e ∈ m.endpoints, e.responseFields = [] →
    ∃ kit, after.find? (layout.kitPath e.group) = some kit
  describes : Describes m.settings.envelope
    (m.endpoints.map fun e => (e, responseIn layout after e)) doc
  distinct : m.endpoints.Pairwise Apart

/-- Every building that succeeds has come to this. -/
theorem builtWithKits (built : documentWithKits reader layout m c = (.ok doc, after)) :
    BuiltWithKits reader layout m c doc after := by
  obtain ⟨described, same, answers, describes, distinct⟩ := describes_build built
  obtain ⟨reached, fine, each⟩ := answers_kits answers
  rw [described_eq_map fun d member => (each d member).1, same] at describes
  rw [same] at reached fine
  refine ⟨reached, fine, ?_, describes, distinct⟩
  intro e member undeclared
  rw [← same] at member
  obtain ⟨d, inside, rfl⟩ := List.mem_map.1 member
  exact (each d inside).2 (List.isEmpty_iff.2 undeclared)

private theorem frame_of_kits (built : documentWithKits reader layout m c = (.ok doc, after))
    (plain : document m = .ok doc₀) : doc = { doc₀ with definitions := doc.definitions } := by
  have alone : build noResponses m () = (.ok doc₀, ()) := Prod.ext plain rfl
  have samePaths : doc.paths = doc₀.paths :=
    paths_eq_of_describes (builtWithKits built).describes (describes_document plain layout)
  have rest := build_frame built
  rw [samePaths] at rest
  have rest₀ := build_frame alone
  rw [rest₀]
  exact rest

private theorem refines_of_kits (built : documentWithKits reader layout m c = (.ok doc, after))
    (plain : document m = .ok doc₀) : Refines layout after m.endpoints doc doc₀ := by
  obtain ⟨-, -, known, describes, -⟩ := builtWithKits built
  have describes₀ := describes_document plain layout
  constructor
  case frame => exact frame_of_kits built plain
  case keys => exact keys_eq_of_describes describes describes₀
  case others =>
    intro name other
    refine get?_definition_congr describes describes₀ ?_
    intro e member named
    have declared : e.responseFields.isEmpty = false := by
      rw [List.isEmpty_eq_false_iff]
      exact fun undeclared => other e member undeclared named
    rw [responseIn_of_declared declared, responseIn_of_declared declared]
  case undeclared =>
    intro e member undeclared
    obtain ⟨kit, found⟩ := known e member undeclared
    refine ⟨kit, Schema.ofResponses (kit.responses e.handlerName), found, ?_,
      Schema.lists_ofResponses _⟩
    refine describes.get?_definition_iff.2 ⟨e, member, .inr ⟨rfl, ?_⟩⟩
    exact (responseIn_of_found (List.isEmpty_iff.2 undeclared) found).symm

/-! ## Kits that say nothing -/

/-- A building that succeeds visits the cache for the kit of every undeclared response. -/
theorem paths_of_built (built : documentWithKits reader layout m c = (.ok doc, after)) :
    (Kit.Call.document layout m).paths reader c = kitPaths layout m.endpoints := by
  have noted := (Kit.Call.build_noted reader layout m c).1
  rw [built] at noted
  obtain ⟨described, same, answers, -, -⟩ := describes_build (Prod.ext noted.symm rfl)
  have asked := answers_noted answers
  rw [same] at asked
  exact asked

/-- Where every visit finds an empty kit, kits change nothing. -/
theorem eq_of_empty_kits (built : documentWithKits reader layout m c = (.ok doc, after))
    (plain : document m = .ok doc₀)
    (empty : ∀ v ∈ c.visits reader ((Kit.Call.document layout m).paths reader c),
      v.outcome = .ok {}) : doc = doc₀ := by
  obtain ⟨reached, -, -, describes, -⟩ := builtWithKits built
  rw [paths_of_built built] at empty
  have unsaid : ∀ e ∈ m.endpoints, responseIn layout after e = responseIn layout {} e := by
    intro e member
    by_cases undeclared : e.responseFields.isEmpty = true
    · have asked : layout.kitPath e.group ∈
          (c.visits reader (kitPaths layout m.endpoints)).map Kit.Visit.path := by
        rw [Kit.visits_path]
        exact List.mem_map.2 ⟨e, List.mem_filter.2 ⟨member, undeclared⟩, rfl⟩
      obtain ⟨v, visited, path⟩ := List.mem_map.1 asked
      have found := Cache.find?_of_visit visited (empty v visited)
      rw [path, ← reached] at found
      rw [responseIn_of_found undeclared found, responseIn, if_pos undeclared]
      rfl
    · have declared := Bool.eq_false_iff.2 undeclared
      rw [responseIn_of_declared declared, responseIn_of_declared declared]
  have sameDefinitions :=
    definitions_eq_of_describes describes (describes_document plain layout) unsaid
  rw [frame_of_kits built plain, sameDefinitions]

/-- Where there are no files, kits change nothing. -/
theorem document_of_missing_kits (missing : ∀ asked path, reader asked path = .error .notFound)
    (layout : Layout) (m : Model) : (documentWithKits reader layout m {}).1 = document m := by
  have agree : AgreeOn
      (fun (c : Cache) (_ : Unit) => ∀ path kit, c.find? path = some kit → kit = {})
      (kitResponses reader layout) noResponses m.endpoints := by
    intro e _ _ c _ empty
    rcases c.get_cases reader (layout.kitPath e.group) with
      ⟨kit, known, got⟩ | ⟨-, kit, read, got⟩ | ⟨-, cause, read, got⟩
    · rw [kitResponses, Cache.declaredResponses, got, empty _ kit known]
      exact ⟨rfl, empty⟩
    · rw [Reader.kit, missing] at read
      cases read
      rw [kitResponses, Cache.declaredResponses, got]
      refine ⟨rfl, ?_⟩
      intro path kit found
      rw [Cache.find?_remember] at found
      split at found
      · exact (Option.some.inj found).symm
      · exact empty path kit found
    · rw [Reader.kit, missing] at read
      cases read
  have fresh : ∀ path kit, Cache.find? {} path = some kit → kit = {} := by
    intro path kit found
    cases found
  exact (build_agree (s := {}) (t := ()) agree fresh).1

/-- Where every response is declared, the cache is left alone. -/
theorem documentWithKits_of_declared (declared : ∀ e ∈ m.endpoints, e.responseFields ≠ [])
    (reader : Reader) (layout : Layout) (c : Cache) :
    documentWithKits reader layout m c = (document m, c) := by
  have agree : AgreeOn (fun (s : Cache) (_ : Unit) => s = c) (kitResponses reader layout)
      noResponses m.endpoints := by
    intro e member undeclared
    exact absurd undeclared (declared e member)
  obtain ⟨same, untouched⟩ := build_agree (s := c) (t := ()) agree rfl
  exact Prod.ext same untouched

/-! ## Faults -/

private theorem kitResponses_fault (reader : Reader) (layout : Layout) :
    FailsWith (fun fault => ∃ path cause, fault = .read path cause)
      (kitResponses reader layout) := by
  intro e c fault failed
  rw [kitResponses, Cache.declaredResponses] at failed
  rcases c.get_cases reader (layout.kitPath e.group) with
    ⟨kit, -, got⟩ | ⟨-, kit, -, got⟩ | ⟨-, cause, -, got⟩
  · rw [got] at failed
    cases failed
  · rw [got] at failed
    cases failed
  · rw [got] at failed
    cases failed
    exact ⟨_, cause, rfl⟩

/-- A conflict stays the same with kits, unless one of them cannot be read before it is reached. -/
theorem conflict_of_document {space : NameSpace} {name : String}
    (conflict : document m = .error (.conflict space name)) (reader : Reader) (layout : Layout)
    (c : Cache) :
    (documentWithKits reader layout m c).1 = .error (.conflict space name) ∨
      ∃ path cause, (documentWithKits reader layout m c).1 = .error (.read path cause) := by
  obtain ⟨earlier, e, clash⟩ := exists_firstClash_of_fault conflict
  rcases build_of_firstClash (kitResponses_fault reader layout) clash c with
    same | ⟨_, failed, path, cause, rfl⟩
  · left
    rw [← conflict, document_of_firstClash clash]
    exact same
  · exact .inr ⟨path, cause, failed⟩

/-- Kits refine the responses that endpoints leave undeclared, and nothing else.  They change
nothing where they are empty or missing; they are not even looked for where every response is
declared; and they hide no conflict, except by one of them that cannot be read. -/
theorem kits_refine_document (reader : Reader) (layout : Layout) (m : Model) (c : Cache) :
    (∀ doc after, documentWithKits reader layout m c = (.ok doc, after) →
      ∃ doc₀, document m = .ok doc₀ ∧ Refines layout after m.endpoints doc doc₀ ∧
        ((∀ v ∈ c.visits reader ((Kit.Call.document layout m).paths reader c),
          v.outcome = .ok {}) → doc = doc₀)) ∧
    ((∀ asked path, reader asked path = .error .notFound) →
      (documentWithKits reader layout m {}).1 = document m) ∧
    ((∀ e ∈ m.endpoints, e.responseFields ≠ []) →
      documentWithKits reader layout m c = (document m, c)) ∧
    ∀ space name, document m = .error (.conflict space name) →
      (documentWithKits reader layout m c).1 = .error (.conflict space name) ∨
        ∃ path cause, (documentWithKits reader layout m c).1 = .error (.read path cause) := by
  refine ⟨?_, fun missing => document_of_missing_kits missing layout m,
    fun declared => documentWithKits_of_declared declared reader layout c,
    fun _ _ conflict => conflict_of_document conflict reader layout c⟩
  intro doc after built
  obtain ⟨doc₀, plain⟩ := document_ok_of_apart (builtWithKits built).distinct
  exact ⟨doc₀, plain, refines_of_kits built plain, eq_of_empty_kits built plain⟩

/-- A kit whose handler declares one key twice. -/
def repeatingKit : Reader :=
  .ofFiles [("gopher/app/api/web/web_kit.go", .ok ("func FilesApi(req *Req) Resp \x7b\n" ++
    "\tresp[\"list\"] = all // int\n\tresp[\"size\"] = n // int\n" ++
    "\tresp[\"list\"] = all // @[]File every file\n\x7d\n"))]

theorem kits_refine_document_repeated : ∃ doc doc₀ after,
    documentWithKits repeatingKit { root := "" } webModel {} = (.ok doc, after) ∧
    (doc.definitions.get? "RespWebFiles").map (·.required) = some ["list", "size"] ∧
    document webModel = .ok doc₀ ∧ Refines { root := "" } after webModel.endpoints doc doc₀ := by
  have listed : ((documentWithKits repeatingKit { root := "" } webModel {}).1.toOption.bind
      (·.definitions.get? "RespWebFiles")).map (·.required) = some ["list", "size"] := by
    decide +kernel
  rcases built : documentWithKits repeatingKit { root := "" } webModel {} with ⟨fault | doc, after⟩
  · rw [built] at listed
    cases listed
  · rw [built] at listed
    obtain ⟨doc₀, plain, refines, -⟩ :=
      (kits_refine_document repeatingKit { root := "" } webModel {}).1 doc after built
    exact ⟨doc, doc₀, after, rfl, listed, plain, refines⟩

end Kits

end Swagger

end ApiOutline
