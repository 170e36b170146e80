import ApiOutline.Proofs.Routes
import ApiOutline.Route

/-!
The route table beside the document of the same model.

The table lists whole paths in the order of the endpoints, each followed by the aliases of its
endpoint; the document keeps the paths below its base path in a map.  A model that has a document
has endpoints apart from each other, so both hold one path for each endpoint, and they agree on what
can be done along it.
-/

namespace ApiOutline

/-- What a route has in common with the other routes of its endpoint: everything but the path. -/
structure Route.Serves (m : Model) (e : Endpoint) (r : Route) : Prop where
  method : r.method = e.method
  handler : r.handler = e.handlerName
  group : r.group = e.group
  auth : r.auth = e.auth.map m.settings.resolveAuth

namespace Model

variable {m : Model} {e : Endpoint} {endpoints : List Endpoint} {before after own rest : List Route}
  {r : Route}

/-- The route of an endpoint along its own path. -/
def primaryRoute (m : Model) (e : Endpoint) : Route :=
  m.routeAlong e (e.routePath m.routePrefix m.version) false

private theorem serves_routeAlong (m : Model) (e : Endpoint) (path : String) (isAlias : Bool) :
    (m.routeAlong e path isAlias).Serves m e :=
  ⟨rfl, rfl, rfl, rfl⟩

/-! ## One endpoint -/

private theorem filter_endpointRoutes (m : Model) (e : Endpoint) :
    (m.endpointRoutes e).filter (!·.isAlias) = [m.primaryRoute e] := by
  have aliases : (e.aliases.map (m.routeAlong e · true)).filter (!·.isAlias) = [] := by
    simp [List.filter_eq_nil_iff, routeAlong]
  simp only [endpointRoutes, List.filter_cons, aliases]
  rfl

/-- A route of an endpoint is its own, with all aliases after it, or an alias, with the own route
and nothing but aliases before it. -/
theorem endpointRoutes_split (split : m.endpointRoutes e = own ++ r :: rest) :
    (r = m.primaryRoute e ∧ own = [] ∧ rest = e.aliases.map (m.routeAlong e · true)) ∨
      (r.isAlias = true ∧ r.Serves m e ∧ ∃ between, own = m.primaryRoute e :: between ∧
        ∀ a ∈ between, a.isAlias = true) := by
  cases own with
  | nil =>
    obtain ⟨rfl, rfl⟩ := List.cons.inj split
    exact .inl ⟨rfl, rfl, rfl⟩
  | cons first between =>
    obtain ⟨rfl, aliases⟩ := List.cons.inj split
    rw [List.append_eq] at aliases
    have each : ∀ a ∈ between ++ r :: rest, a.isAlias = true ∧ a.Serves m e := by
      rw [← aliases]
      intro a member
      obtain ⟨path, -, rfl⟩ := List.mem_map.1 member
      exact ⟨rfl, serves_routeAlong m e path true⟩
    obtain ⟨isAlias, serves⟩ := each r (by simp)
    exact .inr ⟨isAlias, serves, between, rfl, fun a member => (each a (by simp [member])).1⟩

/-! ## All endpoints -/

private theorem filter_routes (m : Model) (endpoints : List Endpoint) :
    (endpoints.flatMap m.endpointRoutes).filter (!·.isAlias) = endpoints.map m.primaryRoute := by
  rw [List.filter_flatMap, List.map_eq_flatMap]
  simp only [filter_endpointRoutes]

/-- A place in the table is a place among the routes of one endpoint, after those of the endpoints
before it. -/
theorem routes_split (split : endpoints.flatMap m.endpointRoutes = before ++ r :: after) :
    ∃ earlier e later own rest, endpoints = earlier ++ e :: later ∧
      m.endpointRoutes e = own ++ r :: rest ∧
      before = earlier.flatMap m.endpointRoutes ++ own ∧
      after = rest ++ later.flatMap m.endpointRoutes := by
  induction endpoints generalizing before with
  | nil => simp at split
  | cons first others ih =>
    have inside : (∃ own rest, m.endpointRoutes first = own ++ r :: rest ∧ before = own ∧
          after = rest ++ others.flatMap m.endpointRoutes) ∨
        ∃ behind, before = m.endpointRoutes first ++ behind ∧
          others.flatMap m.endpointRoutes = behind ++ r :: after := by
      rw [List.flatMap_cons] at split
      rcases List.append_eq_append_iff.1 split with ⟨behind, whole, later⟩ | ⟨tail, whole, later⟩
      · exact .inr ⟨behind, whole, later⟩
      · rcases List.cons_eq_append_iff.1 later with ⟨rfl, same⟩ | ⟨rest, rfl, same⟩
        · exact .inr ⟨[], by simp [whole], same⟩
        · exact .inl ⟨before, rest, whole, rfl, same⟩
    rcases inside with ⟨own, rest, routes, rfl, rfl⟩ | ⟨behind, rfl, behindFirst⟩
    · exact ⟨[], first, others, before, rest, rfl, routes, rfl, rfl⟩
    · obtain ⟨earlier, e, later, own, rest, rfl, routes, rfl, rfl⟩ := ih behindFirst
      refine ⟨first :: earlier, e, later, own, rest, rfl, routes, ?_, rfl⟩
      rw [List.flatMap_cons, List.append_assoc]

private theorem takeWhile_isAlias_routes (endpoints : List Endpoint) :
    (endpoints.flatMap m.endpointRoutes).takeWhile (·.isAlias) = [] := by
  cases endpoints with
  | nil => rfl
  | cons e rest => rfl

/-- A table that lists the endpoints of a model in order, each with its aliases. -/
structure Tabulated (m : Model) (table : List Route) : Prop where
  primaries : List.Forall₂ (fun e r => r.path = e.routePath m.routePrefix m.version ∧ r.Serves m e)
    m.endpoints (table.filter (!·.isAlias))
  /-- An alias differs from the nearest route before it that is none only in its path. -/
  nearest : ∀ before r after, table = before ++ r :: after → r.isAlias = true →
    ∃ earlier p between, before = earlier ++ p :: between ∧ p.isAlias = false ∧
      (∀ a ∈ between, a.isAlias = true) ∧
      r.method = p.method ∧ r.handler = p.handler ∧ r.group = p.group ∧ r.auth = p.auth
  /-- The aliases that follow a route are those of its endpoint; which one that is, is the number of
  routes before it that are no aliases. -/
  aliases : ∀ before p after, table = before ++ p :: after → p.isAlias = false →
    ∃ e, m.endpoints[(before.filter (!·.isAlias)).length]? = some e ∧
      p.path = e.routePath m.routePrefix m.version ∧ p.Serves m e ∧
      (after.takeWhile (·.isAlias)).map Route.path = e.aliases

private theorem tabulated_routes (m : Model) : m.Tabulated m.routes := by
  constructor
  case primaries =>
    rw [routes, filter_routes]
    refine List.forall₂_map_right_iff.2 (List.forall₂_same.2 fun e _ => ?_)
    exact ⟨rfl, serves_routeAlong m e _ false⟩
  case nearest =>
    intro before r after split isAlias
    obtain ⟨earlier, e, later, own, rest, -, own_eq, rfl, -⟩ := routes_split split
    rcases endpointRoutes_split own_eq with ⟨rfl, -, -⟩ | ⟨-, serves, between, rfl, each⟩
    · cases isAlias
    · exact ⟨_, m.primaryRoute e, between, rfl, rfl, each, serves.method, serves.handler,
        serves.group, serves.auth⟩
  case aliases =>
    intro before p after split primary
    obtain ⟨earlier, e, later, own, rest, whole, own_eq, rfl, rfl⟩ := routes_split split
    rcases endpointRoutes_split own_eq with ⟨rfl, rfl, rfl⟩ | ⟨isAlias, -⟩
    · refine ⟨e, ?_, rfl, serves_routeAlong m e _ false, ?_⟩
      · rw [List.append_nil, filter_routes, List.length_map, whole]
        simp
      · have all : ∀ a ∈ e.aliases.map (m.routeAlong e · true), a.isAlias = true := by
          simp [routeAlong]
        rw [List.takeWhile_append_of_pos all, takeWhile_isAlias_routes, List.append_nil,
          List.map_map]
        exact List.map_id' _
    · exact absurd (isAlias.symm.trans primary) (by decide)

private theorem routePath_eq_basePath (m : Model) (e : Endpoint) :
    e.routePath m.routePrefix m.version = m.basePath ++ e.groupPath := rfl

end Model

/-! ## The document -/

namespace Swagger

universe u

variable {σ : Type u} {source : ResponseSource σ} {m : Model} {doc : Document} {s : σ}

/-- A table of routes and a document that say the same of an API: the paths of the document, below
its base path, are those of the routes that are no aliases. -/
structure SameApi (m : Model) (table : List Route) (doc : Document) : Prop where
  basePath : doc.basePath = m.basePath
  paths : ∀ path, (∃ p ∈ doc.paths.keys, m.basePath ++ p = path) ↔
    ∃ r ∈ table, r.isAlias = false ∧ r.path = path
  count : (table.filter (!·.isAlias)).length = m.endpoints.length
  distinct : ((table.filter (!·.isAlias)).map Route.path).Nodup
  verbs : ∀ r ∈ table, r.isAlias = false → ∃ p operations, r.path = m.basePath ++ p ∧
    doc.paths.get? p = some operations ∧ operations.map Prod.fst = r.method.verbs
  tabulated : m.Tabulated table

private theorem mem_routes_primary {r : Route} :
    r ∈ m.routes ∧ r.isAlias = false ↔ ∃ e ∈ m.endpoints, m.primaryRoute e = r := by
  have primaries := Model.filter_routes m m.endpoints
  rw [← List.mem_map, ← primaries, List.mem_filter, Bool.not_eq_true']
  rfl

/-- Whatever a document was built with, it describes the API that the table of its model lists. -/
theorem routes_match_document (built : (build source m s).1 = .ok doc) :
    SameApi m m.routes doc := by
  obtain ⟨described, same, -, describes, apart⟩ := describes_build (Prod.ext built rfl)
  have primaries : m.routes.filter (!·.isAlias) = m.endpoints.map m.primaryRoute :=
    Model.filter_routes m m.endpoints
  constructor
  case basePath => rw [build_frame (Prod.ext built rfl), Document.ofModel]
  case paths =>
    intro path
    constructor
    · rintro ⟨p, key, rfl⟩
      obtain ⟨d, inside, rfl⟩ := describes.contains_path.1 (SortedMap.contains_iff.2 key)
      have member : d.1 ∈ m.endpoints := same ▸ List.mem_map_of_mem inside
      obtain ⟨listed, primary⟩ := mem_routes_primary.2 ⟨d.1, member, rfl⟩
      exact ⟨_, listed, primary, m.routePath_eq_basePath d.1⟩
    · rintro ⟨r, listed, primary, rfl⟩
      obtain ⟨e, member, rfl⟩ := mem_routes_primary.1 ⟨listed, primary⟩
      obtain ⟨d, inside, rfl⟩ := List.mem_map.1 (same ▸ member)
      refine ⟨d.1.groupPath, ?_, (m.routePath_eq_basePath d.1).symm⟩
      exact SortedMap.contains_iff.1 (describes.contains_path.2 ⟨d, inside, rfl⟩)
  case count => rw [primaries, List.length_map]
  case distinct =>
    rw [primaries, List.map_map]
    refine List.pairwise_map.2 (apart.imp ?_)
    intro a b differ samePath
    exact differ.1 ((Endpoint.routePath_eq_iff m.routePrefix m.version).1 samePath)
  case verbs =>
    intro r listed primary
    obtain ⟨e, member, rfl⟩ := mem_routes_primary.1 ⟨listed, primary⟩
    obtain ⟨d, inside, rfl⟩ := List.mem_map.1 (same ▸ member)
    refine ⟨d.1.groupPath, operations m.settings.envelope d.1, m.routePath_eq_basePath d.1, ?_, ?_⟩
    · exact describes.get?_path_iff.2 ⟨d, inside, rfl, rfl⟩
    · rw [operations, List.map_map]
      exact List.map_id _
  case tabulated => exact m.tabulated_routes

/-- A group in two places, with aliases, an endpoint for both verbs and a tag that is mapped. -/
def aliasedModel : Model where
  routePrefix := "shop"
  version := "v2"
  groups := [
    { name := "user"
      endpoints := [
        { name := "create", group := "user", method := .post, auth := some "u"
          aliases := ["/user/new", "/register"] },
        { name := "files.*", group := "user", method := .any, auth := some "AdminAuth" }] },
    { name := "admin"
      endpoints := [{ name := "create", group := "admin", aliases := ["/admin"] }] },
    { name := "user"
      endpoints := [{ name := "drop", group := "user", aliases := ["/register"] }] }]
  settings := { authMap := .ofList [("u", "UserAuth")] }

/-- Its routes, each with what it asks for. -/
def aliasedPaths : List (String × Option String) :=
  [("/shop/v2/user/create", some "UserAuth"), ("/user/new", some "UserAuth"),
    ("/register", some "UserAuth"), ("/shop/v2/user/files/*", some "AdminAuth"),
    ("/shop/v2/admin/create", none), ("/admin", none), ("/shop/v2/user/drop", none),
    ("/register", none)]

theorem routes_match_document_aliased : ∃ doc, document aliasedModel = .ok doc ∧
    doc.paths.keys = ["/admin/create", "/user/create", "/user/drop", "/user/files/*"] ∧
    aliasedModel.routes.map (fun r => (r.path, r.auth)) = aliasedPaths ∧
    SameApi aliasedModel aliasedModel.routes doc := by
  obtain ⟨doc, built, keys⟩ : ∃ doc, document aliasedModel = .ok doc ∧
      doc.paths.keys = ["/admin/create", "/user/create", "/user/drop", "/user/files/*"] :=
    ⟨_, rfl, rfl⟩
  exact ⟨doc, built, keys, rfl, routes_match_document built⟩

end Swagger

end ApiOutline
