import ApiOutline.Model
import ApiOutline.Value.Basic

/-!
The route table: every path of an API with the function that serves it.
-/

namespace ApiOutline

/-- A path and what serves it. -/
structure Route where
  /-- The method. -/
  method : Method
  /-- The whole path. -/
  path : String
  /-- The function that serves it. -/
  handler : String
  /-- The group of the endpoint. -/
  group : String
  /-- The authentication, as the document maps it. -/
  auth : Option String
  /-- Whether the path is an alias of the endpoint. -/
  isAlias : Bool
  deriving DecidableEq, Repr

def Route.toValue (r : Route) : Value :=
  .object [("method", .string r.method.name), ("path", .string r.path),
    ("handler", .string r.handler), ("group", .string r.group), ("auth", .ofOption r.auth),
    ("alias", .bool r.isAlias)]

namespace Model

/-- The route of an endpoint along a path. -/
def routeAlong (m : Model) (e : Endpoint) (path : String) (isAlias : Bool) : Route where
  method := e.method
  path
  handler := e.handlerName
  group := e.group
  auth := e.auth.map m.settings.resolveAuth
  isAlias

/-- The routes of an endpoint: its own path, then its aliases. -/
def endpointRoutes (m : Model) (e : Endpoint) : List Route :=
  m.routeAlong e (e.routePath m.routePrefix m.version) false ::
    e.aliases.map (m.routeAlong e · true)

/-- All routes, endpoint by endpoint. -/
def routes (m : Model) : List Route := m.endpoints.flatMap m.endpointRoutes

end Model

end ApiOutline
