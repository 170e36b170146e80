import ApiOutline.Endpoint.Basic
import ApiOutline.SortedMap

/-!
The model of an API: its root, its groups of endpoints, and what its directives say about the
document as a whole.
-/

namespace ApiOutline

/-- A group of endpoints. -/
structure Group where
  /-- The name. -/
  name : String
  /-- The comment; empty for none. -/
  comment : String := ""
  /-- The endpoints, in the order of their declaration. -/
  endpoints : List Endpoint := []
  /-- The line of the declaration, counted from one; zero for none. -/
  line : Nat := 0
  deriving DecidableEq, Repr, Inhabited

def Group.endpoint? (g : Group) (name : String) : Option Endpoint :=
  g.endpoints.find? (·.name == name)

/-- The object that wraps the payload of a response. -/
structure Envelope where
  /-- The keys of the object. -/
  fields : List String := ["data", "msg", "stat"]
  /-- The key that holds the payload. -/
  dataField : String := "data"
  deriving DecidableEq, Repr, Inhabited

/-- What the directives of a document say. -/
structure Settings where
  /-- The title of the API. -/
  title : String := ""
  /-- The description of the API. -/
  description : String := ""
  /-- The host that serves the API. -/
  apiServer : String := ""
  /-- The version of the server. -/
  serverVersion : String := ""
  /-- The authentication each tag stands for. -/
  authMap : SortedMap String := .empty
  /-- The envelope of responses. -/
  envelope : Envelope := {}
  deriving DecidableEq, Inhabited

/-- The authentication a tag stands for: itself, unless the document maps it. -/
def Settings.resolveAuth (s : Settings) (tag : String) : String :=
  (s.authMap.get? tag).getD tag

/-- The model of an API. -/
structure Model where
  /-- What every path starts with. -/
  routePrefix : String
  /-- The version that follows it. -/
  version : String
  /-- The groups, in the order of their declaration. -/
  groups : List Group := []
  /-- What the directives say. -/
  settings : Settings := {}
  deriving DecidableEq, Inhabited

namespace Model

/-- All endpoints, group by group. -/
def endpoints (m : Model) : List Endpoint := m.groups.flatMap (·.endpoints)

def group? (m : Model) (name : String) : Option Group := m.groups.find? (·.name == name)

/-- The first endpoint of a name in the first group of a name. -/
def endpoint? (m : Model) (group name : String) : Option Endpoint :=
  (m.group? group).bind (·.endpoint? name)

/-- What every path of the API starts with. -/
def basePath (m : Model) : String := "/" ++ m.routePrefix ++ "/" ++ m.version

end Model

end ApiOutline
