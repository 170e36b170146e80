import ApiOutline.Endpoint.Method
import ApiOutline.Field.Basic
import ApiOutline.Ident

/-!
Endpoints, and the names that are derived from an endpoint and its group.

The name of an endpoint is a dotted path.  Its last segment may be a wildcard, which counts in paths
and is left out of the names of handlers and models.
-/

namespace ApiOutline

/-- An endpoint of a group. -/
structure Endpoint where
  /-- The dotted name. -/
  name : String
  /-- The name of the group. -/
  group : String
  /-- The method. -/
  method : Method := .get
  /-- The tag of the authentication, if any is asked for. -/
  auth : Option String := none
  /-- The encoding of the bodies. -/
  protocol : Protocol := .json
  /-- The comment; empty for none. -/
  comment : String := ""
  /-- The fields of the request. -/
  requestFields : List Field := []
  /-- The fields of the response. -/
  responseFields : List Field := []
  /-- Further paths that reach the endpoint. -/
  aliases : List String := []
  /-- The line of the declaration, counted from one; zero for none. -/
  line : Nat := 0
  deriving DecidableEq, Repr, Inhabited

namespace Endpoint

/-- The segment that stands for any rest of a path. -/
def wildcard : List Char := ['*']

/-- The segments of a dotted name. -/
def segmentsOf (name : String) : List (List Char) := name.toList.splitOn '.'

def segments (e : Endpoint) : List (List Char) := segmentsOf e.name

/-- Whether the name ends in a wildcard. -/
def isWildcard (e : Endpoint) : Bool := e.segments.getLast? == some wildcard

/-- The capitalised segments in a row, wildcards left out. -/
def apiName (e : Endpoint) : String :=
  String.ofList ((e.segments.filter (· != wildcard)).flatMap Text.upperFirst)

/-- The name of the function that serves the endpoint. -/
def handlerName (e : Endpoint) : String := e.apiName ++ "Api"

/-- The name as a path: a slash for each dot. -/
def routerName (e : Endpoint) : String :=
  String.ofList (e.name.toList.map fun c => if c = '.' then '/' else c)

def requestModelName (e : Endpoint) : String := "Req" ++ Ident.capitalize e.group ++ e.apiName

def responseModelName (e : Endpoint) : String := "Resp" ++ Ident.capitalize e.group ++ e.apiName

/-- The name of the endpoint among all groups. -/
def fullName (e : Endpoint) : String := e.group ++ e.apiName

/-- The path below the root. -/
def groupPath (e : Endpoint) : String := "/" ++ e.group ++ "/" ++ e.routerName

/-- The whole path, below a root and a version. -/
def routePath (e : Endpoint) (routePrefix version : String) : String :=
  "/" ++ routePrefix ++ "/" ++ version ++ e.groupPath

/-- The tag that asks for no authentication. -/
def noAuth : String := "none"

/-- The declaration of an endpoint, without its fields and aliases. -/
def render (e : Endpoint) : String :=
  e.name ++ " " ++ e.method.name ++ " " ++ e.auth.getD noAuth ++ " " ++ e.protocol.name ++
    commentSuffix e.comment

end Endpoint

end ApiOutline
