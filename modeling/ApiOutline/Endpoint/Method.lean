/-!
How an endpoint is called: its method, the verbs a method stands for, and the protocol of its
bodies.
-/

namespace ApiOutline

/-- A verb of a request. -/
inductive Verb where
  | get
  | post
  deriving DecidableEq, Repr

def Verb.name : Verb → String
  | .get => "get"
  | .post => "post"

def Verb.ofName? (s : String) : Option Verb := [Verb.get, .post].find? (·.name == s)

/-- The method an endpoint is declared with. -/
inductive Method where
  | get
  | post
  | any
  deriving DecidableEq, Repr, Inhabited

namespace Method

def all : List Method := [.get, .post, .any]

def name : Method → String
  | .get => "GET"
  | .post => "POST"
  | .any => "ANY"

def ofName? (s : String) : Option Method := all.find? (·.name == s)

/-- The verbs a method answers to. -/
def verbs : Method → List Verb
  | .get => [.get]
  | .post => [.post]
  | .any => [.get, .post]

/-- A method is known by its name. -/
theorem ofName?_name (m : Method) : ofName? m.name = some m := by
  cases m <;> decide

end Method

/-- How the bodies of an endpoint are encoded. -/
inductive Protocol where
  | json
  | raw
  | reqRaw
  | respRaw
  deriving DecidableEq, Repr, Inhabited

namespace Protocol

def all : List Protocol := [.json, .raw, .reqRaw, .respRaw]

def name : Protocol → String
  | .json => "json"
  | .raw => "raw"
  | .reqRaw => "reqRaw"
  | .respRaw => "respRaw"

def ofName? (s : String) : Option Protocol := all.find? (·.name == s)

/-- Whether the response body is sent as it is, outside of the envelope. -/
def isRawResponse : Protocol → Bool
  | .raw | .respRaw => true
  | .json | .reqRaw => false

/-- The media type announced for the response: only an endpoint that is raw both ways announces raw
bytes. -/
def produces : Protocol → String
  | .raw => "application/octet-stream"
  | .json | .reqRaw | .respRaw => "application/json"

/-- A protocol is known by its name. -/
theorem ofName?_name (p : Protocol) : ofName? p.name = some p := by
  cases p <;> decide

end Protocol

end ApiOutline
