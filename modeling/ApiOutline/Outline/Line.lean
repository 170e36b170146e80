import ApiOutline.Dialect
import ApiOutline.Text.Blank

/-!
Lines of an outline: what kind of line it is, which marker it is, and where its comment starts.

A directive is recognised by how the untrimmed line starts, so it stands at the left margin.  A
comment starts at the first `#` that does not directly follow a backslash.
-/

namespace ApiOutline.Outline

/-- What a directive sets. -/
inductive DirectiveKey where
  | title
  | description
  | apiServer
  | version
  | authMap
  | envelope
  deriving DecidableEq, Repr

namespace DirectiveKey

def all : List DirectiveKey := [.title, .description, .apiServer, .version, .authMap, .envelope]

/-- What a line that sets the key starts with. -/
def lead : DirectiveKey → List Char
  | title => "- title:".toList
  | description => "- description:".toList
  | apiServer => "- apiserver:".toList
  | version => "- version:".toList
  | authMap => "- authmap:".toList
  | envelope => "- resp:".toList

/-- Whether a dialect knows the key. -/
def isKnown (dialect : Dialect) : DirectiveKey → Bool
  | envelope => dialect.hasEnvelope
  | title | description | apiServer | version | authMap => true

end DirectiveKey

/-- The kind of a line. -/
inductive LineKind where
  /-- Nothing but blanks. -/
  | blank
  /-- A directive of the document. -/
  | directive (key : DirectiveKey)
  /-- A group, an endpoint, a marker or a field. -/
  | structural
  deriving DecidableEq, Repr

/-- The key that a line sets. -/
def directiveKey? (dialect : Dialect) (line : List Char) : Option DirectiveKey :=
  DirectiveKey.all.find? fun key => key.isKnown dialect && key.lead.isPrefixOf line

/-- The kind of a line as written, its indentation included. -/
def classify (dialect : Dialect) (line : List Char) : LineKind :=
  if Text.isBlankText line then .blank
  else match directiveKey? dialect line with
    | some key => .directive key
    | none => .structural

/-- A line inside an endpoint that is not a field. -/
inductive Marker where
  /-- The fields that follow belong to the request. -/
  | request
  /-- The fields that follow belong to the response. -/
  | response
  /-- The aliases of the endpoint, as written. -/
  | aliases (list : List Char)
  deriving DecidableEq, Repr

/-- The marker that a trimmed line is.  Whatever follows the word of a section is ignored. -/
def marker? (trimmed : List Char) : Option Marker :=
  if "- resp".toList.isPrefixOf trimmed then some .response
  else if "- req".toList.isPrefixOf trimmed then some .request
  else ("- alias:".toList.isPrefixOf? trimmed).map .aliases

/-- The two sides of the first `#` that does not directly follow a backslash; `escaped` tells
whether a backslash stands right before the text. -/
def cutComment? (escaped : Bool) : List Char → Option (List Char × List Char)
  | [] => none
  | c :: cs =>
    if c = '#' ∧ escaped = false then some ([], cs)
    else (cutComment? (c == '\\') cs).map fun (content, comment) => (c :: content, comment)

/-- A comment with each backslash removed that stands before a `#`. -/
def unescape : List Char → List Char
  | '\\' :: '#' :: cs => '#' :: unescape cs
  | c :: cs => c :: unescape cs
  | [] => []

/-- The content of a line and its comment, which is empty for a line without one. -/
def splitComment (line : List Char) : List Char × List Char :=
  match cutComment? false line with
  | some (content, comment) => (content, unescape (Text.trim comment))
  | none => (line, [])

end ApiOutline.Outline
