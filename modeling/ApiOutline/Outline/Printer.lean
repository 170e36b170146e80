import ApiOutline.Model

/-!
The outline of a model: its groups, endpoints, fields and aliases, one line each.  The directives of
a document are not part of it.
-/

namespace ApiOutline

/-- A line that stands some levels deep. -/
def indented (depth : Nat) (line : String) : String :=
  String.ofList (List.replicate (4 * depth) ' ') ++ line

mutual

/-- The lines of a field and of the fields inside it. -/
def Field.outline (depth : Nat) : Field → List String
  | ⟨decl, children⟩ => indented depth decl.render :: Field.outlineAll (depth + 1) children

/-- The lines of some fields and of the fields inside them. -/
def Field.outlineAll (depth : Nat) : List Field → List String
  | [] => []
  | field :: rest => Field.outline depth field ++ Field.outlineAll depth rest

end

/-- The lines of a section; an empty section has none. -/
def Endpoint.sectionOutline (marker : String) (fields : List Field) : List String :=
  if fields.isEmpty then [] else indented 2 marker :: Field.outlineAll 2 fields

def Endpoint.outline (e : Endpoint) : List String :=
  indented 1 e.render ::
    (sectionOutline "- req" e.requestFields ++ sectionOutline "- resp" e.responseFields ++
      if e.aliases.isEmpty then []
      else [indented 2 ("- alias: " ++ String.intercalate "," e.aliases)])

def Group.outline (g : Group) : List String :=
  (g.name ++ commentSuffix g.comment) :: g.endpoints.flatMap Endpoint.outline

namespace Model

def outline (m : Model) : List String :=
  ("root " ++ m.routePrefix ++ " " ++ m.version) :: m.groups.flatMap Group.outline

/-- The outline of a model as text, each line with its line feed. -/
def render (m : Model) : String := String.join (m.outline.map (· ++ "\n"))

end Model

end ApiOutline
