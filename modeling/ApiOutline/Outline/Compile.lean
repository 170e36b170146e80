import ApiOutline.Outline.Declaration
import ApiOutline.Outline.Directive
import ApiOutline.Outline.OpenFields
import ApiOutline.Text.Lines

/-!
From the lines of an outline to the model of an API.

The first line that is not blank is the root.  Every later line is read on its own, in order, on top
of what the lines before it have built; the first line that does not fit ends the reading.  The
depth of a line, its indentation in levels, decides what it declares: a group, an endpoint, or
something inside an endpoint.
-/

namespace ApiOutline

/-- The fields of a section of an endpoint. -/
def Endpoint.fields (e : Endpoint) : Outline.Scope → List Field
  | .request => e.requestFields
  | .response => e.responseFields

/-- An endpoint with other fields in a section. -/
def Endpoint.withFields (e : Endpoint) (fields : List Field) : Outline.Scope → Endpoint
  | .request => { e with requestFields := fields }
  | .response => { e with responseFields := fields }

namespace Outline

universe u

/-- A list with its last element changed. -/
def mapLast {α : Type u} (f : α → α) (l : List α) : List α := l.modify (l.length - 1) f

/-- What the lines read so far have built. -/
structure Progress where
  /-- The model, without the fields that are still open. -/
  model : Model
  /-- The open fields of the section, innermost first. -/
  frames : List Frame := []
  /-- The section that fields belong to. -/
  scope : Scope := .request
  /-- Whether the last group or endpoint line was an endpoint. -/
  inEndpoint : Bool := false
  deriving DecidableEq

namespace Progress

/-- The endpoint declared last in the group declared last. -/
def endpoint? (p : Progress) : Option Endpoint :=
  p.model.groups.getLast?.bind (·.endpoints.getLast?)

/-- Changes the endpoint declared last in the group declared last. -/
def mapEndpoint (f : Endpoint → Endpoint) (p : Progress) : Progress :=
  { p with
    model := { p.model with
      groups := mapLast (fun g => { g with endpoints := mapLast f g.endpoints }) p.model.groups } }

/-- Stores the fields of the section in force. -/
def withOpenFields (p : Progress) (fields : OpenFields) : Progress :=
  { p.mapEndpoint (·.withFields fields.roots p.scope) with frames := fields.frames }

/-- Completes the open fields of the section in force. -/
def closeFields (p : Progress) : Progress :=
  if p.frames.isEmpty then p
  else match p.endpoint? with
    | none => p
    | some e => p.withOpenFields (OpenFields.drain ⟨p.frames, e.fields p.scope⟩)

def takeGroup (line : Nat) (raw : List Char) (p : Progress) : Except GrammarFault Progress := do
  let p := p.closeFields
  let group ← parseGroup line raw
  .ok { p with
    model := { p.model with groups := p.model.groups ++ [group] }
    inEndpoint := false
    scope := .request }

def takeEndpoint (dialect : Dialect) (line : Nat) (raw : List Char) (p : Progress) :
    Except GrammarFault Progress :=
  let p := p.closeFields
  match p.model.groups.getLast? with
  | none => .error .endpointOutsideGroup
  | some group => do
    let endpoint ← parseEndpoint dialect group.name line raw
    .ok { p with
      model := { p.model with
        groups := mapLast (fun g => { g with endpoints := g.endpoints ++ [endpoint] })
          p.model.groups }
      inEndpoint := true
      scope := .request }

def takeMarker (marker : Marker) (p : Progress) : Progress :=
  let p := p.closeFields
  match marker with
  | .request => { p with scope := .request }
  | .response => { p with scope := .response }
  | .aliases list =>
    p.mapEndpoint fun e => { e with aliases := (Text.commaItems list).map String.ofList }

def takeField (line depth : Nat) (raw : String) (p : Progress) : Except Fault Progress :=
  match parseField p.scope line raw.toList with
  | .error cause => .error (.grammar line raw cause)
  | .ok decl =>
    match p.endpoint? with
    | none => .error (.grammar line raw .fieldOutsideEndpoint)
    | some e =>
      match OpenFields.place depth { decl with } raw ⟨p.frames, e.fields p.scope⟩ with
      | (_, some fault) => .error fault
      | (fields, none) => .ok (p.withOpenFields fields)

/-- Takes a line inside an endpoint: a marker, if it is one and stands at the depth of the outermost
fields, and a field otherwise. -/
def takeInner (line depth : Nat) (raw : String) (p : Progress) : Except Fault Progress :=
  if p.inEndpoint then
    match if depth = fieldDepth then marker? (Text.trim raw.toList) else none with
    | some marker => .ok (p.takeMarker marker)
    | none => p.takeField line depth raw
  else .error (.grammar line raw .fieldOutsideEndpoint)

/-- Takes a line that declares something. -/
def takeStructural (o : Options) (line : Nat) (raw : String) (p : Progress) :
    Except Fault Progress :=
  let width := Text.indentWidth raw.toList
  if width % o.levelWidth ≠ 0 then
    .error (.grammar line raw (.unevenIndent width o.levelWidth))
  else match width / o.levelWidth with
    | 0 => (p.takeGroup line raw.toList).mapError (.grammar line raw)
    | 1 => (p.takeEndpoint o.dialect line raw.toList).mapError (.grammar line raw)
    | depth => p.takeInner line depth raw

/-- Takes a line of any kind. -/
def take (o : Options) (line : Nat) (raw : String) (p : Progress) : Except Fault Progress :=
  match classify o.dialect raw.toList with
  | .blank => .ok p
  | .directive key =>
    match applyDirective key raw.toList p.model.settings with
    | (_, some cause) => .error (.grammar line raw cause)
    | (settings, none) => .ok { p with model := { p.model with settings } }
  | .structural => p.takeStructural o line raw

/-- Takes lines in order, the first of them with number `line`. -/
def takeAll (o : Options) (line : Nat) : List String → Progress → Except Fault Progress
  | [], p => .ok p
  | raw :: rest, p => do
    let p ← p.take o line raw
    takeAll o (line + 1) rest p

/-- The model, once there are no more lines. -/
def finish (p : Progress) : Model := p.closeFields.model

end Progress

/-- Compiles lines, the first of them with number `line`. -/
def compileFrom (o : Options) (line : Nat) : List String → Except Fault Model
  | [] => .error (.root 0 "" .emptyDocument)
  | raw :: rest =>
    if Text.isBlankText raw.toList then compileFrom o (line + 1) rest
    else match parseRoot raw.toList with
      | .error cause => .error (.root line raw cause)
      | .ok (routePrefix, version) =>
        (Progress.takeAll o (line + 1) rest { model := { routePrefix, version } }).map
          Progress.finish

/-- Compiles the lines of an outline. -/
def compileLines (o : Options) (lines : List String) : Except Fault Model :=
  compileFrom o 1 lines

def compile (o : Options) (text : String) : Except Fault Model :=
  compileLines o (Text.lines text)

end Outline

end ApiOutline
