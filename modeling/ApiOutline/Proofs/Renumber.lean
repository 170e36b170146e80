import ApiOutline.Proofs.Blanks
import ApiOutline.Proofs.Relabel

/-!
A reading of the same lines under other numbers.

A reading does not depend on the numbers of its lines: they are handed on to what the lines declare
and to faults.  Nor does a line that declares something look at the settings.  So such a line, taken
under another number, with other blanks around it and on top of other settings, does the same up to
these.
-/

namespace ApiOutline

variable (f : Nat → Nat)

/-- A fault at another line, which is written in another way. -/
def Fault.renumber (raw : String) : Fault → Fault
  | grammar line _ cause => .grammar (f line) raw cause
  | root line _ cause => .root (f line) raw cause
  | fault => fault

section Relabel

variable (comment : String → String)

theorem Endpoint.fields_relabel (e : Endpoint) (scope : Outline.Scope) :
    (e.relabel f comment).fields scope = (e.fields scope).map (Field.relabel f comment) := by
  cases scope <;> exact Field.relabelAll_eq_map ..

theorem Endpoint.withFields_relabel (e : Endpoint) (fields : List Field) (scope : Outline.Scope) :
    (e.withFields fields scope).relabel f comment =
      (e.relabel f comment).withFields (fields.map (Field.relabel f comment)) scope := by
  rw [← Field.relabelAll_eq_map]
  cases scope <;> rfl

end Relabel

def Model.renumber (m : Model) : Model :=
  { m with groups := m.groups.map (Group.relabel f id) }

@[simp]
theorem Model.renumber_id (m : Model) : m.renumber id = m := by
  rw [renumber, List.map_congr_left fun g _ => Group.relabel_id g, List.map_id']

namespace Outline

/-! ## Declarations -/

section Declarations

variable {line : Nat} {raw raw' : List Char} (same : statement raw' = statement raw)

include same

theorem parseRoot_congr : parseRoot raw' = parseRoot raw := by
  rw [parseRoot, parseRoot, same]

private theorem parseGroup_renumber :
    parseGroup (f line) raw' = (parseGroup line raw).map (Group.relabel f id) := by
  unfold parseGroup
  rw [same]
  rcases statement raw with ⟨_ | ⟨name, rest⟩, comment⟩
  · rfl
  · simp only
    split <;> rfl

private theorem parseEndpoint_renumber (dialect : Dialect) (group : String) :
    parseEndpoint dialect group (f line) raw' =
      (parseEndpoint dialect group line raw).map (Endpoint.relabel f id) := by
  rcases words : (statement raw).1 with _ | ⟨name, modifiers⟩
  · simp [parseEndpoint, same, words, Except.map]
  · by_cases few : modifiers.length ≤ 3
    · rw [parseEndpoint_of_words words few,
        parseEndpoint_of_words ((congrArg Prod.fst same).trans words) few, same]
      cases checkSegments dialect (String.ofList name) true
          (Endpoint.segmentsOf (String.ofList name)) with
      | error cause => rfl
      | ok _ => cases protocolOf modifiers <;> rfl
    · simp [parseEndpoint, same, words, Nat.not_le.1 few, Except.map]

private theorem parseField_renumber (scope : Scope) :
    parseField scope (f line) raw' =
      (parseField scope line raw).map (FieldDecl.relabel f id) := by
  rcases words : (statement raw).1 with _ | ⟨name, _ | ⟨declared, rest⟩⟩
  · simp [parseField, same, words, Except.map]
  · simp [parseField, same, words, Except.map]
  · by_cases valid : Ident.isIdent name = true
    · rw [parseField_of_words words valid,
        parseField_of_words ((congrArg Prod.fst same).trans words) valid, same]
      cases flagsOf scope rest with
      | error cause => rfl
      | ok flags => simp only [Except.map, fieldOf, FieldDecl.relabel, id]
    · simp [parseField, same, words, valid, Except.map]

end Declarations

/-! ## Open fields -/

def Frame.renumber (frame : Frame) : Frame := { frame with field := frame.field.relabel f id }

namespace OpenFields

/-- The fields of a section with other line numbers. -/
def renumber (s : OpenFields) : OpenFields :=
  ⟨s.frames.map (Frame.renumber f), s.roots.map (Field.relabel f id)⟩

private theorem enclose_renumber (inner : Field) (frames : List Frame) :
    enclose (inner.relabel f id) (frames.map (Frame.renumber f)) =
      (enclose inner frames).relabel f id := by
  induction frames generalizing inner with
  | nil => rfl
  | cons frame outer ih =>
    rw [List.map_cons, enclose, enclose, ← ih, Field.relabel_addChild]
    rfl

private theorem drain_renumber (s : OpenFields) : (s.renumber f).drain = s.drain.renumber f := by
  obtain ⟨_ | ⟨frame, outer⟩, roots⟩ := s
  · rfl
  · simp only [renumber, List.map_cons, drain, List.map_append, List.map_nil, ← enclose_renumber]
    rfl

private theorem unwind_renumber (depth : Nat) (roots : List Field) (frame : Frame)
    (outer : List Frame) :
    unwind depth (roots.map (Field.relabel f id)) (frame.renumber f)
        (outer.map (Frame.renumber f)) =
      (unwind depth roots frame outer).renumber f := by
  induction outer generalizing frame with
  | nil =>
    by_cases closes : depth ≤ frame.depth <;> simp [unwind, closes, renumber, Frame.renumber]
  | cons parent outer ih =>
    by_cases closes : depth ≤ frame.depth
    · have next := ih { parent with field := parent.field.addChild frame.field }
      simpa [unwind, closes, Frame.renumber, Field.relabel_addChild] using next
    · simp [unwind, closes, renumber, Frame.renumber]

private theorem closeTo_renumber (depth : Nat) (s : OpenFields) :
    (s.renumber f).closeTo depth = (s.closeTo depth).renumber f := by
  obtain ⟨_ | ⟨frame, outer⟩, roots⟩ := s
  · rfl
  · exact unwind_renumber f depth roots frame outer

private theorem place_renumber (depth : Nat) (field : Field) (raw raw' : String) (s : OpenFields) :
    place depth (field.relabel f id) raw' (s.renumber f) =
      ((place depth field raw s).1.renumber f,
        (place depth field raw s).2.map (Fault.renumber f raw')) := by
  have nested : (field.relabel f id).isNested = field.isNested := by
    cases field
    rfl
  have line : (field.relabel f id).line = f field.line := by
    cases field
    rfl
  unfold place
  rw [nested, line, drain_renumber, closeTo_renumber]
  by_cases outermost : depth ≤ fieldDepth
  · simp only [outermost, ↓reduceIte]
    cases field.isNested <;> simp [renumber, Frame.renumber]
  · simp only [outermost, ↓reduceIte]
    obtain ⟨_ | ⟨parent, outer⟩, roots⟩ := s.closeTo depth
    · rfl
    · by_cases fits : parent.depth = depth - 1
      · cases field.isNested <;>
          simp [renumber, Frame.renumber, fits, Field.relabel_addChild]
      · simp [renumber, Frame.renumber, fits, Fault.renumber]

end OpenFields

/-! ## Readings -/

namespace Progress

variable (settings : Settings) (p : Progress)

/-- A reading with other line numbers and other settings. -/
def recast : Progress :=
  { p with
    model := { p.model.renumber f with settings }
    frames := p.frames.map (Frame.renumber f) }

@[simp]
theorem endpoint?_recast :
    (p.recast f settings).endpoint? = p.endpoint?.map (Endpoint.relabel f id) := by
  simp only [endpoint?, recast, Model.renumber, List.getLast?_map]
  cases p.model.groups.getLast? with
  | none => rfl
  | some group => exact List.getLast?_map ..

private theorem mapEndpoint_recast {change change' : Endpoint → Endpoint}
    (commutes : ∀ e, (change e).relabel f id = change' (e.relabel f id)) :
    (p.recast f settings).mapEndpoint change' = (p.mapEndpoint change).recast f settings := by
  have groups : (mapLast (fun g => { g with endpoints := mapLast change g.endpoints })
      p.model.groups).map (Group.relabel f id) =
      mapLast (fun g => { g with endpoints := mapLast change' g.endpoints })
        (p.model.groups.map (Group.relabel f id)) := by
    refine map_mapLast (fun g => ?_) p.model.groups
    simp only [Group.relabel, map_mapLast commutes]
  simp only [mapEndpoint, recast, Model.renumber, groups]

private theorem withOpenFields_recast (fields : OpenFields) :
    (p.recast f settings).withOpenFields (fields.renumber f) =
      (p.withOpenFields fields).recast f settings := by
  have stored : (p.recast f settings).mapEndpoint
      (·.withFields (fields.renumber f).roots p.scope) =
      (p.mapEndpoint (·.withFields fields.roots p.scope)).recast f settings :=
    mapEndpoint_recast f settings p fun e =>
      Endpoint.withFields_relabel f id e fields.roots p.scope
  exact congrArg (fun q : Progress => { q with frames := (fields.renumber f).frames }) stored

private theorem openFields_recast (e : Endpoint) :
    (⟨(p.recast f settings).frames, (e.relabel f id).fields p.scope⟩ : OpenFields) =
      OpenFields.renumber f ⟨p.frames, e.fields p.scope⟩ := by
  rw [Endpoint.fields_relabel]
  rfl

private theorem closeFields_recast :
    (p.recast f settings).closeFields = p.closeFields.recast f settings := by
  have closed : (p.recast f settings).frames.isEmpty = p.frames.isEmpty := List.isEmpty_map
  unfold closeFields
  rw [closed, endpoint?_recast]
  cases p.frames.isEmpty with
  | true => rfl
  | false =>
    cases p.endpoint? with
    | none => rfl
    | some e =>
      have stored := withOpenFields_recast f settings p
        (OpenFields.drain ⟨p.frames, e.fields p.scope⟩)
      rw [← OpenFields.drain_renumber, ← openFields_recast f settings] at stored
      exact stored

private theorem takeMarker_recast (marker : Marker) :
    (p.recast f settings).takeMarker marker = (p.takeMarker marker).recast f settings := by
  unfold takeMarker
  rw [closeFields_recast]
  cases marker with
  | request | response => rfl
  | aliases list => exact mapEndpoint_recast f settings _ fun _ => rfl

/-- A state with other lines and settings is finished to a model with those. -/
theorem finish_recast :
    (p.recast f settings).finish = { p.finish.renumber f with settings } := by
  rw [finish, closeFields_recast]
  rfl

theorem recast_id : p.recast id settings = { p with model := { p.model with settings } } := by
  have frames : p.frames.map (Frame.renumber id) = p.frames := by
    rw [List.map_congr_left fun frame _ => ?_, List.map_id']
    rw [Frame.renumber, Field.relabel_id]
  rw [recast, frames, Model.renumber_id]

/-! ## Lines -/

section Lines

variable {line : Nat}

/-- A group line is taken alike on another line and with other settings. -/
theorem takeGroup_recast {raw raw' : List Char} (same : statement raw' = statement raw) :
    (p.recast f settings).takeGroup (f line) raw' =
      (p.takeGroup line raw).map (recast f settings) := by
  unfold takeGroup
  rw [closeFields_recast, parseGroup_renumber f same]
  cases parseGroup line raw with
  | error cause => rfl
  | ok group => simp [recast, Model.renumber, Except.map, bind, Except.bind]

/-- An endpoint line is taken alike on another line and with other settings. -/
theorem takeEndpoint_recast {raw raw' : List Char} (dialect : Dialect)
    (same : statement raw' = statement raw) :
    (p.recast f settings).takeEndpoint dialect (f line) raw' =
      (p.takeEndpoint dialect line raw).map (recast f settings) := by
  have last : (p.closeFields.recast f settings).model.groups.getLast? =
      p.closeFields.model.groups.getLast?.map (Group.relabel f id) := List.getLast?_map ..
  unfold takeEndpoint
  simp only [closeFields_recast, last]
  cases p.closeFields.model.groups.getLast? with
  | none => rfl
  | some group =>
    have name : (group.relabel f id).name = group.name := rfl
    simp only [Option.map_some, name, parseEndpoint_renumber f same]
    cases parseEndpoint dialect group.name line raw with
    | error cause => rfl
    | ok endpoint =>
      have groups : (mapLast (fun g => { g with endpoints := g.endpoints ++ [endpoint] })
          p.closeFields.model.groups).map (Group.relabel f id) =
          mapLast (fun g => { g with endpoints := g.endpoints ++ [endpoint.relabel f id] })
            (p.closeFields.model.groups.map (Group.relabel f id)) := by
        refine map_mapLast (fun g => ?_) p.closeFields.model.groups
        simp [Group.relabel]
      simp only [Except.map, bind, Except.bind, recast, Model.renumber, groups]

variable {raw raw' : String} (depth : Nat)

private theorem takeField_recast (same : statement raw'.toList = statement raw.toList) :
    (p.recast f settings).takeField (f line) depth raw' =
      ((p.takeField line depth raw).mapError (Fault.renumber f raw')).map
        (recast f settings) := by
  have parsed : parseField (p.recast f settings).scope (f line) raw'.toList = _ :=
    parseField_renumber f same p.scope
  unfold takeField
  rw [parsed, endpoint?_recast]
  cases parseField p.scope line raw.toList with
  | error cause => rfl
  | ok decl =>
    cases p.endpoint? with
    | none => rfl
    | some e =>
      have renumbered := OpenFields.place_renumber f depth { decl with } raw raw'
        ⟨p.frames, e.fields p.scope⟩
      rw [← openFields_recast f settings] at renumbered
      have placed : OpenFields.place depth { decl.relabel f id with } raw'
        ⟨(p.recast f settings).frames, (e.relabel f id).fields (p.recast f settings).scope⟩ = _ :=
        renumbered
      simp only [Except.map, Option.map_some, placed]
      rcases OpenFields.place depth { decl with } raw ⟨p.frames, e.fields p.scope⟩ with
        ⟨fields, _ | fault⟩
      · exact congrArg Except.ok (withOpenFields_recast f settings p fields)
      · rfl

/-- A marker or a field is taken alike on another line and with other settings, and is refused
alike. -/
theorem takeInner_recast (same : Text.trim raw'.toList = Text.trim raw.toList) :
    (p.recast f settings).takeInner (f line) depth raw' =
      ((p.takeInner line depth raw).mapError (Fault.renumber f raw')).map
        (recast f settings) := by
  have inside : (p.recast f settings).inEndpoint = p.inEndpoint := rfl
  unfold takeInner
  rw [inside, same]
  cases p.inEndpoint with
  | false => rfl
  | true =>
    simp only [↓reduceIte]
    cases (if depth = fieldDepth then marker? (Text.trim raw.toList) else none) with
    | none => exact takeField_recast f settings p depth (statement_congr same)
    | some marker => exact congrArg Except.ok (takeMarker_recast f settings p marker)

/-- A line that declares something does the same under another number, with other blanks of the same
width before it, with any after it, and on top of other settings. -/
theorem takeStructural_recast {o : Options} (same : Text.trim raw'.toList = Text.trim raw.toList)
    (width : Text.indentWidth raw'.toList = Text.indentWidth raw.toList) :
    (p.recast f settings).takeStructural o (f line) raw' =
      ((p.takeStructural o line raw).mapError (Fault.renumber f raw')).map
        (recast f settings) := by
  unfold takeStructural
  simp only [width]
  split
  · rfl
  · split
    · rw [takeGroup_recast f settings p (statement_congr same)]
      cases p.takeGroup line raw.toList <;> rfl
    · rw [takeEndpoint_recast f settings p o.dialect (statement_congr same)]
      cases p.takeEndpoint o.dialect line raw.toList <;> rfl
    · exact takeInner_recast f settings p _ same

end Lines

end Progress

end Outline

end ApiOutline
