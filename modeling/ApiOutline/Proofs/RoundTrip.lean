import ApiOutline.Proofs.Provenance
import ApiOutline.Proofs.Relabel
import ApiOutline.Proofs.Rendering

/-!
A compiled model, written as an outline and compiled again.

The outline of a model is read line by line, and what is read is the model again: its lines are
numbered anew and each comment loses its backslashes once more.  Fields are the reason why this is
more than one line after another: a nested field is complete only when a later line closes it.  So
the fields of a section are compared after closing them, where the ones read again stand behind what
was there before.
-/

namespace ApiOutline.Outline

/-- A line that was split off a text. -/
def Unbroken (line : List Char) : Prop := '\n' ∉ line

/-- The aliases of an endpoint hold no line feed, since the line that lists them does not. -/
theorem DeclaredEndpoint.unbroken_aliases {dialect : Dialect} {group : String} {e : Endpoint}
    (declared : DeclaredEndpoint Unbroken dialect group e) :
    ∀ name ∈ e.aliases, Text.IsItem name.toList ∧ '\n' ∉ name.toList := by
  intro name member
  obtain ⟨raw, list, whole, written, inside⟩ := declared.aliases name member
  refine ⟨declared.isItem name member, fun feed => whole (Text.mem_of_mem_trim ?_)⟩
  rw [written]
  exact List.mem_append_right _ ((Text.mem_commaItems inside).2 _ feed)

/-! ## Attaching many fields -/

namespace OpenFields

variable {s : OpenFields} {depth : Nat} {decl : FieldDecl}

/-- Puts complete fields into the innermost open field, one after the other. -/
def attachAll (fields : List Field) (s : OpenFields) : OpenFields :=
  fields.foldl (fun s field => s.attach field) s

private theorem attachAll_append (first second : List Field) (s : OpenFields) :
    s.attachAll (first ++ second) = (s.attachAll first).attachAll second :=
  List.foldl_append

private theorem attachAll_frames_length (fields : List Field) (s : OpenFields) :
    (s.attachAll fields).frames.length = s.frames.length := by
  induction fields generalizing s with
  | nil => rfl
  | cons field fields ih => exact (ih (s.attach field)).trans (attach_frames_length field s)

private theorem attachAll_roots (fields roots : List Field) :
    attachAll fields ⟨[], roots⟩ = ⟨[], roots ++ fields⟩ := by
  induction fields generalizing roots with
  | nil => rw [List.append_nil]; rfl
  | cons field fields ih => rw [List.append_cons]; exact ih (roots ++ [field])

/-- Fields that are attached after a nested one go into it. -/
theorem attachAll_settle (nested : decl.isNested = true) (fields children : List Field) :
    (s.settle depth ⟨decl, children⟩).attachAll fields =
      s.settle depth ⟨decl, children ++ fields⟩ := by
  induction fields generalizing children with
  | nil => rw [List.append_nil]; rfl
  | cons field fields ih =>
    have step : (s.settle depth ⟨decl, children⟩).attach field =
        s.settle depth ⟨decl, children ++ [field]⟩ := by
      simp only [settle, nested, ↓reduceIte, attach]
      rfl
    rw [List.append_cons, ← ih, ← step]
    rfl

end OpenFields

/-! ## Reading on -/

namespace Progress

variable {p : Progress} {s t : OpenFields}

/-- A reading inside of an endpoint, with the fields of its section. -/
structure ReadsFields (p : Progress) (s : OpenFields) : Prop where
  /-- The reading is sound. -/
  sound : p.Sound
  /-- It is inside of an endpoint. -/
  inside : p.inEndpoint = true
  /-- These are the fields of the section of that endpoint. -/
  current : ∃ e, p.endpoint? = some e ∧ s = ⟨p.frames, e.fields p.scope⟩

/-- A state that reads fields goes on with the fields that are stored in it. -/
theorem ReadsFields.withOpenFields (reads : p.ReadsFields s) (chained : Chained t.frames) :
    (p.withOpenFields t).ReadsFields t := by
  obtain ⟨e, current, -⟩ := reads.current
  have stored : (p.withOpenFields t).endpoint? = some (e.withFields t.roots p.scope) := by
    rw [withOpenFields_endpoint?, current]
    rfl
  refine ⟨⟨?_, fun _ => reads.inside, chained⟩, reads.inside, _, stored, ?_⟩
  · rw [stored]
    exact reads.inside
  · exact congrArg (OpenFields.mk t.frames) (Endpoint.fields_withFields e t.roots p.scope).symm

private theorem withOpenFields_withOpenFields (p : Progress) (s t : OpenFields) :
    (p.withOpenFields s).withOpenFields t = p.withOpenFields t := by
  have once : (p.mapEndpoint (·.withFields s.roots p.scope)).mapEndpoint
      (·.withFields t.roots p.scope) = p.mapEndpoint (·.withFields t.roots p.scope) := by
    simp only [mapEndpoint_mapEndpoint, Endpoint.withFields_withFields]
  exact congrArg (fun q : Progress => { q with frames := t.frames }) once

theorem ReadsFields.withOpenFields_self (reads : p.ReadsFields s) : p.withOpenFields s = p := by
  obtain ⟨e, current, rfl⟩ := reads.current
  have same : p.mapEndpoint (·.withFields (e.fields p.scope) p.scope) = p := by
    rw [mapEndpoint_congr (g := fun e => e), mapEndpoint_id]
    intro e' current'
    obtain rfl : e = e' := Option.some.inj (current.symm.trans current')
    exact Endpoint.withFields_fields e p.scope
  exact congrArg (fun q : Progress => { q with frames := p.frames }) same

/-- The open fields of a state that reads fields are a chain. -/
theorem ReadsFields.chained (reads : p.ReadsFields s) : Chained s.frames := by
  obtain ⟨e, -, rfl⟩ := reads.current
  exact reads.sound.chained

end Progress

/-! ## Fields -/

open Progress

variable {dialect : Dialect} {scope : Scope} {depth : Nat}

/-- Lines that are read as some fields at a depth, whatever was read before them.  What is open at
the depth and deeper is closed on both sides of the comparison. -/
def Rereads (dialect : Dialect) (scope : Scope) (depth : Nat) (lines : List String)
    (fields : List Field) : Prop :=
  ∀ line p s, p.ReadsFields s → p.scope = scope → depth ≤ fieldDepth + s.frames.length →
    ∃ t again, takeAll ⟨dialect, 4⟩ line lines p = .ok (p.withOpenFields t) ∧ Chained t.frames ∧
      t.closeTo depth = (s.closeTo depth).attachAll again ∧
      again.map (Field.relabel (fun _ => 0) id) =
        fields.map (Field.relabel (fun _ => 0) unescapeText)

private theorem rereads_nil : Rereads dialect scope depth [] [] := fun _ _ s reads _ _ =>
  ⟨s, [], congrArg Except.ok reads.withOpenFields_self.symm, reads.chained, rfl, rfl⟩

private theorem rereads_append {first second : List String} {fields others : List Field}
    (before : Rereads dialect scope depth first fields)
    (after : Rereads dialect scope depth second others) :
    Rereads dialect scope depth (first ++ second) (fields ++ others) := by
  intro line p s reads inScope reaches
  obtain ⟨t, again, taken, chained, closed, same⟩ := before line p s reads inScope reaches
  -- Both sides close to equally many frames, so those of `t` still reach up to the depth.
  have lengths := congrArg (fun u : OpenFields => u.frames.length) closed
  simp only [OpenFields.attachAll_frames_length,
    OpenFields.closeTo_frames_length depth chained,
    OpenFields.closeTo_frames_length depth reads.chained] at lengths
  obtain ⟨u, more, takenMore, chainedMore, closedMore, sameMore⟩ :=
    after (line + first.length) _ t (reads.withOpenFields chained) inScope (by omega)
  rw [withOpenFields_withOpenFields] at takenMore
  refine ⟨u, again ++ more, takeAll_trans taken takenMore, chainedMore, ?_, ?_⟩
  · rw [closedMore, closed, OpenFields.attachAll_append]
  · rw [List.map_append, List.map_append, same, sameMore]

/-- The line of a field is read as the field, without its children. -/
theorem step_field_written (dialect : Dialect) (again : Nat) {raw : List Char} {line : Nat}
    {decl : FieldDecl} {p : Progress} {s : OpenFields} (whole : '\n' ∉ raw)
    (parsed : parseField scope line raw = .ok decl) (inside : fieldDepth ≤ depth)
    (reads : p.ReadsFields s) (inScope : p.scope = scope)
    (reaches : depth ≤ fieldDepth + s.frames.length) :
    Step ⟨dialect, 4⟩ again (indented depth decl.render) p
      (p.withOpenFields ((s.closeTo depth).settle depth
        ⟨{ decl with comment := unescapeText decl.comment, line := again }, []⟩)) := by
  obtain ⟨legible, plain, parsedAgain⟩ := parseField_written dialect whole parsed inside
  obtain ⟨e, current, rfl⟩ := reads.current
  subst inScope
  refine .field inside legible.stands reads.inside (fun _ => plain) (parsedAgain again) current ?_
  rw [OpenFields.place_eq reads.sound.chained inside, if_pos reaches]

/-- A field is read with its children, if these are read from the lines below it. -/
theorem rereads_field {raw : List Char} {line : Nat} {decl : FieldDecl} {children : List Field}
    {lines : List String} (whole : '\n' ∉ raw) (parsed : parseField scope line raw = .ok decl)
    (inside : fieldDepth ≤ depth)
    (below : decl.isNested = true ∧ Rereads dialect scope (depth + 1) lines children ∨
      lines = [] ∧ children = []) :
    Rereads dialect scope depth (indented depth decl.render :: lines) [⟨decl, children⟩] := by
  intro again p s reads inScope reaches
  have step := step_field_written dialect again whole parsed inside reads inScope reaches
  generalize renewed : { decl with comment := unescapeText decl.comment, line := again } = decl'
    at step
  have closed := OpenFields.closeTo_chained depth reads.chained
  have fits : depth = fieldDepth + (s.closeTo depth).frames.length := by
    rw [OpenFields.closeTo_frames_length depth reads.chained]
    omega
  have chained : Chained ((s.closeTo depth).settle depth ⟨decl', []⟩).frames :=
    OpenFields.settle_chained closed fits
  rcases below with ⟨nested, inner⟩ | ⟨rfl, rfl⟩
  · -- The field stays open, and its children are attached to it before it is closed.
    have nested' : decl'.isNested = true := by rw [← renewed]; exact nested
    have length := OpenFields.settle_frames_length depth ⟨decl', []⟩ (s.closeTo depth)
    rw [nested', Bool.toNat_true] at length
    obtain ⟨t, below, taken, chainedBelow, open', same⟩ :=
      inner (again + 1) _ _ (reads.withOpenFields chained) inScope (by omega)
    rw [withOpenFields_withOpenFields] at taken
    rw [OpenFields.closeTo_of_length chained (by omega),
      OpenFields.attachAll_settle nested'] at open'
    refine ⟨t, [⟨decl', below⟩], takeAll_of_step step taken, chainedBelow, ?_, ?_⟩
    · rw [← OpenFields.closeTo_closeTo (Nat.le_succ depth) t, open',
        OpenFields.closeTo_settle closed fits]
      rfl
    · simp [Field.relabel, Field.relabelAll_eq_map, same, ← renewed, FieldDecl.relabel]
  · refine ⟨_, [⟨decl', []⟩], takeAll_of_step step rfl, chained,
      OpenFields.closeTo_settle closed fits, ?_⟩
    simp [Field.relabel, Field.relabelAll, ← renewed, FieldDecl.relabel]

private theorem outlineAll_eq_flatMap (depth : Nat) (fields : List Field) :
    Field.outlineAll depth fields = fields.flatMap (Field.outline depth) := by
  induction fields with
  | nil => rfl
  | cons field fields ih => rw [Field.outlineAll, ih, List.flatMap_cons]

private theorem rereads_outlineAll {fields : List Field}
    (each : ∀ field ∈ fields, Rereads dialect scope depth (field.outline depth) [field]) :
    Rereads dialect scope depth (Field.outlineAll depth fields) fields := by
  induction fields with
  | nil => exact rereads_nil
  | cons field fields ih =>
    obtain ⟨first, rest⟩ := List.forall_mem_cons.1 each
    exact rereads_append first (ih rest)

/-- Every field that lines declare is read again from its outline. -/
theorem rereads_declared (dialect : Dialect) {field : Field}
    (declared : DeclaredField Unbroken scope field) (inside : fieldDepth ≤ depth) :
    Rereads dialect scope depth (field.outline depth) [field] := by
  induction declared generalizing depth with
  | mk whole parsed nested _ ih =>
    refine rereads_field whole parsed inside (nested.imp (fun nested => ⟨nested, ?_⟩) ?_)
    · exact rereads_outlineAll fun child member => ih child member (by omega)
    · rintro rfl
      exact ⟨rfl, rfl⟩

private theorem isLine_outline_field {field : Field} (declared : DeclaredField Unbroken scope field)
    (inside : fieldDepth ≤ depth) : ∀ line ∈ field.outline depth, Text.IsLine line.toList := by
  induction declared generalizing depth with
  | mk whole parsed _ _ ih =>
    rw [Field.outline, outlineAll_eq_flatMap]
    refine List.forall_mem_cons.2 ⟨(parseField_written .v4 whole parsed inside).1.isLine, ?_⟩
    refine List.forall_mem_flatMap.2 fun child member => ih child member (by omega)

/-! ## Endpoints -/

/-- A reading that has added an endpoint to what was there before, and is inside of it. -/
structure AtEndpoint (base : Progress) (e : Endpoint) (p : Progress) : Prop where
  /-- The reading is sound. -/
  sound : p.Sound
  /-- It is inside of an endpoint. -/
  inside : p.inEndpoint = true
  /-- Once its fields are complete, the endpoint is the last one. -/
  model : p.closeFields.model = (base.withEndpoint e).model

section AtEndpoint

variable {base p : Progress} {e : Endpoint}

private theorem endpoint?_of_model {q : Progress} (same : p.model = q.model) :
    p.endpoint? = q.endpoint? := by
  rw [endpoint?, endpoint?, same]

private theorem mapEndpoint_of_model {q : Progress} (same : p.model = q.model)
    (change : Endpoint → Endpoint) :
    (p.mapEndpoint change).model = (q.mapEndpoint change).model := by
  simp only [mapEndpoint, same]

private theorem withEndpoint_endpoint? (grouped : base.model.groups ≠ []) (e : Endpoint) :
    (base.withEndpoint e).endpoint? = some e := by
  obtain ⟨groups, g, same⟩ := (List.eq_nil_or_concat base.model.groups).resolve_left grouped
  simp [withEndpoint, endpoint?, same]

private theorem mapEndpoint_withEndpoint (change : Endpoint → Endpoint) (base : Progress)
    (e : Endpoint) :
    ((base.withEndpoint e).mapEndpoint change).model = (base.withEndpoint (change e)).model := by
  simp [withEndpoint, mapEndpoint]

/-- The name of the line that starts a section. -/
def sectionWord : Scope → String
  | .request => "- req"
  | .response => "- resp"

/-- The marker that starts a section. -/
def sectionMarker : Scope → Marker
  | .request => .request
  | .response => .response

private theorem legible_section (dialect : Dialect) (scope : Scope) :
    Legible dialect fieldDepth (indented fieldDepth (sectionWord scope)) := by
  cases scope <;>
    exact ⟨isLine_indented _ (by decide) (by rintro c ⟨⟩; rfl), standsAt_indented rfl rfl nofun⟩

private theorem marker?_section (scope : Scope) :
    marker? (Text.trim (indented fieldDepth (sectionWord scope)).toList) =
      some (sectionMarker scope) := by
  cases scope <;> rfl

private theorem takeMarker_section (p : Progress) (scope : Scope) :
    p.takeMarker (sectionMarker scope) = { p.closeFields with scope } := by
  cases scope <;> rfl

/-- The fields of a section are read again into the endpoint. -/
theorem reread_section (atEndpoint : AtEndpoint base e p) (grouped : base.model.groups ≠ [])
    (empty : e.fields scope = []) {fields : List Field}
    (each : ∀ field ∈ fields, DeclaredField Unbroken scope field) (line : Nat) :
    ∃ q again, takeAll ⟨dialect, 4⟩ line (Endpoint.sectionOutline (sectionWord scope) fields) p =
        .ok q ∧ AtEndpoint base (e.withFields again scope) q ∧
      again.map (Field.relabel (fun _ => 0) id) =
        fields.map (Field.relabel (fun _ => 0) unescapeText) := by
  cases fields with
  | nil =>
    refine ⟨p, [], rfl, ?_, rfl⟩
    rw [← empty, Endpoint.withFields_fields]
    exact atEndpoint
  | cons field fields =>
    have marked : Step ⟨dialect, 4⟩ line (indented fieldDepth (sectionWord scope)) p
        { p.closeFields with scope } :=
      takeMarker_section p scope ▸
        .marker (legible_section dialect scope).stands atEndpoint.inside (marker?_section scope)
    generalize opened : { p.closeFields with scope } = p' at marked
    have sound := marked.sound atEndpoint.sound
    obtain ⟨closed, inside, model, rfl⟩ : p'.frames = [] ∧ p'.inEndpoint = true ∧
        p'.model = (base.withEndpoint e).model ∧ p'.scope = scope := by
      rw [← opened]
      exact ⟨closeFields_frames atEndpoint.sound,
        (closeFields_inEndpoint p).trans atEndpoint.inside, atEndpoint.model, rfl⟩
    have current : p'.endpoint? = some e :=
      (endpoint?_of_model model).trans (withEndpoint_endpoint? grouped e)
    have reads : p'.ReadsFields ⟨[], []⟩ := ⟨sound, inside, e, current, by rw [closed, empty]⟩
    have rereads := rereads_outlineAll fun f member =>
      rereads_declared dialect (each f member) (Nat.le_refl fieldDepth)
    obtain ⟨t, again, taken, chained, complete, same⟩ :=
      rereads (line + 1) p' _ reads rfl (Nat.le_refl _)
    have soundAfter := takeAll_sound sound taken
    -- The marker has closed everything, so what is complete now are the section's fields alone.
    have drained : t.drain.roots = again := by
      rw [OpenFields.drain_eq_closeTo chained, complete, OpenFields.closeTo_nil,
        OpenFields.attachAll_roots]
      rfl
    refine ⟨_, again, takeAll_of_step marked taken, ⟨soundAfter, inside, ?_⟩, same⟩
    rw [closeFields_withOpenFields sound soundAfter, closeFields_of_closed closed, drained,
      mapEndpoint_of_model model, mapEndpoint_withEndpoint]

/-- The lines of the aliases of an endpoint; an empty list has none. -/
def aliasOutline (aliases : List String) : List String :=
  if aliases.isEmpty then []
  else [indented fieldDepth ("- alias: " ++ String.intercalate "," aliases)]

/-- The aliases are read again into the endpoint. -/
theorem reread_aliases (atEndpoint : AtEndpoint base e p) (empty : e.aliases = [])
    {aliases : List String}
    (each : ∀ name ∈ aliases, Text.IsItem name.toList ∧ '\n' ∉ name.toList) (line : Nat) :
    ∃ q, takeAll ⟨dialect, 4⟩ line (aliasOutline aliases) p = .ok q ∧
      AtEndpoint base { e with aliases } q := by
  by_cases none : aliases = []
  · subst none
    refine ⟨p, rfl, ?_⟩
    rw [← empty]
    exact atEndpoint
  · obtain ⟨legible, list, found, items⟩ := aliases_written dialect none each
    have step : Step ⟨dialect, 4⟩ line _ p (p.takeMarker (.aliases list)) :=
      .marker legible.stands atEndpoint.inside found
    have outline : aliasOutline aliases =
        [indented fieldDepth ("- alias: " ++ String.intercalate "," aliases)] :=
      if_neg (by simpa using none)
    refine ⟨_, by rw [outline]; exact takeAll_of_step step rfl, step.sound atEndpoint.sound, ?_, ?_⟩
    · exact (closeFields_inEndpoint p).trans atEndpoint.inside
    · have closed : (p.takeMarker (.aliases list)).frames = [] :=
        closeFields_frames atEndpoint.sound
      rw [closeFields_of_closed closed, takeMarker, items, mapEndpoint_of_model atEndpoint.model,
        mapEndpoint_withEndpoint]

end AtEndpoint

/-- An endpoint is read again from its outline, into the group that is read. -/
theorem reread_endpoint {p : Progress} {g : Group} {e : Endpoint}
    (declared : DeclaredEndpoint Unbroken dialect g.name e) (sound : p.Sound)
    (last : p.closeFields.model.groups.getLast? = some g) (line : Nat) :
    ∃ q e', takeAll ⟨dialect, 4⟩ line e.outline p = .ok q ∧ q.Sound ∧
      q.closeFields.model = (p.closeFields.withEndpoint e').model ∧
      e'.relabel (fun _ => 0) id = e.relabel (fun _ => 0) unescapeText := by
  obtain ⟨declaredLine, raw, whole, parsed⟩ := declared.declared
  obtain ⟨legible, parsedAgain⟩ := parseEndpoint_written whole parsed
  have step : Step ⟨dialect, 4⟩ line (indented 1 e.render) p _ :=
    .endpoint legible.stands last (parsedAgain line)
  have grouped : p.closeFields.model.groups ≠ [] := by
    intro none
    rw [none] at last
    cases last
  have start : AtEndpoint p.closeFields _ _ := ⟨step.sound sound, rfl,
    congrArg Progress.model (closeFields_of_closed (closeFields_frames sound))⟩
  obtain ⟨q₁, request, taken₁, at₁, same₁⟩ :=
    reread_section start grouped rfl (declared.fields .request) (line + 1)
  obtain ⟨q₂, response, taken₂, at₂, same₂⟩ :=
    reread_section at₁ grouped rfl (declared.fields .response) _
  obtain ⟨q₃, taken₃, at₃⟩ := reread_aliases at₂ rfl declared.unbroken_aliases _
  refine ⟨q₃, _, takeAll_of_step step (takeAll_trans (takeAll_trans taken₁ taken₂) taken₃),
    at₃.sound, at₃.model, ?_⟩
  rw [Endpoint.relabel, Endpoint.relabel]
  simp only [Endpoint.withFields, Field.relabelAll_eq_map, same₁, same₂]
  rfl

private theorem isLine_outline_section {fields : List Field}
    (each : ∀ field ∈ fields, DeclaredField Unbroken scope field) :
    ∀ line ∈ Endpoint.sectionOutline (sectionWord scope) fields, Text.IsLine line.toList := by
  unfold Endpoint.sectionOutline
  split
  · nofun
  · refine List.forall_mem_cons.2 ⟨(legible_section .v4 scope).isLine, ?_⟩
    rw [outlineAll_eq_flatMap]
    exact List.forall_mem_flatMap.2 fun field member =>
      isLine_outline_field (each field member) (Nat.le_refl fieldDepth)

private theorem isLine_outline_endpoint {group : String} {e : Endpoint}
    (declared : DeclaredEndpoint Unbroken dialect group e) :
    ∀ line ∈ e.outline, Text.IsLine line.toList := by
  obtain ⟨line, raw, whole, parsed⟩ := declared.declared
  have aliases : ∀ line ∈ aliasOutline e.aliases, Text.IsLine line.toList := by
    unfold aliasOutline
    split
    · nofun
    · next some =>
      refine List.forall_mem_singleton.2 ?_
      exact (aliases_written dialect (by simpa using some) declared.unbroken_aliases).1.isLine
  refine List.forall_mem_cons.2 ⟨(parseEndpoint_written whole parsed).1.isLine, ?_⟩
  refine List.forall_mem_append.2 ⟨List.forall_mem_append.2 ⟨?_, ?_⟩, aliases⟩
  · exact isLine_outline_section (declared.fields .request)
  · exact isLine_outline_section (declared.fields .response)

/-! ## Groups -/

section Groups

variable {p base : Progress}

private theorem withEndpoint_withGroup (base : Progress) (g : Group) (e : Endpoint)
    (same : p.model = (base.withGroup g).model) :
    (p.withEndpoint e).model =
      (base.withGroup { g with endpoints := g.endpoints ++ [e] }).model := by
  simp [withEndpoint, withGroup, same]

/-- The endpoints of a group are read again, one after the other. -/
theorem reread_endpoints {g : Group} {endpoints : List Endpoint}
    (each : ∀ e ∈ endpoints, DeclaredEndpoint Unbroken dialect g.name e) (sound : p.Sound)
    (model : p.closeFields.model = (base.withGroup g).model) (line : Nat) :
    ∃ q again, takeAll ⟨dialect, 4⟩ line (endpoints.flatMap Endpoint.outline) p = .ok q ∧ q.Sound ∧
      q.closeFields.model = (base.withGroup { g with endpoints := g.endpoints ++ again }).model ∧
      again.map (Endpoint.relabel (fun _ => 0) id) =
        endpoints.map (Endpoint.relabel (fun _ => 0) unescapeText) := by
  induction endpoints generalizing p g line with
  | nil =>
    refine ⟨p, [], rfl, sound, ?_, rfl⟩
    rw [List.append_nil]
    exact model
  | cons e endpoints ih =>
    obtain ⟨declared, rest⟩ := List.forall_mem_cons.1 each
    have last : p.closeFields.model.groups.getLast? = some g := by
      rw [model]
      exact List.getLast?_concat
    obtain ⟨q, e', taken, soundAfter, modelAfter, same⟩ := reread_endpoint declared sound last line
    rw [withEndpoint_withGroup base g e' model] at modelAfter
    obtain ⟨r, again, takenMore, soundMore, modelMore, sameMore⟩ :=
      ih (g := { g with endpoints := g.endpoints ++ [e'] }) rest soundAfter modelAfter
        (line + e.outline.length)
    refine ⟨r, e' :: again, takeAll_trans taken takenMore, soundMore, ?_, ?_⟩
    · rw [List.append_cons]
      exact modelMore
    · rw [List.map_cons, List.map_cons, same, sameMore]

/-- A group is read again from its outline. -/
theorem reread_group {g : Group} (declared : DeclaredGroup Unbroken dialect g) (sound : p.Sound)
    (line : Nat) :
    ∃ q g', takeAll ⟨dialect, 4⟩ line g.outline p = .ok q ∧ q.Sound ∧
      q.closeFields.model = (p.closeFields.withGroup g').model ∧
      g'.relabel (fun _ => 0) id = g.relabel (fun _ => 0) unescapeText := by
  obtain ⟨declaredLine, raw, whole, parsed⟩ := declared.declared
  obtain ⟨legible, parsedAgain⟩ := parseGroup_written dialect whole parsed
  let renewed : Group := { name := g.name, comment := unescapeText g.comment, line }
  have step : Step ⟨dialect, 4⟩ line (g.name ++ commentSuffix g.comment) p
      (p.closeFields.withGroup renewed) := .group legible.stands (parsedAgain line)
  have start : (p.closeFields.withGroup renewed).closeFields.model =
      (p.closeFields.withGroup renewed).model :=
    congrArg Progress.model (closeFields_of_closed (closeFields_frames sound))
  obtain ⟨q, again, taken, soundAfter, model, same⟩ :=
    reread_endpoints (g := renewed) declared.endpoints (step.sound sound) start (line + 1)
  refine ⟨q, _, takeAll_of_step step taken, soundAfter, model, ?_⟩
  rw [Group.relabel, Group.relabel, ← same]
  rfl

private theorem isLine_outline_group {g : Group} (declared : DeclaredGroup Unbroken dialect g) :
    ∀ line ∈ g.outline, Text.IsLine line.toList := by
  obtain ⟨line, raw, whole, parsed⟩ := declared.declared
  refine List.forall_mem_cons.2 ⟨(parseGroup_written dialect whole parsed).1.isLine, ?_⟩
  exact List.forall_mem_flatMap.2 fun e member =>
    isLine_outline_endpoint (declared.endpoints e member)

/-- The groups of a model are read again, one after the other. -/
theorem reread_groups {groups : List Group} (each : ∀ g ∈ groups, DeclaredGroup Unbroken dialect g)
    (sound : p.Sound) (line : Nat) :
    ∃ q again, takeAll ⟨dialect, 4⟩ line (groups.flatMap Group.outline) p = .ok q ∧
      q.finish = { p.finish with groups := p.finish.groups ++ again } ∧
      again.map (Group.relabel (fun _ => 0) id) =
        groups.map (Group.relabel (fun _ => 0) unescapeText) := by
  induction groups generalizing p line with
  | nil => exact ⟨p, [], rfl, by rw [List.append_nil], rfl⟩
  | cons g groups ih =>
    obtain ⟨declared, rest⟩ := List.forall_mem_cons.1 each
    obtain ⟨q, g', taken, soundAfter, model, same⟩ := reread_group declared sound line
    obtain ⟨r, again, takenMore, modelMore, sameMore⟩ :=
      ih rest soundAfter (line + g.outline.length)
    refine ⟨r, g' :: again, takeAll_trans taken takenMore, ?_, ?_⟩
    · rw [modelMore, finish, model, List.append_cons]
      rfl
    · rw [List.map_cons, List.map_cons, same, sameMore]

end Groups

/-! ## Documents -/

/-- A model whose parts come from lines is compiled again from its outline. -/
theorem compileLines_outline {m : Model} {root : String}
    (parsed : parseRoot root.toList = .ok (m.routePrefix, m.version))
    (declared : ∀ g ∈ m.groups, DeclaredGroup Unbroken dialect g) :
    ∃ again, compileLines ⟨dialect, 4⟩ m.outline =
        .ok { routePrefix := m.routePrefix, version := m.version, groups := again } ∧
      again.map (Group.relabel (fun _ => 0) id) =
        m.groups.map (Group.relabel (fun _ => 0) unescapeText) := by
  obtain ⟨parsedAgain, -⟩ := parseRoot_written parsed
  obtain ⟨q, again, taken, model, same⟩ :=
    reread_groups declared (sound_start m.routePrefix m.version) 2
  have filled : ¬ IsBlankLine ("root " ++ m.routePrefix ++ " " ++ m.version) := by
    simp only [IsBlankLine, Text.isBlankText, String.toList_append, List.all_append,
      Bool.and_eq_true]
    rintro ⟨⟨⟨blank, -⟩, -⟩, -⟩
    exact absurd blank (by decide)
  refine ⟨again, ?_, same⟩
  have lines : m.outline =
      [] ++ ("root " ++ m.routePrefix ++ " " ++ m.version) :: m.groups.flatMap Group.outline := rfl
  rw [lines, compileLines_root (List.forall_mem_nil _) filled, parsedAgain]
  simp only [List.length_nil, Nat.zero_add, taken, Except.map, model]
  rfl

private theorem isLine_outline {m : Model} {root : String}
    (parsed : parseRoot root.toList = .ok (m.routePrefix, m.version))
    (declared : ∀ g ∈ m.groups, DeclaredGroup Unbroken dialect g) :
    ∀ line ∈ m.outline, Text.IsLine line.toList := by
  refine List.forall_mem_cons.2 ⟨(parseRoot_written parsed).2, ?_⟩
  exact List.forall_mem_flatMap.2 fun g member => isLine_outline_group (declared g member)

/-- A compiled model is compiled again from the text of its outline, in either dialect and up to
the settings, which an outline does not show.  Each comment loses its backslashes before a `#`, so
nothing but line numbers changes exactly if no comment has such a backslash. -/
theorem compile_render {dialect : Dialect} {text : String} {m : Model}
    (compiled : compile ⟨dialect, 4⟩ text = .ok m) :
    ∃ again, compile ⟨dialect, 4⟩ m.render = .ok again ∧
      again.routePrefix = m.routePrefix ∧ again.version = m.version ∧ again.settings = {} ∧
      again.groups.map (Group.relabel (fun _ => 0) id) =
        m.groups.map (Group.relabel (fun _ => 0) unescapeText) ∧
      (again.groups.map (Group.relabel (fun _ => 0) id) =
          m.groups.map (Group.relabel (fun _ => 0) id) ↔
        ∀ comment ∈ m.comments, ¬ ['\\', '#'] <:+: comment.toList) := by
  have whole : ∀ raw ∈ Text.lines text, Unbroken raw.toList := by
    intro raw member
    obtain ⟨line, inside, rfl⟩ := List.mem_map.1 member
    rw [String.toList_ofList]
    exact Text.not_mem_of_mem_splitLines inside
  obtain ⟨⟨root, parsed⟩, declared⟩ := compileLines_declared whole compiled
  obtain ⟨groups, compiledAgain, same⟩ := compileLines_outline parsed declared
  refine ⟨{ routePrefix := m.routePrefix, version := m.version, groups }, ?_, rfl, rfl, rfl, same,
    ?_⟩
  · rw [compile, Model.render, Text.lines_join (isLine_outline parsed declared)]
    exact compiledAgain
  · rw [same, relabel_groups_eq_iff]
    exact forall₂_congr fun comment _ => unescapeText_eq_self_iff

/-- A document with a backslash that its outline loses, a rule with spaces and a nested field. -/
def backslashText : String :=
  "root shop\nuser # a \\\\# b\n    find post\n        n int false:\"x y\"\n" ++
    "        - resp\n        who []P\n            id str\n"

def backslashModel : Model where
  routePrefix := "shop"
  version := "v1"
  groups := [{
    name := "user", comment := "a \\# b", line := 2
    endpoints := [{
      name := "find", group := "user", method := .post, line := 3
      requestFields := [{
        name := "n", declaredType := "int", resolvedType := "int64", required := false
        rule := "x y", line := 4 }]
      responseFields := [{
        name := "who", declaredType := "[]P", resolvedType := "[]struct", isArray := true
        isNested := true, line := 6
        children := [{
          name := "id", declaredType := "str", resolvedType := "string", line := 7 }] }] }] }]

set_option maxRecDepth 2000 in
theorem compile_render_backslash :
    compile ⟨.v4, 4⟩ backslashText = .ok backslashModel ∧
      ∃ again, compile ⟨.v4, 4⟩ backslashModel.render = .ok again ∧
        again.routePrefix = "shop" ∧ again.version = "v1" ∧ again.settings = {} ∧
        again.groups.map (Group.relabel (fun _ => 0) id) =
          backslashModel.groups.map (Group.relabel (fun _ => 0) unescapeText) ∧
        (again.groups.map (Group.relabel (fun _ => 0) id) =
            backslashModel.groups.map (Group.relabel (fun _ => 0) id) ↔
          ∀ comment ∈ backslashModel.comments, ¬ ['\\', '#'] <:+: comment.toList) := by
  have lines : Text.lines backslashText = ["root shop", "user # a \\\\# b", "    find post",
      "        n int false:\"x y\"", "        - resp", "        who []P",
      "            id str"] := rfl
  have compiled : compile ⟨.v4, 4⟩ backslashText = .ok backslashModel := by
    rw [compile, lines]
    rfl
  exact ⟨compiled, compile_render compiled⟩

end ApiOutline.Outline
