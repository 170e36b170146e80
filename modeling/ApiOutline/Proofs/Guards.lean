import ApiOutline.Proofs.Structure

/-!
Branches of a reading that are never taken.

The functions that take a line ask more often than they need to: whether there is an endpoint for
the aliases, the fields or the open fields, and whether there is an open field for a child.  Where
there is none they would pass over what they were given.  `take?` is a reading with these questions
made explicit.  It gives no answer where one of them is answered in the negative, or where a child
would go into a field that is not nested.  From every state that a reading passes through it gives
the same answer as `take`.  So nothing is passed over: the declarations of a state, open or
complete, are those of the lines before it.
-/

namespace ApiOutline

/-- Adds a child to a nested field. -/
def Field.addChild? (field child : Field) : Option Field :=
  if field.isNested then some (field.addChild child) else none

namespace Outline

/-! ## Open fields -/

namespace OpenFields

variable {s : OpenFields} {depth : Nat}

/-- Completes the open fields at `depth` and deeper; each of them has to be inside a nested one. -/
def unwind? (depth : Nat) (roots : List Field) (frame : Frame) : List Frame → Option OpenFields
  | [] => some (if depth ≤ frame.depth then ⟨[], roots ++ [frame.field]⟩ else ⟨[frame], roots⟩)
  | parent :: outer =>
    if depth ≤ frame.depth then
      (parent.field.addChild? frame.field).bind fun field =>
        unwind? depth roots { parent with field } outer
    else some ⟨frame :: parent :: outer, roots⟩

@[inherit_doc unwind?]
def closeTo? (depth : Nat) (s : OpenFields) : Option OpenFields :=
  match s.frames with
  | [] => some s
  | frame :: outer => unwind? depth s.roots frame outer

/-- Adds a field at a depth.  Where the open field one level above has been found to be there, it
has to be there for a child that is not nested as well. -/
def place? (depth : Nat) (field : Field) (raw : String) (s : OpenFields) :
    Option (OpenFields × Option Fault) :=
  if depth ≤ fieldDepth then
    -- No frame stands above depth zero, so this completes all of them.
    (s.closeTo? 0).map fun s =>
      if field.isNested then ({ s with frames := [⟨fieldDepth, field⟩] }, none)
      else ({ s with roots := s.roots ++ [field] }, none)
  else
    (s.closeTo? depth).bind fun s =>
      if s.openDepth? ≠ some (depth - 1) then
        some (s, some (.grammar field.line raw (.noOpenField (depth - 1))))
      else if field.isNested then some ({ s with frames := ⟨depth, field⟩ :: s.frames }, none)
      else match s.frames with
        | [] => none
        | parent :: outer =>
          (parent.field.addChild? field).map fun field =>
            ({ s with frames := { parent with field } :: outer }, none)

private theorem unwind?_eq (depth : Nat) (roots : List Field) {frame : Frame} {outer : List Frame}
    (chained : Chained (frame :: outer)) :
    unwind? depth roots frame outer = some (unwind depth roots frame outer) := by
  induction outer generalizing frame with
  | nil => simp only [unwind?, unwind]
  | cons parent outer ih =>
    obtain ⟨standing, nested, around⟩ := chained.2.2
    simp only [unwind?, unwind]
    split
    · rw [Field.addChild?, if_pos nested, Option.bind_some]
      exact ih ⟨standing, nested, around⟩
    · rfl

private theorem closeTo?_eq (depth : Nat) (chained : Chained s.frames) :
    s.closeTo? depth = some (s.closeTo depth) := by
  obtain ⟨frames, roots⟩ := s
  cases frames with
  | nil => rfl
  | cons frame outer => exact unwind?_eq depth roots chained

private theorem closeTo_zero (chained : Chained s.frames) : s.closeTo 0 = s.drain := by
  have outermost := drain_eq_closeTo chained
  rw [← closeTo_closeTo (Nat.zero_le fieldDepth), ← outermost, closeTo, drain_frames]

private theorem place?_eq (depth : Nat) (field : Field) (raw : String)
    (chained : Chained s.frames) : s.place? depth field raw = some (s.place depth field raw) := by
  rw [place?, place, closeTo?_eq 0 chained, closeTo?_eq depth chained, closeTo_zero chained]
  split
  · rfl
  · have left := closeTo_chained depth chained
    simp only [Option.bind_some, openDepth?]
    generalize s.closeTo depth = closed at left
    obtain ⟨frames, roots⟩ := closed
    cases frames with
    | nil => simp
    | cons parent outer =>
      have nested : parent.field.isNested = true := left.2.1
      simp only [List.head?_cons, Option.map_some, ne_eq, Option.some.injEq, Field.addChild?,
        nested, if_true]
      split
      · rfl
      · split <;> rfl

end OpenFields

/-! ## Lines -/

namespace Progress

variable {o : Options} {p q : Progress} {line depth : Nat} {raw : String}

/-- Completes the open fields, for which there has to be an endpoint. -/
def closeFields? (p : Progress) : Option Progress :=
  if p.frames.isEmpty then some p
  else p.endpoint?.bind fun e =>
    (OpenFields.closeTo? 0 ⟨p.frames, e.fields p.scope⟩).map p.withOpenFields

/-- Takes a group line, after the open fields have been completed. -/
def takeGroup? (line : Nat) (raw : List Char) (p : Progress) :
    Option (Except GrammarFault Progress) :=
  p.closeFields?.map fun p => do .ok (p.withGroup (← parseGroup line raw))

/-- Takes an endpoint line, after the open fields have been completed. -/
def takeEndpoint? (dialect : Dialect) (line : Nat) (raw : List Char) (p : Progress) :
    Option (Except GrammarFault Progress) :=
  p.closeFields?.map fun p =>
    match p.model.groups.getLast? with
    | none => .error .endpointOutsideGroup
    | some group => do .ok (p.withEndpoint (← parseEndpoint dialect group.name line raw))

/-- Takes a marker; for aliases there has to be an endpoint. -/
def takeMarker? (marker : Marker) (p : Progress) : Option Progress :=
  p.closeFields?.bind fun p =>
    match marker with
    | .request => some { p with scope := .request }
    | .response => some { p with scope := .response }
    | .aliases list => p.endpoint?.map fun _ =>
      p.mapEndpoint fun e => { e with aliases := (Text.commaItems list).map String.ofList }

/-- Takes a field line, for which there has to be an endpoint. -/
def takeField? (line depth : Nat) (raw : String) (p : Progress) :
    Option (Except Fault Progress) :=
  match parseField p.scope line raw.toList with
  | .error cause => some (.error (.grammar line raw cause))
  | .ok decl =>
    p.endpoint?.bind fun e =>
      (OpenFields.place? depth { decl with } raw ⟨p.frames, e.fields p.scope⟩).map fun placed =>
        match placed with
        | (_, some fault) => .error fault
        | (fields, none) => .ok (p.withOpenFields fields)

/-- Takes a line inside an endpoint. -/
def takeInner? (line depth : Nat) (raw : String) (p : Progress) :
    Option (Except Fault Progress) :=
  if p.inEndpoint then
    match if depth = fieldDepth then marker? (Text.trim raw.toList) else none with
    | some marker => (p.takeMarker? marker).map .ok
    | none => p.takeField? line depth raw
  else some (.error (.grammar line raw .fieldOutsideEndpoint))

/-- Takes a line that declares something. -/
def takeStructural? (o : Options) (line : Nat) (raw : String) (p : Progress) :
    Option (Except Fault Progress) :=
  let width := Text.indentWidth raw.toList
  if width % o.levelWidth ≠ 0 then
    some (.error (.grammar line raw (.unevenIndent width o.levelWidth)))
  else match width / o.levelWidth with
    | 0 => (p.takeGroup? line raw.toList).map (·.mapError (.grammar line raw))
    | 1 => (p.takeEndpoint? o.dialect line raw.toList).map (·.mapError (.grammar line raw))
    | depth => p.takeInner? line depth raw

/-- Takes a line of any kind, or gives no answer where something would be passed over. -/
def take? (o : Options) (line : Nat) (raw : String) (p : Progress) :
    Option (Except Fault Progress) :=
  match classify o.dialect raw.toList with
  | .structural => p.takeStructural? o line raw
  | .blank | .directive _ => some (p.take o line raw)

private theorem closeFields?_eq (sound : p.Sound) : p.closeFields? = some p.closeFields := by
  rw [closeFields?, closeFields]
  split
  · rfl
  · next opened =>
    have inside : p.inEndpoint = true := sound.inside (by simpa using opened)
    rw [sound.current] at inside
    obtain ⟨e, current⟩ := Option.isSome_iff_exists.1 inside
    rw [current, Option.bind_some, OpenFields.closeTo?_eq 0 sound.chained,
      OpenFields.closeTo_zero sound.chained]
    rfl

private theorem takeMarker?_eq (marker : Marker) (sound : p.Sound) (inside : p.inEndpoint = true) :
    p.takeMarker? marker = some (p.takeMarker marker) := by
  rw [takeMarker?, closeFields?_eq sound, Option.bind_some]
  cases marker with
  | request | response => rfl
  | aliases list =>
    have closed := sound_closeFields sound
    have current : p.closeFields.endpoint?.isSome = true := by
      rw [← closed.current, closeFields_inEndpoint, inside]
    obtain ⟨e, found⟩ := Option.isSome_iff_exists.1 current
    simp only [found, Option.map_some]
    rfl

private theorem takeField?_eq (line depth : Nat) (raw : String) (sound : p.Sound)
    (inside : p.inEndpoint = true) :
    p.takeField? line depth raw = some (p.takeField line depth raw) := by
  rw [sound.current] at inside
  obtain ⟨e, current⟩ := Option.isSome_iff_exists.1 inside
  rw [takeField?, takeField, current]
  cases parseField p.scope line raw.toList with
  | error cause => rfl
  | ok decl =>
    have placed := OpenFields.place?_eq depth { decl with } raw
      (show Chained (OpenFields.mk p.frames (e.fields p.scope)).frames from sound.chained)
    exact congrArg (Option.map _) placed

private theorem takeInner?_eq (line depth : Nat) (raw : String) (sound : p.Sound) :
    p.takeInner? line depth raw = some (p.takeInner line depth raw) := by
  rw [takeInner?, takeInner]
  split
  · next inside =>
    cases if depth = fieldDepth then marker? (Text.trim raw.toList) else none with
    | some marker => simp only [takeMarker?_eq marker sound inside, Option.map_some]
    | none => exact takeField?_eq line depth raw sound inside
  · rfl

private theorem takeStructural?_eq (o : Options) (line : Nat) (raw : String) (sound : p.Sound) :
    p.takeStructural? o line raw = some (p.takeStructural o line raw) := by
  simp only [takeStructural?, takeStructural, takeGroup?, takeEndpoint?, closeFields?_eq sound,
    Option.map_some]
  split
  · rfl
  · match Text.indentWidth raw.toList / o.levelWidth with
    | 0 | 1 => rfl
    | depth + 2 => exact takeInner?_eq line (depth + 2) raw sound

/-- From a sound state, whatever the line, no branch is taken that would pass something over. -/
theorem take?_eq (o : Options) (line : Nat) (raw : String) (sound : p.Sound) :
    p.take? o line raw = some (p.take o line raw) := by
  rw [take?]
  split
  · next kind => rw [takeStructural?_eq o line raw sound, take_structural_line kind]
  · rfl
  · rfl

-- Where a field is open outside of an endpoint, a line that would complete it gets no answer.
example : take? {} 1 "user" { model := ⟨"api", "v1", [], {}⟩, frames := [⟨2, default⟩] } = none :=
  rfl

end Progress

end Outline

/-! ## Declarations -/

/-- The declarations of both sections of an endpoint, each with its depth. -/
def Endpoint.declarations (e : Endpoint) : List (Nat × FieldDecl) :=
  Field.preorderAll Outline.fieldDepth e.requestFields ++
    Field.preorderAll Outline.fieldDepth e.responseFields

/-- The declarations of all fields of a model, each with its depth. -/
def Model.declarations (m : Model) : List (Nat × FieldDecl) :=
  m.endpoints.flatMap Endpoint.declarations

/-- A section counts for its own declarations, whatever is in the other one. -/
theorem Endpoint.declarations_withFields (e : Endpoint) (scope : Outline.Scope) :
    ∃ other, ∀ fields, (e.withFields fields scope).declarations.Perm
      (other ++ Field.preorderAll Outline.fieldDepth fields) := by
  cases scope with
  | request =>
    refine ⟨Field.preorderAll Outline.fieldDepth e.responseFields, ?_⟩
    intro fields
    exact List.perm_append_comm
  | response =>
    refine ⟨Field.preorderAll Outline.fieldDepth e.requestFields, ?_⟩
    intro fields
    exact .refl _

namespace Outline

/-- What an entry declares in a section, if it declares a field. -/
def Entry.declaration? (scope : Scope) (e : Entry) : Option (Nat × FieldDecl) :=
  if fieldDepth ≤ e.depth ∧ e.marker?.isNone then
    (parseField scope e.line e.raw.toList).toOption.map fun decl => (e.depth, decl)
  else none

/-- What some entries declare after some earlier ones, in order. -/
def declaredFrom (earlier : List Entry) : List Entry → List (Nat × FieldDecl)
  | [] => []
  | e :: rest =>
    (e.declaration? (scopeInForce earlier)).toList ++ declaredFrom (earlier ++ [e]) rest

private theorem declaredFrom_concat (earlier read : List Entry) (e : Entry) :
    declaredFrom earlier (read ++ [e]) =
      declaredFrom earlier read ++ (e.declaration? (scopeInForce (earlier ++ read))).toList := by
  induction read generalizing earlier with
  | nil => rw [List.nil_append, List.append_nil, declaredFrom, declaredFrom, declaredFrom,
      List.append_nil, List.nil_append]
  | cons first read ih =>
    rw [List.cons_append, declaredFrom, ih, declaredFrom, List.append_assoc earlier,
      List.singleton_append, List.append_assoc]

theorem Entry.declaration?_of_shallow {e : Entry} (shallow : e.depth < fieldDepth) (scope : Scope) :
    e.declaration? scope = none :=
  if_neg fun deep => Nat.not_le_of_lt shallow deep.1

theorem Entry.declaration?_of_marker {e : Entry} {marker : Marker} (found : e.marker? = some marker)
    (scope : Scope) : e.declaration? scope = none :=
  if_neg fun plain => by
    rw [found] at plain
    cases plain.2

/-- A line among the fields that is no marker declares the field that is read from it. -/
theorem Entry.declaration?_of_parsed {e : Entry} {scope : Scope} {decl : FieldDecl}
    (deep : fieldDepth ≤ e.depth) (plain : e.marker? = none)
    (parsed : parseField scope e.line e.raw.toList = .ok decl) :
    e.declaration? scope = some (e.depth, decl) := by
  rw [declaration?, if_pos ⟨deep, by rw [plain]; rfl⟩, parsed]
  rfl

namespace Progress

variable {o : Options} {p q : Progress} {line depth : Nat} {raw : String} {e : Endpoint}
  {earlier : List Entry}

/-- The declarations of all fields so far, complete or open, each with its depth. -/
def declarations (p : Progress) : List (Nat × FieldDecl) :=
  p.model.declarations ++ framesPreorder p.frames

private theorem endpoints_mapEndpoint (current : p.endpoint? = some e) :
    ∃ front, ∀ change, (p.mapEndpoint change).model.endpoints = front ++ [change e] := by
  obtain ⟨g, lastGroup, last⟩ := Option.bind_eq_some_iff.1 current
  obtain ⟨groups, sameGroups⟩ := List.getLast?_eq_some_iff.1 lastGroup
  obtain ⟨endpoints, sameEndpoints⟩ := List.getLast?_eq_some_iff.1 last
  refine ⟨groups.flatMap (·.endpoints) ++ endpoints, ?_⟩
  intro change
  simp [mapEndpoint, Model.endpoints, sameGroups, sameEndpoints]

/-- Storing the open fields that a state has changes nothing. -/
theorem withOpenFields_self (current : p.endpoint? = some e) :
    p.withOpenFields ⟨p.frames, e.fields p.scope⟩ = p := by
  have same : p.mapEndpoint (·.withFields (e.fields p.scope) p.scope) = p := by
    rw [mapEndpoint_congr (g := fun e => e), mapEndpoint_id]
    intro e' current'
    rw [current] at current'
    cases current'
    exact Endpoint.withFields_fields e p.scope
  rw [withOpenFields, same]

/-- The section that is being read counts for its own declarations. -/
theorem declarations_withOpenFields (current : p.endpoint? = some e) :
    ∃ others, ∀ s : OpenFields,
      (p.withOpenFields s).declarations.Perm (others ++ s.preorder) := by
  obtain ⟨front, endpoints⟩ := endpoints_mapEndpoint current
  obtain ⟨other, counted⟩ := e.declarations_withFields p.scope
  refine ⟨front.flatMap Endpoint.declarations ++ other, ?_⟩
  intro s
  have model : (p.withOpenFields s).model.declarations =
      front.flatMap Endpoint.declarations ++ (e.withFields s.roots p.scope).declarations := by
    rw [Model.declarations, withOpenFields, endpoints, List.flatMap_append, List.flatMap_singleton]
  rw [declarations, model, OpenFields.preorder, List.append_assoc, List.append_assoc]
  refine List.Perm.append_left _ ?_
  rw [← List.append_assoc]
  exact (counted s.roots).append_right _

private theorem declarations_closeFields (sound : p.Sound) :
    p.closeFields.declarations.Perm p.declarations := by
  rw [closeFields]
  split
  · exact .refl _
  · split
    · exact .refl _
    · next e current =>
      obtain ⟨others, count⟩ := declarations_withOpenFields current
      have before := count ⟨p.frames, e.fields p.scope⟩
      rw [withOpenFields_self current] at before
      refine (count _).trans (.trans ?_ before.symm)
      have chained : Chained (OpenFields.mk p.frames (e.fields p.scope)).frames := sound.chained
      rw [OpenFields.drain_eq_closeTo chained, OpenFields.closeTo_preorder fieldDepth chained]

private theorem declarations_finish (sound : p.Sound) :
    p.finish.declarations.Perm p.declarations := by
  have closed := declarations_closeFields sound
  rw [declarations, closeFields_frames sound, framesPreorder, List.append_nil] at closed
  exact closed

private theorem declarations_withGroup {group : Group} (empty : group.endpoints = []) :
    (p.withGroup group).declarations = p.declarations := by
  simp [declarations, withGroup, Model.declarations, Model.endpoints, empty]

private theorem declarations_withEndpoint {group : Group}
    (last : p.model.groups.getLast? = some group) (empty : e.declarations = []) :
    (p.withEndpoint e).declarations = p.declarations := by
  obtain ⟨groups, same⟩ := List.getLast?_eq_some_iff.1 last
  simp [declarations, withEndpoint, Model.declarations, Model.endpoints, same, empty]

private theorem declarations_takeMarker (marker : Marker) (sound : p.Sound)
    (inside : p.inEndpoint = true) : (p.takeMarker marker).declarations.Perm p.declarations := by
  refine .trans ?_ (declarations_closeFields sound)
  cases marker with
  | request | response => exact .refl _
  | aliases list =>
    have current : p.closeFields.endpoint?.isSome = true := by
      rw [← (sound_closeFields sound).current, closeFields_inEndpoint, inside]
    obtain ⟨e, found⟩ := Option.isSome_iff_exists.1 current
    obtain ⟨front, endpoints⟩ := endpoints_mapEndpoint found
    have same := endpoints fun e => e
    rw [mapEndpoint_id] at same
    rw [takeMarker, declarations, declarations, Model.declarations, Model.declarations, endpoints,
      same, List.flatMap_append, List.flatMap_append]
    exact .refl _

/-- A line that is taken adds the field that it declares, if it declares one, and moves or changes
no other. -/
theorem Step.declarations (step : Step o line raw p q) (sound : p.Sound)
    (tracks : Tracks earlier p) :
    q.declarations.Perm (p.declarations ++ ((entryOf o (raw, line)).bind fun e =>
      e.declaration? (scopeInForce earlier)).toList) := by
  have closed := declarations_closeFields sound
  cases step with
  | blank kind =>
    rw [entryOf_of_ne kind (by simp) line, Option.bind_none, Option.toList_none, List.append_nil]
  | directive kind applied =>
    rw [entryOf_of_ne kind (by simp) line, Option.bind_none, Option.toList_none, List.append_nil]
    exact .refl _
  | group stands parsed =>
    rw [stands.entryOf line, Option.bind_some,
      Entry.declaration?_of_shallow (e := ⟨line, 0, raw⟩) Nat.two_pos, Option.toList_none,
      List.append_nil, declarations_withGroup (parseGroup_endpoints parsed)]
    exact closed
  | endpoint stands last parsed =>
    obtain ⟨name, modifiers, protocol, -, -, -, -, rfl⟩ := parseEndpoint_ok_iff.1 parsed
    rw [stands.entryOf line, Option.bind_some,
      Entry.declaration?_of_shallow (e := ⟨line, 1, raw⟩) Nat.one_lt_two, Option.toList_none,
      List.append_nil, declarations_withEndpoint last rfl]
    exact closed
  | marker stands inside found =>
    have marked : (Entry.mk line fieldDepth raw).marker? = some _ := (if_pos rfl).trans found
    rw [stands.entryOf line, Option.bind_some, Entry.declaration?_of_marker marked,
      Option.toList_none, List.append_nil]
    exact declarations_takeMarker _ sound inside
  | @field depth decl e fields deep stands inside plain parsed current placed =>
    rw [tracks.scope] at parsed
    have unmarked : (Entry.mk line depth raw).marker? = none := ite_eq_right_iff.2 plain
    rw [stands.entryOf line, Option.bind_some, Entry.declaration?_of_parsed deep unmarked parsed,
      Option.toList_some]
    obtain ⟨others, count⟩ := declarations_withOpenFields current
    have before := count ⟨p.frames, e.fields p.scope⟩
    rw [withOpenFields_self current] at before
    have added : fields.preorder =
        OpenFields.preorder ⟨p.frames, e.fields p.scope⟩ ++ [(depth, decl)] :=
      OpenFields.place_preorder sound.chained deep placed
    refine (count fields).trans ?_
    rw [added, ← List.append_assoc]
    exact before.symm.append_right _

/-- The declarations of a state are those of the lines before it, up to their order. -/
theorem Run.declarations {read : List (String × Nat)} {routePrefix version : String}
    (run : Run o { model := { routePrefix, version } } read q) :
    q.declarations.Perm (declaredFrom [] (entries o read)) := by
  induction run with
  | start => exact .refl _
  | @line read p q line raw run step ih =>
    have kept := step.declarations (run.sound (sound_start routePrefix version)) run.tracks
    refine kept.trans ?_
    rw [entries_concat]
    cases entryOf o (raw, line) with
    | none => rw [Option.bind_none, Option.toList_none, Option.toList_none, List.append_nil,
        List.append_nil]; exact ih
    | some e =>
      rw [Option.bind_some, Option.toList_some, declaredFrom_concat, List.nil_append]
      exact ih.append_right _

/-! ## Reachable states -/

private theorem depths_of_chained {frames : List Frame} (chained : Chained frames) :
    frames.reverse.map (·.depth) = List.range' fieldDepth frames.length := by
  induction frames with
  | nil => rfl
  | cons frame outer ih =>
    rw [List.reverse_cons, List.map_append, ih chained.2.2, List.map_singleton, chained.1,
      List.length_cons, List.range'_1_concat]

private theorem nested_of_chained {frames : List Frame} (chained : Chained frames) :
    ∀ frame ∈ frames, frame.field.isNested = true := by
  induction frames with
  | nil => exact List.forall_mem_nil _
  | cons frame outer ih => exact List.forall_mem_cons.2 ⟨chained.2.1, ih chained.2.2⟩

/-- Takes numbered lines in order, whatever their numbers are. -/
def takeNumbered (o : Options) (lines : List (String × Nat)) (p : Progress) :
    Except Fault Progress :=
  lines.foldlM (fun p line => p.take o line.2 line.1) p

private theorem run_of_takeNumbered {lines : List (String × Nat)}
    (taken : p.takeNumbered o lines = .ok q) : Run o p lines q := by
  induction lines using List.reverseRecOn generalizing q with
  | nil => cases taken; exact .start
  | append_singleton lines last ih =>
    rw [takeNumbered, List.foldlM_append, ← takeNumbered] at taken
    cases before : p.takeNumbered o lines with
    | error fault => simp [before, bind, Except.bind] at taken
    | ok middle =>
      simp only [before, List.foldlM_cons, List.foldlM_nil, bind_pure] at taken
      exact .line (ih before) (step_of_take taken)

end Progress

/-- In every state that a reading passes through, whatever lines it was given, an endpoint is being
read exactly if the last group has one, fields are open only then, and the open fields stand one
level below each other and are nested.  So whatever line comes next, or if none does, no branch is
taken that would pass something over; and the fields of the state are those that the lines before it
declare. -/
theorem reading_passes_nothing_over {o : Options} {routePrefix version : String}
    {lines : List (String × Nat)} {p : Progress}
    (taken : Progress.takeNumbered o lines { model := { routePrefix, version } } = .ok p) :
    (p.inEndpoint = true ↔ ∃ g, p.model.groups.getLast? = some g ∧ g.endpoints ≠ []) ∧
    (p.frames ≠ [] → p.inEndpoint = true) ∧
    p.frames.reverse.map (·.depth) = List.range' fieldDepth p.frames.length ∧
    (∀ frame ∈ p.frames, frame.field.isNested = true) ∧
    (∀ line raw, p.take? o line raw = some (p.take o line raw)) ∧
    p.closeFields? = some p.closeFields ∧
    p.declarations.Perm (declaredFrom [] (entries o lines)) ∧
    p.finish.declarations.Perm (declaredFrom [] (entries o lines)) := by
  have run := Progress.run_of_takeNumbered taken
  have sound := run.sound (Progress.sound_start routePrefix version)
  refine ⟨?_, sound.inside, Progress.depths_of_chained sound.chained,
    Progress.nested_of_chained sound.chained, fun line raw => Progress.take?_eq o line raw sound,
    Progress.closeFields?_eq sound, run.declarations,
    (Progress.declarations_finish sound).trans run.declarations⟩
  rw [sound.current, Progress.endpoint?, Option.isSome_iff_exists]
  constructor
  · rintro ⟨e, current⟩
    obtain ⟨g, lastGroup, last⟩ := Option.bind_eq_some_iff.1 current
    refine ⟨g, lastGroup, ?_⟩
    rintro empty
    rw [empty] at last
    cases last
  · rintro ⟨g, lastGroup, filled⟩
    exact ⟨g.endpoints.getLast filled, by
      rw [lastGroup, Option.bind_some, List.getLast?_eq_some_getLast filled]⟩

/-- Lines that leave a field open inside of another one; their numbers are in no order. -/
def openLines : List (String × Nat) :=
  [("user", 7), ("    find", 3), ("        - resp", 3), ("        who Person", 9),
    ("            at Address", 1), ("                city str", 0)]

theorem reading_passes_nothing_over_open : ∃ p,
    Progress.takeNumbered {} openLines { model := ⟨"api", "v1", [], {}⟩ } = .ok p ∧
    p.inEndpoint = true ∧ p.frames.reverse.map (·.depth) = [2, 3] ∧
    p.take? {} 1 "        - alias: /f" = some (p.take {} 1 "        - alias: /f") ∧
    p.finish.declarations.Perm (declaredFrom [] (entries {} openLines)) ∧
    (declaredFrom [] (entries {} openLines)).map (fun d => (d.1, d.2.name)) =
      [(2, "who"), (3, "at"), (4, "city")] := by
  obtain ⟨p, taken, two⟩ : ∃ p,
      Progress.takeNumbered {} openLines { model := ⟨"api", "v1", [], {}⟩ } = .ok p ∧
      p.frames.length = 2 := ⟨_, rfl, rfl⟩
  obtain ⟨-, inside, depths, -, next, -, -, kept⟩ := reading_passes_nothing_over taken
  have opened : p.frames ≠ [] := List.ne_nil_of_length_eq_add_one two
  rw [two] at depths
  exact ⟨p, taken, inside opened, depths, next 1 _, kept, rfl⟩

end Outline

end ApiOutline
