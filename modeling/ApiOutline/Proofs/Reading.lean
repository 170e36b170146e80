import ApiOutline.Outline.Compile
import ApiOutline.Proofs.Declaration
import ApiOutline.Proofs.OpenFields
import Mathlib.Data.List.Induction

/-!
What taking one line can do, and what holds after any number of lines.

`Step` lists the ways in which a line is taken, one for each kind of line, with everything the line
had to satisfy; every fact about a reading is proved from it and not from the functions that take a
line.  `Run` is a reading of several lines, which grows at its end, so an invariant of a reading is
an induction over it.
-/

namespace ApiOutline

namespace Endpoint

variable (e : Endpoint) (fields other : List Field) (scope : Outline.Scope)

@[simp]
theorem fields_withFields : (e.withFields fields scope).fields scope = fields := by
  cases scope <;> rfl

/-- Other fields in one section leave the other section as it is. -/
theorem fields_withFields_of_ne {scope asked : Outline.Scope} (differ : asked ≠ scope) :
    (e.withFields fields scope).fields asked = e.fields asked := by
  cases scope <;> cases asked <;> first | rfl | exact absurd rfl differ

@[simp]
theorem withFields_withFields :
    (e.withFields other scope).withFields fields scope = e.withFields fields scope := by
  cases scope <;> rfl

@[simp]
theorem withFields_fields : e.withFields (e.fields scope) scope = e := by
  cases scope <;> rfl

end Endpoint

namespace Outline

universe u v

section MapLast

variable {α : Type u} (f g : α → α) (l : List α) (a : α)

@[simp]
theorem mapLast_concat : mapLast f (l ++ [a]) = l ++ [f a] := by
  rw [mapLast, List.length_append, List.length_singleton, Nat.add_sub_cancel, List.modify]
  exact List.modifyTailIdx_add (List.modifyHead f) 0 l [a]

@[simp]
theorem mapLast_mapLast : mapLast f (mapLast g l) = mapLast (fun a => f (g a)) l := by
  rw [mapLast, mapLast, List.length_modify, List.modify_modify_eq]
  rfl

@[simp]
theorem getLast?_mapLast : (mapLast f l).getLast? = l.getLast?.map f := by
  obtain rfl | ⟨l, a, rfl⟩ := List.eq_nil_or_concat l
  · rfl
  · simp

private theorem mapLast_congr {f g : α → α} {l : List α}
    (same : ∀ a, l.getLast? = some a → f a = g a) : mapLast f l = mapLast g l := by
  obtain rfl | ⟨l, a, rfl⟩ := List.eq_nil_or_concat l
  · rfl
  · simp [same a]

@[simp]
theorem mapLast_id : mapLast (fun a => a) l = l := List.modify_id _ l

/-- A view that commutes with a change commutes with the change of the last element. -/
theorem map_mapLast {β : Type v} {f : α → α} {g : β → β} {view : α → β}
    (commutes : ∀ a, view (f a) = g (view a)) (l : List α) :
    (mapLast f l).map view = mapLast g (l.map view) := by
  obtain rfl | ⟨l, a, rfl⟩ := List.eq_nil_or_concat l
  · rfl
  · simp [commutes]

end MapLast

namespace Progress

variable {o : Options} {p q r : Progress} {line depth : Nat} {raw : String}

/-! ## The endpoint that is being read -/

@[simp]
theorem mapEndpoint_mapEndpoint (f g : Endpoint → Endpoint) (p : Progress) :
    (p.mapEndpoint f).mapEndpoint g = p.mapEndpoint (fun e => g (f e)) := by
  simp [mapEndpoint]

@[simp]
theorem endpoint?_mapEndpoint (f : Endpoint → Endpoint) (p : Progress) :
    (p.mapEndpoint f).endpoint? = p.endpoint?.map f := by
  simp only [endpoint?, mapEndpoint, getLast?_mapLast]
  cases p.model.groups.getLast? <;> simp

/-- Only the endpoint that is being read is changed. -/
theorem mapEndpoint_congr {f g : Endpoint → Endpoint}
    (same : ∀ e, p.endpoint? = some e → f e = g e) : p.mapEndpoint f = p.mapEndpoint g := by
  have groups : mapLast (fun group => { group with endpoints := mapLast f group.endpoints })
      p.model.groups =
      mapLast (fun group => { group with endpoints := mapLast g group.endpoints })
      p.model.groups := by
    refine mapLast_congr fun group last => ?_
    rw [mapLast_congr (l := group.endpoints) (f := f) (g := g)]
    intro e lastEndpoint
    exact same e (by rw [endpoint?, last]; exact lastEndpoint)
  simp only [mapEndpoint, groups]

@[simp]
theorem mapEndpoint_id (p : Progress) : p.mapEndpoint (fun e => e) = p := by
  simp [mapEndpoint]

/-- Open fields are stored in the endpoint that is being read. -/
theorem withOpenFields_endpoint? (fields : OpenFields) (p : Progress) :
    (p.withOpenFields fields).endpoint? = p.endpoint?.map (·.withFields fields.roots p.scope) :=
  endpoint?_mapEndpoint _ p

/-- What holds of every state that a reading passes through: an endpoint is being read exactly when
the last group has one, fields are open only inside an endpoint, and the open ones form a chain. -/
structure Sound (p : Progress) : Prop where
  /-- There is an endpoint to add fields to whenever fields may follow. -/
  current : p.inEndpoint = p.endpoint?.isSome
  /-- No field is open outside of an endpoint. -/
  inside : p.frames ≠ [] → p.inEndpoint = true
  /-- The open fields form a chain. -/
  chained : Chained p.frames

/-- The endpoint that is being read, its open fields completed. -/
def completed (p : Progress) (e : Endpoint) : Endpoint :=
  e.withFields (OpenFields.drain ⟨p.frames, e.fields p.scope⟩).roots p.scope

/-- Completing the open fields touches nothing but the endpoint that is being read. -/
theorem closeFields_eq (sound : p.Sound) :
    p.closeFields = { p.mapEndpoint p.completed with frames := [] } := by
  unfold closeFields
  split
  · next closed =>
    have none : p.frames = [] := List.isEmpty_iff.1 closed
    have same : p.mapEndpoint p.completed = p := by
      rw [mapEndpoint_congr (g := fun e => e), mapEndpoint_id]
      intro e _
      simp [completed, none, OpenFields.drain]
    rw [same, ← none]
  · next opened =>
    have inside : p.inEndpoint = true := sound.inside (by simpa using opened)
    rw [sound.current] at inside
    obtain ⟨e, current⟩ := Option.isSome_iff_exists.1 inside
    simp only [current, withOpenFields, OpenFields.drain_frames]
    rw [mapEndpoint_congr (g := p.completed)]
    intro e' current'
    rw [current] at current'
    cases current'
    rfl

/-- Where no field is open, there is nothing to complete. -/
theorem closeFields_of_closed (closed : p.frames = []) : p.closeFields = p := by
  simp [closeFields, closed]

@[simp]
theorem closeFields_scope (p : Progress) : p.closeFields.scope = p.scope := by
  unfold closeFields
  split
  · rfl
  · split <;> rfl

@[simp]
theorem closeFields_inEndpoint (p : Progress) : p.closeFields.inEndpoint = p.inEndpoint := by
  unfold closeFields
  split
  · rfl
  · split <;> rfl

/-- Completing leaves no field open. -/
theorem closeFields_frames (sound : p.Sound) : p.closeFields.frames = [] := by
  rw [closeFields_eq sound]

/-- Completing changes the endpoint that is being read, and only by its fields. -/
theorem closeFields_endpoint? (sound : p.Sound) :
    p.closeFields.endpoint? = p.endpoint?.map p.completed := by
  rw [closeFields_eq sound]
  exact endpoint?_mapEndpoint p.completed p

/-- Completing leaves the root as it is. -/
theorem closeFields_root (p : Progress) :
    p.closeFields.model.routePrefix = p.model.routePrefix ∧
      p.closeFields.model.version = p.model.version := by
  unfold closeFields
  split
  · exact ⟨rfl, rfl⟩
  · split <;> exact ⟨rfl, rfl⟩

/-- Completing the fields after a field was placed is completing them before and storing the
section once more. -/
theorem closeFields_withOpenFields {fields : OpenFields} (sound : p.Sound)
    (placedSound : (p.withOpenFields fields).Sound) :
    (p.withOpenFields fields).closeFields.model =
      (p.closeFields.mapEndpoint (·.withFields fields.drain.roots p.scope)).model := by
  rw [closeFields_eq sound, closeFields_eq placedSound]
  have late : ((p.withOpenFields fields).mapEndpoint (p.withOpenFields fields).completed).model =
      (p.mapEndpoint (·.withFields fields.drain.roots p.scope)).model := by
    have twice := congrArg Progress.model (mapEndpoint_mapEndpoint
      (·.withFields fields.roots p.scope) (p.withOpenFields fields).completed p)
    refine twice.trans (congrArg (fun change => (p.mapEndpoint change).model) (funext fun e => ?_))
    simp [completed, withOpenFields, mapEndpoint]
  have early : ((p.mapEndpoint p.completed).mapEndpoint
      (·.withFields fields.drain.roots p.scope)).model =
      (p.mapEndpoint (·.withFields fields.drain.roots p.scope)).model := by
    rw [mapEndpoint_mapEndpoint]
    simp only [completed, Endpoint.withFields_withFields]
  exact late.trans early.symm

/-! ## One line -/

/-- A line that declares something stands at a depth: its indentation is that many levels. -/
def StandsAt (o : Options) (raw : String) (depth : Nat) : Prop :=
  classify o.dialect raw.toList = .structural ∧
    Text.indentWidth raw.toList = depth * o.levelWidth

/-- Adds a group at the end. -/
def withGroup (group : Group) (p : Progress) : Progress :=
  { p with
    model := { p.model with groups := p.model.groups ++ [group] }
    inEndpoint := false
    scope := .request }

/-- Adds an endpoint to the last group. -/
def withEndpoint (endpoint : Endpoint) (p : Progress) : Progress :=
  { p with
    model := { p.model with
      groups := mapLast (fun g => { g with endpoints := g.endpoints ++ [endpoint] })
        p.model.groups }
    inEndpoint := true
    scope := .request }

/-- How a line is taken: what the line has to satisfy after `p`, and what follows it. -/
inductive Step (o : Options) (line : Nat) (raw : String) (p : Progress) : Progress → Prop where
  | blank (kind : classify o.dialect raw.toList = .blank) : Step o line raw p p
  | directive {key : DirectiveKey} {settings : Settings}
      (kind : classify o.dialect raw.toList = .directive key)
      (applied : applyDirective key raw.toList p.model.settings = (settings, none)) :
      Step o line raw p { p with model := { p.model with settings } }
  | group {group : Group} (stands : StandsAt o raw 0)
      (parsed : parseGroup line raw.toList = .ok group) :
      Step o line raw p (p.closeFields.withGroup group)
  | endpoint {group : Group} {endpoint : Endpoint} (stands : StandsAt o raw 1)
      (last : p.closeFields.model.groups.getLast? = some group)
      (parsed : parseEndpoint o.dialect group.name line raw.toList = .ok endpoint) :
      Step o line raw p (p.closeFields.withEndpoint endpoint)
  | marker {marker : Marker} (stands : StandsAt o raw fieldDepth) (inside : p.inEndpoint = true)
      (found : marker? (Text.trim raw.toList) = some marker) :
      Step o line raw p (p.takeMarker marker)
  | field {depth : Nat} {decl : FieldDecl} {e : Endpoint} {fields : OpenFields}
      (deep : fieldDepth ≤ depth) (stands : StandsAt o raw depth) (inside : p.inEndpoint = true)
      (plain : depth = fieldDepth → marker? (Text.trim raw.toList) = none)
      (parsed : parseField p.scope line raw.toList = .ok decl) (current : p.endpoint? = some e)
      (placed : OpenFields.place depth { decl with } raw ⟨p.frames, e.fields p.scope⟩ =
        (fields, none)) :
      Step o line raw p (p.withOpenFields fields)

/-- The depth of a line is its indentation in whole levels. -/
theorem StandsAt.depth_eq (stands : StandsAt o raw depth) :
    Text.indentWidth raw.toList / o.levelWidth = depth := by
  rw [stands.2, Nat.mul_div_cancel _ o.levelWidth_pos]

/-- A line that is not indented is taken for a group. -/
theorem take_group_line (stands : StandsAt o raw 0) :
    p.take o line raw = (p.takeGroup line raw.toList).mapError (.grammar line raw) := by
  simp [take, stands.1, takeStructural, stands.2]

/-- A line on the first level is taken for an endpoint. -/
theorem take_endpoint_line (stands : StandsAt o raw 1) :
    p.take o line raw =
      (p.takeEndpoint o.dialect line raw.toList).mapError (.grammar line raw) := by
  simp [take, stands.1, takeStructural, stands.2, Nat.div_self o.levelWidth_pos]

/-- A line on a deeper level is taken for a marker or a field. -/
theorem take_inner_line (deep : fieldDepth ≤ depth) (stands : StandsAt o raw depth) :
    p.take o line raw = p.takeInner line depth raw := by
  obtain ⟨further, rfl⟩ := Nat.exists_eq_add_of_le' deep
  simp [take, stands.1, takeStructural, stands.2, Nat.mul_div_cancel _ o.levelWidth_pos, fieldDepth]

/-- A line that declares something is taken according to its level. -/
theorem take_structural_line (kind : classify o.dialect raw.toList = .structural) :
    p.take o line raw = p.takeStructural o line raw := by
  rw [take, kind]

/-- A blank line changes nothing. -/
theorem take_blank_line (blank : Text.isBlankText raw.toList = true) :
    p.take o line raw = .ok p := by
  simp [take, classify, blank]

/-- A line that is taken and declares something stands at a depth. -/
theorem standsAt_of_take (kind : classify o.dialect raw.toList = .structural)
    (taken : p.take o line raw = .ok q) : ∃ depth, StandsAt o raw depth := by
  simp only [take, kind, takeStructural] at taken
  split at taken
  · cases taken
  · next even =>
    refine ⟨Text.indentWidth raw.toList / o.levelWidth, kind, ?_⟩
    exact (Nat.div_mul_cancel (Nat.dvd_of_mod_eq_zero (by simpa using even))).symm

private theorem step_of_takeGroup (stands : StandsAt o raw 0)
    (taken : p.takeGroup line raw.toList = .ok q) : Step o line raw p q := by
  unfold takeGroup at taken
  cases parsed : parseGroup line raw.toList with
  | error cause => simp [parsed, bind, Except.bind] at taken
  | ok group =>
    simp only [parsed, bind, Except.bind, Except.ok.injEq] at taken
    exact taken ▸ .group stands parsed

private theorem step_of_takeEndpoint (stands : StandsAt o raw 1)
    (taken : p.takeEndpoint o.dialect line raw.toList = .ok q) : Step o line raw p q := by
  unfold takeEndpoint at taken
  cases last : p.closeFields.model.groups.getLast? with
  | none => simp [last] at taken
  | some group =>
    simp only [last] at taken
    cases parsed : parseEndpoint o.dialect group.name line raw.toList with
    | error cause => simp [parsed, bind, Except.bind] at taken
    | ok endpoint =>
      simp only [parsed, bind, Except.bind, Except.ok.injEq] at taken
      exact taken ▸ .endpoint stands last parsed

private theorem step_of_takeInner (deep : fieldDepth ≤ depth) (stands : StandsAt o raw depth)
    (taken : p.takeInner line depth raw = .ok q) : Step o line raw p q := by
  unfold takeInner at taken
  split at taken
  · next inside =>
    split at taken
    · next marker found =>
      cases taken
      by_cases outermost : depth = fieldDepth
      · subst outermost
        exact .marker stands inside (by simpa using found)
      · simp [outermost] at found
    · next plain =>
      unfold takeField at taken
      split at taken
      · cases taken
      · next decl parsed =>
        split at taken
        · cases taken
        · next e current =>
          split at taken
          · cases taken
          · next fields placed =>
            cases taken
            exact .field deep stands inside (fun outermost => by simpa [outermost] using plain)
              parsed current placed
  · cases taken

private theorem ok_of_mapError {ε δ α : Type} {f : ε → δ} {x : Except ε α} {a : α}
    (mapped : x.mapError f = .ok a) : x = .ok a := by
  cases x with
  | error cause => cases mapped
  | ok b => cases mapped; rfl

/-- Every line that is taken is taken in one of the listed ways. -/
theorem step_of_take (taken : p.take o line raw = .ok q) : Step o line raw p q := by
  cases kind : classify o.dialect raw.toList with
  | blank =>
    simp only [take, kind, Except.ok.injEq] at taken
    exact taken ▸ .blank kind
  | directive key =>
    simp only [take, kind] at taken
    split at taken
    · cases taken
    · next settings applied =>
      cases taken
      exact .directive kind applied
  | structural =>
    obtain ⟨depth, stands⟩ := standsAt_of_take kind taken
    match depth, stands with
    | 0, stands =>
      rw [take_group_line stands] at taken
      exact step_of_takeGroup stands (ok_of_mapError taken)
    | 1, stands =>
      rw [take_endpoint_line stands] at taken
      exact step_of_takeEndpoint stands (ok_of_mapError taken)
    | depth + 2, stands =>
      rw [take_inner_line (Nat.le_add_left 2 depth) stands] at taken
      exact step_of_takeInner (Nat.le_add_left 2 depth) stands taken

/-- A line that can be taken in one of the listed ways is taken so. -/
theorem take_of_step (step : Step o line raw p q) : p.take o line raw = .ok q := by
  cases step with
  | blank kind => simp [take, kind]
  | directive kind applied => simp [take, kind, applied]
  | group stands parsed =>
    rw [take_group_line stands, takeGroup, parsed]
    rfl
  | endpoint stands last parsed =>
    rw [take_endpoint_line stands]
    simp only [takeEndpoint, last, parsed]
    rfl
  | marker stands inside found =>
    rw [take_inner_line (Nat.le_refl _) stands]
    simp [takeInner, inside, found]
  | field deep stands inside plain parsed current placed =>
    rw [take_inner_line deep stands]
    have field : (if _ = fieldDepth then marker? (Text.trim raw.toList) else none) = none :=
      ite_eq_right_iff.2 plain
    simp [takeInner, inside, field, takeField, parsed, current, placed]

/-! ## Soundness -/

/-- Completing the open fields keeps a state sound. -/
theorem sound_closeFields (sound : p.Sound) : p.closeFields.Sound where
  current := by
    rw [closeFields_inEndpoint, closeFields_endpoint? sound, sound.current, Option.isSome_map]
  inside opened := absurd (closeFields_frames sound) opened
  chained := by rw [closeFields_frames sound]; trivial

private theorem sound_takeMarker (marker : Marker) (sound : p.Sound) :
    (p.takeMarker marker).Sound := by
  have closed := sound_closeFields sound
  cases marker with
  | request => exact ⟨closed.current, closed.inside, closed.chained⟩
  | response => exact ⟨closed.current, closed.inside, closed.chained⟩
  | aliases list =>
    refine ⟨?_, closed.inside, closed.chained⟩
    simp only [takeMarker, endpoint?_mapEndpoint, Option.isSome_map]
    exact closed.current

/-- Soundness is kept by every line. -/
theorem Step.sound (step : Step o line raw p q) (sound : p.Sound) : q.Sound := by
  have closed := sound_closeFields sound
  have drained := closeFields_frames sound
  cases step with
  | blank => exact sound
  | directive => exact ⟨sound.current, sound.inside, sound.chained⟩
  | group stands parsed =>
    refine ⟨?_, fun opened => absurd drained opened, closed.chained⟩
    simp [withGroup, endpoint?, parseGroup_endpoints parsed]
  | endpoint stands last parsed =>
    refine ⟨?_, fun _ => rfl, closed.chained⟩
    simp [withEndpoint, endpoint?, last]
  | marker stands inside found => exact sound_takeMarker _ sound
  | field deep stands inside plain parsed current placed =>
    refine ⟨?_, fun _ => inside, OpenFields.place_chained sound.chained deep placed⟩
    rw [withOpenFields_endpoint?, Option.isSome_map]
    exact sound.current

/-- No line changes what the root says. -/
theorem Step.root (step : Step o line raw p q) :
    q.model.routePrefix = p.model.routePrefix ∧ q.model.version = p.model.version := by
  cases step with
  | blank | directive | field => exact ⟨rfl, rfl⟩
  | group | endpoint => exact closeFields_root p
  | @marker marker => cases marker <;> exact closeFields_root p

/-! ## Many lines -/

/-- A reading that starts at `p` and has taken some numbered lines. -/
inductive Run (o : Options) (p : Progress) : List (String × Nat) → Progress → Prop where
  | start : Run o p [] p
  | line {read : List (String × Nat)} {q r : Progress} {line : Nat} {raw : String}
      (run : Run o p read q) (step : Step o line raw q r) : Run o p (read ++ [(raw, line)]) r

theorem takeAll_cons (raw : String) (rest : List String) :
    takeAll o line (raw :: rest) p = (p.take o line raw).bind (takeAll o (line + 1) rest) :=
  rfl

/-- Lines are taken in order, so the later ones are taken from where the earlier ones lead. -/
theorem takeAll_append (first second : List String) :
    takeAll o line (first ++ second) p =
      (takeAll o line first p).bind (takeAll o (line + first.length) second) := by
  induction first generalizing line p with
  | nil => rfl
  | cons raw first ih =>
    simp only [List.cons_append, takeAll, List.length_cons]
    cases p.take o line raw with
    | error fault => rfl
    | ok q =>
      rw [← Nat.add_assoc, Nat.add_right_comm]
      exact ih

theorem takeAll_of_step {rest : List String} (step : Step o line raw p q)
    (after : takeAll o (line + 1) rest q = .ok r) : takeAll o line (raw :: rest) p = .ok r := by
  simp only [takeAll, take_of_step step]
  exact after

theorem takeAll_trans {first second : List String} (before : takeAll o line first p = .ok q)
    (after : takeAll o (line + first.length) second q = .ok r) :
    takeAll o line (first ++ second) p = .ok r := by
  rw [takeAll_append, before]
  exact after

private theorem takeAll_singleton : takeAll o line [raw] p = p.take o line raw := by
  simp only [takeAll]
  cases p.take o line raw <;> rfl

/-- Taking lines is a reading of them. -/
theorem run_of_takeAll {lines : List String} (taken : takeAll o line lines p = .ok q) :
    Run o p (lines.zipIdx line) q := by
  induction lines using List.reverseRecOn generalizing q with
  | nil => cases taken; exact .start
  | append_singleton lines raw ih =>
    rw [takeAll_append] at taken
    cases before : takeAll o line lines p with
    | error fault => simp [before, Except.bind] at taken
    | ok middle =>
      simp only [before, Except.bind, takeAll_singleton] at taken
      rw [List.zipIdx_append]
      exact .line (ih before) (step_of_take taken)

/-- A reading of consecutive lines takes them. -/
theorem takeAll_of_run {lines : List String} (run : Run o p (lines.zipIdx line) q) :
    takeAll o line lines p = .ok q := by
  induction lines using List.reverseRecOn generalizing q with
  | nil =>
    generalize same : ([] : List String).zipIdx line = read at run
    cases run with
    | start => rfl
    | line run step => exact absurd same (by simp)
  | append_singleton lines raw ih =>
    generalize same : (lines ++ [raw]).zipIdx line = read at run
    rw [List.zipIdx_append] at same
    cases run with
    | start => exact absurd same (by simp)
    | line run step =>
      obtain ⟨rfl, last⟩ := List.append_inj' same rfl
      cases last
      rw [takeAll_append, ih run]
      exact takeAll_singleton.trans (take_of_step step)

/-- A reading leads from sound states to sound states. -/
theorem Run.sound {read : List (String × Nat)} (run : Run o p read q) (sound : p.Sound) :
    q.Sound := by
  induction run with
  | start => exact sound
  | line run step ih => exact step.sound ih

theorem takeAll_sound {lines : List String} (sound : p.Sound)
    (taken : takeAll o line lines p = .ok q) : q.Sound :=
  (run_of_takeAll taken).sound sound

/-- A reading leaves the root as it is. -/
theorem Run.root {read : List (String × Nat)} (run : Run o p read q) :
    q.model.routePrefix = p.model.routePrefix ∧ q.model.version = p.model.version := by
  induction run with
  | start => exact ⟨rfl, rfl⟩
  | line run step ih => exact ⟨step.root.1.trans ih.1, step.root.2.trans ih.2⟩

/-- A reading starts with nothing but a root. -/
theorem sound_start (routePrefix version : String) :
    Sound { model := { routePrefix, version } } :=
  ⟨rfl, fun opened => absurd rfl opened, trivial⟩

end Progress

/-! ## The root -/

abbrev IsBlankLine (raw : String) : Prop := Text.isBlankText raw.toList = true

/-- A document has no line with something on it, or a first one. -/
theorem blank_or_root (lines : List String) :
    (∀ raw ∈ lines, IsBlankLine raw) ∨
      ∃ blanks root rest, lines = blanks ++ root :: rest ∧ (∀ raw ∈ blanks, IsBlankLine raw) ∧
        ¬ IsBlankLine root := by
  induction lines with
  | nil => exact .inl nofun
  | cons raw lines ih =>
    by_cases blank : IsBlankLine raw
    · rcases ih with allBlank | ⟨blanks, root, rest, rfl, allBlank, filled⟩
      · exact .inl (List.forall_mem_cons.2 ⟨blank, allBlank⟩)
      · have stillBlank := List.forall_mem_cons.2 ⟨blank, allBlank⟩
        exact .inr ⟨raw :: blanks, root, rest, rfl, stillBlank, filled⟩
    · exact .inr ⟨[], raw, lines, rfl, nofun, blank⟩

variable {o : Options} {line : Nat}

/-- Blank lines before the root are counted and passed over. -/
theorem compileFrom_blanks {blanks : List String} (blank : ∀ raw ∈ blanks, IsBlankLine raw)
    (rest : List String) :
    compileFrom o line (blanks ++ rest) = compileFrom o (line + blanks.length) rest := by
  induction blanks generalizing line with
  | nil => rfl
  | cons raw blanks ih =>
    obtain ⟨first, others⟩ := List.forall_mem_cons.1 blank
    rw [List.cons_append, compileFrom, if_pos first, ih others, List.length_cons, Nat.add_assoc,
      Nat.add_comm 1]

/-- An outline of blank lines is empty. -/
theorem compileLines_blank {lines : List String} (blank : ∀ raw ∈ lines, IsBlankLine raw) :
    compileLines o lines = .error (.root 0 "" .emptyDocument) := by
  rw [compileLines, ← List.append_nil lines, compileFrom_blanks blank]
  rfl

/-- A document is its root and, if that is well formed, a reading of the lines after it. -/
theorem compileLines_root {blanks rest : List String} {root : String}
    (blank : ∀ raw ∈ blanks, IsBlankLine raw) (filled : ¬ IsBlankLine root) :
    compileLines o (blanks ++ root :: rest) =
      match parseRoot root.toList with
      | .error cause => .error (.root (blanks.length + 1) root cause)
      | .ok (routePrefix, version) =>
        (Progress.takeAll o (blanks.length + 2) rest { model := { routePrefix, version } }).map
          Progress.finish := by
  rw [compileLines, compileFrom_blanks blank, Nat.add_comm 1]
  exact if_neg filled

/-- With a well-formed root, a document compiles exactly if there is a reading of the lines after
it. -/
theorem compileLines_root_ok_iff {blanks rest : List String} {root routePrefix version : String}
    {m : Model} (blank : ∀ raw ∈ blanks, IsBlankLine raw) (filled : ¬ IsBlankLine root)
    (parsed : parseRoot root.toList = .ok (routePrefix, version)) :
    compileLines o (blanks ++ root :: rest) = .ok m ↔
      ∃ p, Progress.Run o { model := { routePrefix, version } }
        (rest.zipIdx (blanks.length + 2)) p ∧ p.finish = m := by
  rw [compileLines_root blank filled, parsed]
  constructor
  · intro compiled
    cases taken : Progress.takeAll o (blanks.length + 2) rest
        { model := { routePrefix, version } } with
    | error fault => simp [taken, Except.map] at compiled
    | ok p =>
      simp only [taken, Except.map, Except.ok.injEq] at compiled
      exact ⟨p, Progress.run_of_takeAll taken, compiled⟩
  · rintro ⟨p, run, rfl⟩
    simp only [Progress.takeAll_of_run run, Except.map]

/-- What a document that compiles is made of. -/
theorem compileLines_ok {lines : List String} {m : Model}
    (compiled : compileLines o lines = .ok m) :
    ∃ blanks root rest routePrefix version p,
      lines = blanks ++ root :: rest ∧ (∀ raw ∈ blanks, IsBlankLine raw) ∧ ¬ IsBlankLine root ∧
      parseRoot root.toList = .ok (routePrefix, version) ∧
      Progress.takeAll o (blanks.length + 2) rest { model := { routePrefix, version } } = .ok p ∧
      m = p.finish := by
  rcases blank_or_root lines with blank | ⟨blanks, root, rest, rfl, blank, filled⟩
  · rw [compileLines_blank blank] at compiled
    cases compiled
  · rw [compileLines_root blank filled] at compiled
    cases parsed : parseRoot root.toList with
    | error cause => simp [parsed] at compiled
    | ok parts =>
      obtain ⟨routePrefix, version⟩ := parts
      simp only [parsed] at compiled
      cases taken : Progress.takeAll o (blanks.length + 2) rest
          { model := { routePrefix, version } } with
      | error fault => simp [taken, Except.map] at compiled
      | ok p =>
        simp only [taken, Except.map, Except.ok.injEq] at compiled
        exact ⟨blanks, root, rest, routePrefix, version, p, rfl, blank, filled, parsed, taken,
          compiled.symm⟩

end Outline

end ApiOutline
