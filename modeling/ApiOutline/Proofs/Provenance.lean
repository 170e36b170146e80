import ApiOutline.Proofs.Reading
import ApiOutline.Proofs.Text

/-!
Where the parts of a compiled model come from.

Every group, endpoint and field of a model is what one of the readers made of a line of the text,
every alias is an entry of a comma list, and children stand in nested fields only.  So whatever
holds of all that can be read from a line holds of all that a model consists of, wherever a field
was waiting while other lines were read.

`kind` is what is known of the lines themselves: that they have no line feed, if they were split off
a text, or nothing at all.
-/

namespace ApiOutline.Outline

/-- A field that lines declare, with the fields inside it. -/
inductive DeclaredField (kind : List Char → Prop) (scope : Scope) : Field → Prop where
  | mk {line : Nat} {raw : List Char} {decl : FieldDecl} {children : List Field}
      (ofKind : kind raw) (parsed : parseField scope line raw = .ok decl)
      (nested : decl.isNested = true ∨ children = [])
      (inside : ∀ child ∈ children, DeclaredField kind scope child) :
      DeclaredField kind scope ⟨decl, children⟩

/-- An endpoint that lines declare. -/
structure DeclaredEndpoint (kind : List Char → Prop) (dialect : Dialect) (group : String)
    (e : Endpoint) : Prop where
  /-- All but its fields and aliases comes from one line. -/
  declared : ∃ line raw, kind raw ∧ parseEndpoint dialect group line raw =
    .ok { e with requestFields := [], responseFields := [], aliases := [] }
  /-- Its fields are declared in their sections. -/
  fields : ∀ scope, ∀ field ∈ e.fields scope, DeclaredField kind scope field
  /-- Its aliases are entries of a list on one line. -/
  aliases : ∀ name ∈ e.aliases, ∃ raw list, kind raw ∧
    Text.trim raw = "- alias:".toList ++ list ∧ name.toList ∈ Text.commaItems list

/-- A group that lines declare. -/
structure DeclaredGroup (kind : List Char → Prop) (dialect : Dialect) (g : Group) : Prop where
  /-- All but its endpoints comes from one line. -/
  declared : ∃ line raw, kind raw ∧ parseGroup line raw = .ok { g with endpoints := [] }
  /-- Its endpoints are declared in it. -/
  endpoints : ∀ e ∈ g.endpoints, DeclaredEndpoint kind dialect g.name e

/-! ## Open fields -/

namespace OpenFields

variable {P : Field → Prop} {s t : OpenFields} {field : Field} {depth : Nat} {raw : String}

/-- All fields of a section, complete or open, satisfy `P`. -/
structure All (P : Field → Prop) (s : OpenFields) : Prop where
  /-- The open fields do, with the children they have so far. -/
  frames : ∀ frame ∈ s.frames, P frame.field
  /-- The complete fields do. -/
  roots : ∀ field ∈ s.roots, P field

variable (grows : ∀ {outer inner : Field}, outer.isNested = true → P outer → P inner →
  P (outer.addChild inner))

include grows

private theorem all_attach (chained : Chained s.frames) (all : s.All P) (holds : P field) :
    (s.attach field).All P := by
  unfold attach
  split
  · next none =>
    refine ⟨all.frames, fun f member => ?_⟩
    rcases List.mem_append.1 member with member | member
    · exact all.roots f member
    · exact List.mem_singleton.1 member ▸ holds
  · next frame outer same =>
    rw [same] at chained
    have frames := all.frames
    rw [same, List.forall_mem_cons] at frames
    exact ⟨List.forall_mem_cons.2 ⟨grows chained.2.1 frames.1 holds, frames.2⟩, all.roots⟩

private theorem all_closeTo (depth : Nat) (chained : Chained s.frames) (all : s.All P) :
    (s.closeTo depth).All P := by
  refine (closeTo_induction (motive := fun t => Chained t.frames ∧ t.All P) depth ?_ s
    ⟨chained, all⟩).2
  rintro frame outer roots - ⟨chained, all⟩
  obtain ⟨first, rest⟩ := List.forall_mem_cons.1 all.frames
  exact ⟨attach_chained chained.2.2, all_attach grows chained.2.2 ⟨rest, all.roots⟩ first⟩

private theorem all_drain (chained : Chained s.frames) (all : s.All P) : s.drain.All P := by
  rw [drain_eq_closeTo chained]
  exact all_closeTo grows fieldDepth chained all

private theorem all_place (chained : Chained s.frames) (inside : fieldDepth ≤ depth) (all : s.All P)
    (holds : P field) (placed : place depth field raw s = (t, none)) : t.All P := by
  rw [(place_reaches chained inside placed).2]
  have closed := all_closeTo grows depth chained all
  unfold settle
  split
  · exact ⟨List.forall_mem_cons.2 ⟨holds, closed.frames⟩, closed.roots⟩
  · exact all_attach grows (closeTo_chained depth chained) closed holds

end OpenFields

variable {kind : List Char → Prop}

private theorem declaredField_addChild {scope : Scope} {outer inner : Field}
    (nested : outer.isNested = true) (declared : DeclaredField kind scope outer)
    (child : DeclaredField kind scope inner) :
    DeclaredField kind scope (outer.addChild inner) := by
  cases declared with
  | mk ofKind parsed _ inside =>
    refine .mk ofKind parsed (.inl nested) fun f member => ?_
    rcases List.mem_append.1 member with member | member
    · exact inside f member
    · exact List.mem_singleton.1 member ▸ child

/-- An endpoint stays declared when it is given fields that are. -/
theorem DeclaredEndpoint.withFields {dialect : Dialect} {group : String} {e : Endpoint}
    {fields : List Field} {scope : Scope} (declared : DeclaredEndpoint kind dialect group e)
    (each : ∀ field ∈ fields, DeclaredField kind scope field) :
    DeclaredEndpoint kind dialect group (e.withFields fields scope) where
  declared := by
    obtain ⟨line, raw, ofKind, parsed⟩ := declared.declared
    refine ⟨line, raw, ofKind, parsed.trans ?_⟩
    cases scope <;> rfl
  fields asked := by
    by_cases same : asked = scope
    · subst same
      rw [Endpoint.fields_withFields]
      exact each
    · rw [Endpoint.fields_withFields_of_ne e fields same]
      exact declared.fields asked
  aliases := by cases scope <;> exact declared.aliases

/-- The aliases of a declared endpoint are entries of a comma list. -/
theorem DeclaredEndpoint.isItem {dialect : Dialect} {group : String} {e : Endpoint}
    (declared : DeclaredEndpoint kind dialect group e) :
    ∀ name ∈ e.aliases, Text.IsItem name.toList := by
  intro name member
  obtain ⟨raw, list, -, -, inside⟩ := declared.aliases name member
  exact (Text.mem_commaItems inside).1

universe u

private theorem forall_mem_mapLast {α : Type u} {P : α → Prop} {f : α → α} {l : List α}
    (all : ∀ a ∈ l, P a) (last : ∀ a, l.getLast? = some a → P a → P (f a)) :
    ∀ a ∈ mapLast f l, P a := by
  obtain rfl | ⟨l, a, rfl⟩ := List.eq_nil_or_concat l
  · exact all
  · intro b member
    rw [List.concat_eq_append, mapLast_concat] at member
    rcases List.mem_append.1 member with member | member
    · exact all b (by simp [member])
    · exact List.mem_singleton.1 member ▸ last a (by simp) (all a (by simp))

/-! ## A reading -/

namespace Progress

variable {o : Options} {p q : Progress} {line : Nat} {raw : String}

/-- All parts of a model that is being read come from lines. -/
structure Declared (kind : List Char → Prop) (o : Options) (p : Progress) : Prop where
  /-- The groups do. -/
  groups : ∀ g ∈ p.model.groups, DeclaredGroup kind o.dialect g
  /-- The open fields do. -/
  frames : ∀ frame ∈ p.frames, DeclaredField kind p.scope frame.field

private theorem declared_mapEndpoint {change : Endpoint → Endpoint} (declared : p.Declared kind o)
    (kept : ∀ group e, p.endpoint? = some e → DeclaredEndpoint kind o.dialect group e →
      DeclaredEndpoint kind o.dialect group (change e)) :
    ∀ g ∈ (p.mapEndpoint change).model.groups, DeclaredGroup kind o.dialect g := by
  refine forall_mem_mapLast declared.groups fun g last declaredGroup => ?_
  refine ⟨declaredGroup.declared, forall_mem_mapLast declaredGroup.endpoints fun e lastEndpoint =>
    kept g.name e ?_⟩
  rw [endpoint?, last]
  exact lastEndpoint

private theorem declared_endpoint? {e : Endpoint} (declared : p.Declared kind o)
    (current : p.endpoint? = some e) : ∃ group, DeclaredEndpoint kind o.dialect group e := by
  obtain ⟨g, last, found⟩ := Option.bind_eq_some_iff.1 current
  have declaredGroup := declared.groups g (List.mem_of_getLast? last)
  exact ⟨g.name, declaredGroup.endpoints e (List.mem_of_getLast? found)⟩

private theorem declared_openFields {group : String} {e : Endpoint} (declared : p.Declared kind o)
    (declaredEndpoint : DeclaredEndpoint kind o.dialect group e) :
    OpenFields.All (DeclaredField kind p.scope) ⟨p.frames, e.fields p.scope⟩ :=
  ⟨declared.frames, declaredEndpoint.fields p.scope⟩

private theorem declared_closeFields (sound : p.Sound) (declared : p.Declared kind o) :
    p.closeFields.Declared kind o := by
  rw [closeFields_eq sound]
  refine ⟨declared_mapEndpoint declared fun group e _ declaredEndpoint => ?_, nofun⟩
  exact declaredEndpoint.withFields (OpenFields.all_drain declaredField_addChild sound.chained
    (declared_openFields declared declaredEndpoint)).roots

private theorem declared_withGroup {group : Group} (declared : p.Declared kind o)
    (closed : p.frames = []) (declaredGroup : DeclaredGroup kind o.dialect group) :
    (p.withGroup group).Declared kind o where
  groups g member := by
    rcases List.mem_append.1 member with member | member
    · exact declared.groups g member
    · exact List.mem_singleton.1 member ▸ declaredGroup
  frames := by
    rw [withGroup, closed]
    exact List.forall_mem_nil _

private theorem declared_withEndpoint {group : Group} {e : Endpoint} (declared : p.Declared kind o)
    (closed : p.frames = []) (last : p.model.groups.getLast? = some group)
    (declaredEndpoint : DeclaredEndpoint kind o.dialect group.name e) :
    (p.withEndpoint e).Declared kind o where
  groups := by
    refine forall_mem_mapLast declared.groups fun g last' declaredGroup => ?_
    obtain rfl : group = g := Option.some.inj (last.symm.trans last')
    refine ⟨declaredGroup.declared, fun e' member => ?_⟩
    rcases List.mem_append.1 member with member | member
    · exact declaredGroup.endpoints e' member
    · exact List.mem_singleton.1 member ▸ declaredEndpoint
  frames := by
    rw [withEndpoint, closed]
    exact List.forall_mem_nil _

private theorem trim_of_aliases {line list : List Char}
    (found : marker? (Text.trim line) = some (.aliases list)) :
    Text.trim line = "- alias:".toList ++ list := by
  unfold marker? at found
  split at found
  · cases found
  · split at found
    · cases found
    · obtain ⟨rest, same, alike⟩ := Option.map_eq_some_iff.1 found
      cases alike
      exact (List.append_eq_of_isPrefixOf?_eq_some same).symm

private theorem declared_takeMarker {marker : Marker} (sound : p.Sound)
    (declared : p.Declared kind o) (ofKind : kind raw.toList)
    (found : marker? (Text.trim raw.toList) = some marker) :
    (p.takeMarker marker).Declared kind o := by
  have closed := declared_closeFields sound declared
  have none := closeFields_frames sound
  cases marker with
  | request | response =>
    refine ⟨closed.groups, ?_⟩
    simp only [takeMarker, none]
    exact List.forall_mem_nil _
  | aliases list =>
    refine ⟨declared_mapEndpoint closed fun group e _ declaredEndpoint => ?_, closed.frames⟩
    refine ⟨declaredEndpoint.declared, fun scope => ?_, fun name member => ?_⟩
    · cases scope
      · exact declaredEndpoint.fields .request
      · exact declaredEndpoint.fields .response
    · obtain ⟨item, inside, rfl⟩ := List.mem_map.1 member
      refine ⟨raw.toList, list, ofKind, trim_of_aliases found, ?_⟩
      rw [String.toList_ofList]
      exact inside

/-- What a line adds to the model comes from that line. -/
theorem Step.declared (step : Step o line raw p q) (ofKind : kind raw.toList) (sound : p.Sound)
    (declared : p.Declared kind o) : q.Declared kind o := by
  have closed := declared_closeFields sound declared
  have none := closeFields_frames sound
  cases step with
  | blank => exact declared
  | directive => exact ⟨declared.groups, declared.frames⟩
  | @group group stands parsed =>
    have same : { group with endpoints := [] } = group := by rw [← parseGroup_endpoints parsed]
    refine declared_withGroup closed none ⟨⟨line, raw.toList, ofKind, same ▸ parsed⟩, ?_⟩
    rw [parseGroup_endpoints parsed]
    nofun
  | endpoint stands last parsed =>
    obtain ⟨name, modifiers, protocol, -, -, -, -, rfl⟩ := parseEndpoint_ok_iff.1 parsed
    refine declared_withEndpoint closed none last ⟨⟨line, raw.toList, ofKind, parsed⟩, ?_, nofun⟩
    intro scope
    cases scope <;> nofun
  | marker stands inside found => exact declared_takeMarker sound declared ofKind found
  | field deep stands inside plain parsed current placed =>
    -- The roots that the field is placed among are those of the endpoint that is being read.
    obtain ⟨group, declaredEndpoint⟩ := declared_endpoint? declared current
    have all := OpenFields.all_place declaredField_addChild sound.chained deep
      (declared_openFields declared declaredEndpoint) (.mk ofKind parsed (.inr rfl) nofun) placed
    exact ⟨declared_mapEndpoint declared fun _ _ _ declaredEndpoint =>
      declaredEndpoint.withFields all.roots, all.frames⟩

/-- Everything in a state is declared by a line that has been read, if it was so at the start. -/
theorem Run.declared {read : List (String × Nat)} (run : Run o p read q)
    (ofKind : ∀ line ∈ read, kind line.1.toList) (sound : p.Sound)
    (declared : p.Declared kind o) : q.Declared kind o := by
  induction run with
  | start => exact declared
  | line run step ih =>
    obtain ⟨earlier, last⟩ := List.forall_mem_append.1 ofKind
    exact step.declared (last _ List.mem_cons_self) (run.sound sound) (ih earlier)

end Progress

/-- All parts of a document that compiles come from its lines. -/
theorem compileLines_declared {o : Options} {lines : List String} {m : Model}
    (ofKind : ∀ raw ∈ lines, kind raw.toList) (compiled : compileLines o lines = .ok m) :
    (∃ root : String, parseRoot root.toList = .ok (m.routePrefix, m.version)) ∧
      ∀ g ∈ m.groups, DeclaredGroup kind o.dialect g := by
  obtain ⟨blanks, root, rest, routePrefix, version, p, rfl, -, -, parsed, taken, rfl⟩ :=
    compileLines_ok compiled
  have run := Progress.run_of_takeAll taken
  have sound := Progress.sound_start routePrefix version
  have numbered : ∀ line ∈ rest.zipIdx (blanks.length + 2), kind line.1.toList := by
    intro line member
    have found := List.fst_mem_of_mem_zipIdx member
    exact ofKind line.1 (List.mem_append_right _ (List.mem_cons_of_mem _ found))
  have declared := run.declared numbered sound ⟨nofun, nofun⟩
  refine ⟨⟨root, ?_⟩, (Progress.declared_closeFields (run.sound sound) declared).groups⟩
  rw [parsed, Progress.finish, p.closeFields_root.1, p.closeFields_root.2, run.root.1, run.root.2]

end ApiOutline.Outline
