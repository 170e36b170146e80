import ApiOutline.Proofs.Grammar
import Mathlib.Data.List.Forall2
import Mathlib.Data.List.TakeWhile

/-!
The model of a document that compiles, read off the blocks of the document.

A group entry and the entries up to the next one are a block, and so are, inside of it, an endpoint
entry and the entries up to the next one.  Groups, endpoints and their sections correspond to these
blocks in order, although a reading completes a field only once a later line shows that nothing
more goes into it.  The invariant is therefore about the model with its open fields completed: a
line changes nothing of it but its last group, and of that nothing but its last endpoint.
-/

namespace ApiOutline.Outline

universe u v

/-! ## Blocks -/

/-- Each entry of a depth with the entries between it and the next one of that depth. -/
def blocks (depth : Nat) : List Entry → List (Entry × List Entry)
  | [] => []
  | e :: rest =>
    if e.depth = depth then (e, rest.takeWhile (·.depth ≠ depth)) :: blocks depth rest
    else blocks depth rest

/-- The aliases that an entry gives to its endpoint. -/
def Entry.aliases? (e : Entry) : Option (List String) :=
  match e.marker? with
  | some (.aliases list) => some ((Text.commaItems list).map String.ofList)
  | some .request | some .response | none => none

/-- The fields that the entries of an endpoint declare for a section: those that are no markers and
stand where the section is in force. -/
def fieldEntries (scope : Scope) (inner : List Entry) : List Entry :=
  (inner.zipIdx.filter fun (e, index) =>
    e.marker?.isNone && scopeInForce (inner.take index) = scope).map Prod.fst

/-- An endpoint is what its block says. -/
structure EndpointReads (o : Options) (group : String) (e : Endpoint)
    (block : Entry × List Entry) : Prop where
  /-- Its own line declares all but its fields and aliases. -/
  declared : parseEndpoint o.dialect group block.1.line block.1.raw.toList =
    .ok { e with requestFields := [], responseFields := [], aliases := [] }
  /-- The lines of a section declare its fields, from the outside in and each at its depth. -/
  fields : ∀ scope,
    (Field.preorderAll fieldDepth (e.fields scope)).map (fun (depth, decl) => (depth, .ok decl)) =
      (fieldEntries scope block.2).map fun f => (f.depth, parseField scope f.line f.raw.toList)
  /-- The last list of aliases counts. -/
  aliases : e.aliases = (block.2.filterMap Entry.aliases?).getLast?.getD []

/-- A group is what its block says. -/
structure GroupReads (o : Options) (g : Group) (block : Entry × List Entry) : Prop where
  /-- Its own line declares all but its endpoints. -/
  declared : parseGroup block.1.line block.1.raw.toList = .ok { g with endpoints := [] }
  /-- The endpoints are those of the blocks inside, in order. -/
  endpoints : List.Forall₂ (EndpointReads o g.name) g.endpoints (blocks 1 block.2)

/-! ## One more entry -/

section Concat

variable {e : Entry} {depth : Nat} (l : List Entry)

/-- There are no blocks at a depth where no entry stands. -/
theorem blocks_eq_nil_iff (depth : Nat) :
    blocks depth l = [] ↔ ∀ e ∈ l, e.depth ≠ depth := by
  induction l with
  | nil => simp [blocks]
  | cons e l ih => by_cases head : e.depth = depth <;> simp [blocks, head, ih]

/-- An entry of the depth starts a block of its own. -/
theorem blocks_concat_head (head : e.depth = depth) :
    blocks depth (l ++ [e]) = blocks depth l ++ [(e, [])] := by
  induction l with
  | nil => simp [blocks, head]
  | cons first l ih =>
    have cut : (l ++ [e]).takeWhile (·.depth ≠ depth) = l.takeWhile (·.depth ≠ depth) := by
      rw [List.takeWhile_append]
      split
      · next whole =>
        rw [(List.takeWhile_prefix _).eq_of_length whole, List.takeWhile_cons_of_neg (by simpa),
          List.append_nil]
      · rfl
    by_cases starts : first.depth = depth
    · simp only [List.cons_append, blocks, starts, ↓reduceIte, cut, ih]
    · simp only [List.cons_append, blocks, starts, ↓reduceIte, ih]

/-- Any other entry belongs to the last block. -/
theorem blocks_concat_inner (inner : e.depth ≠ depth) :
    blocks depth (l ++ [e]) =
      mapLast (fun block => (block.1, block.2 ++ [e])) (blocks depth l) := by
  induction l with
  | nil => simp [blocks, inner, mapLast]
  | cons first l ih =>
    by_cases starts : first.depth = depth
    · simp only [List.cons_append, blocks, starts, ↓reduceIte, ih]
      cases later : blocks depth l with
      | nil =>
        -- No block starts in `l`, so `first` is the head of the last block.
        have others : ∀ x ∈ l, decide (x.depth ≠ depth) = true :=
          fun x member => decide_eq_true ((blocks_eq_nil_iff l depth).1 later x member)
        rw [List.takeWhile_append_of_pos others, List.takeWhile_eq_self_iff.2 others,
          List.takeWhile_cons_of_pos (by simpa)]
        rfl
      | cons block others =>
        have shorter : (l.takeWhile (·.depth ≠ depth)).length ≠ l.length := by
          intro whole
          have none : blocks depth l = [] := (blocks_eq_nil_iff l depth).2 fun x member => by
            simpa using List.takeWhile_eq_self_iff.1
              ((List.takeWhile_prefix _).eq_of_length whole) x member
          rw [none] at later
          cases later
        rw [List.takeWhile_append, if_neg shorter]
        rfl
    · simp only [List.cons_append, blocks, starts, ↓reduceIte, ih]

/-- The last block ends the list. -/
theorem blocks_getLast {block : Entry × List Entry}
    (last : (blocks depth l).getLast? = some block) :
    ∃ before, l = before ++ block.1 :: block.2 ∧ block.1.depth = depth := by
  induction l using List.reverseRecOn generalizing block with
  | nil => cases last
  | append_singleton l e ih =>
    by_cases head : e.depth = depth
    · rw [blocks_concat_head l head, List.getLast?_concat] at last
      cases last
      exact ⟨l, rfl, head⟩
    · rw [blocks_concat_inner l head, getLast?_mapLast] at last
      obtain ⟨shorter, found, rfl⟩ := Option.map_eq_some_iff.1 last
      obtain ⟨before, same, depth⟩ := ih found
      exact ⟨before, by rw [same]; simp, depth⟩

private theorem fieldEntries_concat (scope : Scope) (e : Entry) :
    fieldEntries scope (l ++ [e]) = fieldEntries scope l ++
      if e.marker?.isNone && scopeInForce l = scope then [e] else [] := by
  have earlier : l.zipIdx.filter (fun (f, index) =>
        f.marker?.isNone && scopeInForce ((l ++ [e]).take index) = scope) =
      l.zipIdx.filter (fun (f, index) =>
        f.marker?.isNone && scopeInForce (l.take index) = scope) := by
    refine List.filter_congr fun (f, index) member => ?_
    have within : index ≤ l.length := Nat.le_of_lt (by simpa using List.snd_lt_of_mem_zipIdx member)
    simp only [List.take_append_of_le_length within]
  rw [fieldEntries, List.zipIdx_append, List.filter_append, earlier, List.map_append, fieldEntries]
  congr 1
  simp only [List.zipIdx_singleton, Nat.zero_add, List.filter_cons, List.filter_nil, List.take_left]
  split <;> rfl

/-- What stands before the nearest group or endpoint has no say in the section. -/
theorem scopeInForce_append (shallow : e.depth ≤ 1) (inner : List Entry) :
    scopeInForce (l ++ e :: inner) = scopeInForce inner := by
  induction inner using List.reverseRecOn with
  | nil =>
    rw [scopeInForce_concat, if_neg (by omega)]
    rfl
  | append_singleton inner last ih =>
    rw [← List.cons_append, ← List.append_assoc, scopeInForce_concat, scopeInForce_concat, ih]

end Concat

/-- Two lists that correspond still do after both of their last elements have changed. -/
theorem forall₂_mapLast {α : Type u} {β : Type v} {R : α → β → Prop} {f : α → α} {g : β → β}
    {as : List α} {bs : List β} (related : List.Forall₂ R as bs)
    (last : ∀ a b, as.getLast? = some a → bs.getLast? = some b → R a b → R (f a) (g b)) :
    List.Forall₂ R (mapLast f as) (mapLast g bs) := by
  induction related with
  | nil => exact .nil
  | @cons a b as bs first rest ih =>
    cases rest with
    | nil => exact .cons (last a b rfl rfl first) .nil
    | cons second rest =>
      refine .cons first (ih fun a' b' lastA lastB => last a' b' ?_ ?_)
      · rw [List.getLast?_cons_cons]; exact lastA
      · rw [List.getLast?_cons_cons]; exact lastB

/-! ## An endpoint and its block -/

section EndpointBlock

variable {o : Options} {group : String} {e : Endpoint} {block : Entry × List Entry} {next : Entry}

/-- A marker of a section adds nothing to the endpoint. -/
theorem EndpointReads.skip (reads : EndpointReads o group e block)
    (marker : next.marker?.isSome = true) (noAliases : next.aliases? = none) :
    EndpointReads o group e (block.1, block.2 ++ [next]) where
  declared := reads.declared
  fields scope := by
    rw [fieldEntries_concat, ← Option.not_isSome, marker]
    simpa using reads.fields scope
  aliases := by simpa [noAliases] using reads.aliases

/-- A list of aliases takes the place of the one before it. -/
theorem EndpointReads.alias {list : List String} (reads : EndpointReads o group e block)
    (found : next.aliases? = some list) (marker : next.marker?.isSome = true) :
    EndpointReads o group { e with aliases := list } (block.1, block.2 ++ [next]) where
  declared := reads.declared
  fields scope := by
    have same : ({ e with aliases := list } : Endpoint).fields scope = e.fields scope := by
      cases scope <;> rfl
    rw [same, fieldEntries_concat, ← Option.not_isSome, marker]
    simpa using reads.fields scope
  aliases := by simp [found]

/-- A field comes last in the section in force. -/
theorem EndpointReads.field {scope : Scope} {fields : List Field} {decl : FieldDecl}
    (reads : EndpointReads o group e block) (inForce : scopeInForce block.2 = scope)
    (plain : next.marker? = none)
    (parsed : parseField scope next.line next.raw.toList = .ok decl)
    (added : Field.preorderAll fieldDepth fields =
      Field.preorderAll fieldDepth (e.fields scope) ++ [(next.depth, decl)]) :
    EndpointReads o group (e.withFields fields scope) (block.1, block.2 ++ [next]) where
  declared := by
    rw [reads.declared]
    cases scope <;> rfl
  fields asked := by
    rw [fieldEntries_concat, plain, inForce]
    by_cases same : scope = asked
    · subst same
      simp [added, reads.fields, parsed]
    · rw [Endpoint.fields_withFields_of_ne e fields (Ne.symm same)]
      simpa [same] using reads.fields asked
  aliases := by
    have noAliases : next.aliases? = none := by simp [Entry.aliases?, plain]
    have same : (e.withFields fields scope).aliases = e.aliases := by cases scope <;> rfl
    rw [same]
    simpa [noAliases] using reads.aliases

end EndpointBlock

/-! ## A reading and its blocks -/

namespace Progress

variable {o : Options} {p q : Progress} {earlier : List Entry} {line depth : Nat} {raw : String}

/-- A change of the endpoint that is being read corresponds to one more entry in its block. -/
theorem reads_mapEndpoint {change : Endpoint → Endpoint} {next : Entry} (deep : 2 ≤ next.depth)
    (reads : List.Forall₂ (GroupReads o) p.model.groups (blocks 0 earlier))
    (changed : ∀ group e block, p.endpoint? = some e →
      scopeInForce block.2 = scopeInForce earlier → EndpointReads o group e block →
      EndpointReads o group (change e) (block.1, block.2 ++ [next])) :
    List.Forall₂ (GroupReads o) (p.mapEndpoint change).model.groups
      (blocks 0 (earlier ++ [next])) := by
  rw [blocks_concat_inner earlier (by omega)]
  refine forall₂_mapLast reads fun group outer lastGroup lastOuter groupReads =>
    ⟨groupReads.declared, ?_⟩
  simp only
  rw [blocks_concat_inner outer.2 (by omega)]
  refine forall₂_mapLast groupReads.endpoints fun e inner lastEndpoint lastInner endpointReads =>
    changed group.name e inner ?_ ?_ endpointReads
  · rw [endpoint?, lastGroup]
    exact lastEndpoint
  · -- The heads of both blocks stand above the fields, so no marker before them is in force.
    obtain ⟨before, same, groupDepth⟩ := blocks_getLast earlier lastOuter
    obtain ⟨between, sameInner, endpointDepth⟩ := blocks_getLast outer.2 lastInner
    rw [same, scopeInForce_append before (by omega), sameInner,
      scopeInForce_append between (by omega)]

/-- The model with all fields completed corresponds to the blocks of the entries. -/
def Reads (o : Options) (earlier : List Entry) (p : Progress) : Prop :=
  List.Forall₂ (GroupReads o) p.closeFields.model.groups (blocks 0 earlier)

private theorem reads_group (sound : p.Sound) (reads : Reads o earlier p) {group : Group}
    (parsed : parseGroup line raw.toList = .ok group) :
    Reads o (earlier ++ [⟨line, 0, raw⟩]) (p.closeFields.withGroup group) := by
  have closed : (p.closeFields.withGroup group).frames = [] := closeFields_frames sound
  rw [Reads, closeFields_of_closed closed, blocks_concat_head earlier (by rfl)]
  have none := parseGroup_endpoints parsed
  refine List.rel_append reads (.cons ⟨?_, ?_⟩ .nil)
  · rw [parsed, ← none]
  · rw [none]
    exact .nil

private theorem reads_endpoint (sound : p.Sound) (reads : Reads o earlier p) {group : Group}
    {endpoint : Endpoint} (last : p.closeFields.model.groups.getLast? = some group)
    (parsed : parseEndpoint o.dialect group.name line raw.toList = .ok endpoint) :
    Reads o (earlier ++ [⟨line, 1, raw⟩]) (p.closeFields.withEndpoint endpoint) := by
  have closed : (p.closeFields.withEndpoint endpoint).frames = [] := closeFields_frames sound
  rw [Reads, closeFields_of_closed closed, blocks_concat_inner earlier (by simp)]
  refine forall₂_mapLast reads fun group' block lastGroup lastBlock groupReads => ?_
  obtain rfl : group = group' := Option.some.inj (last.symm.trans lastGroup)
  refine ⟨groupReads.declared, ?_⟩
  simp only
  rw [blocks_concat_head block.2 (by rfl)]
  refine List.rel_append groupReads.endpoints (.cons ?_ .nil)
  obtain ⟨name, modifiers, protocol, -, -, -, -, rfl⟩ := parseEndpoint_ok_iff.1 parsed
  refine ⟨parsed, fun scope => ?_, rfl⟩
  cases scope <;> rfl

private theorem reads_marker (sound : p.Sound) (reads : Reads o earlier p) {marker : Marker}
    (found : marker? (Text.trim raw.toList) = some marker) :
    Reads o (earlier ++ [⟨line, fieldDepth, raw⟩]) (p.takeMarker marker) := by
  have entryMarker : (Entry.mk line fieldDepth raw).marker? = some marker :=
    (if_pos rfl).trans found
  have closed : (p.takeMarker marker).frames = [] := by
    cases marker <;> exact closeFields_frames sound
  rw [Reads, closeFields_of_closed closed]
  cases marker with
  | aliases list =>
    exact reads_mapEndpoint (Nat.le_refl 2) reads fun group e block _ _ endpointReads =>
      endpointReads.alias (by simp [Entry.aliases?, entryMarker]) (by simp [entryMarker])
  | request | response =>
    have skipped : List.Forall₂ (GroupReads o) (p.closeFields.mapEndpoint fun e => e).model.groups
        (blocks 0 (earlier ++ [⟨line, fieldDepth, raw⟩])) :=
      reads_mapEndpoint (Nat.le_refl 2) reads fun group e block _ _ endpointReads =>
        endpointReads.skip (by simp [entryMarker]) (by simp [Entry.aliases?, entryMarker])
    rw [mapEndpoint_id] at skipped
    exact skipped

/-- The declarations of the completed section grow by the field that is placed. -/
theorem completed_place (sound : p.Sound) {e : Endpoint} {decl : FieldDecl} {fields : OpenFields}
    (deep : fieldDepth ≤ depth)
    (placed : OpenFields.place depth { decl with } raw ⟨p.frames, e.fields p.scope⟩ =
      (fields, none)) :
    Field.preorderAll fieldDepth fields.drain.roots =
      Field.preorderAll fieldDepth ((p.completed e).fields p.scope) ++ [(depth, decl)] := by
  have before := OpenFields.drain_preorder (s := ⟨p.frames, e.fields p.scope⟩) sound.chained
  have after := OpenFields.drain_preorder (OpenFields.place_chained sound.chained deep placed)
  rw [completed, Endpoint.fields_withFields, before, after,
    OpenFields.place_preorder sound.chained deep placed]
  rfl

private theorem reads_field (sound : p.Sound) (tracks : Tracks earlier p)
    (reads : Reads o earlier p) {e : Endpoint} {decl : FieldDecl} {fields : OpenFields}
    (deep : fieldDepth ≤ depth) (plain : depth = fieldDepth → marker? (Text.trim raw.toList) = none)
    (parsed : parseField p.scope line raw.toList = .ok decl) (current : p.endpoint? = some e)
    (placed : OpenFields.place depth { decl with } raw ⟨p.frames, e.fields p.scope⟩ =
      (fields, none))
    (placedSound : (p.withOpenFields fields).Sound) :
    Reads o (earlier ++ [⟨line, depth, raw⟩]) (p.withOpenFields fields) := by
  rw [Reads, closeFields_withOpenFields sound placedSound]
  refine reads_mapEndpoint deep reads fun group e' block current' inForce endpointReads => ?_
  -- The endpoint that changes is the one the field went into, with its open fields completed.
  rw [closeFields_endpoint? sound, current] at current'
  cases current'
  exact endpointReads.field (inForce.trans tracks.scope.symm) (ite_eq_right_iff.2 plain) parsed
    (completed_place sound deep placed)

/-- Every line that is taken keeps the model and the blocks together. -/
theorem Step.reads (step : Step o line raw p q) (sound : p.Sound) (tracks : Tracks earlier p)
    (reads : Reads o earlier p) : Reads o (earlier ++ (entryOf o (raw, line)).toList) q := by
  have sound' := step.sound sound
  cases step with
  | blank kind =>
    rw [entryOf_of_ne kind (by simp) line]
    simpa using reads
  | directive kind applied =>
    rw [entryOf_of_ne kind (by simp) line, Option.toList_none, List.append_nil, Reads,
      closeFields_eq sound']
    rw [Reads, closeFields_eq sound] at reads
    exact reads
  | group stands parsed =>
    rw [stands.entryOf line]
    exact reads_group sound reads parsed
  | endpoint stands last parsed =>
    rw [stands.entryOf line]
    exact reads_endpoint sound reads last parsed
  | marker stands inside found =>
    rw [stands.entryOf line]
    exact reads_marker sound reads found
  | field deep stands inside plain parsed current placed =>
    rw [stands.entryOf line]
    exact reads_field sound tracks reads deep plain parsed current placed sound'

/-- The groups, endpoints and fields of a state are those of the entries before it. -/
theorem Run.reads {read : List (String × Nat)} {routePrefix version : String}
    (run : Run o { model := { routePrefix, version } } read q) : Reads o (entries o read) q := by
  induction run with
  | start => exact .nil
  | line run step ih =>
    rw [entries_concat]
    exact step.reads (run.sound (sound_start routePrefix version)) run.tracks ih

end Progress

/-- A document that compiles is read off its lines: the root gives the route prefix and the version,
and the groups, their endpoints and the fields of both sections are those that the blocks of the
document declare, in order and with nothing left out. -/
theorem compileLines_structure {o : Options} {lines : List String} {m : Model}
    (compiled : compileLines o lines = .ok m) :
    (∃ root, lines.find? (fun raw => !Text.isBlankText raw.toList) = some root ∧
      parseRoot root.toList = .ok (m.routePrefix, m.version)) ∧
    List.Forall₂ (GroupReads o) m.groups (blocks 0 (entries o (body lines))) := by
  obtain ⟨blanks, root, rest, routePrefix, version, p, rfl, blank, filled, parsed, taken, rfl⟩ :=
    compileLines_ok compiled
  have run := Progress.run_of_takeAll taken
  refine ⟨⟨root, find_root blank filled rest, ?_⟩, ?_⟩
  · obtain ⟨samePrefix, sameVersion⟩ := run.root
    obtain ⟨closedPrefix, closedVersion⟩ := p.closeFields_root
    rw [parsed, Progress.finish, closedPrefix, closedVersion, samePrefix, sameVersion]
  · rw [body_root blank filled]
    exact run.reads

/-- A document whose sections change to and fro while a nested field is open. -/
def sectionsDocument : List String :=
  ["root shop v2", "user", "    find", "        who Person", "            name str",
    "        - resp", "        found bool", "        - req", "        page int false",
    "        - alias: /f,/g", "item"]

theorem compileLines_structure_sections :
    ∃ m, compileLines {} sectionsDocument = .ok m ∧
      m.endpoints.map (fun e => (e.requestFields.length, e.aliases)) = [(2, ["/f", "/g"])] ∧
      (∃ root, sectionsDocument.find? (fun raw => !Text.isBlankText raw.toList) = some root ∧
        parseRoot root.toList = .ok (m.routePrefix, m.version)) ∧
      List.Forall₂ (GroupReads {}) m.groups (blocks 0 (entries {} (body sectionsDocument))) :=
  ⟨_, rfl, rfl, compileLines_structure rfl⟩

end ApiOutline.Outline
