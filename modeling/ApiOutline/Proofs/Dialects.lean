import ApiOutline.Proofs.Grammar
import ApiOutline.Proofs.WellFormed

/-!
The later dialect extends the earlier one without changing it.

A dialect is asked twice: whether a line is the directive that shapes the envelope, and whether the
name of an endpoint may end in a wildcard.  A line of that directive is no group, which is all that
it could be in the earlier dialect; and no endpoint is ever removed, so a wildcard that was read is
there at the end.  Away from these two, readings in both dialects go through the same states.
-/

namespace ApiOutline.Outline

/-! ## What a dialect decides -/

section Single

variable {line : Nat} {raw : List Char}

/-- Only the directive of the envelope is classified by the dialect. -/
theorem classify_v1 (plain : ¬ "- resp:".toList <+: raw) : classify .v1 raw = classify .v4 raw := by
  have absent : DirectiveKey.envelope.lead.isPrefixOf raw = false :=
    Bool.eq_false_iff.2 (mt List.isPrefixOf_iff_prefix.1 plain)
  have keys : directiveKey? .v1 raw = directiveKey? .v4 raw := by
    unfold directiveKey?
    congr 1
    funext key
    cases key with
    | envelope => rw [absent, Bool.and_false, Bool.and_false]
    | title | description | apiServer | version | authMap => rfl
  rw [classify, classify, keys]

/-- The first word of a line that starts with a dash and a space is the dash. -/
theorem statement_dash (rest : List Char) :
    ∃ others, (statement ('-' :: ' ' :: rest)).1 = ['-'] :: others := by
  have split : ∃ content, (splitComment ('-' :: ' ' :: rest)).1 = ['-'] ++ ' ' :: content := by
    unfold splitComment
    simp only [cutComment?, Char.reduceEq, false_and, ↓reduceIte]
    cases cutComment? (' ' == '\\') rest with
    | none => exact ⟨rest, rfl⟩
    | some parts => exact ⟨parts.1, rfl⟩
  obtain ⟨content, same⟩ := split
  refine ⟨Text.words content, ?_⟩
  have words : (statement ('-' :: ' ' :: rest)).1 = Text.words (['-'] ++ ' ' :: content) :=
    congrArg Text.words same
  rw [words, Text.words_append rfl]
  rfl

private theorem parseGroup_dash (rest : List Char) {group : Group} :
    parseGroup line ('-' :: ' ' :: rest) ≠ .ok group := by
  intro parsed
  obtain ⟨name, others, words, valid, -⟩ := parseGroup_ok_iff.1 parsed
  obtain ⟨more, dash⟩ := statement_dash rest
  rw [dash] at words
  cases words
  cases valid

private theorem checkSegments_of_isIdent {dialect : Dialect} {name : String} {isFirst : Bool}
    {segments : List (List Char)} (all : ∀ segment ∈ segments, Ident.isIdent segment = true) :
    checkSegments dialect name isFirst segments = .ok () := by
  induction segments generalizing isFirst with
  | nil => rfl
  | cons segment rest ih =>
    obtain ⟨first, later⟩ := List.forall_mem_cons.1 all
    rw [checkSegments, if_pos first]
    exact ih later

/-- A name of identifiers alone passes in both dialects, and no other passes in the earlier one. -/
theorem checkSegments_v1_iff {name : String} {isFirst : Bool} {segments : List (List Char)} :
    checkSegments .v1 name isFirst segments = .ok () ↔
      checkSegments .v4 name isFirst segments = .ok () ∧
        segments.getLast? ≠ some Endpoint.wildcard := by
  constructor
  · intro checked
    have all := (checkSegments_ok checked).resolve_right fun wild => by cases wild.1
    refine ⟨checkSegments_of_isIdent all, fun last => ?_⟩
    have valid := all _ (List.mem_of_getLast? last)
    cases valid
  · rintro ⟨checked, plain⟩
    rcases checkSegments_ok checked with all | ⟨-, front, -, split, -⟩
    · exact checkSegments_of_isIdent all
    · rw [split, List.getLast?_concat] at plain
      exact absurd rfl plain

/-- The first dialect takes the endpoints of the fourth that have no wildcard, and takes them for
the same. -/
theorem parseEndpoint_v1_iff {group : String} {e : Endpoint} :
    parseEndpoint .v1 group line raw = .ok e ↔
      parseEndpoint .v4 group line raw = .ok e ∧ e.isWildcard = false := by
  simp only [parseEndpoint_ok_iff, checkSegments_v1_iff]
  constructor
  · rintro ⟨name, modifiers, protocol, words, few, ⟨checked, plain⟩, chosen, rfl⟩
    refine ⟨⟨name, modifiers, protocol, words, few, checked, chosen, rfl⟩, ?_⟩
    exact beq_false_of_ne plain
  · rintro ⟨⟨name, modifiers, protocol, words, few, checked, chosen, rfl⟩, plain⟩
    exact ⟨name, modifiers, protocol, words, few, ⟨checked, ne_of_beq_false plain⟩, chosen, rfl⟩

end Single

/-! ## The names that a reading has collected -/

namespace Progress

variable {o o' : Options} {p q : Progress} {line : Nat} {raw : String}

/-- The names of the endpoints so far, group by group. -/
def names (p : Progress) : List String :=
  p.model.groups.flatMap fun g => g.endpoints.map (·.name)

private theorem names_mapEndpoint {change : Endpoint → Endpoint}
    (kept : ∀ e, (change e).name = e.name) (p : Progress) :
    (p.mapEndpoint change).names = p.names := by
  have endpoints : ∀ g : Group,
      (mapLast change g.endpoints).map (·.name) = g.endpoints.map (·.name) := by
    intro g
    rw [map_mapLast (g := fun name => name) kept, mapLast_id]
  rw [names, names, List.flatMap_def, List.flatMap_def]
  refine congrArg List.flatten ?_
  exact (map_mapLast (g := fun names => names) endpoints p.model.groups).trans (mapLast_id _)

private theorem names_withOpenFields (fields : OpenFields) (p : Progress) :
    (p.withOpenFields fields).names = p.names := by
  refine names_mapEndpoint (fun e => ?_) p
  cases p.scope <;> rfl

private theorem names_closeFields (p : Progress) : p.closeFields.names = p.names := by
  unfold closeFields
  split
  · rfl
  · split
    · rfl
    · exact names_withOpenFields _ p

private theorem names_takeMarker (marker : Marker) (p : Progress) :
    (p.takeMarker marker).names = p.names := by
  cases marker with
  | request | response => exact names_closeFields p
  | aliases list => exact (names_mapEndpoint (by simp) p.closeFields).trans (names_closeFields p)

private theorem names_withEndpoint {group : Group} (last : p.model.groups.getLast? = some group)
    (e : Endpoint) : (p.withEndpoint e).names = p.names ++ [e.name] := by
  obtain ⟨before, same⟩ := List.getLast?_eq_some_iff.1 last
  simp [names, withEndpoint, same]

/-- A line adds the name of the endpoint that it declares, if it declares one, and removes none. -/
theorem Step.names (step : Step o line raw p q) :
    q.names = p.names ∨ ∃ group e, parseEndpoint o.dialect group line raw.toList = .ok e ∧
      q.names = p.names ++ [e.name] := by
  cases step with
  | blank | directive => exact .inl rfl
  | group stands parsed =>
    refine .inl (Eq.trans ?_ (names_closeFields p))
    simp [Progress.names, withGroup, parseGroup_endpoints parsed]
  | endpoint stands last parsed =>
    refine .inr ⟨_, _, parsed, ?_⟩
    rw [names_withEndpoint last, names_closeFields]
  | marker stands inside found => exact .inl (names_takeMarker _ p)
  | field => exact .inl (names_withOpenFields _ p)

/-- No endpoint so far is a wildcard. -/
def Wildfree (p : Progress) : Prop := ∀ e ∈ p.model.endpoints, e.isWildcard = false

/-- Whether a state has a wildcard can be told from the names of its endpoints. -/
theorem wildfree_iff : p.Wildfree ↔
    ∀ name ∈ p.names, (Endpoint.segmentsOf name).getLast? ≠ some Endpoint.wildcard := by
  rw [Wildfree, Model.endpoints, Progress.names, List.forall_mem_flatMap, List.forall_mem_flatMap]
  refine forall₂_congr fun g _ => ?_
  rw [List.forall_mem_map]
  exact forall₂_congr fun e _ => beq_eq_false_iff_ne

/-- A wildcard that was read stays. -/
theorem Step.wildfree_before (step : Step o line raw p q) (after : q.Wildfree) : p.Wildfree := by
  rw [wildfree_iff] at after ⊢
  intro name member
  rcases step.names with same | ⟨group, e, -, same⟩
  · exact after name (same ▸ member)
  · exact after name (same ▸ List.mem_append_left _ member)

/-! ## Both dialects in step -/

/-- A step depends on the options through the kind of the line, the width of a level, and the check
of an endpoint's name. -/
theorem Step.transfer (step : Step o line raw p q)
    (kind : classify o'.dialect raw.toList = classify o.dialect raw.toList)
    (width : o'.levelWidth = o.levelWidth)
    (endpoint : ∀ group e, parseEndpoint o.dialect group line raw.toList = .ok e →
      e.name ∈ q.names → parseEndpoint o'.dialect group line raw.toList = .ok e) :
    Step o' line raw p q := by
  have standsAt : ∀ depth, StandsAt o raw depth → StandsAt o' raw depth := by
    intro depth stands
    exact ⟨kind.trans stands.1, width ▸ stands.2⟩
  cases step with
  | blank found => exact .blank (kind.trans found)
  | directive found applied => exact .directive (kind.trans found) applied
  | group stands parsed => exact .group (standsAt 0 stands) parsed
  | endpoint stands last parsed =>
    refine .endpoint (standsAt 1 stands) last (endpoint _ _ parsed ?_)
    rw [names_withEndpoint last]
    exact List.mem_append_right _ List.mem_cons_self
  | marker stands inside found => exact .marker (standsAt _ stands) inside found
  | field deep stands inside plain parsed current placed =>
    exact .field deep (standsAt _ stands) inside plain parsed current placed

variable {tabWidth : Nat}

/-- In the earlier dialect a line of the envelope's directive could only be a group. -/
theorem Step.not_envelope (step : Step ⟨.v1, tabWidth⟩ line raw p q) :
    ¬ "- resp:".toList <+: raw.toList := by
  rintro ⟨rest, starts⟩
  have margin : Text.indentWidth raw.toList = 0 := by rw [← starts]; rfl
  have structural : classify .v1 raw.toList = .structural := by rw [← starts]; rfl
  have outermost : ∀ depth, StandsAt ⟨.v1, tabWidth⟩ raw depth → depth = 0 := by
    intro depth stands
    have width := stands.2.symm.trans margin
    exact (Nat.mul_eq_zero.1 width).resolve_right (Nat.ne_of_gt (Options.levelWidth_pos _))
  cases step with
  | blank kind => cases structural.symm.trans kind
  | directive kind applied => cases structural.symm.trans kind
  | group stands parsed =>
    rw [← starts] at parsed
    exact parseGroup_dash _ parsed
  | endpoint stands last parsed => cases outermost _ stands
  | marker stands inside found => cases outermost _ stands
  | field deep stands inside plain parsed current placed =>
    rw [outermost _ stands] at deep
    cases deep

/-- A step in the first dialect is a step in the fourth that is not a directive for the envelope and
adds no wildcard. -/
theorem step_v1_iff (before : p.Wildfree) :
    Step ⟨.v1, tabWidth⟩ line raw p q ↔ Step ⟨.v4, tabWidth⟩ line raw p q ∧
      ¬ "- resp:".toList <+: raw.toList ∧ q.Wildfree := by
  constructor
  · intro step
    have plain := step.not_envelope
    refine ⟨step.transfer (classify_v1 plain).symm rfl ?_, plain, ?_⟩
    · intro group e parsed _
      exact (parseEndpoint_v1_iff.1 parsed).1
    · rw [wildfree_iff] at before ⊢
      rcases step.names with same | ⟨group, e, parsed, same⟩
      · rw [same]
        exact before
      · rw [same]
        have wild := (parseEndpoint_v1_iff.1 parsed).2
        exact List.forall_mem_append.2
          ⟨before, List.forall_mem_singleton.2 (beq_eq_false_iff_ne.1 wild)⟩
  · rintro ⟨step, plain, after⟩
    rw [wildfree_iff] at after
    refine step.transfer (classify_v1 plain) rfl ?_
    intro group e parsed member
    exact parseEndpoint_v1_iff.2 ⟨parsed, beq_eq_false_iff_ne.2 (after e.name member)⟩

/-- A reading in the first dialect is one in the fourth without a directive for the envelope and
without wildcards. -/
theorem run_v1_iff {read : List (String × Nat)} (before : p.Wildfree) :
    Run ⟨.v1, tabWidth⟩ p read q ↔ Run ⟨.v4, tabWidth⟩ p read q ∧
      (∀ line ∈ read, ¬ "- resp:".toList <+: line.1.toList) ∧ q.Wildfree := by
  constructor
  · intro run
    induction run with
    | start => exact ⟨.start, List.forall_mem_nil _, before⟩
    | line run step ih =>
      obtain ⟨runLater, plain, middle⟩ := ih
      obtain ⟨stepLater, plainLast, after⟩ := (step_v1_iff middle).1 step
      refine ⟨.line runLater stepLater, ?_, after⟩
      exact List.forall_mem_append.2 ⟨plain, List.forall_mem_singleton.2 plainLast⟩
  · rintro ⟨run, plain, after⟩
    induction run with
    | start => exact .start
    | line run step ih =>
      obtain ⟨plainBefore, plainLast⟩ := List.forall_mem_append.1 plain
      have middle := step.wildfree_before after
      have plainLine := plainLast _ List.mem_cons_self
      have stepEarlier := (step_v1_iff middle).2 ⟨step, plainLine, after⟩
      exact .line (ih plainBefore middle) stepEarlier

private theorem wildfree_finish :
    (∀ e ∈ p.finish.endpoints, e.isWildcard = false) ↔ p.Wildfree := by
  have closed : p.closeFields.Wildfree ↔ p.Wildfree := by
    rw [wildfree_iff, wildfree_iff, names_closeFields]
  exact closed

end Progress

/-- A document compiles in the earlier dialect exactly if it compiles in the later one, to the same
model, and uses nothing that is new there: no wildcard and no directive for the envelope. -/
theorem compileLines_v1_iff (tabWidth : Nat) (lines : List String) (m : Model) :
    compileLines ⟨.v1, tabWidth⟩ lines = .ok m ↔
      compileLines ⟨.v4, tabWidth⟩ lines = .ok m ∧ (∀ e ∈ m.endpoints, e.isWildcard = false) ∧
        ∀ line ∈ body lines, ¬ "- resp:".toList <+: line.1.toList := by
  rcases blank_or_root lines with blank | ⟨blanks, root, rest, rfl, blank, filled⟩
  · simp [compileLines_blank blank]
  · rw [body_root blank filled]
    cases parsed : parseRoot root.toList with
    | error cause => simp [compileLines_root blank filled, parsed]
    | ok parts =>
      obtain ⟨routePrefix, version⟩ := parts
      rw [compileLines_root_ok_iff blank filled parsed,
        compileLines_root_ok_iff blank filled parsed]
      have start : Progress.Wildfree { model := { routePrefix, version } } := List.forall_mem_nil _
      constructor
      · rintro ⟨p, run, rfl⟩
        obtain ⟨later, plain, wildfree⟩ := (Progress.run_v1_iff start).1 run
        exact ⟨⟨p, later, rfl⟩, Progress.wildfree_finish.2 wildfree, plain⟩
      · rintro ⟨⟨p, run, rfl⟩, wildfree, plain⟩
        have earlier := (Progress.run_v1_iff start).2
          ⟨run, plain, Progress.wildfree_finish.1 wildfree⟩
        exact ⟨p, earlier, rfl⟩

end ApiOutline.Outline
