import ApiOutline.Proofs.Reading
import ApiOutline.Proofs.Text
import Mathlib.Data.List.Basic

/-!
The grammar of documents, stated without reading them.

Whether a line fits depends on the entries before it, which are the lines that declare something:
on the nearest one that is a group or an endpoint, on the section marker in force, and, for a field
inside another field, on whether a nested field one level above is still open.  The last of these
looks back over any number of lines, while a reading decides it from the frames it holds; `Tracks`
says that the two agree after every line.
-/

namespace ApiOutline.Outline

/-! ## Entries -/

/-- A line that declares something. -/
structure Entry where
  /-- Its number. -/
  line : Nat
  /-- Its indentation in whole levels. -/
  depth : Nat
  /-- The line as written. -/
  raw : String
  deriving DecidableEq, Repr

/-- The entry on a numbered line. -/
def entryOf (o : Options) (line : String × Nat) : Option Entry :=
  if classify o.dialect line.1.toList = .structural then
    some ⟨line.2, Text.indentWidth line.1.toList / o.levelWidth, line.1⟩
  else none

/-- The entries among some numbered lines. -/
def entries (o : Options) (lines : List (String × Nat)) : List Entry := lines.filterMap (entryOf o)

/-- The numbered lines after the root. -/
def body (lines : List String) : List (String × Nat) :=
  ((lines.zipIdx 1).dropWhile fun line => Text.isBlankText line.1.toList).tail

namespace Entry

/-- The marker on an entry, which has to stand at the depth of the outermost fields. -/
def marker? (e : Entry) : Option Marker :=
  if e.depth = fieldDepth then Outline.marker? (Text.trim e.raw.toList) else none

/-- The section that an entry opens. -/
def section? (e : Entry) : Option Scope :=
  match e.marker? with
  | some .request => some .request
  | some .response => some .response
  | some (.aliases _) | none => none

/-- Whether the second word of an entry is the type of a nested field. -/
def declaresNested (e : Entry) : Bool :=
  match (statement e.raw.toList).1 with
  | _ :: declared :: _ => (TypeToken.resolve (String.ofList declared)).isNested
  | _ => false

end Entry

/-- The nearest earlier entry that is not inside an endpoint is an endpoint. -/
def InEndpoint (earlier : List Entry) : Prop :=
  ∃ nearest, earlier.reverse.find? (·.depth ≤ 1) = some nearest ∧ nearest.depth = 1

/-- The section of the last marker since the nearest group or endpoint. -/
def scopeInForce (earlier : List Entry) : Scope :=
  ((earlier.reverse.takeWhile (2 ≤ ·.depth)).findSome? Entry.section?).getD .request

/-- A nested field one level above a depth, with nothing after it that stands above the depth. -/
def HasOpenParent (earlier : List Entry) (depth : Nat) : Prop :=
  ∃ before parent after, earlier = before ++ parent :: after ∧ parent.depth + 1 = depth ∧
    parent.marker? = none ∧ parent.declaresNested = true ∧ ∀ e ∈ after, depth ≤ e.depth

/-- An entry fits the entries before it. -/
def Entry.Fits (o : Options) (earlier : List Entry) (e : Entry) : Prop :=
  match e.depth with
  | 0 => ∃ group, parseGroup e.line e.raw.toList = .ok group
  | 1 =>
    (∃ group ∈ earlier, group.depth = 0) ∧
      ∀ group, ∃ endpoint, parseEndpoint o.dialect group e.line e.raw.toList = .ok endpoint
  | 2 =>
    InEndpoint earlier ∧ (e.marker?.isSome = true ∨
      ∃ decl, parseField (scopeInForce earlier) e.line e.raw.toList = .ok decl)
  | depth + 3 =>
    InEndpoint earlier ∧
      (∃ decl, parseField (scopeInForce earlier) e.line e.raw.toList = .ok decl) ∧
      HasOpenParent earlier (depth + 3)

/-- A numbered line fits the entries before it. -/
def LineFits (o : Options) (earlier : List Entry) (line : String × Nat) : Prop :=
  match classify o.dialect line.1.toList with
  | .blank => True
  | .directive key =>
    key = .authMap →
      ∀ item ∈ Text.commaItems (directiveValue .authMap line.1.toList), '=' ∈ item
  | .structural =>
    o.levelWidth ∣ Text.indentWidth line.1.toList ∧
      Entry.Fits o earlier ⟨line.2, Text.indentWidth line.1.toList / o.levelWidth, line.1⟩

/-! ## One more entry -/

section Concat

variable (earlier : List Entry) (e : Entry)

private theorem inEndpoint_concat :
    InEndpoint (earlier ++ [e]) ↔ e.depth = 1 ∨ (2 ≤ e.depth ∧ InEndpoint earlier) := by
  simp only [InEndpoint, List.reverse_append, List.reverse_singleton, List.singleton_append]
  by_cases shallow : e.depth ≤ 1
  · rw [List.find?_cons_of_pos (by simpa using shallow)]
    constructor
    · rintro ⟨nearest, found, one⟩
      cases found
      exact .inl one
    · rintro (one | ⟨deep, -⟩)
      · exact ⟨e, rfl, one⟩
      · omega
  · rw [List.find?_cons_of_neg (by simpa using shallow)]
    constructor
    · intro inside
      exact .inr ⟨by omega, inside⟩
    · rintro (one | ⟨-, inside⟩)
      · omega
      · exact inside

/-- A marker puts its section in force; a group or an endpoint puts the request in force again. -/
theorem scopeInForce_concat :
    scopeInForce (earlier ++ [e]) =
      if 2 ≤ e.depth then e.section?.getD (scopeInForce earlier) else .request := by
  simp only [scopeInForce, List.reverse_append, List.reverse_singleton, List.singleton_append,
    List.takeWhile_cons, decide_eq_true_eq]
  split
  · rw [List.findSome?_cons]
    cases e.section? <;> rfl
  · rfl

private theorem hasOpenParent_concat (depth : Nat) :
    HasOpenParent (earlier ++ [e]) depth ↔
      (e.depth + 1 = depth ∧ e.marker? = none ∧ e.declaresNested = true) ∨
        (depth ≤ e.depth ∧ HasOpenParent earlier depth) := by
  constructor
  · rintro ⟨before, parent, after, same, above, plain, nested, deeper⟩
    rcases Text.concat_eq_append_cons_iff.1 same with ⟨rfl, rfl, rfl⟩ | ⟨after, rfl, rfl⟩
    · exact .inl ⟨above, plain, nested⟩
    · exact .inr ⟨deeper e (by simp), before, parent, after, rfl, above, plain, nested,
        fun x member => deeper x (List.mem_append_left _ member)⟩
  · rintro (⟨above, plain, nested⟩ |
      ⟨deep, before, parent, after, rfl, above, plain, nested, deeper⟩)
    · exact ⟨earlier, e, [], rfl, above, plain, nested, nofun⟩
    · refine ⟨before, parent, after ++ [e], by simp, above, plain, nested, fun x member => ?_⟩
      rcases List.mem_append.1 member with member | member
      · exact deeper x member
      · exact List.mem_singleton.1 member ▸ deep

end Concat

/-! ## A reading tracks the entries -/

namespace Progress

variable {o : Options} {p q : Progress} {earlier : List Entry} {line depth : Nat} {raw : String}

/-- What a reading holds is what the grammar finds by looking back. -/
structure Tracks (earlier : List Entry) (p : Progress) : Prop where
  /-- There is a group exactly after a group entry. -/
  group : p.model.groups.getLast?.isSome = true ↔ ∃ e ∈ earlier, e.depth = 0
  /-- An endpoint is being read exactly where fields may stand. -/
  inside : p.inEndpoint = true ↔ InEndpoint earlier
  /-- The section is that of the last marker. -/
  scope : p.scope = scopeInForce earlier
  /-- The frames reach up to a depth exactly where a parent for it is open. -/
  opened : ∀ depth, fieldDepth < depth →
    (depth ≤ fieldDepth + p.frames.length ↔ HasOpenParent earlier depth)

/-- A line that stands at a depth is an entry at that depth. -/
theorem StandsAt.entryOf (stands : StandsAt o raw depth) (line : Nat) :
    entryOf o (raw, line) = some ⟨line, depth, raw⟩ := by
  simp only [Outline.entryOf, stands.1, ↓reduceIte, stands.depth_eq]

/-- Blank lines and directives are no entries. -/
theorem entryOf_of_ne {kind : LineKind} (found : classify o.dialect raw.toList = kind)
    (quiet : kind ≠ .structural) (line : Nat) : entryOf o (raw, line) = none :=
  if_neg (found ▸ quiet)

/-- Completing the open fields adds no group. -/
theorem closeFields_group (sound : p.Sound) :
    p.closeFields.model.groups.getLast?.isSome = p.model.groups.getLast?.isSome := by
  rw [closeFields_eq sound]
  simp only [mapEndpoint, getLast?_mapLast, Option.isSome_map]

private theorem declaresNested_of_parsed (depth : Nat) {scope : Scope} {decl : FieldDecl}
    (parsed : parseField scope line raw.toList = .ok decl) :
    (Entry.mk line depth raw).declaresNested = decl.isNested := by
  obtain ⟨name, declared, rest, required, rule, words, -, -, rfl⟩ := parseField_ok_iff.1 parsed
  simp only [Entry.declaresNested, words, fieldOf]

private theorem tracks_group (sound : p.Sound) {group : Group} :
    Tracks (earlier ++ [⟨line, 0, raw⟩]) (p.closeFields.withGroup group) where
  group := by simp [withGroup]
  inside := by simp [withGroup, inEndpoint_concat]
  scope := by simp [withGroup, scopeInForce_concat]
  opened depth deep := by
    simp only [fieldDepth] at deep
    simp only [withGroup, closeFields_frames sound, hasOpenParent_concat, List.length_nil,
      fieldDepth]
    omega

private theorem tracks_endpoint (sound : p.Sound) (tracks : Tracks earlier p)
    {endpoint : Endpoint} :
    Tracks (earlier ++ [⟨line, 1, raw⟩]) (p.closeFields.withEndpoint endpoint) where
  group := by
    simp only [withEndpoint, getLast?_mapLast, Option.isSome_map, closeFields_group sound]
    simpa using tracks.group
  inside := by simp [withEndpoint, inEndpoint_concat]
  scope := by simp [withEndpoint, scopeInForce_concat]
  opened depth deep := by
    simp only [fieldDepth] at deep
    simp only [withEndpoint, closeFields_frames sound, hasOpenParent_concat, List.length_nil,
      fieldDepth]
    omega

private theorem tracks_marker (sound : p.Sound) (tracks : Tracks earlier p) {marker : Marker}
    (found : marker? (Text.trim raw.toList) = some marker) :
    Tracks (earlier ++ [⟨line, fieldDepth, raw⟩]) (p.takeMarker marker) := by
  have entryMarker : (Entry.mk line fieldDepth raw).marker? = some marker :=
    (if_pos rfl).trans found
  have closed : (p.takeMarker marker).frames = [] := by
    cases marker <;> exact closeFields_frames sound
  refine ⟨?_, ?_, ?_, ?_⟩
  · have kept : (p.takeMarker marker).model.groups.getLast?.isSome =
        p.model.groups.getLast?.isSome := by
      cases marker <;> simp [takeMarker, mapEndpoint, closeFields_group sound]
    rw [kept, tracks.group]
    simp [fieldDepth]
  · have kept : (p.takeMarker marker).inEndpoint = p.inEndpoint := by
      cases marker <;> simp [takeMarker, mapEndpoint]
    rw [kept, tracks.inside, inEndpoint_concat]
    simp [fieldDepth]
  · rw [scopeInForce_concat, if_pos (by simp [fieldDepth])]
    cases marker with
    | request => simp [takeMarker, Entry.section?, entryMarker]
    | response => simp [takeMarker, Entry.section?, entryMarker]
    | aliases list => simp [takeMarker, mapEndpoint, Entry.section?, entryMarker, tracks.scope]
  · intro depth deep
    rw [closed, hasOpenParent_concat, entryMarker]
    simp only [List.length_nil, reduceCtorEq, false_and, and_false, false_or]
    omega

/-- After a field, the frames reach one level below it if it is nested and up to it otherwise; and
so do the parents that are open, since the field itself found one. -/
theorem tracks_field (tracks : Tracks earlier p) (sound : p.Sound) (deep : fieldDepth ≤ depth)
    (plain : depth = fieldDepth → marker? (Text.trim raw.toList) = none) {decl : FieldDecl}
    {e : Endpoint} {fields : OpenFields} (parsed : parseField p.scope line raw.toList = .ok decl)
    (placed : OpenFields.place depth { decl with } raw ⟨p.frames, e.fields p.scope⟩ =
      (fields, none)) :
    Tracks (earlier ++ [⟨line, depth, raw⟩]) (p.withOpenFields fields) := by
  have entryMarker : (Entry.mk line depth raw).marker? = none := ite_eq_right_iff.2 plain
  have reach := OpenFields.place_frames_length sound.chained deep placed
  have reached := (OpenFields.place_reaches sound.chained deep placed).1
  have nested := declaresNested_of_parsed depth parsed
  simp only [fieldDepth] at deep reach reached
  refine ⟨?_, ?_, ?_, ?_⟩
  · simp only [withOpenFields, mapEndpoint, getLast?_mapLast, Option.isSome_map, tracks.group]
    simp [show depth ≠ 0 by omega]
  · simp only [withOpenFields, mapEndpoint, tracks.inside, inEndpoint_concat]
    simp [deep, show depth ≠ 1 by omega]
  · rw [scopeInForce_concat, if_pos deep, Entry.section?, entryMarker]
    exact tracks.scope
  · -- A parent of a level up to the field's own stays open, and the field is one if it is nested.
    intro lower below
    have earlierOpen := tracks.opened lower below
    simp only [fieldDepth] at below earlierOpen
    simp only [withOpenFields, hasOpenParent_concat, entryMarker, nested, true_and, ← earlierOpen,
      reach, fieldDepth]
    cases decl.isNested <;> simp <;> omega

/-- Every line that is taken keeps track of the entries. -/
theorem Step.tracks (step : Step o line raw p q) (sound : p.Sound) (tracks : Tracks earlier p) :
    Tracks (earlier ++ (entryOf o (raw, line)).toList) q := by
  cases step with
  | blank kind =>
    rw [entryOf_of_ne kind (by simp) line]
    simpa using tracks
  | directive kind applied =>
    rw [entryOf_of_ne kind (by simp) line]
    exact ⟨by simpa using tracks.group, by simpa using tracks.inside, by simpa using tracks.scope,
      by simpa using tracks.opened⟩
  | group stands parsed =>
    rw [stands.entryOf line]
    exact tracks_group sound
  | endpoint stands last parsed =>
    rw [stands.entryOf line]
    exact tracks_endpoint sound tracks
  | marker stands inside found =>
    rw [stands.entryOf line]
    exact tracks_marker sound tracks found
  | field deep stands inside plain parsed current placed =>
    rw [stands.entryOf line]
    exact tracks_field tracks sound deep plain parsed placed

private theorem tracks_start (routePrefix version : String) :
    Tracks [] { model := { routePrefix, version } } where
  group := by simp
  inside := by simp [InEndpoint]
  scope := rfl
  opened depth deep := by
    simp only [List.length_nil]
    exact ⟨fun reached => by omega, fun ⟨_, _, _, same, _⟩ => by simp at same⟩

/-- Entries are read line by line. -/
theorem entries_concat (read : List (String × Nat)) (last : String × Nat) :
    entries o (read ++ [last]) = entries o read ++ (entryOf o last).toList := by
  simp only [entries, List.filterMap_append, List.filterMap_cons, List.filterMap_nil]
  cases entryOf o last <;> rfl

/-- A reading tracks the entries of all the lines it has taken. -/
theorem Run.tracks {read : List (String × Nat)} {routePrefix version : String}
    (run : Run o { model := { routePrefix, version } } read q) : Tracks (entries o read) q := by
  induction run with
  | start => exact tracks_start routePrefix version
  | line run step ih =>
    rw [entries_concat]
    exact step.tracks (run.sound (sound_start routePrefix version)) ih

/-! ## Taking exactly what fits -/

theorem cut?_isSome_iff (separator : Char) (s : List Char) :
    (Text.cut? separator s).isSome = true ↔ separator ∈ s := by
  rw [← not_iff_not, Option.not_isSome_iff_eq_none, Text.cut?, Text.cutWhere?_eq_none_iff]
  constructor
  · intro apart member
    exact absurd (beq_self_eq_true separator) (Bool.eq_false_iff.1 (apart separator member))
  · intro absent c member
    exact beq_false_of_ne fun same => absent (same ▸ member)

/-- An authentication map is taken exactly if each of its items has an equals sign. -/
theorem addAuthEntries_accepts_iff (items : List (List Char)) (settings : Settings) :
    (addAuthEntries items settings).2 = none ↔ ∀ item ∈ items, '=' ∈ item := by
  induction items generalizing settings with
  | nil => simp [addAuthEntries]
  | cons item items ih =>
    have parts := cut?_isSome_iff '=' item
    rw [List.forall_mem_cons, ← parts, addAuthEntries]
    cases cut : Text.cut? '=' item with
    | none =>
      -- The first item that has no sides is the one reported.
      exact iff_of_false (Option.some_ne_none _) fun ⟨isPair, _⟩ => Bool.false_ne_true isPair
    | some sides =>
      -- The item is added, and the rest is taken with the settings that this leaves.
      exact (ih _).trans (and_iff_right rfl).symm

/-- Only an authentication map can be malformed. -/
theorem applyDirective_accepts_iff (key : DirectiveKey) (raw : List Char) (settings : Settings) :
    (applyDirective key raw settings).2 = none ↔
      (key = .authMap → ∀ item ∈ Text.commaItems (directiveValue .authMap raw), '=' ∈ item) := by
  cases key with
  | authMap => simp [applyDirective, addAuthEntries_accepts_iff]
  | title | description | apiServer | version | envelope => simp [applyDirective]

/-- Whether a line declares an endpoint does not depend on the group. -/
theorem parseEndpoint_accepts_congr {dialect : Dialect} {group : String} {endpoint : Endpoint}
    (parsed : parseEndpoint dialect group line raw.toList = .ok endpoint) (other : String) :
    ∃ endpoint, parseEndpoint dialect other line raw.toList = .ok endpoint := by
  obtain ⟨name, modifiers, protocol, words, few, checked, chosen, -⟩ :=
    parseEndpoint_ok_iff.1 parsed
  exact ⟨_, parseEndpoint_ok_iff.2 ⟨name, modifiers, protocol, words, few, checked, chosen, rfl⟩⟩

/-- A line that stands at a depth fits as an entry of that depth. -/
theorem StandsAt.lineFits_iff (stands : StandsAt o raw depth) :
    LineFits o earlier (raw, line) ↔ Entry.Fits o earlier ⟨line, depth, raw⟩ := by
  simp only [LineFits, stands.1, stands.2, Nat.mul_div_cancel _ o.levelWidth_pos]
  exact and_iff_right (Nat.dvd_mul_left _ _)

/-- A line that is taken fits. -/
theorem Step.fits (step : Step o line raw p q) (sound : p.Sound) (tracks : Tracks earlier p) :
    LineFits o earlier (raw, line) := by
  cases step with
  | blank kind => simp [LineFits, kind]
  | directive kind applied =>
    simp only [LineFits, kind]
    exact (applyDirective_accepts_iff _ _ p.model.settings).1 (by rw [applied])
  | group stands parsed => exact stands.lineFits_iff.2 ⟨_, parsed⟩
  | endpoint stands last parsed =>
    refine stands.lineFits_iff.2 ⟨tracks.group.1 ?_, parseEndpoint_accepts_congr parsed⟩
    rw [← closeFields_group sound, last]
    rfl
  | marker stands inside found =>
    exact stands.lineFits_iff.2 ⟨tracks.inside.1 inside, .inl (by simp [Entry.marker?, found])⟩
  | @field depth decl e fields deep stands inside plain parsed current placed =>
    rw [tracks.scope] at parsed
    have reached := (OpenFields.place_reaches sound.chained deep placed).1
    rw [stands.lineFits_iff]
    match depth, deep with
    | 2, _ => exact ⟨tracks.inside.1 inside, .inr ⟨decl, parsed⟩⟩
    | depth + 3, _ =>
      -- The frames reach up to the field, so the grammar finds the parent by looking back.
      exact ⟨tracks.inside.1 inside, ⟨decl, parsed⟩,
        (tracks.opened (depth + 3) (by simp [fieldDepth])).1 reached⟩

/-- A field that finds its place is taken. -/
theorem step_of_field (sound : p.Sound) (inside : p.inEndpoint = true) (deep : fieldDepth ≤ depth)
    (stands : StandsAt o raw depth)
    (plain : depth = fieldDepth → marker? (Text.trim raw.toList) = none) {decl : FieldDecl}
    (parsed : parseField p.scope line raw.toList = .ok decl)
    (reached : depth ≤ fieldDepth + p.frames.length) : ∃ q, Step o line raw p q := by
  have current : p.endpoint?.isSome = true := sound.current ▸ inside
  obtain ⟨e, current⟩ := Option.isSome_iff_exists.1 current
  exact ⟨_, .field deep stands inside plain parsed current
    ((OpenFields.place_eq sound.chained deep).trans (if_pos reached))⟩

/-- An entry that fits is taken. -/
theorem step_of_entry_fits (sound : p.Sound) (tracks : Tracks earlier p)
    (stands : StandsAt o raw depth) (fits : Entry.Fits o earlier ⟨line, depth, raw⟩) :
    ∃ q, Step o line raw p q := by
  match depth, stands, fits with
  | 0, stands, ⟨group, parsed⟩ => exact ⟨_, .group stands parsed⟩
  | 1, stands, ⟨hasGroup, parses⟩ =>
    have some := (closeFields_group sound).trans (tracks.group.2 hasGroup)
    obtain ⟨group, last⟩ := Option.isSome_iff_exists.1 some
    obtain ⟨endpoint, parsed⟩ := parses group.name
    exact ⟨_, .endpoint stands last parsed⟩
  | 2, stands, ⟨inside, outermost⟩ =>
    have inside := tracks.inside.2 inside
    cases found : marker? (Text.trim raw.toList) with
    | some marker => exact ⟨_, .marker stands inside found⟩
    | none =>
      obtain ⟨decl, parsed⟩ := outermost.resolve_left (by simp [Entry.marker?, found])
      rw [← tracks.scope] at parsed
      exact step_of_field sound inside (Nat.le_refl _) stands (fun _ => found) parsed
        (Nat.le_add_right _ _)
  | depth + 3, stands, ⟨inside, ⟨decl, parsed⟩, parent⟩ =>
    rw [← tracks.scope] at parsed
    exact step_of_field sound (tracks.inside.2 inside) (Nat.le_add_left 2 (depth + 1)) stands
      (fun outermost => by simp [fieldDepth] at outermost) parsed
      ((tracks.opened _ (Nat.le_add_left 3 depth)).2 parent)

/-- A line that fits is taken. -/
theorem step_of_fits (sound : p.Sound) (tracks : Tracks earlier p)
    (fits : LineFits o earlier (raw, line)) : ∃ q, Step o line raw p q := by
  cases kind : classify o.dialect raw.toList with
  | blank => exact ⟨p, .blank kind⟩
  | directive key =>
    simp only [LineFits, kind] at fits
    have applied := (applyDirective_accepts_iff key raw.toList p.model.settings).2 fits
    exact ⟨_, .directive kind (Prod.ext rfl applied)⟩
  | structural =>
    have even := fits
    simp only [LineFits, kind] at even
    have stands : StandsAt o raw (Text.indentWidth raw.toList / o.levelWidth) :=
      ⟨kind, (Nat.div_mul_cancel even.1).symm⟩
    exact step_of_entry_fits sound tracks stands (stands.lineFits_iff.1 fits)

/-- A reading takes lines exactly if each of them fits the entries before it. -/
theorem takeAll_accepts_iff {read : List (String × Nat)} {routePrefix version : String}
    (run : Run o { model := { routePrefix, version } } read p) (lines : List String) :
    (∃ q, takeAll o line lines p = .ok q) ↔
      ∀ before next after, lines.zipIdx line = before ++ next :: after →
        LineFits o (entries o (read ++ before)) next := by
  have sound := run.sound (sound_start routePrefix version)
  induction lines generalizing line p read with
  | nil => simp [takeAll]
  | cons raw lines ih =>
    constructor
    · rintro ⟨q, taken⟩ before next after split
      simp only [takeAll] at taken
      cases first : p.take o line raw with
      | error fault => rw [first] at taken; cases taken
      | ok middle =>
        rw [first] at taken
        have step := step_of_take first
        cases before with
        | nil =>
          cases split
          simpa using step.fits sound run.tracks
        | cons head before =>
          obtain ⟨rfl, later⟩ := List.cons.inj split
          have rest := (ih (.line run step) (step.sound sound)).1 ⟨q, taken⟩ before next after later
          simpa using rest
    · intro fits
      have first := fits [] (raw, line) (lines.zipIdx (line + 1)) rfl
      rw [List.append_nil] at first
      obtain ⟨middle, step⟩ := step_of_fits sound run.tracks first
      obtain ⟨q, taken⟩ := (ih (.line run step) (step.sound sound)).2 (by
        intro before next after split
        have later := fits ((raw, line) :: before) next after (congrArg ((raw, line) :: ·) split)
        simpa using later)
      exact ⟨q, takeAll_of_step step taken⟩

end Progress

/-! ## Documents -/

section Document

variable {blanks : List String} {root : String} (blank : ∀ raw ∈ blanks, IsBlankLine raw)
  (filled : ¬ IsBlankLine root) (rest : List String)

include blank filled

/-- The lines below a root are counted from the first line of the outline, blank ones included. -/
theorem body_root : body (blanks ++ root :: rest) = rest.zipIdx (blanks.length + 2) := by
  have skipped : ∀ line ∈ blanks.zipIdx 1, Text.isBlankText line.1.toList = true :=
    fun line member => blank line.1 (List.fst_mem_of_mem_zipIdx member)
  rw [body, List.zipIdx_append, List.dropWhile_append_of_pos skipped, List.zipIdx_cons,
    List.dropWhile_cons_of_neg (by exact filled), List.tail_cons, Nat.add_comm 1]

theorem find_root :
    (blanks ++ root :: rest).find? (fun raw => !Text.isBlankText raw.toList) = some root := by
  have skipped : blanks.find? (fun raw => !Text.isBlankText raw.toList) = none :=
    List.find?_eq_none.2 fun raw member => by simp [blank raw member]
  rw [List.find?_append, skipped, List.find?_cons_of_pos (by simpa using filled)]
  rfl

end Document

/-- A document compiles exactly if its first line with something on it is a root and each line after
that fits the entries before it. -/
theorem compileLines_accepts_iff (o : Options) (lines : List String) :
    (∃ m, compileLines o lines = .ok m) ↔
      (∃ root parts, lines.find? (fun raw => !Text.isBlankText raw.toList) = some root ∧
        parseRoot root.toList = .ok parts) ∧
      ∀ before line after, body lines = before ++ line :: after →
        LineFits o (entries o before) line := by
  rcases blank_or_root lines with blank | ⟨blanks, root, rest, rfl, blank, filled⟩
  · have skipped : lines.find? (fun raw => !Text.isBlankText raw.toList) = none :=
      List.find?_eq_none.2 fun raw member => by simp [blank raw member]
    simp [compileLines_blank blank, skipped]
  · rw [compileLines_root blank filled, body_root blank filled, find_root blank filled]
    cases parsed : parseRoot root.toList with
    | error cause => simp [parsed]
    | ok parts =>
      obtain ⟨routePrefix, version⟩ := parts
      have accepts : (∃ p, Progress.takeAll o (blanks.length + 2) rest
          { model := { routePrefix, version } } = .ok p) ↔ _ :=
        Progress.takeAll_accepts_iff .start rest
      simp only [List.nil_append] at accepts
      rw [← accepts]
      dsimp only
      cases Progress.takeAll o (blanks.length + 2) rest { model := { routePrefix, version } } with
      | error fault => simp [Except.map]
      | ok p => simp [Except.map, parsed]

end ApiOutline.Outline
