import ApiOutline.Proofs.Blame
import ApiOutline.Proofs.Grammar
import ApiOutline.Proofs.Renumber
import ApiOutline.Proofs.Settings

/-!
Directives and declarations do not interfere.

A reading keeps the settings apart from everything else: no line that declares something looks at
them, and no directive looks at anything but them.  So the directives of a document may be read
without its declarations and the declarations without the directives, and the two readings put
together are the reading of the whole, the fault of the earlier line included.
-/

namespace ApiOutline

/-- Whether a fault points at an earlier line than another. -/
def Fault.Precedes (fault other : Fault) : Prop :=
  ∃ line later, fault.line? = some line ∧ other.line? = some later ∧ line < later

namespace Outline

/-- A line, or an empty one in its place if it is a directive. -/
def blankDirective (o : Options) (raw : String) : String :=
  match classify o.dialect raw.toList with
  | .directive _ => ""
  | .blank | .structural => raw

/-- A line, or an empty one in its place if it declares something. -/
def blankStructural (o : Options) (raw : String) : String :=
  match classify o.dialect raw.toList with
  | .structural => ""
  | .blank | .directive _ => raw

/-- Some lines with those after the root changed. -/
def mapBody (change : String → String) : List String → List String
  | [] => []
  | raw :: rest =>
    if Text.isBlankText raw.toList then raw :: mapBody change rest else raw :: rest.map change

/-- Two readings put together: what they make if both succeed, and otherwise the fault of the
earlier line. -/
inductive Joined {α : Type} (join : α → α → α) (first second : Except Fault α) :
    Except Fault α → Prop where
  | ok {a b : α} (left : first = .ok a) (right : second = .ok b) :
      Joined join first second (.ok (join a b))
  | left {fault : Fault} (failed : first = .error fault)
      (earliest : ∀ other, second = .error other → other = fault ∨ fault.Precedes other) :
      Joined join first second (.error fault)
  | right {fault : Fault} (failed : second = .error fault)
      (earliest : ∀ other, first = .error other → other = fault ∨ fault.Precedes other) :
      Joined join first second (.error fault)

namespace Progress

variable {o : Options} {line : Nat} {raw : String}

/-- A reading with other settings. -/
def withSettings (settings : Settings) (p : Progress) : Progress :=
  { p with model := { p.model with settings } }

private theorem withSettings_eq (settings : Settings) (p : Progress) :
    p.withSettings settings = p.recast id settings :=
  (recast_id settings p).symm

private theorem takeStructural_fault {fault : Fault} {p : Progress}
    (kind : classify o.dialect raw.toList = .structural)
    (failed : p.takeStructural o line raw = .error fault) :
    ∃ cause, fault = .grammar line raw cause := by
  rw [← take_structural_line kind] at failed
  exact take_fault failed

/-- A line that declares something does not look at the settings. -/
theorem takeStructural_withSettings (kind : classify o.dialect raw.toList = .structural)
    (settings : Settings) (p : Progress) :
    (p.withSettings settings).takeStructural o line raw =
      (p.takeStructural o line raw).map (withSettings settings) := by
  have recast : (p.recast id settings).takeStructural o line raw = _ :=
    takeStructural_recast id settings p rfl rfl
  rw [withSettings_eq, recast]
  cases taken : p.takeStructural o line raw with
  | error fault =>
    obtain ⟨cause, rfl⟩ := takeStructural_fault kind taken
    rfl
  | ok q => exact congrArg Except.ok (withSettings_eq settings q).symm

private theorem finish_withSettings (settings : Settings) (p : Progress) :
    (p.withSettings settings).finish = { p.finish with settings } := by
  rw [withSettings_eq, finish_recast, Model.renumber_id]

/-- A directive changes nothing but the settings, and a declaration anything but them; so a reading
is two readings put together, which may start anywhere. -/
theorem takeAll_joined (lines : List String) (p q : Progress) :
    Joined (fun p q => p.withSettings q.model.settings)
      (takeAll o line (lines.map (blankDirective o)) p)
      (takeAll o line (lines.map (blankStructural o)) q)
      (takeAll o line lines (p.withSettings q.model.settings)) := by
  induction lines generalizing line p q with
  | nil => exact .ok rfl rfl
  | cons raw lines ih =>
    -- A fault of this line comes before whatever the rest of the other reading is blamed for.
    have earliest : ∀ {cause rest r other}, takeAll o (line + 1) rest r = .error other →
        other = .grammar line raw cause ∨ (Fault.grammar line raw cause).Precedes other := by
      intro cause rest r other failed
      obtain ⟨blamed, points, after⟩ := takeAll_fault_line failed
      exact .inr ⟨line, blamed, rfl, points, after⟩
    have empty : Text.isBlankText "".toList = true := rfl
    simp only [List.map_cons, takeAll_cons]
    cases kind : classify o.dialect raw.toList with
    | blank =>
      simp only [blankDirective, blankStructural, kind, take, Except.bind]
      exact ih p q
    | directive key =>
      simp only [blankDirective, blankStructural, kind, take_blank_line empty, Except.bind]
      simp only [take, kind, withSettings]
      rcases applied : applyDirective key raw.toList q.model.settings with ⟨settings, _ | cause⟩
      · exact ih p (q.withSettings settings)
      · exact .right rfl fun _ => earliest
    | structural =>
      simp only [blankDirective, blankStructural, kind, take_blank_line empty, Except.bind]
      simp only [take, kind, takeStructural_withSettings kind]
      cases taken : p.takeStructural o line raw with
      | error fault =>
        obtain ⟨cause, rfl⟩ := takeStructural_fault kind taken
        exact .left rfl fun _ => earliest
      | ok p => exact ih p q

end Progress

/-! ## Whole documents -/

section Joined

variable {α β : Type} {join : α → α → α} {first second whole : Except Fault α}

/-- Outcomes that fail alike join to the same failure. -/
theorem Joined.shared (fault : Fault) :
    Joined join (.error fault) (.error fault) (.error fault) := by
  refine .left rfl fun other failed => .inl ?_
  cases failed
  rfl

/-- A whole succeeds exactly if both parts do, and its result is theirs, joined. -/
theorem Joined.ok_iff (joined : Joined join first second whole) (c : α) :
    whole = .ok c ↔ ∃ a b, first = .ok a ∧ second = .ok b ∧ c = join a b := by
  cases joined with
  | ok left right =>
    rw [left, right]
    constructor
    · rintro ⟨⟩
      exact ⟨_, _, rfl, rfl, rfl⟩
    · rintro ⟨_, _, ⟨⟩, ⟨⟩, rfl⟩
      rfl
  | left failed _ =>
    rw [failed]
    constructor
    · rintro ⟨⟩
    · rintro ⟨_, _, ⟨⟩, -, -⟩
  | right failed _ =>
    rw [failed]
    constructor
    · rintro ⟨⟩
    · rintro ⟨_, _, -, ⟨⟩, -⟩

/-- A whole fails as one of its parts does, and if both of them fail, as the one that fails first.
-/
theorem Joined.earliest {fault : Fault} (joined : Joined join first second whole)
    (failed : whole = .error fault) :
    (first = .error fault ∨ second = .error fault) ∧
      ∀ other, first = .error other ∨ second = .error other →
        other = fault ∨ fault.Precedes other := by
  cases joined with
  | ok left right => cases failed
  | left own earliest =>
    cases failed
    refine ⟨.inl own, ?_⟩
    rintro other (same | later)
    · rw [own] at same
      cases same
      exact .inl rfl
    · exact earliest other later
  | right own earliest =>
    cases failed
    refine ⟨.inr own, ?_⟩
    rintro other (later | same)
    · exact earliest other later
    · rw [own] at same
      cases same
      exact .inl rfl

/-- Outcomes stay joined under a map that commutes with joining their results. -/
theorem Joined.map {join' : β → β → β} {f : α → β}
    (commutes : ∀ a b, f (join a b) = join' (f a) (f b))
    (joined : Joined join first second whole) :
    Joined join' (first.map f) (second.map f) (whole.map f) := by
  have mapped : ∀ {x : Except Fault α} {fault}, x.map f = .error fault → x = .error fault := by
    intro x fault failed
    cases x with
    | error other =>
      cases failed
      rfl
    | ok a => cases failed
  cases joined with
  | @ok a b left right =>
    have whole : f (join a b) = join' (f a) (f b) := commutes a b
    rw [left, right]
    simp only [Except.map, whole]
    exact .ok rfl rfl
  | left failed earliest =>
    rw [failed]
    exact .left rfl fun other failed => earliest other (mapped failed)
  | right failed earliest =>
    rw [failed]
    exact .right rfl fun other failed => earliest other (mapped failed)

end Joined

section Document

variable {o : Options} {blanks rest : List String} {root : String}

private theorem mapBody_blank (change : String → String) (blank : ∀ raw ∈ blanks, IsBlankLine raw) :
    mapBody change blanks = blanks := by
  induction blanks with
  | nil => rfl
  | cons raw blanks ih =>
    obtain ⟨first, others⟩ := List.forall_mem_cons.1 blank
    rw [mapBody, if_pos first, ih others]

private theorem mapBody_root (change : String → String) (blank : ∀ raw ∈ blanks, IsBlankLine raw)
    (filled : ¬ IsBlankLine root) :
    mapBody change (blanks ++ root :: rest) = blanks ++ root :: rest.map change := by
  induction blanks with
  | nil => exact if_neg filled
  | cons raw blanks ih =>
    obtain ⟨first, others⟩ := List.forall_mem_cons.1 blank
    rw [List.cons_append, mapBody, if_pos first, ih others, List.cons_append]

private theorem compileLines_joined (o : Options) (lines : List String) :
    Joined (fun s d => { s with settings := d.settings })
      (compileLines o (mapBody (blankDirective o) lines))
      (compileLines o (mapBody (blankStructural o) lines)) (compileLines o lines) := by
  rcases blank_or_root lines with blank | ⟨blanks, root, rest, rfl, blank, filled⟩
  · rw [mapBody_blank _ blank, mapBody_blank _ blank, compileLines_blank blank]
    exact .shared _
  · rw [mapBody_root _ blank filled, mapBody_root _ blank filled]
    simp only [compileLines_root blank filled]
    cases parseRoot root.toList with
    | error cause => exact .shared _
    | ok parts =>
      refine Joined.map (fun p q => ?_) (Progress.takeAll_joined rest _ _)
      rw [Progress.finish_withSettings, Progress.finish_settings]

private theorem compileLines_lastWritten {lines : List String} {m : Model}
    (compiled : compileLines o lines = .ok m) :
    LastWritten (directives o (body lines)) m.settings := by
  obtain ⟨blanks, root, rest, routePrefix, version, p, rfl, blank, filled, -, taken, rfl⟩ :=
    compileLines_ok compiled
  rw [body_root blank filled, Progress.finish_settings]
  exact (Progress.run_of_takeAll taken).settings

/-- Directives and declarations do not interfere: a document compiles exactly if it does without the
ones and without the others, its groups are those of the former, its settings those of the latter,
and its fault is the earlier of the two.  The settings are those written last. -/
theorem compileLines_directives_apart (o : Options) (lines : List String) :
    let declared := compileLines o (mapBody (blankDirective o) lines)
    let directed := compileLines o (mapBody (blankStructural o) lines)
    (∀ m, compileLines o lines = .ok m ↔
      ∃ s d, declared = .ok s ∧ directed = .ok d ∧ m = { s with settings := d.settings }) ∧
    (∀ fault, compileLines o lines = .error fault →
      (declared = .error fault ∨ directed = .error fault) ∧
        ∀ other, declared = .error other ∨ directed = .error other →
          other = fault ∨ fault.Precedes other) ∧
    ∀ m, compileLines o lines = .ok m → LastWritten (directives o (body lines)) m.settings := by
  have joined := compileLines_joined o lines
  exact ⟨joined.ok_iff, fun fault => joined.earliest, fun m => compileLines_lastWritten⟩

/-- A document with two titles, the second between a nested field and its child. -/
def scatteredDocument : List String :=
  ["root shop", "- title: First", "user", "    find", "        who Person", "- title: Second",
    "            name str"]

theorem compileLines_directives_apart_scattered :
    ∃ m s d, compileLines {} scatteredDocument = .ok m ∧
      compileLines {} (mapBody (blankDirective {}) scatteredDocument) = .ok s ∧
      compileLines {} (mapBody (blankStructural {}) scatteredDocument) = .ok d ∧
      m = { s with settings := d.settings } ∧ m.settings.title = "Second" ∧
      m.endpoints.map (·.requestFields.map (·.children.length)) = [[1]] ∧
      LastWritten (directives {} (body scatteredDocument)) m.settings := by
  obtain ⟨m, compiled, title, nested⟩ : ∃ m, compileLines {} scatteredDocument = .ok m ∧
      m.settings.title = "Second" ∧
      m.endpoints.map (·.requestFields.map (·.children.length)) = [[1]] := ⟨_, rfl, rfl, rfl⟩
  have apart := compileLines_directives_apart {} scatteredDocument
  obtain ⟨s, d, declared, directed, whole⟩ := (apart.1 m).1 compiled
  exact ⟨m, s, d, compiled, declared, directed, whole, title, nested, apart.2.2 m compiled⟩

end Document

end Outline

end ApiOutline
