import ApiOutline.Proofs.Reading
import ApiOutline.Proofs.Text

/-!
The settings of a document, read off its directives.

Each setting has one key, and the last to write it has its way: the last line of the key for a text,
the last entry of a tag for an authentication, and the last item for either part of the envelope.  A
directive of another key does not touch it, and neither does any other line.
-/

namespace ApiOutline.Outline

universe u v w

/-- The directives among some numbered lines, each with its key. -/
def directives (o : Options) (lines : List (String × Nat)) : List (DirectiveKey × List Char) :=
  lines.filterMap fun line =>
    match classify o.dialect line.1.toList with
    | .directive key => some (key, line.1.toList)
    | .blank | .structural => none

/-- The values that some directives give to a key, in order. -/
def valuesOf (key : DirectiveKey) (given : List (DirectiveKey × List Char)) : List (List Char) :=
  (given.filter (·.1 = key)).map fun directive => directiveValue key directive.2

/-- The tag and the authentication that an entry gives to it. -/
def authPair? (item : List Char) : Option (String × String) :=
  (Text.cut? '=' item).map fun sides =>
    (String.ofList (Text.trim sides.1), String.ofList (Text.trim sides.2))

/-- What some entries of an authentication map give to a tag, in order. -/
def authNames (tag : String) (items : List (List Char)) : List String :=
  ((items.filterMap authPair?).filter (·.1 = tag)).map (·.2)

/-- What the items of an envelope give to one of its parts, in order. -/
def envelopeItems (part value : List Char) : List (List Char) :=
  (Text.words value).filterMap ((part ++ ['=']).isPrefixOf?)

/-- Settings as some directives leave them, where the last to write something has its way. -/
structure LastWritten (given : List (DirectiveKey × List Char)) (s : Settings) : Prop where
  title : s.title = ((valuesOf .title given).map String.ofList).getLast?.getD ""
  description : s.description = ((valuesOf .description given).map String.ofList).getLast?.getD ""
  apiServer : s.apiServer = ((valuesOf .apiServer given).map String.ofList).getLast?.getD ""
  serverVersion : s.serverVersion = ((valuesOf .version given).map String.ofList).getLast?.getD ""
  authMap : ∀ tag, s.authMap.get? tag =
    (authNames tag ((valuesOf .authMap given).flatMap Text.commaItems)).getLast?
  fields : s.envelope.fields =
    (((valuesOf .envelope given).flatMap (envelopeItems "fields".toList)).map fun list =>
      (Text.commaItems list).map String.ofList).getLast?.getD ["data", "msg", "stat"]
  dataField : s.envelope.dataField =
    (((valuesOf .envelope given).flatMap (envelopeItems "in".toList)).map fun name =>
      String.ofList (Text.trim name)).getLast?.getD "data"

/-! ## One directive -/

section Directive

variable {settings settings' : Settings}

private theorem addAuthEntries_frame (items : List (List Char)) (settings : Settings) :
    ∃ authMap, (addAuthEntries items settings).1 = { settings with authMap } := by
  induction items generalizing settings with
  | nil => exact ⟨settings.authMap, rfl⟩
  | cons item items ih =>
    unfold addAuthEntries
    split
    · exact ⟨settings.authMap, rfl⟩
    · exact ih _

/-- A directive leaves alone what belongs to other keys. -/
theorem applyDirective_frame (key : DirectiveKey) (raw : List Char) (s : Settings) :
    let s' := (applyDirective key raw s).1
    (key ≠ .title → s'.title = s.title) ∧
      (key ≠ .description → s'.description = s.description) ∧
      (key ≠ .apiServer → s'.apiServer = s.apiServer) ∧
      (key ≠ .version → s'.serverVersion = s.serverVersion) ∧
      (key ≠ .authMap → s'.authMap = s.authMap) ∧
      (key ≠ .envelope → s'.envelope = s.envelope) := by
  cases key with
  | authMap =>
    obtain ⟨authMap, same⟩ :=
      addAuthEntries_frame (Text.commaItems (directiveValue .authMap raw)) s
    simp [applyDirective, same]
  | title | description | apiServer | version | envelope => simp [applyDirective]

/-- The last entry of a tag counts, and the tag keeps what it had if there is none. -/
theorem addAuthEntries_get? {items : List (List Char)} (tag : String)
    (added : addAuthEntries items settings = (settings', none)) :
    settings'.authMap.get? tag =
      (authNames tag items).getLast?.or (settings.authMap.get? tag) := by
  induction items generalizing settings with
  | nil =>
    cases added
    rfl
  | cons item items ih =>
    unfold addAuthEntries at added
    cases cut : Text.cut? '=' item with
    | none =>
      rw [cut] at added
      cases added
    | some sides =>
      rw [cut] at added
      have entry : authPair? item =
          some (String.ofList (Text.trim sides.1), String.ofList (Text.trim sides.2)) := by
        rw [authPair?, cut]
        rfl
      rw [ih added, authNames, authNames, List.filterMap_cons_some entry]
      by_cases own : String.ofList (Text.trim sides.1) = tag
      · subst own
        simp [List.getLast?_cons]
      · simp [own, SortedMap.get?_insert_of_ne _ (Ne.symm own)]

/-- An item starts with a part and an equals sign exactly if it is cut into that part and the
rest. -/
theorem isPrefixOf?_eq_cut? {part : List Char} (whole : '=' ∉ part) (item : List Char) :
    (part ++ ['=']).isPrefixOf? item =
      (Text.cut? '=' item).bind fun sides => if sides.1 = part then some sides.2 else none := by
  refine Option.ext fun value => ?_
  rw [List.isPrefixOf?_eq_some_iff_append_eq, List.append_assoc, List.singleton_append,
    Option.bind_eq_some_iff]
  constructor
  · rintro rfl
    exact ⟨(part, value), Text.cut?_eq_some_iff.2 ⟨rfl, whole⟩, if_pos rfl⟩
  · rintro ⟨sides, cut, chosen⟩
    split at chosen
    · next same =>
      cases chosen
      rw [← same]
      exact (Text.cut?_eq_some_iff.1 cut).1.symm
    · cases chosen

private theorem applyEnvelopeItem_fields (envelope : Envelope) (item : List Char) :
    (applyEnvelopeItem envelope item).fields = ((("fields".toList ++ ['=']).isPrefixOf? item).map
      fun list => (Text.commaItems list).map String.ofList).getD envelope.fields := by
  rw [isPrefixOf?_eq_cut? (by decide), applyEnvelopeItem]
  cases Text.cut? '=' item with
  | none => rfl
  | some sides =>
    rw [Option.bind_some]
    by_cases own : sides.1 = "fields".toList
    · simp only [own, ↓reduceIte, Option.map_some, Option.getD_some]
    · simp only [own, ↓reduceIte, Option.map_none, Option.getD_none]
      split <;> rfl

private theorem applyEnvelopeItem_dataField (envelope : Envelope) (item : List Char) :
    (applyEnvelopeItem envelope item).dataField = ((("in".toList ++ ['=']).isPrefixOf? item).map
      fun name => String.ofList (Text.trim name)).getD envelope.dataField := by
  rw [isPrefixOf?_eq_cut? (by decide), applyEnvelopeItem]
  cases Text.cut? '=' item with
  | none => rfl
  | some sides =>
    rw [Option.bind_some]
    by_cases own : sides.1 = "in".toList
    · simp only [own, ↓reduceIte, Option.map_some, Option.getD_some]
      rfl
    · simp only [own, ↓reduceIte, Option.map_none, Option.getD_none]
      split <;> rfl

/-- What a fold writes to one place is what the last element to write there gives. -/
theorem foldl_last {σ : Type u} {α : Type v} {γ : Type w} {step : σ → α → σ} {view : σ → γ}
    {write : α → Option γ} (each : ∀ s a, view (step s a) = (write a).getD (view s)) (l : List α)
    (s : σ) : view (l.foldl step s) = (l.filterMap write).getLast?.getD (view s) := by
  induction l generalizing s with
  | nil => rfl
  | cons a l ih =>
    rw [List.foldl_cons, ih, each]
    cases written : write a with
    | none => simp [written]
    | some value => simp [written, List.getLast?_cons]

end Directive

/-! ## All directives -/

namespace Progress

variable {o : Options} {p q : Progress} {line : Nat} {raw : String} {read : List (String × Nat)}

@[simp]
theorem closeFields_settings (p : Progress) :
    p.closeFields.model.settings = p.model.settings := by
  unfold closeFields
  split
  · rfl
  · split <;> rfl

/-- Completing the last endpoint leaves the settings as they are. -/
theorem finish_settings (p : Progress) : p.finish.settings = p.model.settings :=
  closeFields_settings p

/-- Settings change by directives only. -/
theorem Step.settings (step : Step o line raw p q) :
    (∃ key, directives o [(raw, line)] = [(key, raw.toList)] ∧
      applyDirective key raw.toList p.model.settings = (q.model.settings, none)) ∨
    (directives o [(raw, line)] = [] ∧ q.model.settings = p.model.settings) := by
  have structural : ∀ {depth}, StandsAt o raw depth → directives o [(raw, line)] = [] := by
    intro depth stands
    simp [directives, stands.1]
  cases step with
  | blank kind => exact .inr ⟨by simp [directives, kind], rfl⟩
  | directive kind applied => exact .inl ⟨_, by simp [directives, kind], applied⟩
  | group stands parsed => exact .inr ⟨structural stands, closeFields_settings p⟩
  | endpoint stands last parsed => exact .inr ⟨structural stands, closeFields_settings p⟩
  | @marker marker stands inside found =>
    refine .inr ⟨structural stands, ?_⟩
    cases marker <;> exact closeFields_settings p
  | field deep stands inside plain parsed current placed => exact .inr ⟨structural stands, rfl⟩

/-- A setting that only the directives of one key write is what the last of them to write it
says. -/
theorem Run.lastWritten {γ : Type u} (view : Settings → γ) (key : DirectiveKey)
    (items : List Char → List γ)
    (own : ∀ raw s s', applyDirective key raw s = (s', none) →
      view s' = (items (directiveValue key raw)).getLast?.getD (view s))
    (others : ∀ other raw s, other ≠ key → view (applyDirective other raw s).1 = view s)
    (run : Run o p read q) :
    view q.model.settings =
      ((valuesOf key (directives o read)).flatMap items).getLast?.getD (view p.model.settings) := by
  induction run with
  | start => rfl
  | @line read q r line raw run step ih =>
    have split : directives o (read ++ [(raw, line)]) =
        directives o read ++ directives o [(raw, line)] := List.filterMap_append
    rw [split]
    rcases step.settings with ⟨found, single, applied⟩ | ⟨none, same⟩
    · rw [single]
      by_cases same : found = key
      · subst same
        rw [own _ _ _ applied, ih]
        simp [valuesOf, List.getLast?_append]
      · have kept := others found raw.toList q.model.settings same
        rw [applied] at kept
        rw [kept, ih]
        simp [valuesOf, same]
    · rw [none, same, ih, List.append_nil]

/-- A setting that is a text has the value of the last directive for it, and the one at the start if
there is none. -/
theorem Run.lastText (view : Settings → String) {key : DirectiveKey}
    (own : ∀ raw s s', applyDirective key raw s = (s', none) →
      view s' = String.ofList (directiveValue key raw))
    (others : ∀ other raw s, other ≠ key → view (applyDirective other raw s).1 = view s)
    (run : Run o p read q) :
    view q.model.settings =
      ((valuesOf key (directives o read)).map String.ofList).getLast?.getD
        (view p.model.settings) := by
  rw [run.lastWritten view key (fun value => [String.ofList value]) own others, List.map_eq_flatMap]

/-- A part of the envelope has the value of the last item for it, in whichever directive that
stands. -/
theorem Run.lastItem {γ : Type u} (view : Envelope → γ) {part : List Char} {parse : List Char → γ}
    (each : ∀ envelope item, view (applyEnvelopeItem envelope item) =
      (((part ++ ['=']).isPrefixOf? item).map parse).getD (view envelope))
    (run : Run o p read q) :
    view q.model.settings.envelope =
      (((valuesOf .envelope (directives o read)).flatMap (envelopeItems part)).map
        parse).getLast?.getD (view p.model.settings.envelope) := by
  have own : ∀ raw s s', applyDirective .envelope raw s = (s', none) →
      view s'.envelope = ((envelopeItems part (directiveValue .envelope raw)).map
        parse).getLast?.getD (view s.envelope) := by
    rintro raw s s' ⟨⟩
    rw [envelopeItems, List.map_filterMap]
    exact foldl_last each _ s.envelope
  have others : ∀ other raw s, other ≠ .envelope →
      view (applyDirective other raw s).1.envelope = view s.envelope := by
    intro other raw s differ
    rw [(applyDirective_frame other raw s).2.2.2.2.2 differ]
  rw [run.lastWritten (fun s => view s.envelope) .envelope
    (fun value => (envelopeItems part value).map parse) own others, List.map_flatMap]

/-- A tag is mapped to what the last item for it says, in whichever directive that stands. -/
theorem Run.lastAuth (tag : String) (run : Run o p read q) :
    q.model.settings.authMap.get? tag =
      (authNames tag ((valuesOf .authMap (directives o read)).flatMap Text.commaItems)).getLast?.or
        (p.model.settings.authMap.get? tag) := by
  have own : ∀ raw s s', applyDirective .authMap raw s = (s', none) →
      s'.authMap.get? tag =
        ((authNames tag (Text.commaItems (directiveValue .authMap raw))).map some).getLast?.getD
          (s.authMap.get? tag) := by
    intro raw s s' applied
    rw [addAuthEntries_get? tag applied, List.getLast?_map]
    cases (authNames tag (Text.commaItems (directiveValue .authMap raw))).getLast? <;> rfl
  have others : ∀ other raw s, other ≠ .authMap →
      (applyDirective other raw s).1.authMap.get? tag = s.authMap.get? tag := by
    intro other raw s differ
    rw [(applyDirective_frame other raw s).2.2.2.2.1 differ]
  have regroup : ∀ values : List (List Char),
      values.flatMap (fun value => (authNames tag (Text.commaItems value)).map some) =
        (authNames tag (values.flatMap Text.commaItems)).map some := by
    intro values
    simp only [authNames, List.filterMap_flatMap, List.filter_flatMap, List.map_flatMap]
  rw [run.lastWritten (fun s => s.authMap.get? tag) .authMap
    (fun value => (authNames tag (Text.commaItems value)).map some) own others, regroup,
    List.getLast?_map]
  cases (authNames tag ((valuesOf .authMap (directives o read)).flatMap
    Text.commaItems)).getLast? <;> rfl

/-- Every directive of a reading counts, and the last to write a setting has its way. -/
theorem Run.settings {routePrefix version : String}
    (run : Run o { model := { routePrefix, version } } read q) :
    LastWritten (directives o read) q.model.settings where
  title := run.lastText Settings.title (fun _ _ _ applied => by cases applied; rfl)
    fun other raw s => (applyDirective_frame other raw s).1
  description := run.lastText Settings.description (fun _ _ _ applied => by cases applied; rfl)
    fun other raw s => (applyDirective_frame other raw s).2.1
  apiServer := run.lastText Settings.apiServer (fun _ _ _ applied => by cases applied; rfl)
    fun other raw s => (applyDirective_frame other raw s).2.2.1
  serverVersion := run.lastText Settings.serverVersion (fun _ _ _ applied => by cases applied; rfl)
    fun other raw s => (applyDirective_frame other raw s).2.2.2.1
  authMap tag := by
    rw [run.lastAuth tag]
    exact Option.or_none
  fields := run.lastItem Envelope.fields applyEnvelopeItem_fields
  dataField := run.lastItem Envelope.dataField applyEnvelopeItem_dataField

end Progress

end ApiOutline.Outline
