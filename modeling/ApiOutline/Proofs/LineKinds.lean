import ApiOutline.Proofs.Dialects
import ApiOutline.Proofs.Indentation
import Mathlib.Data.List.Find

/-!
The kinds of lines do not hide each other.

A line is told to be a directive or a marker by its first characters, and to be a group, an endpoint
or a field by its words, after its comment is cut off.  All directives and markers start with a dash
and a space, so their first word is a dash; and a dash is no name.  Hence nothing that a line
declares is lost because the line is taken for something else first (`line_kinds_apart`), and a
reading that looks for neither directives nor markers takes such a line in the same way.
-/

namespace ApiOutline.Outline

/-! ## Lines that declare something -/

/-- A line that some reader of declarations accepts. -/
inductive Declares (raw : List Char) : Prop where
  | group {line : Nat} {group : Group} (parsed : parseGroup line raw = .ok group)
  | endpoint {dialect : Dialect} {group : String} {line : Nat} {endpoint : Endpoint}
      (parsed : parseEndpoint dialect group line raw = .ok endpoint)
  | field {scope : Scope} {line : Nat} {decl : FieldDecl}
      (parsed : parseField scope line raw = .ok decl)

section Lines

variable {raw : List Char} {dialect : Dialect}

private theorem checkSegments_dash (dialect : Dialect) :
    checkSegments dialect (String.ofList ['-']) true (Endpoint.segmentsOf (String.ofList ['-'])) ≠
      .ok () := by
  cases dialect <;> decide

/-- A declaration starts with a word, and that word is not a dash. -/
theorem Declares.first_word (declares : Declares raw) :
    ∃ word rest, (statement raw).1 = word :: rest ∧ word ≠ ['-'] := by
  cases declares with
  | group parsed =>
    obtain ⟨name, rest, words, valid, -⟩ := parseGroup_ok_iff.1 parsed
    refine ⟨name, rest, words, ?_⟩
    rintro rfl
    cases valid
  | endpoint parsed =>
    obtain ⟨name, modifiers, -, words, -, checked, -, -⟩ := parseEndpoint_ok_iff.1 parsed
    refine ⟨name, modifiers, words, ?_⟩
    rintro rfl
    exact checkSegments_dash _ checked
  | field parsed =>
    obtain ⟨name, declared, rest, -, -, words, valid, -, -⟩ := parseField_ok_iff.1 parsed
    refine ⟨name, declared :: rest, words, ?_⟩
    rintro rfl
    cases valid

/-- A line that declares something is not blank. -/
theorem Declares.filled (declares : Declares raw) : Text.isBlankText raw = false := by
  obtain ⟨word, rest, words, -⟩ := declares.first_word
  refine Bool.eq_false_iff.2 fun blank => ?_
  have none : (statement raw).1 = [] := congrArg Prod.fst (statement_append_blank blank [])
  rw [none] at words
  cases words

/-- Neither a declaration nor its trimmed line starts with a dash and a space. -/
theorem Declares.not_dash (declares : Declares raw) {s : List Char}
    (same : statement s = statement raw) : ¬ ['-', ' '] <+: s := by
  rintro ⟨rest, rfl⟩
  obtain ⟨word, others, words, named⟩ := declares.first_word
  obtain ⟨more, dash⟩ := statement_dash rest
  rw [← same] at words
  exact named (List.cons.inj (words.symm.trans dash)).1

/-! ## Directives -/

private theorem dash_of_lead (key : DirectiveKey) : ['-', ' '] <+: key.lead := by
  cases key <;> exact ⟨_, rfl⟩

/-- No line starts like two directives. -/
theorem key_unique {key key' : DirectiveKey} (starts : key.lead <+: raw)
    (starts' : key'.lead <+: raw) : key = key' := by
  have apart : ∀ key key' : DirectiveKey, key.lead <+: key'.lead → key = key' := by
    intro key key'
    cases key <;> cases key' <;> decide
  rcases List.prefix_or_prefix_of_prefix starts starts' with shorter | shorter
  · exact apart key key' shorter
  · exact (apart key' key shorter).symm

/-- The kinds that a line is tried for; what none of them claims declares something. -/
def LineKind.tried : List LineKind := .blank :: DirectiveKey.all.map .directive

/-- Whether a line is of a kind that it is tried for, whatever else it may be. -/
def LineKind.claims (dialect : Dialect) (raw : List Char) : LineKind → Bool
  | .blank => Text.isBlankText raw
  | .directive key => key.isKnown dialect && key.lead.isPrefixOf raw
  | .structural => false

private theorem classify_eq_find? (dialect : Dialect) (raw : List Char) :
    (LineKind.tried.find? (LineKind.claims dialect raw)).getD .structural =
      classify dialect raw := by
  have keys : (DirectiveKey.all.map LineKind.directive).find? (LineKind.claims dialect raw) =
      (directiveKey? dialect raw).map .directive := List.find?_map
  rw [LineKind.tried, List.find?_cons, keys, classify]
  cases blank : Text.isBlankText raw with
  | true => simp [LineKind.claims, blank]
  | false =>
    simp only [LineKind.claims, blank]
    cases directiveKey? dialect raw <;> rfl

private theorem lead_of_claims {key : DirectiveKey}
    (claimed : (LineKind.directive key).claims dialect raw = true) : key.lead <+: raw :=
  List.isPrefixOf_iff_prefix.1 (Bool.and_eq_true_iff.1 claimed).2

/-- A directive is not blank, and starts like one directive only. -/
theorem claims_unique {kind kind' : LineKind} (claimed : kind.claims dialect raw = true)
    (claimed' : kind'.claims dialect raw = true) : kind = kind' := by
  have apart : ∀ key : DirectiveKey, Text.isBlankText raw = true → ¬ key.lead <+: raw := by
    intro key blank starts
    have dash : '-' ∈ raw := ((dash_of_lead key).trans starts).subset List.mem_cons_self
    cases Text.isBlank_of_mem blank '-' dash
  match kind, kind', claimed, claimed' with
  | .blank, .blank, _, _ => rfl
  | .blank, .directive key, blank, known => exact absurd (lead_of_claims known) (apart key blank)
  | .directive key, .blank, known, blank => exact absurd (lead_of_claims known) (apart key blank)
  | .directive key, .directive key', known, known' =>
    exact congrArg LineKind.directive (key_unique (lead_of_claims known) (lead_of_claims known'))

/-- The kinds may be tried in any order. -/
theorem classify_of_perm {order : List LineKind} (perm : order.Perm LineKind.tried) :
    (order.find? (LineKind.claims dialect raw)).getD .structural = classify dialect raw := by
  rw [← classify_eq_find?, List.find?_eq_find?_of_perm perm]
  rintro kind ⟨-, claimed⟩ kind' ⟨-, claimed'⟩
  exact claims_unique claimed claimed'

/-- A line that declares something is taken for a declaration in every dialect. -/
theorem Declares.structural (declares : Declares raw) (dialect : Dialect) :
    classify dialect raw = .structural := by
  have unclaimed : ∀ kind ∈ LineKind.tried, ¬ kind.claims dialect raw = true := by
    intro kind _ claimed
    cases kind with
    | blank => exact Bool.eq_false_iff.1 declares.filled claimed
    | directive key =>
      exact declares.not_dash rfl ((dash_of_lead key).trans (lead_of_claims claimed))
    | structural => cases claimed
  rw [← classify_eq_find?, List.find?_eq_none.2 unclaimed]
  rfl

/-! ## Markers -/

/-- How a trimmed line with a marker starts. -/
def Marker.Starts (trimmed : List Char) : Marker → Prop
  | .request => "- req".toList <+: trimmed
  | .response => "- resp".toList <+: trimmed
  | .aliases list => trimmed = "- alias:".toList ++ list

/-- Every marker is told by how it starts, whatever is looked for before it. -/
theorem marker?_eq_some_iff {trimmed : List Char} {marker : Marker} :
    marker? trimmed = some marker ↔ marker.Starts trimmed := by
  unfold marker?
  by_cases response : "- resp".toList <+: trimmed
  · rw [if_pos (List.isPrefixOf_iff_prefix.2 response)]
    cases marker with
    | request =>
      refine iff_of_false (by simp) fun request => ?_
      exact absurd (List.prefix_or_prefix_of_prefix response request) (by decide)
    | response => exact iff_of_true rfl response
    | aliases list =>
      refine iff_of_false (by simp) fun aliases => ?_
      exact absurd (List.prefix_or_prefix_of_prefix response ⟨list, aliases.symm⟩) (by decide)
  · rw [if_neg (mt List.isPrefixOf_iff_prefix.1 response)]
    by_cases request : "- req".toList <+: trimmed
    · rw [if_pos (List.isPrefixOf_iff_prefix.2 request)]
      cases marker with
      | request => exact iff_of_true rfl request
      | response => exact iff_of_false (by simp) response
      | aliases list =>
        refine iff_of_false (by simp) fun aliases => ?_
        exact absurd (List.prefix_or_prefix_of_prefix request ⟨list, aliases.symm⟩) (by decide)
    · rw [if_neg (mt List.isPrefixOf_iff_prefix.1 request)]
      cases marker with
      | request => exact iff_of_false (by simp) request
      | response => exact iff_of_false (by simp) response
      | aliases list =>
        simp only [Option.map_eq_some_iff, List.isPrefixOf?_eq_some_iff_append_eq,
          Marker.aliases.injEq, exists_eq_right]
        exact eq_comm

/-- A line that declares something is no marker. -/
theorem Declares.marker?_eq_none (declares : Declares raw) : marker? (Text.trim raw) = none := by
  rw [Option.eq_none_iff_forall_ne_some]
  intro marker found
  refine declares.not_dash (statement_trim raw) ?_
  match marker, marker?_eq_some_iff.1 found with
  | .request, starts => exact List.IsPrefix.trans ⟨_, rfl⟩ starts
  | .response, starts => exact List.IsPrefix.trans ⟨_, rfl⟩ starts
  | .aliases list, starts => exact ⟨_, starts.symm⟩

end Lines

/-! ## Readings -/

namespace Progress

variable {raw : String}

/-- Takes a line for what lines at its depth declare, without a look for directives or markers. -/
def takeDeclared (o : Options) (line : Nat) (raw : String) (p : Progress) :
    Except Fault Progress :=
  let width := Text.indentWidth raw.toList
  let depth := width / o.levelWidth
  if width % o.levelWidth ≠ 0 then
    .error (.grammar line raw (.unevenIndent width o.levelWidth))
  else if depth = 0 then (p.takeGroup line raw.toList).mapError (.grammar line raw)
  else if depth = 1 then (p.takeEndpoint o.dialect line raw.toList).mapError (.grammar line raw)
  else if p.inEndpoint then p.takeField line depth raw
  else .error (.grammar line raw .fieldOutsideEndpoint)

/-- A line that declares something is taken for what it declares. -/
theorem take_declares (declares : Declares raw.toList) (o : Options) (line : Nat) (p : Progress) :
    p.take o line raw = p.takeDeclared o line raw := by
  have kind := declares.structural o.dialect
  unfold takeDeclared
  by_cases uneven : Text.indentWidth raw.toList % o.levelWidth ≠ 0
  · rw [if_pos uneven, take_uneven kind uneven]
  · have stands : StandsAt o raw (Text.indentWidth raw.toList / o.levelWidth) :=
      ⟨kind, (Nat.div_mul_cancel (Nat.dvd_of_mod_eq_zero (not_ne_iff.1 uneven))).symm⟩
    rw [if_neg uneven]
    generalize Text.indentWidth raw.toList / o.levelWidth = depth at stands ⊢
    match depth, stands with
    | 0, stands => rw [take_group_line stands, if_pos rfl]
    | 1, stands => rw [take_endpoint_line stands, if_neg (by decide), if_pos rfl]
    | depth + 2, stands =>
      rw [take_inner_line (Nat.le_add_left 2 depth) stands, takeInner, declares.marker?_eq_none,
        ite_self]
      rfl

end Progress

/-- The kinds of lines do not hide each other.  A line that declares a group, an endpoint or a field
is a directive in no dialect and no marker, so it is taken for what it declares.  No line starts
like two directives, the kinds of lines may be tried in any order, and a marker is told by how its
line starts, whatever else is looked for. -/
theorem line_kinds_apart (dialect : Dialect) (raw : String) :
    (Declares raw.toList →
      classify dialect raw.toList = .structural ∧ marker? (Text.trim raw.toList) = none ∧
      ∀ (o : Options) (line : Nat) (p : Progress),
        p.take o line raw = p.takeDeclared o line raw) ∧
    (∀ key key' : DirectiveKey, key.lead <+: raw.toList → key'.lead <+: raw.toList → key = key') ∧
    (∀ order : List LineKind, order.Perm LineKind.tried →
      (order.find? (LineKind.claims dialect raw.toList)).getD .structural =
        classify dialect raw.toList) ∧
    ∀ marker, marker? (Text.trim raw.toList) = some marker ↔
      marker.Starts (Text.trim raw.toList) := by
  refine ⟨?_, ?_, ?_, ?_⟩
  · intro declares
    exact ⟨declares.structural dialect, declares.marker?_eq_none, Progress.take_declares declares⟩
  · intro key key' starts starts'
    exact key_unique starts starts'
  · intro order perm
    exact classify_of_perm perm
  · intro marker
    exact marker?_eq_some_iff

/-- A field with the name of a marker and the text of a directive in it, behind blanks of several
kinds. -/
def disguisedField : String := "\u3000\t      resp \\#- true - title: # - resp: \\#"

theorem line_kinds_apart_disguised :
    Declares disguisedField.toList ∧
    classify .v4 disguisedField.toList = .structural ∧
    marker? (Text.trim disguisedField.toList) = none ∧
    (∀ p : Progress, p.take ⟨.v4, 4⟩ 3 disguisedField =
      p.takeDeclared ⟨.v4, 4⟩ 3 disguisedField) ∧
    DirectiveKey.envelope.lead <+: "- resp: in=data".toList ∧
    (∀ key : DirectiveKey, key.lead <+: "- resp: in=data".toList → key = .envelope) ∧
    (LineKind.tried.reverse.find? (LineKind.claims .v4 "- resp: in=data".toList)).getD
      .structural = .directive .envelope := by
  have parsed : parseField .response 3 disguisedField.toList = .ok _ := rfl
  have declares : Declares disguisedField.toList := .field parsed
  obtain ⟨structural, plain, taken⟩ := (line_kinds_apart .v4 disguisedField).1 declares
  obtain ⟨-, unique, anyOrder, -⟩ := line_kinds_apart .v4 "- resp: in=data"
  have envelope : DirectiveKey.envelope.lead <+: "- resp: in=data".toList :=
    ⟨" in=data".toList, rfl⟩
  refine ⟨declares, structural, plain, taken ⟨.v4, 4⟩ 3, envelope, ?_, ?_⟩
  · intro key starts
    exact unique key .envelope starts envelope
  · exact anyOrder _ (List.reverse_perm _)

end ApiOutline.Outline
