import ApiOutline.Proofs.Blame
import ApiOutline.Proofs.Spacing
import Mathlib.Data.List.DropRight

/-!
Indentation is relative.

A level of a document may have any width.  Where every line is indented by the same factor more and
a level is that factor wider, each line stands at the depth where it stood, and the kinds of blank
before it do not matter: the document says the same, or it fails at the same line.
-/

namespace ApiOutline

/-- Levels that are wider by a factor. -/
def Options.widen (factor : Nat) (o : Options) : Options :=
  { o with tabWidth := max o.tabWidth 1 * factor }

/-- Wider options ask for wider levels, by the same factor. -/
theorem Options.levelWidth_widen {factor : Nat} (positive : 1 ≤ factor) (o : Options) :
    (o.widen factor).levelWidth = o.levelWidth * factor := by
  have wide : 1 ≤ o.levelWidth * factor := Nat.mul_pos o.levelWidth_pos positive
  exact Nat.max_eq_left wide

namespace Outline

/-- A line with `factor` spaces for each of the blanks before it.  A blank line stays as it is. -/
def reindent (factor : Nat) (raw : String) : String :=
  if Text.isBlankText raw.toList then raw
  else String.ofList
    (List.replicate (Text.indentWidth raw.toList * factor) ' ' ++ Text.trimStart raw.toList)

end Outline

open Outline (reindent)

/-- A fault as it is after its line was indented by a factor more: that line is repeated as it is
now, and an indentation between two levels is counted anew. -/
inductive Fault.Reindented (factor : Nat) : Fault → Fault → Prop where
  | grammar (line : Nat) (raw : String) (cause : GrammarFault) :
      Reindented factor (.grammar line raw cause) (.grammar line (reindent factor raw) cause)
  | uneven (line : Nat) (raw : String) (width levelWidth : Nat) :
      Reindented factor (.grammar line raw (.unevenIndent width levelWidth))
        (.grammar line (reindent factor raw)
          (.unevenIndent (width * factor) (levelWidth * factor)))
  | root (line : Nat) (raw : String) (cause : RootFault) :
      Reindented factor (.root line raw cause) (.root line (reindent factor raw) cause)

theorem Fault.Reindented.line?_eq {factor : Nat} {fault fault' : Fault}
    (same : fault.Reindented factor fault') : fault'.line? = fault.line? := by
  cases same <;> rfl

theorem Fault.Reindented.isGrammar_eq {factor : Nat} {fault fault' : Fault}
    (same : fault.Reindented factor fault') : fault'.isGrammar = fault.isGrammar := by
  cases same <;> rfl

namespace Outline

/-- Two outcomes that are the same, or faults that are the same but for the indentation. -/
inductive Reindented {α : Type} (factor : Nat) : Except Fault α → Except Fault α → Prop where
  | ok (a : α) : Reindented factor (.ok a) (.ok a)
  | error {fault fault' : Fault} (same : fault.Reindented factor fault') :
      Reindented factor (.error fault) (.error fault')

section Outcomes

variable {α β : Type} {factor : Nat} {x y : Except Fault α}

/-- Outcomes correspond if their first parts do, and whatever follows them. -/
theorem Reindented.bind {next next' : α → Except Fault β} (first : Reindented factor x y)
    (onward : ∀ a, Reindented factor (next a) (next' a)) :
    Reindented factor (x.bind next) (y.bind next') := by
  cases first with
  | ok a => exact onward a
  | error same => exact .error same

/-- Outcomes that correspond still do when their results are changed alike. -/
theorem Reindented.map (outcomes : Reindented factor x y) (f : α → β) :
    Reindented factor (x.map f) (y.map f) := outcomes.bind fun a => .ok (f a)

end Outcomes

/-! ## Lines -/

section Lines

variable {factor : Nat} {raw : String}

private theorem trimStart_of_filled {s : List Char} (filled : Text.isBlankText s = false) :
    ∃ c rest, Text.trimStart s = c :: rest ∧ Text.isBlank c = false := by
  cases starts : Text.trimStart s with
  | nil =>
    have blank : ∀ c ∈ s, Text.isBlank c = true := List.dropWhile_eq_nil_iff.1 starts
    rw [Text.isBlankText, List.all_eq_true.2 blank] at filled
    cases filled
  | cons c rest => exact ⟨c, rest, rfl, Text.trimStart_head (by rw [starts]; rfl)⟩

private theorem reindent_blank (blank : Text.isBlankText raw.toList = true) :
    reindent factor raw = raw := if_pos blank

private theorem toList_reindent (filled : Text.isBlankText raw.toList = false) :
    (reindent factor raw).toList =
      List.replicate (Text.indentWidth raw.toList * factor) ' ' ++ Text.trimStart raw.toList := by
  rw [reindent, if_neg (Bool.eq_false_iff.1 filled), String.toList_ofList]

private theorem trim_reindent (filled : Text.isBlankText raw.toList = false) :
    Text.trim (reindent factor raw).toList = Text.trim raw.toList := by
  rw [toList_reindent filled, Text.trim_replicate_append, Text.trim, Text.trim, Text.trimStart,
    Text.trimStart, List.dropWhile_idempotent]

private theorem indentWidth_reindent (filled : Text.isBlankText raw.toList = false) :
    Text.indentWidth (reindent factor raw).toList = Text.indentWidth raw.toList * factor := by
  obtain ⟨c, rest, starts, solid⟩ := trimStart_of_filled filled
  have spaces : ∀ b ∈ List.replicate (Text.indentWidth raw.toList * factor) ' ',
      Text.isBlank b = true := by
    intro b member
    rw [List.eq_of_mem_replicate member]
    rfl
  rw [toList_reindent filled, starts]
  conv_lhs => rw [Text.indentWidth]
  rw [List.takeWhile_append_of_pos spaces, List.takeWhile_cons_of_neg (by simp [solid]),
    List.append_nil, List.length_replicate]

private theorem isBlankText_reindent (factor : Nat) (raw : String) :
    Text.isBlankText (reindent factor raw).toList = Text.isBlankText raw.toList := by
  cases filled : Text.isBlankText raw.toList with
  | true => rw [reindent_blank filled, filled]
  | false =>
    obtain ⟨c, rest, starts, solid⟩ := trimStart_of_filled filled
    rw [toList_reindent filled, starts, Text.isBlankText, List.all_append, List.all_cons, solid,
      Bool.false_and, Bool.and_false]

/-- A line at the left margin stays there as it is. -/
theorem reindent_of_margin (margin : Text.indentWidth raw.toList = 0) :
    reindent factor raw = raw := by
  have none : raw.toList.takeWhile Text.isBlank = [] := List.length_eq_zero_iff.1 margin
  have whole := Text.takeWhile_append_trimStart raw.toList
  rw [none, List.nil_append] at whole
  rw [reindent, margin, Nat.zero_mul, List.replicate_zero, List.nil_append, whole,
    String.ofList_toList, ite_self]

private theorem head?_of_indented {s : List Char} (indented : Text.indentWidth s ≠ 0) :
    ∃ c, s.head? = some c ∧ Text.isBlank c = true := by
  cases s with
  | nil => exact absurd rfl indented
  | cons c rest =>
    refine ⟨c, rfl, ?_⟩
    by_contra solid
    apply indented
    rw [Text.indentWidth, List.takeWhile_cons_of_neg solid]
    rfl

/-- Directives stand at the left margin. -/
theorem directiveKey?_of_indented {dialect : Dialect} {s : List Char}
    (indented : Text.indentWidth s ≠ 0) : directiveKey? dialect s = none := by
  obtain ⟨c, first, blank⟩ := head?_of_indented indented
  apply directiveKey?_eq_none
  rw [first]
  rintro ⟨⟩
  cases blank

private theorem classify_reindent (positive : 1 ≤ factor) (dialect : Dialect) (raw : String) :
    classify dialect (reindent factor raw).toList = classify dialect raw.toList := by
  by_cases margin : Text.indentWidth raw.toList = 0
  · rw [reindent_of_margin margin]
  · cases filled : Text.isBlankText raw.toList with
    | true => rw [reindent_blank filled]
    | false =>
      have still : Text.indentWidth (reindent factor raw).toList ≠ 0 := by
        rw [indentWidth_reindent filled]
        exact Nat.mul_ne_zero margin (Nat.ne_of_gt positive)
      rw [classify, classify, isBlankText_reindent, directiveKey?_of_indented margin,
        directiveKey?_of_indented still]

private theorem margin_of_directive {dialect : Dialect} {key : DirectiveKey} {s : List Char}
    (kind : classify dialect s = .directive key) : Text.indentWidth s = 0 := by
  by_contra indented
  rw [classify, directiveKey?_of_indented indented] at kind
  split at kind <;> cases kind

end Lines

/-! ## Readings -/

namespace Progress

variable {o o' : Options} {p : Progress} {factor line : Nat} {raw raw' : String}

/-- A line that is taken does the same wherever it stands at one depth, whatever the blanks around
it, and a fault of it is the same but for the text that it repeats. -/
theorem take_standsAt {depth : Nat} (dialect : o'.dialect = o.dialect)
    (stands : StandsAt o raw depth) (stands' : StandsAt o' raw' depth)
    (same : Text.trim raw'.toList = Text.trim raw.toList) (p : Progress) :
    p.take o' line raw' = (p.take o line raw).mapError (Fault.renumber id raw') := by
  have words : statement raw'.toList = statement raw.toList := statement_congr same
  have recast : (p.recast id p.model.settings).take o' (id line) raw' =
      ((p.take o line raw).mapError (Fault.renumber id raw')).map
        (Progress.recast id p.model.settings) := by
    match depth, stands, stands' with
    | 0, stands, stands' =>
      rw [take_group_line stands, take_group_line stands', takeGroup_recast id _ p words]
      cases p.takeGroup line raw.toList <;> rfl
    | 1, stands, stands' =>
      rw [take_endpoint_line stands, take_endpoint_line stands', dialect,
        takeEndpoint_recast id _ p o.dialect words]
      cases p.takeEndpoint o.dialect line raw.toList <;> rfl
    | depth + 2, stands, stands' =>
      rw [take_inner_line (Nat.le_add_left 2 depth) stands,
        take_inner_line (Nat.le_add_left 2 depth) stands']
      exact takeInner_recast id _ p _ same
  rw [recast_id] at recast
  refine recast.trans ?_
  cases taken : p.take o line raw with
  | error fault => rfl
  | ok q =>
    have kept : q.model.settings = p.model.settings :=
      takeStructural_settings stands.1 ((take_structural_line stands.1).symm.trans taken)
    simp only [Except.mapError, Except.map, recast_id, ← kept]

private theorem standsAt_reindent {depth : Nat} (positive : 1 ≤ factor)
    (stands : StandsAt o raw depth) : StandsAt (o.widen factor) (reindent factor raw) depth := by
  refine ⟨(classify_reindent positive o.dialect raw).trans stands.1, ?_⟩
  rw [indentWidth_reindent (filled_of_structural stands.1), stands.2,
    Options.levelWidth_widen positive, Nat.mul_assoc]

/-- A line that stands between two levels is refused for its indentation, before anything else of it
is read. -/
theorem take_uneven (kind : classify o.dialect raw.toList = .structural)
    (uneven : Text.indentWidth raw.toList % o.levelWidth ≠ 0) (p : Progress) :
    p.take o line raw = .error (.grammar line raw
      (.unevenIndent (Text.indentWidth raw.toList) o.levelWidth)) := by
  rw [take_structural_line kind]
  exact if_pos uneven

/-- A fault of a line repeats that line. -/
theorem reindented_of_repeated (taken : p.take o' line (reindent factor raw) =
      (p.take o line raw).mapError (Fault.renumber id (reindent factor raw))) :
    Reindented factor (p.take o line raw) (p.take o' line (reindent factor raw)) := by
  rw [taken]
  cases before : p.take o line raw with
  | ok q => exact .ok q
  | error fault =>
    obtain ⟨cause, rfl⟩ := take_fault before
    exact .error (.grammar line raw cause)

private theorem take_reindent (positive : 1 ≤ factor) (o : Options) (line : Nat) (raw : String)
    (p : Progress) :
    Reindented factor (p.take o line raw) (p.take (o.widen factor) line (reindent factor raw)) := by
  have dialect : (o.widen factor).dialect = o.dialect := rfl
  have kinds := classify_reindent positive o.dialect raw
  cases kind : classify o.dialect raw.toList with
  | blank =>
    apply reindented_of_repeated
    simp only [take, dialect, kinds, kind]
    rfl
  | directive key =>
    apply reindented_of_repeated
    simp only [reindent_of_margin (margin_of_directive kind), take, dialect, kind]
    rcases applyDirective key raw.toList p.model.settings with ⟨settings, _ | cause⟩ <;> rfl
  | structural =>
    have filled := filled_of_structural kind
    have width := @indentWidth_reindent factor raw filled
    have level := o.levelWidth_widen positive
    by_cases even : Text.indentWidth raw.toList % o.levelWidth = 0
    · have stands : StandsAt o raw (Text.indentWidth raw.toList / o.levelWidth) :=
        ⟨kind, (Nat.div_mul_cancel (Nat.dvd_of_mod_eq_zero even)).symm⟩
      apply reindented_of_repeated
      exact take_standsAt dialect stands (standsAt_reindent positive stands)
        (trim_reindent filled) p
    · have uneven : Text.indentWidth (reindent factor raw).toList % (o.widen factor).levelWidth ≠
          0 := by
        rw [width, level, Nat.mul_mod_mul_right]
        exact Nat.mul_ne_zero even (Nat.ne_of_gt positive)
      rw [take_uneven kind even, take_uneven (o := o.widen factor) (kinds.trans kind) uneven, width,
        level]
      exact .error (.uneven ..)

private theorem takeAll_reindent (positive : 1 ≤ factor) (o : Options) (line : Nat)
    (lines : List String) (p : Progress) :
    Reindented factor (takeAll o line lines p)
      (takeAll (o.widen factor) line (lines.map (reindent factor)) p) := by
  induction lines generalizing line p with
  | nil => exact .ok p
  | cons raw rest ih =>
    rw [List.map_cons, takeAll_cons, takeAll_cons]
    exact (take_reindent positive o line raw p).bind fun q => ih (line + 1) q

end Progress

/-! ## Documents -/

/-- The root may be indented as well. -/
theorem compileFrom_reindent {factor : Nat} (positive : 1 ≤ factor) (o : Options) (line : Nat)
    (lines : List String) :
    Reindented factor (compileFrom o line lines)
      (compileFrom (o.widen factor) line (lines.map (reindent factor))) := by
  induction lines generalizing line with
  | nil => exact .error (.root 0 "" .emptyDocument)
  | cons raw rest ih =>
    rw [List.map_cons, compileFrom, compileFrom, isBlankText_reindent]
    cases filled : Text.isBlankText raw.toList with
    | true => exact ih (line + 1)
    | false =>
      have root : parseRoot (reindent factor raw).toList = parseRoot raw.toList :=
        parseRoot_congr (statement_congr (trim_reindent filled))
      simp only [Bool.false_eq_true, ↓reduceIte, root]
      cases parseRoot raw.toList with
      | error cause => exact .error (.root line raw cause)
      | ok parts =>
        exact (Progress.takeAll_reindent positive o (line + 1) rest _).map Progress.finish

/-- Only relative indentation matters: with every line indented by a factor more, in spaces, and a
level wider by that factor, the model is the same, or the fault is and points at the same line. -/
theorem compileLines_widened (dialect : Dialect) (tabWidth : Nat) {factor : Nat}
    (positive : 1 ≤ factor) (lines : List String) :
    (∀ m, compileLines ⟨dialect, max tabWidth 1 * factor⟩ (lines.map (reindent factor)) = .ok m ↔
      compileLines ⟨dialect, tabWidth⟩ lines = .ok m) ∧
    ∀ fault, compileLines ⟨dialect, tabWidth⟩ lines = .error fault → ∃ fault',
      compileLines ⟨dialect, max tabWidth 1 * factor⟩ (lines.map (reindent factor)) =
        .error fault' ∧
      fault.Reindented factor fault' ∧ fault'.isGrammar = fault.isGrammar ∧
      fault'.line? = fault.line? := by
  have outcomes : Reindented factor (compileLines ⟨dialect, tabWidth⟩ lines)
      (compileLines ⟨dialect, max tabWidth 1 * factor⟩ (lines.map (reindent factor))) :=
    compileFrom_reindent positive ⟨dialect, tabWidth⟩ 1 lines
  generalize compileLines ⟨dialect, tabWidth⟩ lines = before,
    compileLines ⟨dialect, max tabWidth 1 * factor⟩ (lines.map (reindent factor)) = after
    at outcomes
  cases outcomes with
  | ok m => exact ⟨fun _ => Iff.rfl, nofun⟩
  | @error fault fault' same =>
    refine ⟨fun m => ⟨nofun, nofun⟩, ?_⟩
    rintro _ ⟨⟩
    exact ⟨fault', rfl, same, same.isGrammar_eq, same.line?_eq⟩

/-- A document whose levels are one blank wide: a tab, a space, an ideographic space. -/
def narrowDocument : List String :=
  ["root shop", "\t ", "- title: Shop", "user", "\tfind", " \u3000- resp", "\t name str # who"]

theorem compileLines_widened_narrow :
    narrowDocument.map (reindent 3) = ["root shop", "\t ", "- title: Shop", "user", "   find",
      "      - resp", "      name str # who"] ∧
    (∃ m, compileLines ⟨.v1, 0⟩ narrowDocument = .ok m ∧
      compileLines ⟨.v1, 3⟩ (narrowDocument.map (reindent 3)) = .ok m) ∧
    ∃ fault fault', compileLines ⟨.v1, 2⟩ narrowDocument = .error fault ∧
      compileLines ⟨.v1, 6⟩ (narrowDocument.map (reindent 3)) = .error fault' ∧
      fault.line? = some 5 ∧ fault'.line? = some 5 := by
  refine ⟨rfl, ?_, ?_⟩
  · obtain ⟨m, compiled⟩ : ∃ m, compileLines ⟨.v1, 0⟩ narrowDocument = .ok m := ⟨_, rfl⟩
    have same := (@compileLines_widened .v1 0 3 (by decide) narrowDocument).1 m
    exact ⟨m, compiled, same.2 compiled⟩
  · obtain ⟨fault, failed, line⟩ : ∃ fault, compileLines ⟨.v1, 2⟩ narrowDocument = .error fault ∧
        fault.line? = some 5 := ⟨_, rfl, rfl⟩
    obtain ⟨fault', failed', -, -, line'⟩ :=
      (@compileLines_widened .v1 2 3 (by decide) narrowDocument).2 fault failed
    exact ⟨fault, fault', failed, failed', line, line'.trans line⟩

end Outline

end ApiOutline
