import ApiOutline.Outline.Directive
import ApiOutline.Proofs.Written
import Mathlib.Data.List.TakeWhile

/-!
Blanks around a line.

What a line declares is said by its text without the blanks around it, so two lines that differ in
these alone are read as the same words and the same comment.  Blanks after a line change neither its
kind nor the value of a directive; those before it are its indentation.
-/

namespace ApiOutline

namespace Text

variable {blanks : List Char}

theorem isBlank_of_mem (blank : isBlankText blanks = true) : ∀ c ∈ blanks, isBlank c = true :=
  List.all_eq_true.1 blank

/-- A text is as blank as it is without the blanks after it. -/
theorem isBlankText_append_blank (blank : isBlankText blanks = true) (s : List Char) :
    isBlankText (s ++ blanks) = isBlankText s := by
  rw [isBlankText, List.all_append, ← isBlankText, ← isBlankText, blank, Bool.and_true]

/-- Blanks after a text are trimmed with those it ends with. -/
theorem trim_append_blank (blank : isBlankText blanks = true) (s : List Char) :
    trim (s ++ blanks) = trim s := by
  have ends : ∀ t, trimEnd (t ++ blanks) = trimEnd t := by
    intro t
    rw [trimEnd, trimEnd, List.reverse_append, List.dropWhile_append_of_pos]
    intro c member
    exact isBlank_of_mem blank c (List.mem_reverse.1 member)
  rw [trim, trim, trimStart, trimStart, List.dropWhile_append]
  split
  · next empty =>
    rw [List.isEmpty_iff.1 empty, List.dropWhile_eq_nil_iff.2 (isBlank_of_mem blank)]
  · exact ends _

/-- A text is its trimmed text with blanks around it. -/
theorem exists_blanks_around (s : List Char) :
    ∃ before after, isBlankText before = true ∧ isBlankText after = true ∧
      s = before ++ (trim s ++ after) := by
  have start : trim s ++ ((trimStart s).reverse.takeWhile isBlank).reverse = trimStart s := by
    rw [trim, trimEnd, ← List.reverse_append, List.takeWhile_append_dropWhile, List.reverse_reverse]
  refine ⟨s.takeWhile isBlank, ((trimStart s).reverse.takeWhile isBlank).reverse, ?_, ?_, ?_⟩
  · exact List.all_takeWhile
  · rw [isBlankText, List.all_reverse]
    exact List.all_takeWhile
  · rw [start, takeWhile_append_trimStart]

/-- Trimming takes no character that is not blank. -/
theorem count_trim {c : Char} (solid : isBlank c = false) (s : List Char) :
    (trim s).count c = s.count c := by
  have absent : ∀ blanks, isBlankText blanks = true → blanks.count c = 0 := by
    intro blanks blank
    refine List.count_eq_zero.2 fun member => ?_
    rw [isBlank_of_mem blank c member] at solid
    cases solid
  obtain ⟨before, after, blankBefore, blankAfter, whole⟩ := exists_blanks_around s
  have sum := congrArg (List.count c) whole
  rw [List.count_append, List.count_append, absent before blankBefore, absent after blankAfter]
    at sum
  omega

private theorem words_append_blank (blank : isBlankText blanks = true) (s : List Char) :
    words (s ++ blanks) = words s := by
  induction blanks generalizing s with
  | nil => rw [List.append_nil]
  | cons c blanks ih =>
    obtain ⟨first, rest⟩ := List.forall_mem_cons.1 (isBlank_of_mem blank)
    have none : words blanks = [] := ih (List.all_eq_true.2 rest) []
    rw [words_append first, none, List.append_nil]

/-- A beginning that does not end in a blank does not reach into the blanks after a text. -/
theorem isPrefixOf?_append_blank {lead : List Char} (blank : isBlankText blanks = true)
    (solid : ∀ c, lead.getLast? = some c → isBlank c = false) (s : List Char) :
    lead.isPrefixOf? (s ++ blanks) = (lead.isPrefixOf? s).map (· ++ blanks) := by
  refine Option.ext fun rest => ?_
  simp only [Option.map_eq_some_iff, List.isPrefixOf?_eq_some_iff_append_eq]
  constructor
  · intro split
    rcases List.append_eq_append_iff.1 split with ⟨extra, whole, tail⟩ | ⟨extra, reached, inside⟩
    · exact ⟨extra, whole.symm, tail.symm⟩
    · -- The end of the beginning would be one of the blanks.
      rcases List.eq_nil_or_concat extra with rfl | ⟨extra, c, rfl⟩
      · exact ⟨[], by simpa using reached, by simpa using inside⟩
      · have last : isBlank c = false := solid c (by rw [reached]; simp)
        have inBlanks : isBlank c = true := isBlank_of_mem blank c (by rw [inside]; simp)
        rw [last] at inBlanks
        cases inBlanks
  · rintro ⟨rest, rfl, rfl⟩
    exact (List.append_assoc ..).symm

/-- Blanks after a text do not count as its indentation, as long as it is not all blank. -/
theorem indentWidth_append_blank {s : List Char} (filled : isBlankText s = false)
    (blanks : List Char) : indentWidth (s ++ blanks) = indentWidth s := by
  rw [indentWidth, indentWidth, List.takeWhile_append]
  split
  · next all =>
    have whole := List.takeWhile_eq_self_iff.1 ((List.takeWhile_prefix isBlank).eq_of_length all)
    rw [isBlankText, List.all_eq_true.2 whole] at filled
    cases filled
  · rfl

end Text

namespace Outline

variable {blanks : List Char}

private theorem cutComment?_cons_blank {c : Char} (blank : Text.isBlank c = true) (escaped : Bool)
    (s : List Char) :
    cutComment? escaped (c :: s) =
      (cutComment? false s).map fun parts => (c :: parts.1, parts.2) := by
  have plain : c ≠ '#' := by
    rintro rfl
    cases blank
  have neutral : c ≠ '\\' := by
    rintro rfl
    cases blank
  rw [cutComment?_cons (fun starts => plain starts.1), beq_false_of_ne neutral]

/-- Blanks after a line are part of its comment, or else of its content. -/
theorem cutComment?_append_blank (blank : Text.isBlankText blanks = true) (escaped : Bool)
    (s : List Char) :
    cutComment? escaped (s ++ blanks) =
      (cutComment? escaped s).map fun parts => (parts.1, parts.2 ++ blanks) := by
  induction s generalizing escaped with
  | nil =>
    have free : ∀ t, Text.isBlankText t = true → ∀ escaped, cutComment? escaped t = none := by
      intro t
      induction t with
      | nil => exact fun _ _ => rfl
      | cons c t ih =>
        intro blank escaped
        obtain ⟨first, rest⟩ := List.forall_mem_cons.1 (Text.isBlank_of_mem blank)
        rw [cutComment?_cons_blank first, ih (List.all_eq_true.2 rest)]
        rfl
    exact free blanks blank escaped
  | cons c s ih =>
    by_cases starts : c = '#' ∧ escaped = false
    · rw [List.cons_append, cutComment?, cutComment?, if_pos starts, if_pos starts]
      rfl
    · rw [List.cons_append, cutComment?_cons starts, cutComment?_cons starts, ih]
      cases cutComment? (c == '\\') s <;> rfl

/-- Blanks after a line are no part of its statement. -/
theorem statement_append_blank (blank : Text.isBlankText blanks = true) (s : List Char) :
    statement (s ++ blanks) = statement s := by
  unfold statement splitComment
  rw [cutComment?_append_blank blank]
  cases cutComment? false s with
  | none => simp only [Option.map_none, Text.words_append_blank blank]
  | some parts => simp only [Option.map_some, Text.trim_append_blank blank]

private theorem statement_blank_append (blank : Text.isBlankText blanks = true) (s : List Char) :
    statement (blanks ++ s) = statement s := by
  induction blanks with
  | nil => rfl
  | cons c blanks ih =>
    obtain ⟨first, rest⟩ := List.forall_mem_cons.1 (Text.isBlank_of_mem blank)
    rw [← ih (List.all_eq_true.2 rest), List.cons_append]
    unfold statement splitComment
    rw [cutComment?_cons_blank first]
    cases cutComment? false (blanks ++ s) with
    | none => simp only [Option.map_none, Text.words_cons first]
    | some parts => simp only [Option.map_some, Text.words_cons first]

/-- A line is read without the blanks around it. -/
theorem statement_trim (s : List Char) : statement (Text.trim s) = statement s := by
  obtain ⟨before, after, blankBefore, blankAfter, around⟩ := Text.exists_blanks_around s
  calc statement (Text.trim s)
      = statement (before ++ (Text.trim s ++ after)) := by
        rw [statement_blank_append blankBefore, statement_append_blank blankAfter]
    _ = statement s := by rw [← around]

/-- The statement of a line depends on the line only up to the blanks around it. -/
theorem statement_congr {raw raw' : List Char} (same : Text.trim raw' = Text.trim raw) :
    statement raw' = statement raw := by
  rw [← statement_trim raw', same, statement_trim]

/-! ## Directives -/

private theorem isPrefixOf?_lead_append_blank (blank : Text.isBlankText blanks = true)
    (key : DirectiveKey) (s : List Char) :
    key.lead.isPrefixOf? (s ++ blanks) = (key.lead.isPrefixOf? s).map (· ++ blanks) := by
  have solid : key.lead.getLast? = some ':' := by cases key <;> rfl
  refine Text.isPrefixOf?_append_blank blank (fun c last => ?_) s
  rw [solid] at last
  cases last
  rfl

/-- Blanks after a line do not change its kind. -/
theorem classify_append_blank (blank : Text.isBlankText blanks = true) (dialect : Dialect)
    (s : List Char) : classify dialect (s ++ blanks) = classify dialect s := by
  have same : ∀ key : DirectiveKey,
      key.lead.isPrefixOf (s ++ blanks) = key.lead.isPrefixOf s := by
    intro key
    rw [← List.isSome_isPrefixOf?_eq_isPrefixOf, ← List.isSome_isPrefixOf?_eq_isPrefixOf,
      isPrefixOf?_lead_append_blank blank, Option.isSome_map]
  simp only [classify, directiveKey?, same, Text.isBlankText_append_blank blank]

theorem filled_of_structural {dialect : Dialect} {s : List Char}
    (kind : classify dialect s = .structural) : Text.isBlankText s = false := by
  refine Bool.eq_false_iff.2 fun blank => ?_
  simp [classify, blank] at kind

/-- Blanks after a directive do not change what it sets. -/
theorem applyDirective_append_blank (blank : Text.isBlankText blanks = true) (key : DirectiveKey)
    (s : List Char) : applyDirective key (s ++ blanks) = applyDirective key s := by
  have value : directiveValue key (s ++ blanks) = directiveValue key s := by
    rw [directiveValue, directiveValue, isPrefixOf?_lead_append_blank blank]
    cases key.lead.isPrefixOf? s with
    | none => rfl
    | some rest => exact Text.trim_append_blank blank rest
  funext settings
  simp only [applyDirective, value]

end Outline

end ApiOutline
