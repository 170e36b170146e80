import ApiOutline.Proofs.FieldLines

/-!
Which contents and comments a line can have.

A line is cut at its first `#` that does not directly follow a backslash, and only then is the
comment trimmed and freed of its backslashes; a backslash itself is never escaped.  Still every
trimmed text is the comment of some line, also one that has backslashes before a `#`: it is written
with one more backslash before each `#`, and exactly these are taken away again, since what follows
a backslash of the text itself is never a `#` any more (`comment_escapes_complete`).
-/

namespace ApiOutline.Outline

/-- A comment as it is written on a line: with a backslash before each `#`. -/
def escape (comment : List Char) : List Char :=
  comment.flatMap fun c => if c = '#' then ['\\', '#'] else [c]

section Escape

variable {c : Char} {s : List Char}

private theorem escape_cons_mark (s : List Char) :
    escape ('#' :: s) = '\\' :: '#' :: escape s := rfl

private theorem escape_cons (plain : c ≠ '#') (s : List Char) :
    escape (c :: s) = c :: escape s := by
  rw [escape, List.flatMap_cons, if_neg plain]
  rfl

private theorem unescape_cons (apart : c = '\\' → s.head? ≠ some '#') :
    unescape (c :: s) = c :: unescape s := by
  rw [unescape]
  rintro rest rfl rfl
  exact apart rfl rfl

private theorem head?_escape (s : List Char) : (escape s).head? ≠ some '#' := by
  cases s with
  | nil => simp [escape]
  | cons c s =>
    by_cases mark : c = '#'
    · rw [mark, escape_cons_mark]
      simp
    · rw [escape_cons mark]
      simpa using mark

private theorem unescape_escape (s : List Char) : unescape (escape s) = s := by
  induction s with
  | nil => rfl
  | cons c s ih =>
    by_cases mark : c = '#'
    · rw [mark, escape_cons_mark, unescape, ih]
    · rw [escape_cons mark, unescape_cons fun _ => head?_escape s, ih]

private theorem trimmed_escape (trimmed : Text.Trimmed s) : Text.Trimmed (escape s) where
  starts c first := by
    cases s with
    | nil => cases first
    | cons d s =>
      by_cases mark : d = '#'
      · rw [mark, escape_cons_mark] at first
        cases first
        rfl
      · rw [escape_cons mark] at first
        exact trimmed.starts c first
  ends c last := by
    -- Removing the backslashes again leaves the last character in its place.
    rw [← getLast?_unescape, unescape_escape] at last
    exact trimmed.ends c last

end Escape

/-! ## Splitting a line -/

section Split

variable {line content comment front : List Char}

/-- A line is cut at the first `#` that does not directly follow a backslash. -/
theorem cutComment?_eq_some_iff_escaped {rest : List Char} :
    cutComment? false line = some (content, rest) ↔
      line = content ++ '#' :: rest ∧ Escaped content ∧ content.getLast? ≠ some '\\' := by
  have ends : (content.getLast?.map (· == '\\')).getD false = false ↔
      content.getLast? ≠ some '\\' := by
    cases content.getLast? <;> simp
  rw [cutComment?_eq_some_iff, ends, ← CommentFree, commentFree_iff_escaped]

/-- A line without a comment is all content; any other is cut, and what follows the cut is trimmed
and loses its backslashes. -/
theorem splitComment_eq_iff : splitComment line = (content, comment) ↔
    (content = line ∧ Escaped line ∧ comment = []) ∨
      ∃ rest, line = content ++ '#' :: rest ∧ Escaped content ∧ content.getLast? ≠ some '\\' ∧
        comment = unescape (Text.trim rest) := by
  rw [splitComment]
  rcases cut : cutComment? false line with _ | ⟨front, rest⟩
  · have escaped : Escaped line := commentFree_iff_escaped.1 cut
    constructor
    · rintro ⟨⟩
      exact .inl ⟨rfl, escaped, rfl⟩
    · rintro (⟨rfl, -, rfl⟩ | ⟨rest, whole, -, ends, -⟩)
      · rfl
      · exact absurd (escaped content rest whole) ends
  · obtain ⟨whole, escaped, ends⟩ := cutComment?_eq_some_iff_escaped.1 cut
    constructor
    · rintro ⟨⟩
      exact .inr ⟨rest, whole, escaped, ends, rfl⟩
    · rintro (⟨-, all, -⟩ | ⟨rest', whole', escaped', ends', rfl⟩)
      · exact absurd (all front rest whole) ends
      · have again := cutComment?_eq_some_iff_escaped.2 ⟨whole', escaped', ends'⟩
        rw [cut] at again
        cases again
        rfl

private theorem isPrefix_splitComment (line : List Char) : (splitComment line).1 <+: line := by
  rcases split : splitComment line with ⟨content, comment⟩
  rcases splitComment_eq_iff.1 split with ⟨rfl, -⟩ | ⟨rest, whole, -⟩
  · exact List.prefix_rfl
  · exact ⟨'#' :: rest, whole.symm⟩

/-- The content is the longest start of a line with every `#` escaped. -/
theorem isPrefix_content (inside : front <+: line) (escaped : Escaped front) :
    front <+: (splitComment line).1 := by
  rcases split : splitComment line with ⟨content, comment⟩
  rcases splitComment_eq_iff.1 split with ⟨rfl, -⟩ | ⟨rest, whole, -, ends, -⟩
  · exact inside
  · obtain ⟨after, same⟩ := inside
    rw [whole] at same
    rcases List.append_eq_append_iff.1 same with ⟨extra, longer, -⟩ | ⟨extra, longer, reached⟩
    · exact ⟨extra, longer.symm⟩
    · -- A start that reaches beyond the content would have the `#` after it.
      cases extra with
      | nil => exact ⟨[], by simpa using longer⟩
      | cons d extra =>
        cases reached
        exact absurd (escaped _ extra longer) ends

private theorem splitComment_escape (escaped : Escaped content)
    (ends : content.getLast? ≠ some '\\') (trimmed : Text.Trimmed comment) :
    splitComment (content ++ '#' :: escape comment) = (content, comment) := by
  refine splitComment_eq_iff.2 (.inr ⟨escape comment, rfl, escaped, ends, ?_⟩)
  rw [Text.trim_eq_self (trimmed_escape trimmed), unescape_escape]

/-- The contents and comments that lines have. -/
theorem exists_splitComment_iff : (∃ line, splitComment line = (content, comment)) ↔
    Escaped content ∧ Text.Trimmed comment ∧ (comment = [] ∨ content.getLast? ≠ some '\\') := by
  constructor
  · rintro ⟨line, split⟩
    have trimmed := trimmed_splitComment line
    rw [split] at trimmed
    rcases splitComment_eq_iff.1 split with ⟨rfl, escaped, none⟩ | ⟨rest, -, escaped, ends, -⟩
    · exact ⟨escaped, trimmed, .inl none⟩
    · exact ⟨escaped, trimmed, .inr ends⟩
  · rintro ⟨escaped, trimmed, rfl | ends⟩
    · exact ⟨content, splitComment_eq_iff.2 (.inl ⟨rfl, escaped, rfl⟩)⟩
    · exact ⟨_, splitComment_escape escaped ends trimmed⟩

end Split

/-- Every comment can be written.  The content of a line is its longest start in which each `#`
directly follows a backslash, and a line that is all content has no comment.  A content that can
stand before a `#` and a trimmed comment, with a backslash put before each `#`, are read as they
are; so a line may have any trimmed text for its comment, and no other. -/
theorem comment_escapes_complete (line : List Char) :
    ((splitComment line).1 <+: line ∧ Escaped (splitComment line).1 ∧
      (∀ front, front <+: line → Escaped front → front <+: (splitComment line).1) ∧
      ((splitComment line).1 = line → (splitComment line).2 = [])) ∧
    (∀ content comment, Escaped content → content.getLast? ≠ some '\\' → Text.Trimmed comment →
      splitComment (content ++ '#' :: escape comment) = (content, comment)) ∧
    ∀ content comment, (∃ line, splitComment line = (content, comment)) ↔
      Escaped content ∧ Text.Trimmed comment ∧
        (comment = [] ∨ content.getLast? ≠ some '\\') := by
  refine ⟨⟨isPrefix_splitComment line, ?_, ?_, ?_⟩, ?_, ?_⟩
  · exact commentFree_iff_escaped.1 (commentFree_splitComment line)
  · intro front inside escaped
    exact isPrefix_content inside escaped
  · rcases split : splitComment line with ⟨content, comment⟩
    rintro rfl
    rcases splitComment_eq_iff.1 split with ⟨-, -, none⟩ | ⟨rest, longer, -⟩
    · exact none
    · exact absurd longer (by simp)
  · intro content comment escaped ends trimmed
    exact splitComment_escape escaped ends trimmed
  · intro content comment
    exact exists_splitComment_iff

theorem comment_escapes_complete_backslashes :
    Escaped "tag \\\\#\\#1".toList ∧ Text.Trimmed "#\\#\\\\## \\".toList ∧
    splitComment "tag \\\\#\\#1#\\#\\\\#\\\\\\#\\# \\".toList =
      ("tag \\\\#\\#1".toList, "#\\#\\\\## \\".toList) ∧
    (splitComment "tag \\\\#\\#1".toList).2 = [] ∧
    "a\\#".toList <+: (splitComment "a\\##".toList).1 := by
  have escaped : Escaped "tag \\\\#\\#1".toList := by decide +kernel
  have trimmed : Text.Trimmed "#\\#\\\\## \\".toList := by decide +kernel
  obtain ⟨⟨-, -, -, uncommented⟩, written, -⟩ := comment_escapes_complete "tag \\\\#\\#1".toList
  obtain ⟨⟨-, -, longest, -⟩, -⟩ := comment_escapes_complete "a\\##".toList
  refine ⟨escaped, trimmed, written _ _ escaped (by decide) trimmed, uncommented rfl, ?_⟩
  exact longest _ ⟨['#'], rfl⟩ (by decide +kernel)

end ApiOutline.Outline
