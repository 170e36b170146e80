import ApiOutline.Outline.Printer
import ApiOutline.Proofs.Declaration
import ApiOutline.Proofs.Reading
import ApiOutline.Proofs.Text

/-!
Lines that are written from words and a comment, and what reading them gives.

What a line declares is put together from words without a comment mark and from one comment.  A line
that is written from such words is read as the same words, and a root, group, endpoint or field that
was read from some line is read again from the line that is written for it.  Of the comment only the
backslashes before a `#` are lost once more.
-/

namespace ApiOutline.Outline

/-! ## Comments -/

/-- A text in which no comment starts. -/
def CommentFree (s : List Char) : Prop := cutComment? false s = none

section Comments

variable {escaped : Bool} {c : Char} {s content comment : List Char}

theorem cutComment?_cons (plain : ¬ (c = '#' ∧ escaped = false)) :
    cutComment? escaped (c :: s) =
      (cutComment? (c == '\\') s).map fun (content, comment) => (c :: content, comment) := by
  rw [cutComment?, if_neg plain]

/-- Whether a text ends in a backslash does not depend on what precedes it, once it has a
character. -/
theorem getLast?_cons_escapes (escaped : Bool) (c : Char) (s : List Char) :
    ((c :: s).getLast?.map (· == '\\')).getD escaped =
      (s.getLast?.map (· == '\\')).getD (c == '\\') := by
  rw [List.getLast?_cons]
  cases s.getLast? <;> rfl

/-- A character that neither starts nor escapes a comment keeps the two sides of it apart. -/
theorem cutComment?_append_eq_none_iff (plain : c ≠ '#') (neutral : c ≠ '\\')
    (before after : List Char) :
    cutComment? escaped (before ++ c :: after) = none ↔
      cutComment? escaped before = none ∧ CommentFree after := by
  induction before generalizing escaped with
  | nil =>
    rw [List.nil_append, cutComment?_cons (fun starts => plain starts.1), beq_false_of_ne neutral,
      Option.map_eq_none_iff]
    exact (and_iff_right rfl).symm
  | cons d before ih =>
    by_cases starts : d = '#' ∧ escaped = false
    · simp [cutComment?, starts]
    · rw [List.cons_append, cutComment?_cons starts, cutComment?_cons starts,
        Option.map_eq_none_iff, Option.map_eq_none_iff, ih]

/-- Two texts around a character that is no mark and no backslash are free of comments exactly if
each of them is. -/
theorem commentFree_append_iff (plain : c ≠ '#') (neutral : c ≠ '\\') (before after : List Char) :
    CommentFree (before ++ c :: after) ↔ CommentFree before ∧ CommentFree after :=
  cutComment?_append_eq_none_iff plain neutral before after

theorem commentFree_cons_iff (plain : c ≠ '#') (neutral : c ≠ '\\') (s : List Char) :
    CommentFree (c :: s) ↔ CommentFree s :=
  (commentFree_append_iff plain neutral [] s).trans (and_iff_right rfl)

/-- A comment starts at a `#` that follows a content without one, and that the content does not
escape.  For an empty content, this is up to what precedes the text. -/
theorem cutComment?_eq_some_iff : cutComment? escaped s = some (content, comment) ↔
    s = content ++ '#' :: comment ∧ cutComment? escaped content = none ∧
      (content.getLast?.map (· == '\\')).getD escaped = false := by
  induction s generalizing escaped content with
  | nil => simp [cutComment?]
  | cons c s ih =>
    by_cases starts : c = '#' ∧ escaped = false
    · rw [cutComment?, if_pos starts]
      obtain ⟨rfl, rfl⟩ := starts
      constructor
      · rintro ⟨⟩
        exact ⟨rfl, rfl, rfl⟩
      · rintro ⟨same, free, -⟩
        cases content with
        | nil => cases same; rfl
        | cons d content => cases same; cases free
    · rw [cutComment?_cons starts, Option.map_eq_some_iff]
      constructor
      · rintro ⟨⟨content, comment⟩, inner, same⟩
        cases same
        obtain ⟨rfl, free, ends⟩ := ih.1 inner
        refine ⟨rfl, by rw [cutComment?_cons starts, free]; rfl, ?_⟩
        rw [getLast?_cons_escapes]
        exact ends
      · rintro ⟨same, free, ends⟩
        cases content with
        | nil =>
          cases same
          exact absurd ⟨rfl, ends⟩ starts
        | cons d content =>
          cases same
          rw [cutComment?_cons starts, Option.map_eq_none_iff] at free
          rw [getLast?_cons_escapes] at ends
          exact ⟨(content, comment), ih.2 ⟨rfl, free, ends⟩, rfl⟩

/-- The content of a line has no comment in it. -/
theorem cutComment?_eq_some (cut : cutComment? escaped s = some (content, comment)) :
    cutComment? escaped content = none ∧ ∀ c ∈ comment, c ∈ s := by
  obtain ⟨rfl, free, -⟩ := cutComment?_eq_some_iff.1 cut
  refine ⟨free, fun c member => ?_⟩
  exact List.mem_append_right content (List.mem_cons_of_mem '#' member)

/-- A comment starts where it is written. -/
theorem cutComment?_written (free : cutComment? escaped content = none) (comment : List Char) :
    cutComment? escaped (content ++ ' ' :: '#' :: comment) = some (content ++ [' '], comment) := by
  refine cutComment?_eq_some_iff.2 ⟨by simp, ?_, by simp⟩
  exact (cutComment?_append_eq_none_iff (by decide) (by decide) content []).2 ⟨free, rfl⟩

/-- No comment starts in the words of a text in which none starts. -/
theorem commentFree_of_mem_splitOnP {w : List Char} (free : CommentFree s)
    (member : w ∈ s.splitOnP Text.isBlank) : CommentFree w := by
  -- The first piece goes on from what precedes the text, the others start after a blank.
  have pieces : ∀ escaped s first rest, cutComment? escaped s = none →
      s.splitOnP Text.isBlank = first :: rest →
      cutComment? escaped first = none ∧ ∀ v ∈ rest, CommentFree v := by
    intro escaped s
    induction s generalizing escaped with
    | nil =>
      rintro first rest - ⟨⟩
      exact ⟨rfl, nofun⟩
    | cons c s ih =>
      intro first rest free split
      obtain ⟨v, vs, later⟩ := List.exists_cons_of_ne_nil (List.splitOnP_ne_nil Text.isBlank s)
      have starts : ¬ (c = '#' ∧ escaped = false) := by
        intro starts
        simp [cutComment?, starts] at free
      rw [cutComment?_cons starts, Option.map_eq_none_iff] at free
      obtain ⟨inner, others⟩ := ih _ v vs free later
      rw [List.splitOnP_cons_eq_if_modifyHead, later] at split
      by_cases blank : Text.isBlank c = true
      · rw [if_pos blank] at split
        cases split
        have neutral : (c == '\\') = false :=
          beq_false_of_ne fun backslash => absurd (backslash ▸ blank) (by decide)
        rw [neutral] at inner
        exact ⟨rfl, List.forall_mem_cons.2 ⟨inner, others⟩⟩
      · rw [if_neg blank] at split
        cases split
        exact ⟨by rw [cutComment?_cons starts, inner]; rfl, others⟩
  obtain ⟨first, rest, split⟩ := List.exists_cons_of_ne_nil (List.splitOnP_ne_nil Text.isBlank s)
  obtain ⟨head, tail⟩ := pieces false s first rest free split
  rw [split] at member
  rcases List.mem_cons.1 member with rfl | later
  · exact head
  · exact tail w later

theorem commentFree_intercalate {ws : List (List Char)} (each : ∀ w ∈ ws, CommentFree w) :
    CommentFree ([' '].intercalate ws) := by
  induction ws with
  | nil => rfl
  | cons first rest ih =>
    obtain ⟨head, tail⟩ := List.forall_mem_cons.1 each
    by_cases last : rest = []
    · rwa [last, List.intercalate_singleton]
    · rw [List.intercalate_cons_of_ne_nil last, List.append_assoc]
      exact (commentFree_append_iff (by decide) (by decide) _ _).2 ⟨head, ih tail⟩

private theorem commentFree_replicate_append (n : Nat) (free : CommentFree s) :
    CommentFree (List.replicate n ' ' ++ s) := by
  induction n with
  | zero => exact free
  | succ n ih => exact (commentFree_cons_iff (by decide) (by decide) _).2 ih

end Comments

/-! ## Backslashes -/

/-- A comment as it is read from a line that it was written on. -/
def unescapeText (comment : String) : String := String.ofList (unescape comment.toList)

section Unescape

variable {s : List Char}

private theorem mem_of_mem_unescape {c : Char} (member : c ∈ unescape s) : c ∈ s := by
  fun_induction unescape s with
  | case1 s ih =>
    rcases List.mem_cons.1 member with rfl | later
    · simp
    · simp [ih later]
  | case2 d s _ ih =>
    rcases List.mem_cons.1 member with rfl | later
    · exact List.mem_cons_self
    · exact List.mem_cons_of_mem d (ih later)
  | case3 => exact member

theorem getLast?_unescape (s : List Char) : (unescape s).getLast? = s.getLast? := by
  fun_induction unescape s with
  | case1 s ih => simp [List.getLast?_cons, ih]
  | case2 c s _ ih => rw [List.getLast?_cons, List.getLast?_cons, ih]
  | case3 => rfl

private theorem trimmed_unescape (trimmed : Text.Trimmed s) : Text.Trimmed (unescape s) where
  starts c first := by
    unfold unescape at first
    split at first
    · cases first
      rfl
    · exact trimmed.starts c first
    · cases first
  ends c last := trimmed.ends c ((getLast?_unescape s).symm.trans last)

/-- Nothing is lost exactly where no backslash stands before a `#`. -/
theorem unescape_eq_self_iff : unescape s = s ↔ ¬ ['\\', '#'] <:+: s := by
  fun_induction unescape s with
  | case1 s ih =>
    have found : ['\\', '#'] <:+: '\\' :: '#' :: s := ⟨[], s, rfl⟩
    simp [found]
  | case2 c s other ih =>
    have apart : ¬ ['\\', '#'] <+: c :: s := by
      rintro ⟨rest, same⟩
      cases same
      exact other rest rfl rfl
    rw [List.cons.injEq, List.infix_cons_iff, ih]
    simp [apart]
  | case3 => simp

/-- A comment is kept as it is unless a mark in it stands after a backslash. -/
theorem unescapeText_eq_self_iff {comment : String} :
    unescapeText comment = comment ↔ ¬ ['\\', '#'] <:+: comment.toList := by
  rw [← unescape_eq_self_iff, ← String.toList_inj, unescapeText, String.toList_ofList]

end Unescape

/-! ## Written lines -/

/-- A word in which no comment starts. -/
structure IsToken (w : List Char) : Prop extends Text.IsWord w where
  /-- No comment starts in it. -/
  free : CommentFree w

/-- Words and a comment that can be written on a line. -/
structure Writable (ws : List (List Char)) (comment : String) : Prop where
  /-- No comment starts in a word. -/
  tokens : ∀ w ∈ ws, IsToken w
  /-- The comment has no blank at either end. -/
  trimmed : Text.Trimmed comment.toList
  /-- The comment has no line feed. -/
  whole : '\n' ∉ comment.toList

/-- A line of words and a comment that stands some levels deep. -/
def written (depth : Nat) (ws : List (List Char)) (comment : String) : String :=
  indented depth (String.ofList ([' '].intercalate ws) ++ commentSuffix comment)

section Written

variable {ws : List (List Char)} {comment : String} {raw : List Char}

/-- No comment starts in the content of a line. -/
theorem commentFree_splitComment (raw : List Char) : CommentFree (splitComment raw).1 := by
  unfold splitComment
  split
  · next content comment cut => exact (cutComment?_eq_some cut).1
  · next free => exact free

/-- The comment of a line is trimmed. -/
theorem trimmed_splitComment (raw : List Char) : Text.Trimmed (splitComment raw).2 := by
  unfold splitComment
  split
  · exact trimmed_unescape (Text.trimmed_trim _)
  · exact ⟨nofun, nofun⟩

private theorem mem_of_mem_splitComment {c : Char} (member : c ∈ (splitComment raw).2) :
    c ∈ raw := by
  unfold splitComment at member
  split at member
  · next content comment cut =>
    exact (cutComment?_eq_some cut).2 c (Text.mem_of_mem_trim (mem_of_mem_unescape member))
  · cases member

/-- The words of a text in which no comment starts. -/
theorem tokens_of_mem_words {s w : List Char} (free : CommentFree s) (member : w ∈ Text.words s) :
    IsToken w :=
  ⟨Text.mem_words member, commentFree_of_mem_splitOnP free (List.mem_filter.1 member).1⟩

/-- The words of a statement are tokens: none of them starts a comment. -/
theorem tokens_statement (raw : List Char) : ∀ w ∈ (statement raw).1, IsToken w :=
  fun _ member => tokens_of_mem_words (commentFree_splitComment raw) member

theorem trimmed_statement (raw : List Char) : Text.Trimmed (statement raw).2.toList := by
  rw [statement, String.toList_ofList]
  exact trimmed_splitComment raw

/-- What is read from a line can be written on one. -/
theorem writable_statement (whole : '\n' ∉ raw) :
    Writable (statement raw).1 (statement raw).2 where
  tokens := tokens_statement raw
  trimmed := trimmed_statement raw
  whole := by
    rw [statement, String.toList_ofList]
    exact fun feed => whole (mem_of_mem_splitComment feed)

theorem Writable.words (writable : Writable ws comment) : ∀ w ∈ ws, Text.IsWord w :=
  fun w member => (writable.tokens w member).toIsWord

theorem Writable.free (writable : Writable ws comment) : ∀ w ∈ ws, CommentFree w :=
  fun w member => (writable.tokens w member).free

theorem Writable.replace {vs : List (List Char)} (writable : Writable ws comment)
    (tokens : ∀ w ∈ vs, IsToken w) : Writable vs comment :=
  ⟨tokens, writable.trimmed, writable.whole⟩

/-- A written line is its indentation, its words with spaces between them, and its comment. -/
theorem toList_written (depth : Nat) (ws : List (List Char)) (comment : String) :
    (written depth ws comment).toList = List.replicate (4 * depth) ' ' ++
      ([' '].intercalate ws ++ (commentSuffix comment).toList) := by
  simp [written, indented]

theorem toList_commentSuffix (filled : comment ≠ "") :
    (commentSuffix comment).toList = ' ' :: '#' :: ' ' :: comment.toList := by
  rw [commentSuffix, if_neg (by simpa using filled), String.toList_append]
  rfl

/-- A content in which no comment starts is read up to the comment that is written after it, and the
comment loses its backslashes. -/
theorem statement_append_commentSuffix {content : List Char} (free : CommentFree content)
    (trimmed : Text.Trimmed comment.toList) :
    statement (content ++ (commentSuffix comment).toList) =
      (Text.words content, unescapeText comment) := by
  by_cases empty : comment = ""
  · subst empty
    have none : (commentSuffix "").toList = [] := rfl
    rw [none, List.append_nil, statement, splitComment, free]
    rfl
  · have cut := cutComment?_written free (' ' :: comment.toList)
    have noted : Text.trim (' ' :: comment.toList) = comment.toList :=
      (Text.trim_cons rfl _).trans (Text.trim_eq_self trimmed)
    -- The blank before the `#` is part of the content, but adds no word to it.
    have padded : Text.words (content ++ [' ']) = Text.words content := by
      rw [Text.words_append rfl]
      exact List.append_nil _
    rw [toList_commentSuffix empty, statement, splitComment, cut]
    simp only [padded, noted]
    rfl

/-- A written line is read as its words, and its comment loses its backslashes. -/
theorem statement_written (writable : Writable ws comment) (depth : Nat) :
    statement (written depth ws comment).toList = (ws, unescapeText comment) := by
  have free : CommentFree (List.replicate (4 * depth) ' ' ++ [' '].intercalate ws) :=
    commentFree_replicate_append _ (commentFree_intercalate writable.free)
  rw [toList_written, ← List.append_assoc, statement_append_commentSuffix free writable.trimmed,
    Text.words_replicate_append, Text.words_intercalate writable.words]

theorem isLine_indented {text : String} (depth : Nat) (whole : '\n' ∉ text.toList)
    (ends : ∀ c, text.toList.getLast? = some c → Text.isBlank c = false) :
    Text.IsLine (indented depth text).toList := by
  rw [indented, String.toList_append, String.toList_ofList]
  constructor
  · intro feed
    rcases List.mem_append.1 feed with feed | feed
    · exact absurd (List.eq_of_mem_replicate feed) (by decide)
    · exact whole feed
  · intro last
    rw [List.getLast?_append, Option.or_eq_some_iff] at last
    rcases last with last | ⟨-, last⟩
    · exact absurd (ends _ last) (by decide)
    · exact absurd (List.eq_of_mem_replicate (List.mem_of_getLast? last)) (by decide)

/-- A written line can stand among others. -/
theorem isLine_written (writable : Writable ws comment) (depth : Nat) :
    Text.IsLine (written depth ws comment).toList := by
  refine isLine_indented depth ?_ ?_ <;> rw [String.toList_append, String.toList_ofList]
  · intro feed
    rcases List.mem_append.1 feed with feed | feed
    · exact absurd ((Text.spaced_intercalate writable.words).space _ feed rfl) (by decide)
    · by_cases empty : comment = ""
      · subst empty
        cases feed
      · rw [toList_commentSuffix empty] at feed
        exact writable.whole (by simpa using feed)
  · intro c last
    by_cases empty : comment = ""
    · subst empty
      refine (Text.trimmed_words writable.words).ends c (last ▸ congrArg List.getLast? ?_)
      exact (List.append_nil _).symm
    · obtain ⟨d, rest, same⟩ := List.exists_cons_of_ne_nil (mt String.toList_eq_nil_iff.1 empty)
      rw [toList_commentSuffix empty, same, List.getLast?_append] at last
      refine writable.trimmed.ends c ?_
      rw [same]
      simpa [List.getLast?_cons] using last

/-- Every directive starts with a dash. -/
theorem directiveKey?_eq_none {dialect : Dialect} {line : List Char}
    (apart : line.head? ≠ some '-') : directiveKey? dialect line = none := by
  refine List.find?_eq_none.2 fun key _ => ?_
  obtain ⟨lead, dash⟩ : ∃ lead, key.lead = '-' :: lead := by cases key <;> exact ⟨_, rfl⟩
  simp [dash, Text.isPrefixOf_cons_eq_false lead apart]

/-- Every marker starts with a dash. -/
theorem marker?_eq_none {line : List Char} (apart : line.head? ≠ some '-') :
    marker? line = none := by
  simp [marker?, Text.isPrefixOf_cons_eq_false _ apart, Text.isPrefixOf?_cons_eq_none _ apart]

/-- An indented line declares something, unless it is not indented and starts like a directive. -/
theorem standsAt_indented {dialect : Dialect} {depth : Nat} {text : String} {c : Char}
    (starts : text.toList.head? = some c) (solid : Text.isBlank c = false)
    (apart : depth = 0 → c ≠ '-') :
    Progress.StandsAt ⟨dialect, 4⟩ (indented depth text) depth := by
  obtain ⟨rest, same⟩ := List.head?_eq_some_iff.1 starts
  have line : (indented depth text).toList = List.replicate (4 * depth) ' ' ++ c :: rest := by
    rw [indented, String.toList_append, String.toList_ofList, same]
  constructor
  · have filled : Text.isBlankText (indented depth text).toList = false := by
      rw [line, Text.isBlankText, List.all_append, List.all_cons, solid, Bool.false_and,
        Bool.and_false]
    have noKey : directiveKey? dialect (indented depth text).toList = none := by
      refine directiveKey?_eq_none ?_
      rw [line]
      cases depth with
      | zero => simpa using apart rfl
      | succ depth => simp [Nat.mul_succ, List.replicate_succ]
    rw [classify, filled, noKey]
    rfl
  · have blanks : ∀ b ∈ List.replicate (4 * depth) ' ', Text.isBlank b = true := by
      intro b member
      rw [List.eq_of_mem_replicate member]
      rfl
    rw [line, Text.indentWidth, List.takeWhile_append_of_pos blanks,
      List.takeWhile_cons_of_neg (by simp [solid]), List.append_nil, List.length_replicate,
      Nat.mul_comm]
    rfl

/-- A text that can stand among other lines and declares something at its depth. -/
structure Legible (dialect : Dialect) (depth : Nat) (text : String) : Prop where
  /-- It is one line. -/
  isLine : Text.IsLine text.toList
  /-- It stands at its depth. -/
  stands : Progress.StandsAt ⟨dialect, 4⟩ text depth

/-- A written line can be read at its depth, unless it is not indented and starts with a dash. -/
theorem legible_written {dialect : Dialect} {depth : Nat} {w : List Char}
    (writable : Writable (w :: ws) comment) (apart : depth = 0 → w.head? ≠ some '-') :
    Legible dialect depth (written depth (w :: ws) comment) := by
  refine ⟨isLine_written writable depth, ?_⟩
  have token := writable.tokens w List.mem_cons_self
  obtain ⟨c, rest, rfl⟩ := List.exists_cons_of_ne_nil token.filled
  have starts : (String.ofList ([' '].intercalate ((c :: rest) :: ws)) ++
      commentSuffix comment).toList.head? = some c := by
    rw [String.toList_append, String.toList_ofList]
    cases ws <;> rfl
  exact standsAt_indented starts (token.solid c List.mem_cons_self) fun outermost =>
    mt (congrArg some) (apart outermost)

/-- A written line is no marker, unless it starts like one. -/
theorem marker?_written {w : List Char} (writable : Writable (w :: ws) comment)
    (apart : w.head? ≠ some '-') (depth : Nat) :
    marker? (Text.trim (written depth (w :: ws) comment).toList) = none := by
  have token := writable.tokens w List.mem_cons_self
  obtain ⟨c, rest, rfl⟩ := List.exists_cons_of_ne_nil token.filled
  refine marker?_eq_none fun dash => apart ?_
  rw [toList_written, Text.trim_replicate_append] at dash
  have first := Text.head?_trimStart_of_trim dash
  have solid : ¬ Text.isBlank c = true := by simp [token.solid c List.mem_cons_self]
  cases ws <;> simpa [Text.trimStart, solid] using first

end Written

end ApiOutline.Outline
