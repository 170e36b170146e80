import ApiOutline.Text.Lines
import ApiOutline.Text.Split
import Mathlib.Data.List.Chain

/-!
Cutting a text and writing its parts one after the other again.

A text that is put together from words, from items or from lines is taken apart into the same ones,
as long as none of them holds what separates them.  The other way round only spacing is lost: a text
whose blanks are single spaces between words is put together from its words again.
-/

namespace ApiOutline.Text

/-! ## Trimming -/

/-- A text with no blank at either end. -/
structure Trimmed (s : List Char) : Prop where
  /-- It does not start with a blank. -/
  starts : ∀ c, s.head? = some c → isBlank c = false
  /-- It does not end with a blank. -/
  ends : ∀ c, s.getLast? = some c → isBlank c = false

section Trim

variable {s : List Char} {c : Char}

private theorem dropWhile_of_head (starts : ∀ c, s.head? = some c → isBlank c = false) :
    s.dropWhile isBlank = s := by
  cases s with
  | nil => rfl
  | cons c s => exact List.dropWhile_cons_of_neg (by simp [starts c rfl])

/-- A trimmed text stays as it is. -/
theorem trim_eq_self (trimmed : Trimmed s) : trim s = s := by
  have ends : ∀ c, s.reverse.head? = some c → isBlank c = false := by
    rw [List.head?_reverse]
    exact trimmed.ends
  rw [trim, trimStart, dropWhile_of_head trimmed.starts, trimEnd, dropWhile_of_head ends,
    List.reverse_reverse]

private theorem isPrefix_trimEnd (s : List Char) : trimEnd s <+: s := by
  rw [← List.reverse_suffix, trimEnd, List.reverse_reverse]
  exact List.dropWhile_suffix isBlank

/-- The end of a text is trimmed without touching its start. -/
theorem head?_trimStart_of_trim (first : (trim s).head? = some c) :
    (trimStart s).head? = some c := by
  obtain ⟨rest, whole⟩ := isPrefix_trimEnd (trimStart s)
  rw [← whole, List.head?_append, ← trim, first]
  rfl

theorem trimmed_trim (s : List Char) : Trimmed (trim s) where
  starts c first := trimStart_head (head?_trimStart_of_trim first)
  ends c last := by
    rw [trim, trimEnd, List.getLast?_reverse] at last
    exact trimStart_head last

/-- A text is trimmed exactly if trimming does nothing to it. -/
theorem trimmed_iff : Trimmed s ↔ trim s = s :=
  ⟨trim_eq_self, fun same => same ▸ trimmed_trim s⟩

instance (s : List Char) : Decidable (Trimmed s) := decidable_of_iff' _ trimmed_iff

theorem isInfix_trim (s : List Char) : trim s <:+: s :=
  (isPrefix_trimEnd _).isInfix.trans (List.dropWhile_suffix isBlank).isInfix

theorem mem_of_mem_trim (member : c ∈ trim s) : c ∈ s := (isInfix_trim s).subset member

theorem trim_cons (blank : isBlank c = true) (s : List Char) : trim (c :: s) = trim s := by
  rw [trim, trim, trimStart, trimStart, List.dropWhile_cons_of_pos blank]

theorem trim_blank_append {blanks : List Char} (blank : ∀ c ∈ blanks, isBlank c = true)
    (s : List Char) : trim (blanks ++ s) = trim s := by
  rw [trim, trimStart, List.dropWhile_append_of_pos blank, ← trimStart, ← trim]

theorem trim_replicate_append (n : Nat) (s : List Char) :
    trim (List.replicate n ' ' ++ s) = trim s := by
  refine trim_blank_append ?_ s
  intro c member
  rw [List.eq_of_mem_replicate member]
  rfl

end Trim

@[simp]
theorem isPrefixOf?_append (lead s : List Char) : lead.isPrefixOf? (lead ++ s) = some s :=
  List.isPrefixOf?_eq_some_iff_append_eq.2 rfl

theorem isPrefixOf?_eq_none_iff {lead s : List Char} :
    lead.isPrefixOf? s = none ↔ lead.isPrefixOf s = false := by
  rw [← List.isSome_isPrefixOf?_eq_isPrefixOf, Option.isSome_eq_false_iff,
    Option.isNone_iff_eq_none]

/-- No text starts with another one that starts differently. -/
theorem isPrefixOf_cons_eq_false {c : Char} {s : List Char} (lead : List Char)
    (apart : s.head? ≠ some c) : (c :: lead).isPrefixOf s = false := by
  refine Bool.eq_false_iff.2 fun starts => apart ?_
  obtain ⟨rest, rfl⟩ := List.isPrefixOf_iff_prefix.1 starts
  rfl

theorem isPrefixOf?_cons_eq_none {c : Char} {s : List Char} (lead : List Char)
    (apart : s.head? ≠ some c) : (c :: lead).isPrefixOf? s = none :=
  isPrefixOf?_eq_none_iff.2 (isPrefixOf_cons_eq_false lead apart)

/-! ## Separators -/

/-- A cut of a list with one more element is at that element or before it. -/
theorem concat_eq_append_cons_iff {α : Type} {xs front back : List α} {x y : α} :
    xs ++ [x] = front ++ y :: back ↔
      (back = [] ∧ xs = front ∧ x = y) ∨ ∃ rest, back = rest ++ [x] ∧ xs = front ++ y :: rest := by
  constructor
  · intro same
    rcases List.eq_nil_or_concat' back with rfl | ⟨rest, last, rfl⟩
    · obtain ⟨rfl, alike⟩ := List.append_inj' same rfl
      exact .inl ⟨rfl, rfl, (List.cons.inj alike).1⟩
    · rw [← List.cons_append, ← List.append_assoc] at same
      obtain ⟨rfl, alike⟩ := List.append_inj' same rfl
      exact .inr ⟨rest, by rw [alike], rfl⟩
  · rintro (⟨rfl, rfl, rfl⟩ | ⟨rest, rfl, rfl⟩)
    · rfl
    · simp

section Separators

variable {p : Char → Bool} {c separator : Char} {s w : List Char}

/-- A piece holds no separator, and nothing that the text does not hold. -/
theorem mem_splitOnP (member : w ∈ s.splitOnP p) : ∀ c ∈ w, p c = false ∧ c ∈ s := by
  induction s generalizing w with
  | nil =>
    obtain rfl : w = [] := by simpa using member
    nofun
  | cons c s ih =>
    have later : ∀ v ∈ s.splitOnP p, ∀ d ∈ v, p d = false ∧ d ∈ c :: s :=
      fun v found d inside => (ih found d inside).imp_right (List.mem_cons_of_mem c)
    rw [List.splitOnP_cons_eq_if_modifyHead] at member
    split at member
    · rcases List.mem_cons.1 member with rfl | found
      · nofun
      · exact later w found
    · next plain =>
      obtain ⟨v, vs, pieces⟩ := List.exists_cons_of_ne_nil (List.splitOnP_ne_nil p s)
      rw [pieces] at member later
      rcases List.mem_cons.1 member with rfl | found
      · exact List.forall_mem_cons.2
          ⟨⟨by simpa using plain, List.mem_cons_self⟩, later v List.mem_cons_self⟩
      · exact later w (List.mem_cons_of_mem v found)

private theorem splitOnP_congr {q : Char → Bool} (same : ∀ c ∈ s, p c = q c) :
    s.splitOnP p = s.splitOnP q := by
  induction s with
  | nil => rw [List.splitOnP_nil, List.splitOnP_nil]
  | cons c s ih =>
    obtain ⟨first, rest⟩ := List.forall_mem_cons.1 same
    rw [List.splitOnP_cons_eq_if_modifyHead, List.splitOnP_cons_eq_if_modifyHead, first, ih rest]

/-- Two filled rows of texts are joined with one more separator between them. -/
theorem intercalate_append (separator : List Char) {parts more : List (List Char)}
    (some : parts ≠ []) (others : more ≠ []) :
    separator.intercalate (parts ++ more) =
      separator.intercalate parts ++ (separator ++ separator.intercalate more) := by
  induction parts with
  | nil => exact absurd rfl some
  | cons first rest ih =>
    by_cases last : rest = []
    · rw [last, List.singleton_append, List.intercalate_cons_of_ne_nil others, List.append_assoc,
        List.intercalate_singleton]
    · rw [List.cons_append, List.intercalate_cons_of_ne_nil (by simp [last]), ih last,
        List.intercalate_cons_of_ne_nil last, List.append_assoc _ (separator.intercalate rest)]

/-- A text is cut at the first character that satisfies `p`. -/
theorem cutWhere?_eq_some_iff {before after : List Char} :
    cutWhere? p s = some (before, after) ↔
      ∃ c, p c = true ∧ s = before ++ c :: after ∧ ∀ d ∈ before, p d = false := by
  induction s generalizing before with
  | nil => simp [cutWhere?]
  | cons c s ih =>
    by_cases found : p c = true
    · rw [cutWhere?, if_pos found]
      constructor
      · rintro ⟨⟩
        exact ⟨c, found, rfl, List.forall_mem_nil _⟩
      · rintro ⟨d, -, same, plain⟩
        cases before with
        | nil => cases same; rfl
        | cons e before =>
          cases same
          simp [plain c List.mem_cons_self] at found
    · rw [cutWhere?, if_neg found, Option.map_eq_some_iff]
      constructor
      · rintro ⟨⟨inner, rest⟩, cut, same⟩
        cases same
        obtain ⟨d, isCut, rfl, plain⟩ := ih.1 cut
        exact ⟨d, isCut, rfl, List.forall_mem_cons.2 ⟨Bool.eq_false_iff.2 found, plain⟩⟩
      · rintro ⟨d, isCut, same, plain⟩
        cases before with
        | nil =>
          cases same
          exact absurd isCut found
        | cons e before =>
          cases same
          have inner := ih.2 ⟨d, isCut, rfl, (List.forall_mem_cons.1 plain).2⟩
          exact ⟨(before, after), inner, rfl⟩

/-- A text is not cut if none of its characters satisfies `p`. -/
theorem cutWhere?_eq_none_iff : cutWhere? p s = none ↔ ∀ c ∈ s, p c = false := by
  induction s with
  | nil => simp [cutWhere?]
  | cons c s ih =>
    rw [cutWhere?, List.forall_mem_cons, ← ih]
    by_cases found : p c = true <;> simp [found]

/-- A text is cut at the first separator. -/
theorem cut?_eq_some_iff {before after : List Char} :
    cut? separator s = some (before, after) ↔
      s = before ++ separator :: after ∧ separator ∉ before := by
  rw [cut?, cutWhere?_eq_some_iff]
  simp only [beq_iff_eq, beq_eq_false_iff_ne, exists_eq_left]
  exact and_congr_right fun _ => ⟨fun plain member => plain separator member rfl,
    fun absent c member same => absent (same ▸ member)⟩

theorem intercalate_ne_nil (separator : List Char) {first : List Char} (filled : first ≠ [])
    (rest : List (List Char)) : separator.intercalate (first :: rest) ≠ [] := by
  cases rest with
  | nil => rwa [List.intercalate_singleton]
  | cons second rest => simp [List.intercalate_cons_cons, filled]

/-- Joining adds no character but those of the separator. -/
theorem mem_of_mem_intercalate {separator : List Char} {parts : List (List Char)}
    (member : c ∈ separator.intercalate parts) : c ∈ separator ∨ ∃ w ∈ parts, c ∈ w := by
  induction parts with
  | nil => cases member
  | cons first rest ih =>
    by_cases last : rest = []
    · rw [last, List.intercalate_singleton] at member
      exact .inr ⟨first, List.mem_cons_self, member⟩
    · rw [List.intercalate_cons_of_ne_nil last, List.mem_append, List.mem_append] at member
      rcases member with (member | member) | member
      · exact .inr ⟨first, List.mem_cons_self, member⟩
      · exact .inl member
      · exact (ih member).imp_right fun ⟨w, inside, found⟩ =>
          ⟨w, List.mem_cons_of_mem first inside, found⟩

/-- Trimmed texts that are joined neither start nor end with a blank. -/
theorem trimmed_intercalate (separator : List Char) {parts : List (List Char)}
    (each : ∀ w ∈ parts, w ≠ [] ∧ Trimmed w) : Trimmed (separator.intercalate parts) := by
  induction parts with
  | nil => exact ⟨nofun, nofun⟩
  | cons first rest ih =>
    obtain ⟨⟨filled, trimmed⟩, restEach⟩ := List.forall_mem_cons.1 each
    by_cases last : rest = []
    · rwa [last, List.intercalate_singleton]
    · have joined : separator.intercalate rest ≠ [] := by
        obtain ⟨second, others, rfl⟩ := List.exists_cons_of_ne_nil last
        exact intercalate_ne_nil separator (restEach second List.mem_cons_self).1 others
      obtain ⟨c, first, rfl⟩ := List.exists_cons_of_ne_nil filled
      rw [List.intercalate_cons_of_ne_nil last]
      refine ⟨fun d found => trimmed.starts d found, fun d found => ?_⟩
      rw [List.getLast?_append, Option.or_eq_some_iff] at found
      rcases found with found | ⟨none, -⟩
      · exact (ih restEach).ends d found
      · exact absurd (List.getLast?_eq_none_iff.1 none) joined

end Separators

/-! ## Marks -/

section Marks

variable {mark s t rest : List Char}

/-- A text before a mark is found if it does not hold the first character of the mark. -/
theorem before?_append {first : Char} (apart : first ∉ s) (mark rest : List Char) :
    before? (first :: mark) (s ++ (first :: mark ++ rest)) = some s := by
  induction s with
  | nil => simp [before?]
  | cons c s ih =>
    obtain ⟨differ, later⟩ := not_or.1 (mt List.mem_cons.2 apart)
    have missing : (first :: mark).isPrefixOf (c :: (s ++ (first :: mark ++ rest))) = false := by
      rw [List.isPrefixOf_cons_cons, beq_false_of_ne differ, Bool.false_and]
    rw [List.cons_append, before?, missing, ih later]
    rfl

/-- Nothing stands after a mark that does not occur. -/
theorem afterLast?_eq_none_iff : afterLast? mark s = none ↔ ¬ mark <:+: s := by
  induction s with
  | nil =>
    cases mark with
    | nil => simp [afterLast?, List.isPrefixOf?]
    | cons first mark => simp [afterLast?, List.isPrefixOf?]
  | cons c s ih =>
    have here : mark.isPrefixOf? (c :: s) = none ↔ ¬ mark <+: c :: s := by
      rw [← List.isPrefixOf_iff_prefix, Bool.not_eq_true, isPrefixOf?_eq_none_iff]
    rw [afterLast?, List.infix_cons_iff, not_or, ← ih, ← here]
    cases afterLast? mark s <;> simp

/-- What follows the last mark: no other mark starts after the start of that one. -/
theorem afterLast?_eq_some_iff (filled : mark ≠ []) :
    afterLast? mark s = some rest ↔
      ∃ before, s = before ++ (mark ++ rest) ∧ ¬ mark <:+: (mark ++ rest).tail := by
  induction s with
  | nil => simp [afterLast?, filled]
  | cons c s ih =>
    rcases later : afterLast? mark s with _ | found
    · have absent := afterLast?_eq_none_iff.1 later
      rw [afterLast?, later]
      simp only [List.isPrefixOf?_eq_some_iff_append_eq, eq_comm (b := c :: s)]
      constructor
      · intro same
        exact ⟨[], same, by rw [← same]; exact absent⟩
      · rintro ⟨before, same, -⟩
        cases before with
        | nil => exact same
        | cons d before =>
          cases same
          exact absurd ⟨before, rest, by simp⟩ absent
    · rw [later] at ih
      rw [afterLast?, later]
      simp only [ih]
      constructor
      · rintro ⟨before, rfl, last⟩
        exact ⟨c :: before, rfl, last⟩
      · rintro ⟨before, same, last⟩
        cases before with
        | nil =>
          -- The text would start with the last mark, but there is a later one.
          rw [List.nil_append] at same
          rw [← same, List.tail_cons, ← afterLast?_eq_none_iff, later] at last
          cases last
        | cons d before =>
          cases same
          exact ⟨before, rfl, last⟩

/-- A mark starts in no text that does not hold its first character. -/
theorem afterLast?_append_of_not_mem {first : Char} (apart : first ∉ s) (mark t : List Char) :
    afterLast? (first :: mark) (s ++ t) = afterLast? (first :: mark) t := by
  induction s with
  | nil => rfl
  | cons c s ih =>
    obtain ⟨differ, later⟩ := not_or.1 (mt List.mem_cons.2 apart)
    rw [List.cons_append, afterLast?, ih later, List.isPrefixOf?,
      if_neg (by simpa using differ)]
    cases afterLast? (first :: mark) t <;> rfl

end Marks

/-! ## Words -/

/-- A word: something, and no blank in it. -/
structure IsWord (w : List Char) : Prop where
  /-- It is not empty. -/
  filled : w ≠ []
  /-- It has no blank. -/
  solid : ∀ c ∈ w, isBlank c = false

section Words

variable {c : Char} {s w : List Char} {ws : List (List Char)}

theorem mem_words (member : w ∈ words s) : IsWord w where
  filled := by simpa using (List.mem_filter.1 member).2
  solid c inside := (mem_splitOnP (List.mem_filter.1 member).1 c inside).1

theorem isWord_of_any (filled : w.isEmpty = false) (solid : w.any isBlank = false) : IsWord w where
  filled := List.isEmpty_eq_false_iff.1 filled
  solid c member := Bool.eq_false_iff.2 (List.any_eq_false.1 solid c member)

/-- What stands before a blank and what stands after it are read on their own. -/
theorem words_append (blank : isBlank c = true) (before after : List Char) :
    words (before ++ c :: after) = words before ++ words after := by
  rw [words, List.splitOnP_append_cons _ _ blank, List.filter_append, words, words]

theorem words_cons (blank : isBlank c = true) (s : List Char) : words (c :: s) = words s :=
  words_append blank [] s

theorem words_replicate_append (n : Nat) (s : List Char) :
    words (List.replicate n ' ' ++ s) = words s := by
  induction n with
  | zero => rfl
  | succ n ih => exact (words_cons rfl _).trans ih

/-- A word is read as itself. -/
theorem IsWord.words_eq (word : IsWord w) : words w = [w] := by
  rw [words, List.splitOnP_eq_singleton word.solid]
  simp [word.filled]

/-- Words are read as they were joined. -/
theorem words_intercalate (each : ∀ w ∈ ws, IsWord w) : words ([' '].intercalate ws) = ws := by
  induction ws with
  | nil => rfl
  | cons first rest ih =>
    obtain ⟨word, others⟩ := List.forall_mem_cons.1 each
    by_cases last : rest = []
    · rw [last, List.intercalate_singleton, word.words_eq]
    · rw [List.intercalate_cons_of_ne_nil last, List.append_assoc, List.singleton_append,
        words_append rfl, word.words_eq, ih others, List.singleton_append]

/-- What starts with a word still does so once it is joined from its words. -/
theorem intercalate_words_append (word : IsWord w) (s : List Char) :
    ∃ rest, [' '].intercalate (words (w ++ s)) = w ++ rest := by
  have longer : ∀ t, (∀ c ∈ t, isBlank c = false) → IsWord (w ++ t) := fun t solid =>
    ⟨by simp [word.filled], List.forall_mem_append.2 ⟨word.solid, solid⟩⟩
  rcases cut : cutWhere? isBlank s with _ | ⟨before, after⟩
  · exact ⟨s, by rw [(longer s (cutWhere?_eq_none_iff.1 cut)).words_eq, List.intercalate_singleton]⟩
  · obtain ⟨c, blank, rfl, solid⟩ := cutWhere?_eq_some_iff.1 cut
    rw [← List.append_assoc, words_append blank, (longer before solid).words_eq,
      List.singleton_append]
    by_cases none : words after = []
    · exact ⟨before, by rw [none, List.intercalate_singleton]⟩
    · exact ⟨_, by rw [List.intercalate_cons_of_ne_nil none, List.append_assoc, List.append_assoc]⟩

theorem IsWord.trimmed (word : IsWord w) : Trimmed w where
  starts c first := word.solid c (List.mem_of_head? first)
  ends c last := word.solid c (List.mem_of_getLast? last)

theorem trimmed_words (each : ∀ w ∈ ws, IsWord w) : Trimmed ([' '].intercalate ws) :=
  trimmed_intercalate [' '] fun w member => ⟨(each w member).filled, (each w member).trimmed⟩

/-! ## Single spaces -/

/-- A text whose blanks are single spaces. -/
structure Spaced (s : List Char) : Prop where
  /-- No blank follows another. -/
  single : s.IsChain fun a b => isBlank a = true → isBlank b = false
  /-- Every blank is a space. -/
  space : ∀ c ∈ s, isBlank c = true → c = ' '

theorem spaced_iff : Spaced s ↔ (s.IsChain fun a b => isBlank a = true → isBlank b = false) ∧
    (s.all fun c => !isBlank c || c == ' ') = true := by
  rw [List.all_eq_true]
  constructor
  · intro spaced
    refine ⟨spaced.single, fun c member => ?_⟩
    cases blank : isBlank c with
    | false => rfl
    | true => exact beq_iff_eq.2 (spaced.space c member blank)
  · rintro ⟨single, each⟩
    refine ⟨single, fun c member blank => ?_⟩
    have space := each c member
    rw [blank] at space
    exact beq_iff_eq.1 space

instance (s : List Char) : Decidable (Spaced s) := decidable_of_iff' _ spaced_iff

/-- Spacing is kept in every part of a text. -/
theorem Spaced.inner {inner : List Char} (spaced : Spaced s) (inside : inner <:+: s) :
    Spaced inner where
  single := List.IsChain.infix spaced.single inside
  space c member := spaced.space c (inside.subset member)

theorem IsWord.spaced (word : IsWord w) : Spaced w where
  single := by
    have solid := word.solid
    clear word
    induction w with
    | nil => exact .nil
    | cons c w ih =>
      obtain ⟨first, rest⟩ := List.forall_mem_cons.1 solid
      exact List.isChain_cons.2 ⟨fun _ _ blank => by simp [first] at blank, ih rest⟩
  space c member blank := by simp [word.solid c member] at blank

/-- Spacing is kept where one of two texts that meet has no blank at the seam. -/
theorem Spaced.append {t : List Char} (first : Spaced s) (second : Spaced t)
    (seam : (∀ c, s.getLast? = some c → isBlank c = false) ∨
      ∀ c, t.head? = some c → isBlank c = false) : Spaced (s ++ t) where
  single := by
    refine List.isChain_append.2 ⟨first.single, second.single, fun a last b head blank => ?_⟩
    rcases seam with seam | seam
    · simp [seam a last] at blank
    · exact seam b head
  space c member := by
    rcases List.mem_append.1 member with member | member
    · exact first.space c member
    · exact second.space c member

/-- Words that are joined are single spaces apart. -/
theorem spaced_intercalate (each : ∀ w ∈ ws, IsWord w) : Spaced ([' '].intercalate ws) := by
  induction ws with
  | nil => exact ⟨.nil, nofun⟩
  | cons first rest ih =>
    obtain ⟨word, restWords⟩ := List.forall_mem_cons.1 each
    by_cases last : rest = []
    · rw [last, List.intercalate_singleton]
      exact word.spaced
    · rw [List.intercalate_cons_of_ne_nil last]
      have space : Spaced [' '] := ⟨.singleton ' ', fun c member _ => List.mem_singleton.1 member⟩
      exact (word.spaced.append space (.inl word.trimmed.ends)).append (ih restWords)
        (.inr (trimmed_words restWords).starts)

/-- Where every blank is a space, a text is split at spaces. -/
theorem Spaced.splitOnP_eq_splitOn (spaced : Spaced s) : s.splitOnP isBlank = s.splitOn ' ' := by
  rw [List.splitOn_eq_splitOnP]
  refine splitOnP_congr fun c member => Bool.eq_iff_iff.2 ⟨fun blank => ?_, fun space => ?_⟩
  · exact beq_iff_eq.2 (spaced.space c member blank)
  · rw [beq_iff_eq.1 space]
    rfl

/-- Between single spaces there is always something. -/
private theorem splitOnP_spaced
    (single : s.IsChain fun a b => isBlank a = true → isBlank b = false)
    (ends : ∀ c, s.getLast? = some c → isBlank c = false) :
    (∀ w ∈ (s.splitOnP isBlank).tail, w ≠ []) ∧
      ∀ c, s.head? = some c → isBlank c = false → (s.splitOnP isBlank).head? ≠ some [] := by
  induction s with
  | nil => exact ⟨nofun, nofun⟩
  | cons c s ih =>
    obtain ⟨next, single⟩ := List.isChain_cons.1 single
    have later : ∀ d, s.getLast? = some d → isBlank d = false :=
      fun d last => ends d (List.mem_getLast?_cons last)
    obtain ⟨tail, head⟩ := ih single later
    obtain ⟨w, ws, pieces⟩ := List.exists_cons_of_ne_nil (List.splitOnP_ne_nil isBlank s)
    rw [pieces] at tail head
    rw [List.splitOnP_cons_eq_if_modifyHead, pieces]
    by_cases blank : isBlank c = true
    · rw [if_pos blank]
      refine ⟨List.forall_mem_cons.2 ⟨?_, tail⟩, ?_⟩
      · -- A blank is never last, so a character follows it, and that one is no blank.
        cases s with
        | nil => simp [ends c rfl] at blank
        | cons d s => exact fun empty => head d rfl (next d rfl blank) (congrArg some empty)
      · rintro d ⟨⟩ plain
        simp [plain] at blank
    · rw [if_neg blank]
      exact ⟨tail, fun _ _ _ => by simp⟩

/-- A trimmed text whose blanks are single spaces is its words, joined. -/
theorem intercalate_words (spaced : Spaced s) (trimmed : Trimmed s) (filled : s ≠ []) :
    [' '].intercalate (words s) = s := by
  obtain ⟨tail, head⟩ := splitOnP_spaced spaced.single trimmed.ends
  obtain ⟨c, rest, rfl⟩ := List.exists_cons_of_ne_nil filled
  have whole : words (c :: rest) = (c :: rest).splitOnP isBlank := by
    obtain ⟨w, ws, pieces⟩ := List.exists_cons_of_ne_nil (List.splitOnP_ne_nil isBlank (c :: rest))
    rw [pieces] at tail head
    rw [words, pieces]
    refine List.filter_eq_self.2 fun v member => ?_
    rcases List.mem_cons.1 member with rfl | later
    · simpa using head c rfl (trimmed.starts c rfl)
    · simpa using tail v later
  rw [whole, spaced.splitOnP_eq_splitOn, List.intercalate_splitOn]

end Words

/-! ## Comma lists -/

/-- An entry of a comma list. -/
structure IsItem (item : List Char) : Prop where
  /-- It is not empty. -/
  filled : item ≠ []
  /-- It has no blank at either end. -/
  trimmed : Trimmed item
  /-- It has no comma. -/
  whole : ',' ∉ item

section Items

variable {c : Char} {s item : List Char} {items : List (List Char)}

/-- What is read as an entry is one, and is a part of the text. -/
theorem mem_commaItems (member : item ∈ commaItems s) : IsItem item ∧ ∀ c ∈ item, c ∈ s := by
  obtain ⟨found, filled⟩ := List.mem_filter.1 member
  obtain ⟨piece, inside, rfl⟩ := List.mem_map.1 found
  rw [List.splitOn_eq_splitOnP] at inside
  have chars := mem_splitOnP inside
  refine ⟨⟨by simpa using filled, trimmed_trim piece, fun comma => ?_⟩, fun c kept => ?_⟩
  · simpa using (chars ',' (mem_of_mem_trim comma)).1
  · exact (chars c (mem_of_mem_trim kept)).2

/-- Entries are read as they were joined. -/
theorem commaItems_intercalate (each : ∀ item ∈ items, IsItem item) :
    commaItems ([','].intercalate items) = items := by
  by_cases none : items = []
  · rw [none]
    rfl
  · have trimmed : items.map trim = items :=
      (List.map_congr_left fun item member => trim_eq_self (each item member).trimmed).trans
        (List.map_id' items)
    rw [commaItems, List.splitOn_intercalate ',' (fun item member => (each item member).whole) none,
      trimmed]
    exact List.filter_eq_self.2 fun item member => by simpa using (each item member).filled

/-- A blank in front of a comma list makes no difference. -/
theorem commaItems_cons (blank : isBlank c = true) (plain : c ≠ ',') (s : List Char) :
    commaItems (c :: s) = commaItems s := by
  obtain ⟨w, ws, same⟩ := List.exists_cons_of_ne_nil (List.splitOn_ne_nil ',' s)
  have first : (c :: s).splitOn ',' = (c :: w) :: ws := by
    rw [List.splitOn_cons_eq_if_modifyHead, if_neg (by simpa using plain), same,
      List.modifyHead_cons]
  rw [commaItems, commaItems, first, same, List.map_cons, List.map_cons, trim_cons blank]

end Items

/-! ## Lines -/

/-- A text that can stand on a line of its own: its end is not taken for a part of the ending. -/
structure IsLine (s : List Char) : Prop where
  /-- It has no line feed. -/
  whole : '\n' ∉ s
  /-- It does not end with a carriage return. -/
  ends : s.getLast? ≠ some '\r'

section Lines

variable {s line : List Char}

theorem splitLines_cons {c : Char} (plain : c ≠ '\n')
    (apart : c = '\r' → s.head? ≠ some '\n') :
    splitLines (c :: s) = consLine c (splitLines s) := by
  rw [splitLines]
  · exact plain
  · rintro rest rfl rfl
    exact apart rfl rfl

private theorem splitLines_append (isLine : IsLine line) (rest : List Char) :
    splitLines (line ++ '\n' :: rest) = line :: splitLines rest := by
  induction line with
  | nil => rfl
  | cons c line ih =>
    obtain ⟨plain, whole⟩ := not_or.1 (mt List.mem_cons.2 isLine.whole)
    have later : IsLine line := ⟨whole, fun last => isLine.ends (List.mem_getLast?_cons last)⟩
    -- A carriage return belongs to the ending only right before the line feed.
    have apart : c = '\r' → (line ++ '\n' :: rest).head? ≠ some '\n' := by
      rintro rfl
      cases line with
      | nil => exact absurd rfl isLine.ends
      | cons d line => exact fun feed => whole (Option.some.inj feed ▸ List.mem_cons_self)
    rw [List.cons_append, splitLines_cons (Ne.symm plain) apart, ih later]
    rfl

/-- A line holds no line feed. -/
theorem not_mem_of_mem_splitLines (member : line ∈ splitLines s) : '\n' ∉ line := by
  fun_induction splitLines s generalizing line with
  | case1 => cases member
  | case2 s ih | case3 s ih =>
    rcases List.mem_cons.1 member with rfl | later
    · nofun
    · exact ih later
  | case4 c s plain apart ih =>
    have differs : '\n' ≠ c := fun same => plain same.symm
    cases lines : splitLines s with
    | nil =>
      rw [lines] at member
      rw [List.mem_singleton.1 member]
      simpa using differs
    | cons first rest =>
      rw [lines] at member ih
      rcases List.mem_cons.1 member with rfl | later
      · exact fun feed => (List.mem_cons.1 feed).elim differs (ih List.mem_cons_self)
      · exact ih (List.mem_cons_of_mem first later)

/-- Lines are read as they were written. -/
theorem lines_join {written : List String} (each : ∀ line ∈ written, IsLine line.toList) :
    lines (String.join (written.map (· ++ "\n"))) = written := by
  have split : splitLines (String.join (written.map (· ++ "\n"))).toList =
      written.map String.toList := by
    rw [String.toList_join]
    induction written with
    | nil => rfl
    | cons line written ih =>
      obtain ⟨first, rest⟩ := List.forall_mem_cons.1 each
      simp only [List.map_cons, List.flatMap_cons, String.toList_append]
      rw [← ih rest, ← splitLines_append first, List.append_assoc]
      rfl
  rw [lines, split, List.map_map]
  exact List.map_id'' (fun line => String.ofList_toList) written

end Lines

end ApiOutline.Text
