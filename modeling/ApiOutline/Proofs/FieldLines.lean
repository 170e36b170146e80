import ApiOutline.Proofs.Blanks
import ApiOutline.Proofs.Ident
import ApiOutline.Proofs.Rendering

/-!
Single field lines: which fields are read again from the line that is written for them.

Nothing is quoted when a field is written, except for the two quotes around its rule.  Its line is
then read by a search for the comment, by a cut at every blank and by a search for the quotes, so a
part of a field may not have what ends it.  The fields that come back as they were are described
here by their parts alone (`field_line_read_iff`): those of a request with their rule, those of a
response without it.
-/

namespace ApiOutline

namespace Outline

/-! ## Comment marks -/

/-- A text in which every `#` directly follows a backslash. -/
def Escaped (s : List Char) : Prop :=
  ∀ before after, s = before ++ '#' :: after → before.getLast? = some '\\'

section Marks

variable {escaped : Bool} {c : Char} {s content comment : List Char}

/-- No comment starts in a text exactly if a backslash stands before every `#`.  For a `#` at the
start, this is up to what precedes the text. -/
theorem cutComment?_eq_none_iff : cutComment? escaped s = none ↔
    ∀ before after, s = before ++ '#' :: after →
      (before.getLast?.map (· == '\\')).getD escaped = true := by
  induction s generalizing escaped with
  | nil => simp [cutComment?]
  | cons c s ih =>
    by_cases starts : c = '#' ∧ escaped = false
    · obtain ⟨rfl, rfl⟩ := starts
      refine iff_of_false (by simp [cutComment?]) fun each => ?_
      exact absurd (each [] s rfl) (by decide)
    · rw [cutComment?_cons starts, Option.map_eq_none_iff, ih]
      constructor
      · rintro each (_ | ⟨d, before⟩) after same
        · cases same
          simpa using starts
        · cases same
          rw [getLast?_cons_escapes]
          exact each before after rfl
      · rintro each before after rfl
        rw [← getLast?_cons_escapes escaped]
        exact each (c :: before) after rfl

/-- A text is free of comments exactly if each mark in it follows a backslash. -/
theorem commentFree_iff_escaped : CommentFree s ↔ Escaped s := by
  rw [CommentFree, cutComment?_eq_none_iff]
  refine forall₃_congr fun before after _ => ?_
  cases before.getLast? <;> simp

instance (s : List Char) : Decidable (Escaped s) :=
  decidable_of_iff (cutComment? false s = none) commentFree_iff_escaped

/-- The comment of a text goes on in what follows the text. -/
theorem cutComment?_append_of_some (cut : cutComment? escaped s = some (content, comment))
    (t : List Char) : cutComment? escaped (s ++ t) = some (content, comment ++ t) := by
  obtain ⟨rfl, free, ends⟩ := cutComment?_eq_some_iff.1 cut
  refine cutComment?_eq_some_iff.2 ⟨?_, free, ends⟩
  rw [List.append_assoc, List.cons_append]

/-- Removing backslashes removes nothing else. -/
theorem count_unescape (other : c ≠ '\\') (s : List Char) : (unescape s).count c = s.count c := by
  fun_induction unescape s with
  | case1 s ih => simp [List.count_cons, ih, other.symm]
  | case2 d s _ ih => rw [List.count_cons, List.count_cons, ih]
  | case3 => rfl

end Marks

end Outline

/-! ## Fields -/

/-- What a line can say about a field, apart from its rule. -/
structure FieldDecl.Declarable (d : FieldDecl) : Prop where
  name : Ident.isValid d.name = true
  declaredType : Text.IsWord d.declaredType.toList
  escaped : Outline.Escaped d.declaredType.toList
  resolvedType : d.resolvedType = (TypeToken.resolve d.declaredType).target
  isNested : d.isNested = (TypeToken.resolve d.declaredType).isNested
  isArray : d.isArray = (FieldDecl.ofTypes d.name d.declaredType d.resolvedType).isArray
  comment : Text.Trimmed d.comment.toList
  /-- A backslash before a `#` would be lost. -/
  plain : ¬ ['\\', '#'] <:+: d.comment.toList

namespace Outline

variable {scope : Scope} {d : FieldDecl} {rule : String}

private theorem isToken_of_isValid {name : String} (valid : Ident.isValid name = true) :
    IsToken name.toList := by
  refine ⟨Ident.isWord valid, commentFree_iff_escaped.2 fun before after same => ?_⟩
  have absent : '#' ∉ name.toList := Ident.not_mem_of_isTail_eq_false valid (by decide)
  exact absurd (by simp [same]) absent

/-- The words and the comment of a line that is written for a field. -/
theorem statement_render (named : IsToken d.name.toList) (typed : IsToken d.declaredType.toList)
    (free : CommentFree d.rule.toList) (trimmed : Text.Trimmed d.comment.toList) :
    statement d.render.toList = (d.name.toList :: d.declaredType.toList ::
      Text.words (flagWord d.required ++ ruleText d.rule), unescapeText d.comment) := by
  have content : CommentFree (d.name.toList ++ ' ' :: (d.declaredType.toList ++ ' ' ::
      (flagWord d.required ++ ruleText d.rule))) := by
    refine (commentFree_append_iff (by decide) (by decide) _ _).2 ⟨named.free, ?_⟩
    refine (commentFree_append_iff (by decide) (by decide) _ _).2 ⟨typed.free, ?_⟩
    exact commentFree_flags free d.required
  rw [toList_render, statement_append_commentSuffix content trimmed, Text.words_append rfl,
    Text.words_append rfl, named.words_eq, typed.words_eq]
  rfl

private theorem isSuffix_commentSuffix (comment : String) :
    comment.toList <:+ (commentSuffix comment).toList := by
  by_cases empty : comment = ""
  · rw [empty]
    exact List.nil_suffix
  · rw [toList_commentSuffix empty]
    exact ⟨" # ".toList, rfl⟩

/-- If a comment started in the rule, the quote after the rule would be in it, and so there would be
one more in the comment than there is. -/
theorem escaped_of_statement (kept : (statement d.render.toList).2 = d.comment) :
    Escaped d.rule.toList := by
  rw [← commentFree_iff_escaped]
  by_contra marked
  have filled : d.rule ≠ "" := by
    intro empty
    rw [empty] at marked
    exact marked rfl
  obtain ⟨front, text⟩ : ∃ front, d.render.toList =
      (front ++ '"' :: d.rule.toList) ++ '"' :: (commentSuffix d.comment).toList := by
    refine ⟨d.name.toList ++ ' ' :: (d.declaredType.toList ++ ' ' ::
      (flagWord d.required ++ [':'])), ?_⟩
    rw [toList_render, ruleText, if_neg filled]
    simp
  have starts : cutComment? false (front ++ '"' :: d.rule.toList) ≠ none :=
    fun free => marked ((commentFree_append_iff (by decide) (by decide) _ _).1 free).2
  obtain ⟨⟨content, comment⟩, cut⟩ := Option.ne_none_iff_exists'.1 starts
  have read : d.comment.toList =
      unescape (Text.trim (comment ++ '"' :: (commentSuffix d.comment).toList)) := by
    rw [← String.toList_inj, statement, splitComment, text, cutComment?_append_of_some cut,
      String.toList_ofList] at kept
    exact kept.symm
  have quotes := congrArg (List.count '"') read
  rw [count_unescape (by decide), Text.count_trim rfl, List.count_append, List.count_cons_self]
    at quotes
  have fewer := (isSuffix_commentSuffix d.comment).sublist.count_le '"'
  omega

/-- A field is read again from its line, with the rule that its section makes of the flags. -/
theorem parseField_render_iff : parseField scope d.line d.render.toList = .ok { d with rule } ↔
    d.Declarable ∧ Escaped d.rule.toList ∧
      flagsOf scope (Text.words (flagWord d.required ++ ruleText d.rule)) =
        .ok (d.required, rule) := by
  constructor
  · intro parsed
    obtain ⟨name, declared, rest, required, rule, words, valid, flags, same⟩ :=
      parseField_ok_iff.1 parsed
    have tokens := tokens_statement d.render.toList
    have trimmed := trimmed_statement d.render.toList
    simp only [words, List.forall_mem_cons] at tokens
    simp only [fieldOf, FieldDecl.ofTypes, FieldDecl.mk.injEq] at same
    obtain ⟨named, typed, resolvedType, isArray, isNested, rfl, rfl, comment, -⟩ := same
    obtain rfl : name = d.name.toList := by rw [named, String.toList_ofList]
    obtain rfl : declared = d.declaredType.toList := by rw [typed, String.toList_ofList]
    rw [String.ofList_toList] at resolvedType isArray isNested
    rw [← comment] at trimmed
    have escaped := escaped_of_statement comment.symm
    have said := statement_render tokens.1 tokens.2.1 (commentFree_iff_escaped.2 escaped) trimmed
    obtain rfl : Text.words (flagWord d.required ++ ruleText d.rule) = rest := by
      rw [said] at words
      exact (List.cons.inj (List.cons.inj words).2).2
    have plain : unescapeText d.comment = d.comment := by
      rw [said] at comment
      exact comment.symm
    refine ⟨⟨valid, tokens.2.1.toIsWord, ?_, resolvedType, isNested, isArray, trimmed, ?_⟩,
      escaped, flags⟩
    · exact commentFree_iff_escaped.1 tokens.2.1.free
    · exact unescapeText_eq_self_iff.1 plain
  · rintro ⟨declarable, escaped, flags⟩
    have free := commentFree_iff_escaped.2 escaped
    have typed : IsToken d.declaredType.toList :=
      ⟨declarable.declaredType, commentFree_iff_escaped.2 declarable.escaped⟩
    have said := statement_render (isToken_of_isValid declarable.name) typed free declarable.comment
    rw [unescapeText_eq_self_iff.2 declarable.plain] at said
    refine parseField_ok_iff.2 ⟨_, _, _, _, _, congrArg Prod.fst said, declarable.name, flags, ?_⟩
    rw [said, fieldOf, String.ofList_toList, String.ofList_toList, ← declarable.resolvedType,
      ← declarable.isNested, ← declarable.isArray]
    rfl

/-- What the words of a flag and a rule give in a request, if no comment starts in the rule. -/
theorem flagsOf_request_iff (escaped : Escaped rule.toList) (required : Bool) :
    flagsOf .request (Text.words (flagWord required ++ ruleText rule)) = .ok (required, rule) ↔
      '"' ∉ rule.toList ∧ Text.Spaced rule.toList := by
  have free := commentFree_iff_escaped.2 escaped
  constructor
  · intro flags
    have isRule := (isRule_of_flagsOf
      (fun w member => tokens_of_mem_words (commentFree_flags free required) member) flags).1
    exact ⟨isRule.unquoted, isRule.spaced⟩
  · rintro ⟨unquoted, spaced⟩
    exact flagsOf_flags ⟨spaced, free, unquoted⟩ (fun _ => rfl) required

/-- A line alone is read as a field without children. -/
theorem leaf_eq_iff {read : Except GrammarFault FieldDecl} {f : Field} :
    read.map (Field.mk · []) = .ok f ↔ f.children = [] ∧ read = .ok f.toFieldDecl := by
  obtain ⟨d, children⟩ := f
  cases read <;> simp [Except.map, and_comm, eq_comm]

/-- A field is read again from the line that is written for it exactly if its parts can stand on a
line.  In a response the rule is dropped, and it matters only whether a comment starts in it. -/
theorem field_line_read_iff (f : Field) :
    ((parseField .request f.line f.render.toList).map (Field.mk · []) = .ok f ↔
      f.Declarable ∧ f.children = [] ∧
        '"' ∉ f.rule.toList ∧ Escaped f.rule.toList ∧ Text.Spaced f.rule.toList) ∧
    ((parseField .response f.line f.render.toList).map (Field.mk · []) =
        .ok { f with rule := "" } ↔
      f.Declarable ∧ f.children = [] ∧ Escaped f.rule.toList) := by
  constructor
  · rw [leaf_eq_iff, parseField_render_iff]
    constructor
    · rintro ⟨leaf, declarable, escaped, flags⟩
      obtain ⟨unquoted, spaced⟩ := (flagsOf_request_iff escaped f.required).1 flags
      exact ⟨declarable, leaf, unquoted, escaped, spaced⟩
    · rintro ⟨declarable, leaf, unquoted, escaped, spaced⟩
      have flags := (flagsOf_request_iff escaped f.required).2 ⟨unquoted, spaced⟩
      exact ⟨leaf, declarable, escaped, flags⟩
  · rw [leaf_eq_iff, parseField_render_iff]
    constructor
    · rintro ⟨leaf, declarable, escaped, -⟩
      exact ⟨declarable, leaf, escaped⟩
    · rintro ⟨declarable, leaf, escaped⟩
      exact ⟨leaf, declarable, escaped, flagsOf_response f.required (ruleText f.rule)⟩

/-- A field with marks in its type, rule and comment, spaces around its rule and a comment of two
lines. -/
def tagsField : Field where
  name := "tags"
  declaredType := "[]Tag\\#1"
  resolvedType := "[]struct"
  isArray := true
  isNested := true
  required := false
  rule := " one\\#of a b "
  comment := "see #1:\n\"tags\""
  line := 7

theorem field_line_read_iff_tags :
    tagsField.render = "tags []Tag\\#1 false:\" one\\#of a b \" # see #1:\n\"tags\"" ∧
    (parseField .request 7 tagsField.render.toList).map (Field.mk · []) = .ok tagsField ∧
    (parseField .response 7 tagsField.render.toList).map (Field.mk · []) =
      .ok { tagsField with rule := "" } := by
  have declarable : tagsField.Declarable := by
    constructor
    case declaredType => exact Text.isWord_of_any rfl (by decide +kernel)
    all_goals decide +kernel
  have escaped : Escaped tagsField.rule.toList := by decide +kernel
  have spaced : Text.Spaced tagsField.rule.toList := by decide +kernel
  have ⟨request, response⟩ := field_line_read_iff tagsField
  exact ⟨by decide +kernel, request.2 ⟨declarable, rfl, by decide +kernel, escaped, spaced⟩,
    response.2 ⟨declarable, rfl, escaped⟩⟩

end Outline

end ApiOutline
