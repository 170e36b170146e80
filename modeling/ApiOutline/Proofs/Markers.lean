import ApiOutline.Proofs.ElementTypes

/-!
A token taken apart: markers, a name, markers.

Brackets may follow each other in any way, and markers are taken away from the left as long as there
are any, and only then from the right.  Still each token is a name between markers in one way only,
apart from tokens of markers alone, where it does not matter which side they count for.  So whatever
reads a token sees the same name, and agrees on whether there is a marker.
-/

namespace ApiOutline.TypeToken

variable {s name : List Char} {before after : Nat}

def markers (n : Nat) : List Char := (List.replicate n arrayMarker).flatten

/-- A token is a name between markers, and the name neither starts nor ends with one. -/
structure Dressed (token : List Char) (before : Nat) (name : List Char) (after : Nat) : Prop where
  token_eq : token = markers before ++ name ++ markers after
  starts : arrayMarker.isPrefixOf name = false
  ends : arrayMarker.isSuffixOf name = false

/-! ## Markers on one side -/

private theorem markers_succ (n : Nat) : markers (n + 1) = arrayMarker ++ markers n := by
  rw [markers, List.replicate_succ, List.flatten_cons, markers]

private theorem markers_succ_last (n : Nat) : markers (n + 1) = markers n ++ arrayMarker := by
  rw [markers, List.replicate_succ', List.flatten_append, List.flatten_singleton, markers]

private theorem length_markers (n : Nat) : (markers n).length = 2 * n := by
  induction n with
  | zero => rfl
  | succ n ih =>
    rw [markers_succ, List.length_append, ih, arrayMarker, List.length_cons, List.length_singleton]
    omega

private theorem dropLeadingMarkers_append (n : Nat) (s : List Char) :
    dropLeadingMarkers (markers n ++ s) = dropLeadingMarkers s := by
  induction n with
  | zero => rfl
  | succ n ih => rw [markers_succ, List.append_assoc, ← ih]; rfl

private theorem dropTrailingMarkers_append (s : List Char) (n : Nat) :
    dropTrailingMarkers (s ++ markers n) = dropTrailingMarkers s := by
  induction n with
  | zero => rw [markers, List.replicate_zero, List.flatten_nil, List.append_nil]
  | succ n ih =>
    rw [markers_succ_last, ← List.append_assoc, ← ih, dropTrailingMarkers, List.reverse_append]
    rfl

/-- What is left after the leading markers does not start with one. -/
theorem dropLeadingMarkers_spec (s : List Char) :
    (∃ n, s = markers n ++ dropLeadingMarkers s) ∧
      arrayMarker.isPrefixOf (dropLeadingMarkers s) = false := by
  fun_induction dropLeadingMarkers s with
  | case1 s ih =>
    obtain ⟨⟨n, whole⟩, plain⟩ := ih
    refine ⟨⟨n + 1, ?_⟩, plain⟩
    rw [markers_succ, List.append_assoc, ← whole]
    rfl
  | case2 s unmarked =>
    refine ⟨⟨0, rfl⟩, Bool.eq_false_iff.2 ?_⟩
    intro marked
    obtain ⟨rest, rfl⟩ := isPrefixOf_arrayMarker_iff.1 marked
    exact unmarked rest rfl

/-- What is left after the trailing markers does not end with one. -/
theorem dropTrailingMarkers_spec (s : List Char) :
    (∃ n, s = dropTrailingMarkers s ++ markers n) ∧
      arrayMarker.isSuffixOf (dropTrailingMarkers s) = false := by
  -- The recursion goes along the reversed token, so the induction does as well.
  generalize reversed : s.reverse = r
  rw [dropTrailingMarkers, reversed]
  fun_induction dropMarkersReversed r generalizing s with
  | case1 r ih =>
    obtain ⟨⟨n, whole⟩, plain⟩ := ih r.reverse (List.reverse_reverse r)
    refine ⟨⟨n + 1, ?_⟩, plain⟩
    rw [markers_succ_last, ← List.append_assoc, ← whole, ← List.reverse_reverse s, reversed]
    simp [arrayMarker]
  | case2 r unmarked =>
    rw [← reversed, List.reverse_reverse]
    refine ⟨⟨0, (List.append_nil s).symm⟩, Bool.eq_false_iff.2 ?_⟩
    intro marked
    obtain ⟨rest, same⟩ := isSuffixOf_arrayMarker_iff.1 marked
    exact unmarked rest (reversed ▸ same)

/-! ## Names between markers -/

private theorem exists_dressed (s : List Char) :
    ∃ before after, Dressed s before (bare s) after := by
  obtain ⟨⟨before, leading⟩, plainStart⟩ := dropLeadingMarkers_spec s
  obtain ⟨⟨after, trailing⟩, plainEnd⟩ := dropTrailingMarkers_spec (dropLeadingMarkers s)
  refine ⟨before, after, ?_, Bool.eq_false_iff.2 ?_, plainEnd⟩
  · rw [List.append_assoc, bare, ← trailing, ← leading]
  · intro marked
    have longer : bare s <+: dropLeadingMarkers s := ⟨markers after, trailing.symm⟩
    have starts := List.isPrefixOf_iff_prefix.2 ((List.isPrefixOf_iff_prefix.1 marked).trans longer)
    rw [plainStart] at starts
    cases starts

/-- A name that does not start with a marker hides the markers after it: a last bracket of the name
and the first bracket of a marker are no marker together. -/
theorem dropLeadingMarkers_name (plain : arrayMarker.isPrefixOf name = false) (n : Nat) :
    dropLeadingMarkers (name ++ markers n) = if name = [] then [] else name ++ markers n := by
  match name, plain with
  | [], _ => simpa [dropLeadingMarkers] using dropLeadingMarkers_append n []
  | c :: name, plain =>
    rw [if_neg (List.cons_ne_nil c name)]
    apply dropLeadingMarkers_eq_self
    refine Bool.eq_false_iff.2 ?_
    intro marked
    obtain ⟨rest, whole⟩ := isPrefixOf_arrayMarker_iff.1 marked
    match name, n with
    | [], 0 => cases whole
    | [], n + 1 => rw [markers_succ] at whole; cases whole
    | d :: name, n =>
      obtain ⟨rfl, rfl⟩ : c = '[' ∧ d = ']' := by
        simp only [List.cons_append, List.cons.injEq] at whole
        exact ⟨whole.1, whole.2.1⟩
      cases plain

/-- A token without its markers is the name it was dressed from. -/
theorem Dressed.bare_eq (dressed : Dressed s before name after) : bare s = name := by
  rw [bare, dressed.token_eq, List.append_assoc, dropLeadingMarkers_append,
    dropLeadingMarkers_name dressed.starts]
  split
  · next empty => rw [empty]; rfl
  · rw [dropTrailingMarkers_append, dropTrailingMarkers_eq_self dressed.ends]

/-- A token is an array exactly if it is dressed with a marker on either side. -/
theorem Dressed.isMarked_eq (dressed : Dressed s before name after) :
    isMarked s = decide (0 < before + after) := by
  have whole : s.length = 2 * before + name.length + 2 * after := by
    rw [dressed.token_eq, List.length_append, List.length_append, length_markers, length_markers]
  rw [isMarked, dressed.bare_eq, whole, Bool.eq_iff_iff, bne_iff_ne, decide_eq_true_eq]
  omega

theorem Dressed.before_marker (dressed : Dressed s before name after) :
    Dressed (arrayMarker ++ s) (before + 1) name after where
  token_eq := by rw [dressed.token_eq, markers_succ, List.append_assoc, List.append_assoc,
    List.append_assoc]
  starts := dressed.starts
  ends := dressed.ends

theorem Dressed.after_marker (dressed : Dressed s before name after) :
    Dressed (s ++ arrayMarker) before name (after + 1) where
  token_eq := by rw [dressed.token_eq, markers_succ_last, List.append_assoc]
  starts := dressed.starts
  ends := dressed.ends

/-! ## Readings -/

/-- A token stands for what its name and the presence of a marker say. -/
theorem resolve_congr {token other : String} (sameName : bare token.toList = bare other.toList)
    (sameMark : isMarked token.toList = isMarked other.toList) : resolve token = resolve other := by
  simp only [resolve, sameName, sameMark]

private theorem resolve_dressed {token other : String} {before' after' : Nat}
    (dressed : Dressed token.toList before name after)
    (dressed' : Dressed other.toList before' name after')
    (alike : 0 < before + after ↔ 0 < before' + after') : resolve token = resolve other := by
  apply resolve_congr
  · rw [dressed.bare_eq, dressed'.bare_eq]
  · rw [dressed.isMarked_eq, dressed'.isMarked_eq, decide_eq_decide]
    exact alike

private theorem objectName?_eq {d : FieldDecl} {token : String} (declared : d.declaredType = token)
    (nested : d.isNested = (resolve token).isNested) :
    d.objectName? = (resolve token).objectName := by
  simp only [FieldDecl.objectName?, nested, declared]
  rcases resolve_cases token with ⟨target, -, same⟩ | ⟨-, ⟨object, map, same⟩ | ⟨noMap, same⟩⟩
  · rw [same]; rfl
  · rw [same, map]; rfl
  · rw [same, noMap]; rfl

/-- Every token is a name between markers, and is read as that name and whether there is a marker.
So it does not matter on which side markers stand, nor how many; and a declaration that is made of
the token finds the same array and the same object in it. -/
theorem token_has_one_reading (token : String) :
    (∃ before name after, Dressed token.toList before name after) ∧
    (∀ before name after, Dressed token.toList before name after →
      bare token.toList = name ∧ isMarked token.toList = decide (0 < before + after) ∧
      ∀ other before' after', Dressed other.toList before' name after' →
        (0 < before + after ↔ 0 < before' + after') → resolve token = resolve other) ∧
    resolve ("[]" ++ token) = resolve (token ++ "[]") ∧
    resolve ("[]" ++ token ++ "[]") = resolve (token ++ "[]") ∧
    (∀ name resolved, (FieldDecl.ofTypes name token resolved).isArray = (resolve token).isArray) ∧
    ∀ d : FieldDecl, d.declaredType = token → d.isNested = (resolve token).isNested →
      d.objectName? = (resolve token).objectName := by
  obtain ⟨before, after, dressed⟩ := exists_dressed token.toList
  have left : Dressed ("[]" ++ token).toList (before + 1) (bare token.toList) after := by
    rw [String.toList_append]
    exact dressed.before_marker
  have right : Dressed (token ++ "[]").toList before (bare token.toList) (after + 1) := by
    rw [String.toList_append]
    exact dressed.after_marker
  have both : Dressed ("[]" ++ token ++ "[]").toList (before + 1) (bare token.toList)
      (after + 1) := by
    rw [String.toList_append]
    exact left.after_marker
  refine ⟨⟨before, _, after, dressed⟩, ?_, ?_, ?_, ?_, ?_⟩
  · intro before name after dressed
    refine ⟨dressed.bare_eq, dressed.isMarked_eq, ?_⟩
    intro other before' after' dressed' alike
    exact resolve_dressed dressed dressed' alike
  · exact resolve_dressed left right (by omega)
  · exact resolve_dressed both right (by omega)
  · intro name resolved
    exact (resolve_isArray token).symm
  · intro d declared nested
    exact objectName?_eq declared nested

theorem token_has_one_reading_brackets :
    Dressed "[][[]".toList 1 ['['] 1 ∧ Dressed "[[][]".toList 0 ['['] 2 ∧
    bare "[][[]".toList = ['['] ∧ resolve "[][[]" = resolve "[[][]" ∧
    (FieldDecl.ofTypes "ids" "[][[]" "[]struct").isArray = true ∧
    { FieldDecl.ofTypes "ids" "[][[]" "[]struct" with isNested := true }.objectName? =
      some "[" := by
  have outside : Dressed "[][[]".toList 1 ['['] 1 := ⟨rfl, rfl, rfl⟩
  have behind : Dressed "[[][]".toList 0 ['['] 2 := ⟨rfl, rfl, rfl⟩
  obtain ⟨-, read, -, -, isArray, objectName⟩ := token_has_one_reading "[][[]"
  obtain ⟨name, -, same⟩ := read 1 ['['] 1 outside
  exact ⟨outside, behind, name, same "[[][]" 0 2 behind (by decide), isArray "ids" "[]struct",
    objectName _ rfl rfl⟩

end ApiOutline.TypeToken
