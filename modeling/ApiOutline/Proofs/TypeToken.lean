import ApiOutline.Field.Basic

/-!
Array markers of a type token.

A declaration is an array when its token starts or ends with a marker, and a token is resolved to an
array when less of it is left without its markers.  These two are the same.
-/

namespace ApiOutline.TypeToken

variable {s : List Char}

theorem isPrefixOf_arrayMarker_iff :
    arrayMarker.isPrefixOf s = true ↔ ∃ rest, s = '[' :: ']' :: rest := by
  rw [List.isPrefixOf_iff_prefix]
  exact exists_congr fun rest => eq_comm

theorem isSuffixOf_arrayMarker_iff :
    arrayMarker.isSuffixOf s = true ↔ ∃ rest, s.reverse = ']' :: '[' :: rest := by
  rw [List.isSuffixOf, List.isPrefixOf_iff_prefix]
  exact exists_congr fun rest => eq_comm

private theorem length_dropLeadingMarkers_le (s : List Char) :
    (dropLeadingMarkers s).length ≤ s.length := by
  fun_induction dropLeadingMarkers s with
  | case1 s ih =>
    rw [List.length_cons, List.length_cons]
    omega
  | case2 s _ => exact Nat.le_refl _

private theorem length_dropMarkersReversed_le (s : List Char) :
    (dropMarkersReversed s).length ≤ s.length := by
  fun_induction dropMarkersReversed s with
  | case1 s ih =>
    rw [List.length_cons, List.length_cons]
    omega
  | case2 s _ => exact Nat.le_refl _

private theorem length_bare_le (s : List Char) :
    (bare s).length ≤ (dropLeadingMarkers s).length := by
  have shorter := length_dropMarkersReversed_le (dropLeadingMarkers s).reverse
  rw [List.length_reverse] at shorter
  rw [bare, dropTrailingMarkers, List.length_reverse]
  exact shorter

/-- A token that does not start with a marker loses nothing at its start. -/
theorem dropLeadingMarkers_eq_self (unmarked : arrayMarker.isPrefixOf s = false) :
    dropLeadingMarkers s = s := by
  unfold dropLeadingMarkers
  split
  · next rest =>
    have marked := isPrefixOf_arrayMarker_iff.2 ⟨rest, rfl⟩
    rw [unmarked] at marked
    cases marked
  · rfl

/-- A token that does not end with a marker loses nothing at its end. -/
theorem dropTrailingMarkers_eq_self (unmarked : arrayMarker.isSuffixOf s = false) :
    dropTrailingMarkers s = s := by
  unfold dropTrailingMarkers dropMarkersReversed
  split
  · next rest same =>
    have marked := isSuffixOf_arrayMarker_iff.2 ⟨rest, same⟩
    rw [unmarked] at marked
    cases marked
  · exact List.reverse_reverse s

/-- A token is shorter without its markers exactly if it starts or ends with one. -/
theorem isMarked_eq (s : List Char) :
    isMarked s = (arrayMarker.isPrefixOf s || arrayMarker.isSuffixOf s) := by
  have shorter := length_bare_le s
  rw [isMarked]
  cases starts : arrayMarker.isPrefixOf s with
  | true =>
    obtain ⟨rest, rfl⟩ := isPrefixOf_arrayMarker_iff.1 starts
    have dropped : (dropLeadingMarkers ('[' :: ']' :: rest)).length ≤ rest.length :=
      length_dropLeadingMarkers_le rest
    rw [Bool.true_or, bne_iff_ne, List.length_cons, List.length_cons]
    omega
  | false =>
    rw [Bool.false_or, bare, dropLeadingMarkers_eq_self starts]
    cases ends : arrayMarker.isSuffixOf s with
    | false =>
      rw [dropTrailingMarkers_eq_self ends]
      exact bne_self_eq_false _
    | true =>
      obtain ⟨rest, same⟩ := isSuffixOf_arrayMarker_iff.1 ends
      have dropped := length_dropMarkersReversed_le rest
      have whole : s.length = rest.length + 2 := by rw [← List.length_reverse, same]; rfl
      rw [bne_iff_ne, dropTrailingMarkers, List.length_reverse, same, whole]
      change (dropMarkersReversed rest).length ≠ rest.length + 2
      omega

/-- A token resolves to an array exactly if there is a marker at either end. -/
theorem resolve_isArray (token : String) :
    (resolve token).isArray =
      (arrayMarker.isPrefixOf token.toList || arrayMarker.isSuffixOf token.toList) := by
  rw [← isMarked_eq]
  simp only [resolve]
  split
  · rfl
  · split <;> rfl

end ApiOutline.TypeToken
