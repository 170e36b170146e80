import ApiOutline.Ident
import ApiOutline.Proofs.Text

/-!
Identifiers as texts: which characters they have, and how longer ones are put together.
-/

namespace ApiOutline.Ident

variable {c : Char} {s t : List Char}

/-- Every character of an identifier may stand after the first one. -/
theorem isTail_of_mem (valid : isIdent s = true) : ∀ c ∈ s, isTail c = true := by
  cases s with
  | nil => cases valid
  | cons first rest =>
    simp only [isIdent, Bool.and_eq_true, List.all_eq_true] at valid
    exact List.forall_mem_cons.2 ⟨isTail_of_isHead valid.1, valid.2⟩

/-- No other character stands in an identifier. -/
theorem not_mem_of_isTail_eq_false (valid : isIdent s = true) (other : isTail c = false) :
    c ∉ s := by
  intro member
  rw [isTail_of_mem valid c member] at other
  cases other

/-- An identifier holds no slash, so it is one step of a path. -/
theorem slash_not_mem (valid : isIdent s = true) : '/' ∉ s :=
  not_mem_of_isTail_eq_false valid (by decide)

private theorem toNat_lt_of_isTail (tail : isTail c = true) : c.toNat < 128 := by
  have range : c.val ≤ 122 := by
    rcases Bool.or_eq_true_iff.1 tail with alphanumeric | underscore
    · rcases Bool.or_eq_true_iff.1 alphanumeric with letter | digit
      · rcases Bool.or_eq_true_iff.1 letter with upper | lower
        · exact UInt32.le_trans (of_decide_eq_true upper).2 (by decide)
        · exact of_decide_eq_true (Bool.and_eq_true_iff.1 lower).2
      · have last := of_decide_eq_true (Bool.and_eq_true_iff.1 digit).2
        exact UInt32.le_trans last (by decide)
    · rw [beq_iff_eq.1 underscore]
      decide
  exact Nat.lt_of_le_of_lt range (by decide)

private theorem isBlank_of_isTail (tail : isTail c = true) : Text.isBlank c = false := by
  have ascii : ∀ n < 128, isTail (Char.ofNat n) = true → Text.isBlank (Char.ofNat n) = false := by
    decide +kernel
  have chosen := ascii c.toNat (toNat_lt_of_isTail tail)
  rw [Char.ofNat_toNat] at chosen
  exact chosen tail

private theorem isHead_toUpper (head : isHead c = true) : isHead c.toUpper = true := by
  have ascii : ∀ n < 128, isHead (Char.ofNat n) = true → isHead (Char.ofNat n).toUpper = true := by
    decide +kernel
  have chosen := ascii c.toNat (toNat_lt_of_isTail (isTail_of_isHead head))
  rw [Char.ofNat_toNat] at chosen
  exact chosen head

/-- An identifier can go on with any characters that may stand after the first one. -/
theorem isIdent_append (valid : isIdent s = true) (tail : ∀ c ∈ t, isTail c = true) :
    isIdent (s ++ t) = true := by
  cases s with
  | nil => cases valid
  | cons first rest =>
    simp only [isIdent, Bool.and_eq_true, List.all_eq_true] at valid
    simp only [List.cons_append, isIdent, Bool.and_eq_true, List.all_append, List.all_eq_true]
    exact ⟨valid.1, valid.2, tail⟩

/-- An identifier is one with its first letter in upper case too. -/
theorem isIdent_upperFirst (valid : isIdent s = true) : isIdent (Text.upperFirst s) = true := by
  cases s with
  | nil => cases valid
  | cons first rest =>
    simp only [isIdent, Bool.and_eq_true] at valid
    have ascii : first.toNat < 0x80 := toNat_lt_of_isTail (isTail_of_isHead valid.1)
    simp only [Text.upperFirst, Text.upper, if_pos ascii, List.cons_append, List.nil_append,
      isIdent, Bool.and_eq_true]
    exact ⟨isHead_toUpper valid.1, valid.2⟩

/-- An identifier is a word. -/
theorem isWord (valid : isIdent s = true) : Text.IsWord s where
  filled := by
    rintro rfl
    cases valid
  solid c member := isBlank_of_isTail (isTail_of_mem valid c member)

end ApiOutline.Ident
