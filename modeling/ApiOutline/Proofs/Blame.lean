import ApiOutline.Proofs.Reading

/-!
The line that a fault blames.

A document that does not compile fails at one line, and for what stands on the lines up to it: the
lines before it compile without it, and nothing that follows it changes the fault.  Completing the
open fields at the end of a document cannot fail, so a document may be cut off after any line.
-/

namespace ApiOutline.Outline

namespace Progress

variable {o : Options} {p q : Progress} {line : Nat} {raw : String} {fault : Fault}

/-- A field without a place is a fault of its own line. -/
theorem place_fault {depth : Nat} {field : Field} {s t : OpenFields}
    (misplaced : OpenFields.place depth field raw s = (t, some fault)) :
    ∃ cause, fault = .grammar field.line raw cause := by
  unfold OpenFields.place at misplaced
  split at misplaced
  · simp only at misplaced
    split at misplaced <;> cases misplaced
  · simp only at misplaced
    split at misplaced
    · cases misplaced; exact ⟨_, rfl⟩
    · split at misplaced
      · cases misplaced; exact ⟨_, rfl⟩
      · split at misplaced <;> cases misplaced

private theorem takeField_fault {depth : Nat} (failed : p.takeField line depth raw = .error fault) :
    ∃ cause, fault = .grammar line raw cause := by
  unfold takeField at failed
  split at failed
  · cases failed; exact ⟨_, rfl⟩
  · next decl parsed =>
    split at failed
    · cases failed; exact ⟨_, rfl⟩
    · split at failed
      · next misplaced =>
        cases failed
        obtain ⟨cause, rfl⟩ := place_fault misplaced
        exact ⟨cause, by rw [parseField_line parsed]⟩
      · cases failed

private theorem mapError_fault {α : Type} {x : Except GrammarFault α}
    (failed : x.mapError (.grammar line raw) = .error fault) :
    ∃ cause, fault = .grammar line raw cause := by
  cases x with
  | error cause => cases failed; exact ⟨cause, rfl⟩
  | ok a => cases failed

/-- A line that is not taken is blamed with its own number and its own text. -/
theorem take_fault (failed : p.take o line raw = .error fault) :
    ∃ cause, fault = .grammar line raw cause := by
  unfold take at failed
  split at failed
  · cases failed
  · split at failed
    · cases failed; exact ⟨_, rfl⟩
    · cases failed
  · unfold takeStructural at failed
    simp only at failed
    split at failed
    · cases failed; exact ⟨_, rfl⟩
    · split at failed
      · exact mapError_fault failed
      · exact mapError_fault failed
      · unfold takeInner at failed
        split at failed
        · split at failed
          · cases failed
          · exact takeField_fault failed
        · cases failed; exact ⟨_, rfl⟩

/-- A reading that fails takes all lines before one that it cannot take. -/
theorem takeAll_fault {lines : List String} (failed : takeAll o line lines p = .error fault) :
    ∃ before raw after q, lines = before ++ raw :: after ∧ takeAll o line before p = .ok q ∧
      q.take o (line + before.length) raw = .error fault := by
  induction lines generalizing line p with
  | nil => cases failed
  | cons raw lines ih =>
    simp only [takeAll] at failed
    cases taken : p.take o line raw with
    | error fault' =>
      rw [taken] at failed
      cases failed
      exact ⟨[], raw, lines, p, rfl, rfl, taken⟩
    | ok q =>
      rw [taken] at failed
      obtain ⟨before, bad, after, r, rfl, ran, stuck⟩ := ih failed
      refine ⟨raw :: before, bad, after, r, rfl, ?_, ?_⟩
      · simp only [takeAll, taken]
        exact ran
      · rw [List.length_cons, ← Nat.add_assoc, Nat.add_right_comm]
        exact stuck

/-- A reading blames none of the lines before those that it was given. -/
theorem takeAll_fault_line {lines : List String} (failed : takeAll o line lines p = .error fault) :
    ∃ blamed, fault.line? = some blamed ∧ line ≤ blamed := by
  obtain ⟨before, raw, after, q, -, -, stuck⟩ := takeAll_fault failed
  obtain ⟨cause, rfl⟩ := take_fault stuck
  exact ⟨line + before.length, rfl, Nat.le_add_right _ _⟩

/-- A line that cannot be taken ends the reading, whatever follows it. -/
theorem takeAll_stuck {before : List String} (ran : takeAll o line before p = .ok q)
    (stuck : q.take o (line + before.length) raw = .error fault) (after : List String) :
    takeAll o line (before ++ raw :: after) p = .error fault := by
  rw [takeAll_append, ran]
  simp only [Except.bind, takeAll, stuck]
  rfl

/-- What is taken as a whole is taken up to any of its lines. -/
theorem takeAll_prefix {kept cut : List String} (ran : takeAll o line (kept ++ cut) p = .ok q) :
    ∃ r, takeAll o line kept p = .ok r := by
  rw [takeAll_append] at ran
  cases middle : takeAll o line kept p with
  | error fault => simp [middle, Except.bind] at ran
  | ok r => exact ⟨r, rfl⟩

end Progress

/-- How a fault points at a document. -/
inductive Blamed (o : Options) (lines : List String) : Fault → Prop where
  /-- A line after the root is to blame: what stands before it compiles, and whatever follows it
  leaves the fault as it is. -/
  | line {line : Nat} {raw : String} {cause : GrammarFault}
      (later : 1 < line) (within : line ≤ lines.length) (found : lines[line - 1]? = some raw)
      (before : ∃ m, compileLines o (lines.take (line - 1)) = .ok m)
      (final : ∀ rest, compileLines o (lines.take line ++ rest) =
        .error (.grammar line raw cause)) :
      Blamed o lines (.grammar line raw cause)
  /-- Nothing stands on any line. -/
  | empty {cause : RootFault} (blank : ∀ raw ∈ lines, IsBlankLine raw) :
      Blamed o lines (.root 0 "" cause)
  /-- The first line with something on it is no root, and whatever follows it leaves the fault as
  it is. -/
  | root {line : Nat} {raw : String} {cause : RootFault}
      (first : 1 ≤ line) (found : lines[line - 1]? = some raw) (filled : ¬ IsBlankLine raw)
      (before : ∀ earlier ∈ lines.take (line - 1), IsBlankLine earlier)
      (final : ∀ rest, compileLines o (lines.take line ++ rest) = .error (.root line raw cause)) :
      Blamed o lines (.root line raw cause)

variable {o : Options}

private theorem take_through {α : Type} (before after : List α) (a : α) :
    (before ++ a :: after).take (before.length + 1) = before ++ [a] := by
  rw [List.append_cons]
  exact List.take_left' (by simp)

/-- A reading that fails after a well-formed root fails at one line of the document. -/
theorem blamed_of_takeAll {blanks rest : List String} {root routePrefix version : String}
    {fault : Fault} (blank : ∀ raw ∈ blanks, IsBlankLine raw) (filled : ¬ IsBlankLine root)
    (parsed : parseRoot root.toList = .ok (routePrefix, version))
    (failed : Progress.takeAll o (blanks.length + 2) rest { model := { routePrefix, version } } =
      .error fault) : Blamed o (blanks ++ root :: rest) fault := by
  obtain ⟨before, raw, after, p, rfl, ran, stuck⟩ := Progress.takeAll_fault failed
  obtain ⟨cause, rfl⟩ := Progress.take_fault stuck
  have regroup : ∀ tail, blanks ++ root :: (before ++ tail) =
      (blanks ++ root :: before) ++ tail := by
    simp
  have length : blanks.length + 2 + before.length = (blanks ++ root :: before).length + 1 := by
    simp only [List.length_append, List.length_cons]
    omega
  have compiles : compileLines o (blanks ++ root :: before) = .ok p.finish := by
    rw [compileLines_root blank filled, parsed]
    simp only [ran, Except.map]
  have fails : ∀ tail, compileLines o ((blanks ++ root :: before) ++ raw :: tail) =
      .error (.grammar ((blanks ++ root :: before).length + 1) raw cause) := by
    intro tail
    rw [← regroup, compileLines_root blank filled, parsed]
    simp only [Progress.takeAll_stuck ran stuck tail, Except.map, length]
  rw [length, regroup]
  -- The line lies in the document, what stands before it compiles, and nothing after it helps.
  refine .line ?_ ?_ ?_ ⟨p.finish, ?_⟩ ?_
  · simp only [List.length_append, List.length_cons]
    omega
  · simp only [List.length_append, List.length_cons]
    omega
  · simp
  · rw [Nat.add_sub_cancel, List.take_left]
    exact compiles
  · intro tail
    rw [take_through, List.append_assoc]
    exact fails tail

/-- A document fails only for its root or for one of its lines, and cutting off lines after the root
of a document that compiles leaves one that compiles. -/
theorem compileLines_blames_one_line (o : Options) (lines : List String) :
    (∀ fault, compileLines o lines = .error fault → Blamed o lines fault) ∧
      ∀ kept cut, lines = kept ++ cut → (∃ raw ∈ kept, ¬ IsBlankLine raw) →
        (∃ m, compileLines o lines = .ok m) → ∃ m, compileLines o kept = .ok m := by
  refine ⟨fun fault failed => ?_, ?_⟩
  · rcases blank_or_root lines with blank | ⟨blanks, root, rest, rfl, blank, filled⟩
    · rw [compileLines_blank blank] at failed
      cases failed
      exact .empty blank
    · rw [compileLines_root blank filled] at failed
      cases parsed : parseRoot root.toList with
      | error cause =>
        simp only [parsed, Except.error.injEq] at failed
        subst failed
        refine .root (Nat.le_add_left 1 _) (by simp) filled (by simpa using blank) fun tail => ?_
        rw [take_through, List.append_assoc, List.singleton_append, compileLines_root blank filled,
          parsed]
      | ok parts =>
        obtain ⟨routePrefix, version⟩ := parts
        simp only [parsed] at failed
        cases taken : Progress.takeAll o (blanks.length + 2) rest
            { model := { routePrefix, version } } with
        | error fault' =>
          simp only [taken, Except.map, Except.error.injEq] at failed
          exact failed ▸ blamed_of_takeAll blank filled parsed taken
        | ok p => simp [taken, Except.map] at failed
  · rintro kept cut rfl ⟨raw, member, notBlank⟩ ⟨m, compiled⟩
    rcases blank_or_root kept with blank | ⟨blanks, root, rest, rfl, blank, filled⟩
    · exact absurd (blank raw member) notBlank
    · rw [List.append_assoc, List.cons_append, compileLines_root blank filled] at compiled
      rw [compileLines_root blank filled]
      cases parsed : parseRoot root.toList with
      | error cause => simp [parsed] at compiled
      | ok parts =>
        obtain ⟨routePrefix, version⟩ := parts
        simp only [parsed] at compiled ⊢
        cases taken : Progress.takeAll o (blanks.length + 2) (rest ++ cut)
            { model := { routePrefix, version } } with
        | error fault => simp [taken, Except.map] at compiled
        | ok p =>
          obtain ⟨q, kept⟩ := Progress.takeAll_prefix taken
          exact ⟨q.finish, by simp only [kept, Except.map]⟩

/-- A document whose third line is one blank short of a level, and the two lines before it. -/
theorem compileLines_blames_uneven_line :
    compileLines {} ["root shop", "user", "   find", "item"] =
        .error (.grammar 3 "   find" (.unevenIndent 3 4)) ∧
      Blamed {} ["root shop", "user", "   find", "item"]
        (.grammar 3 "   find" (.unevenIndent 3 4)) ∧
      (∃ m, compileLines {} ["root shop", "user"] = .ok m) ∧
      ∃ m, compileLines {} ["root shop"] = .ok m :=
  ⟨rfl, (compileLines_blames_one_line _ _).1 _ rfl, ⟨_, rfl⟩,
    (compileLines_blames_one_line {} ["root shop", "user"]).2 ["root shop"] ["user"] rfl
      ⟨"root shop", List.mem_singleton_self _, by decide⟩ ⟨_, rfl⟩⟩

end ApiOutline.Outline
