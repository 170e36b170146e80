import ApiOutline.Path
import ApiOutline.Proofs.Text
import Mathlib.Logic.Relation

/-!
What is above a path and what is beside it.

A path is cut at its slashes and put together from the pieces again.  Its parent is a start of its
text, and the steps of the parent are the first ones of its own (`under_of_parent?`).  A path that
ends in a name keeps all its steps but the last one when its extension is changed
(`steps_withExtension`).
-/

namespace ApiOutline.Path

/-! ## Pieces -/

/-- Whether a path starts at the root can be told from any start of it. -/
theorem isAbsolute_append {s : List Char} (filled : s ≠ []) (t : List Char) :
    isAbsolute (s ++ t) = isAbsolute s := by
  cases s with
  | nil => exact absurd rfl filled
  | cons c rest =>
    rw [isAbsolute, isAbsolute, List.cons_append, List.isPrefixOf_cons_cons,
      List.isPrefixOf_cons_cons, List.isPrefixOf_nil_left, List.isPrefixOf_nil_left]

/-- A path without a slash does not start at the root. -/
theorem isAbsolute_eq_false {s : List Char} (plain : '/' ∉ s) : isAbsolute s = false := by
  refine Bool.eq_false_iff.2 fun absolute => plain ?_
  exact (List.isPrefixOf_iff_prefix.1 absolute).subset List.mem_cons_self

private theorem intercalate_of_split {s : List Char} {pieces : List (List Char)}
    (split : s.splitOn '/' = pieces) : ['/'].intercalate pieces = s := by
  rw [← split, List.intercalate_splitOn]

private theorem plain_of_mem_pieces {s piece : List Char} (member : piece ∈ s.splitOn '/') :
    '/' ∉ piece := by
  intro inside
  rw [List.splitOn_eq_splitOnP] at member
  have separates := (Text.mem_splitOnP member '/' inside).1
  exact Bool.noConfusion separates

private theorem stretches_map_fst (s : List Char) : (stretches s).map (·.1) = s.splitOn '/' := by
  rw [stretches]
  cases s.splitOn '/' with
  | nil => rfl
  | cons first rest => simp [Function.comp_def]

/-- A stretch that is a component is filled, and any that is neither empty nor a dot is one. -/
theorem component_of_mem_stretches {s : List Char} {stretch : List Char × Bool}
    (member : stretch ∈ stretches s) :
    (stretch.2 = true → stretch.1 ≠ []) ∧
      (stretch.1 ≠ [] → stretch.1 ≠ dot → stretch.2 = true) := by
  rw [stretches] at member
  cases split : s.splitOn '/' with
  | nil => simp [split] at member
  | cons first rest =>
    simp only [split, List.mem_cons, List.mem_map] at member
    rcases member with rfl | ⟨piece, -, rfl⟩
    · by_cases empty : first = [] <;> simp [empty]
    · by_cases empty : piece = [] <;> simp [empty]

/-- The last component stands between the stretches before it and some that are none. -/
theorem toLastComponent_eq_cons {s : List Char} {last : List Char × Bool}
    {before : List (List Char × Bool)} (cut : toLastComponent s = last :: before) :
    last.1 ≠ [] ∧ ∃ skipped, stretches s = before.reverse ++ last :: skipped := by
  obtain ⟨skipped, whole⟩ := List.dropWhile_suffix (l := (stretches s).reverse) (!·.2)
  rw [← toLastComponent, cut] at whole
  have turned : stretches s = before.reverse ++ last :: skipped.reverse := by
    rw [← List.reverse_reverse (stretches s), ← whole]
    simp
  have isComponent : last.2 = true := by
    have kept := List.head?_dropWhile_not (fun stretch : List Char × Bool => !stretch.2)
      (stretches s).reverse
    rw [← toLastComponent, cut] at kept
    simpa using kept
  have member : last ∈ stretches s := by
    rw [turned]
    exact List.mem_append_right _ List.mem_cons_self
  exact ⟨(component_of_mem_stretches member).1 isComponent, skipped.reverse, turned⟩

/-! ## The path above -/

/-- A path that goes on where another one ends. -/
structure Under (path above : String) : Prop where
  /-- The other one leads somewhere. -/
  filled : above ≠ ""
  /-- The text of the path starts with it. -/
  starts : above.toList <+: path.toList
  /-- There are more steps to take. -/
  steps : ∃ more, more ≠ [] ∧ steps path = steps above ++ more

/-- What is under a path is under all that it is under. -/
theorem Under.trans {path above top : String} (lower : Under path above) (upper : Under above top) :
    Under path top where
  filled := upper.filled
  starts := upper.starts.trans lower.starts
  steps := by
    obtain ⟨more, some, taken⟩ := lower.steps
    obtain ⟨between, -, first⟩ := upper.steps
    refine ⟨between ++ more, by simp [some], ?_⟩
    rw [taken, first, List.append_assoc]

/-- A path starts at the root exactly if the paths above it do. -/
theorem Under.isAbsolute_eq {path above : String} (under : Under path above) :
    isAbsolute path.toList = isAbsolute above.toList := by
  obtain ⟨rest, whole⟩ := under.starts
  rw [← whole, isAbsolute_append (mt String.toList_eq_nil_iff.1 under.filled)]

private theorem under_of_pieces {path above : String} {parts more : List (List Char)}
    (filled : above ≠ "") (some : parts ≠ [])
    (split : path.toList.splitOn '/' = parts ++ more)
    (further : more.filter (!·.isEmpty) ≠ [])
    (same : above.toList = ['/'].intercalate parts) : Under path above where
  filled := filled
  starts := by
    have others : more ≠ [] := by
      rintro rfl
      exact further rfl
    rw [← intercalate_of_split split, same, Text.intercalate_append _ some others]
    exact List.prefix_append _ _
  steps := by
    have plain : ∀ part ∈ parts, '/' ∉ part := fun part member =>
      plain_of_mem_pieces (split ▸ List.mem_append_left more member)
    refine ⟨_, further, ?_⟩
    rw [Path.steps, Path.steps, split, same, List.splitOn_intercalate '/' plain some,
      List.filter_append]

/-- The parent of a path is above it, unless it is the empty path. -/
theorem under_of_parent? {path above : String} (parent : parent? path = some above)
    (filled : above ≠ "") : Under path above := by
  rw [parent?] at parent
  cases cut : toLastComponent path.toList with
  | nil => simp [cut] at parent
  | cons last before =>
    obtain ⟨named, skipped, stretched⟩ := toLastComponent_eq_cons cut
    have split : path.toList.splitOn '/' =
        before.reverse.map (·.1) ++ last.1 :: skipped.map (·.1) := by
      rw [← stretches_map_fst, stretched, List.map_append, List.map_cons]
    simp only [cut] at parent
    split at parent
    · obtain rfl := Option.some.inj parent
      -- Nothing but slashes and dots comes before the name, so the path starts at the root.
      have absolute : isAbsolute path.toList = true := by
        by_contra relative
        simp [relative] at filled
      rw [if_pos absolute] at filled ⊢
      refine ⟨filled, List.isPrefixOf_iff_prefix.1 absolute, steps path, ?_, rfl⟩
      rw [Path.steps, split]
      simp [named]
    · next some =>
      obtain rfl := Option.some.inj parent
      obtain ⟨dots, whole⟩ := List.dropWhile_suffix (l := before) (!·.2)
      have kept : path.toList.splitOn '/' =
          (before.dropWhile (!·.2)).reverse.map (·.1) ++
            (dots.reverse.map (·.1) ++ last.1 :: skipped.map (·.1)) := by
        rw [split, ← List.append_assoc, ← List.map_append, ← List.reverse_append, whole]
      apply under_of_pieces filled ?_ kept
      · simp [named]
      · rw [String.toList_ofList, ofReversed]
      · simpa using some

/-- A path has another one for its parent. -/
def HasParent (path above : String) : Prop := parent? path = some above

/-- What is above the parent of a path is above the path. -/
theorem under_of_transGen {path top : String} (above : Relation.TransGen HasParent path top)
    (filled : top ≠ "") : Under path top := by
  induction above with
  | single parent => exact under_of_parent? parent filled
  | tail _ parent ih =>
    refine (ih ?_).trans (under_of_parent? parent filled)
    rintro rfl
    cases parent

/-! ## The path beside -/

/-- A path ends in a slash if a slash is its last character. -/
theorem endsInSlash_iff {path : String} :
    endsInSlash path = true ↔ ∃ before, path.toList = before ++ ['/'] := by
  rw [endsInSlash, List.isSuffixOf_iff_suffix]
  exact exists_congr fun before => eq_comm

private theorem mem_stem {name : List Char} {c : Char} (member : c ∈ stem name) : c ∈ name := by
  rw [stem] at member
  split at member
  · exact member
  · exact member
  · next before _ cut =>
    obtain ⟨⟨after, rest⟩, found, same⟩ := Option.map_eq_some_iff.1 cut
    obtain ⟨whole, -⟩ := Text.cut?_eq_some_iff.1 found
    rw [← List.mem_reverse, whole]
    refine List.mem_append_right _ (List.mem_cons_of_mem _ ?_)
    rwa [← List.mem_reverse, same]

/-- Whether a path starts at the root does not depend on its last piece. -/
theorem isAbsolute_intercalate (parts : List (List Char)) {last other : List Char}
    (plain : '/' ∉ last) (otherPlain : '/' ∉ other) :
    isAbsolute (['/'].intercalate (parts ++ [last])) =
      isAbsolute (['/'].intercalate (parts ++ [other])) := by
  by_cases alone : parts = []
  · rw [alone, List.nil_append, List.nil_append, List.intercalate_singleton,
      List.intercalate_singleton, isAbsolute_eq_false plain, isAbsolute_eq_false otherPlain]
  · have front (name : List Char) : ['/'].intercalate (parts ++ [name]) =
        (['/'].intercalate parts ++ ['/']) ++ name := by
      rw [Text.intercalate_append _ alone (by simp), ← List.append_assoc,
        List.intercalate_singleton]
    have some : ['/'].intercalate parts ++ ['/'] ≠ [] := by simp
    rw [front, front, isAbsolute_append some, isAbsolute_append some]

theorem last_of_endsInName {path : String} {before : List (List Char)} {name : List Char}
    (named : endsInName path = true) (taken : steps path = before ++ [name]) :
    name ≠ dot ∧ name ≠ dotDot := by
  rw [endsInName, taken, List.getLast?_concat] at named
  simpa using named

/-- A path that ends in a name and in no slash ends in a piece that is a name. -/
theorem exists_last_piece {path : String} (named : endsInName path = true)
    (unslashed : endsInSlash path = false) :
    ∃ parts name, path.toList.splitOn '/' = parts ++ [name] ∧ name ≠ [] ∧ name ≠ dot ∧
      name ≠ dotDot := by
  rcases List.eq_nil_or_concat' (path.toList.splitOn '/') with none | ⟨parts, name, split⟩
  · exact absurd none (List.splitOn_ne_nil _ _)
  · have whole := intercalate_of_split split
    have filled : name ≠ [] := by
      rintro rfl
      by_cases alone : parts = []
      · simp [endsInName, steps, split, alone] at named
      · rw [Text.intercalate_append _ alone (by simp)] at whole
        have slash := endsInSlash_iff.2 ⟨_, whole.symm⟩
        simp [slash] at unslashed
    have taken : steps path = parts.filter (!·.isEmpty) ++ [name] := by
      rw [steps, split, List.filter_append]
      simp [filled]
    exact ⟨parts, name, split, filled, last_of_endsInName named taken⟩

/-- A name at the end of a text is its last component. -/
theorem toLastComponent_of_pieces {s name : List Char} {parts : List (List Char)}
    (split : s.splitOn '/' = parts ++ [name]) (filled : name ≠ []) (notDot : name ≠ dot) :
    ∃ front : List (List Char × Bool), front.map (·.1) = parts ∧
      toLastComponent s = (name, true) :: front.reverse := by
  have pieces := stretches_map_fst s
  rw [split] at pieces
  rcases List.eq_nil_or_concat' (stretches s) with none | ⟨front, last, stretched⟩
  · simp [none] at pieces
  · rw [stretched, List.map_append] at pieces
    obtain ⟨before, same⟩ := List.append_inj' pieces rfl
    obtain rfl : last.1 = name := by simpa using same
    have member : last ∈ stretches s := stretched ▸ List.mem_append_right _ List.mem_cons_self
    have isComponent := (component_of_mem_stretches member).2 filled notDot
    obtain ⟨name, flag⟩ := last
    obtain rfl : flag = true := isComponent
    refine ⟨front, before, ?_⟩
    rw [toLastComponent, stretched, List.reverse_append]
    rfl

section LastPiece

variable {path extension : String} {parts : List (List Char)} {name : List Char}

private theorem pieces_concat (plain : ∀ part ∈ parts, '/' ∉ part) (whole : '/' ∉ name) :
    (String.ofList (['/'].intercalate (parts ++ [name]))).toList.splitOn '/' =
      parts ++ [name] := by
  rw [String.toList_ofList]
  refine List.splitOn_intercalate '/' ?_ (by simp)
  exact List.forall_mem_append.2 ⟨plain, List.forall_mem_singleton.2 whole⟩

private theorem steps_intercalate (plain : ∀ part ∈ parts, '/' ∉ part) (whole : '/' ∉ name)
    (filled : name ≠ []) :
    steps (String.ofList (['/'].intercalate (parts ++ [name]))) =
      parts.filter (!·.isEmpty) ++ [name] := by
  rw [steps, pieces_concat plain whole, List.filter_append]
  simp [filled]

private theorem endsInSlash_intercalate (plain : ∀ part ∈ parts, '/' ∉ part) (whole : '/' ∉ name)
    (filled : name ≠ []) :
    endsInSlash (String.ofList (['/'].intercalate (parts ++ [name]))) = false := by
  refine Bool.eq_false_iff.2 fun slashed => filled ?_
  obtain ⟨before, same⟩ := endsInSlash_iff.1 slashed
  -- A slash at the end would leave an empty piece after it.
  have cut := pieces_concat plain whole
  rw [same, List.splitOn_append_cons_self] at cut
  have last : [[]] = [name] := (List.append_inj' cut rfl).2
  exact (List.cons.inj last).1.symm

/-- Another extension is put in the place of the old one.  The path is to end in a name afterwards:
two dots and an extension with nothing after it turn into two dots. -/
theorem withExtension_of_pieces (split : path.toList.splitOn '/' = parts ++ [name])
    (filled : name ≠ []) (notDot : name ≠ dot) (notDots : name ≠ dotDot)
    (stays : endsInName (withExtension path extension) = true) :
    withExtension path extension =
      String.ofList (['/'].intercalate (parts ++ [stem name ++ '.' :: extension.toList])) := by
  obtain ⟨front, fronts, cut⟩ := toLastComponent_of_pieces split filled notDot
  have put (last : List Char) :
      ofReversed ((last, true) :: front.reverse) = ['/'].intercalate (parts ++ [last]) := by
    rw [ofReversed, List.reverse_cons, List.reverse_reverse, List.map_append, fronts]
    rfl
  have plain : ∀ part ∈ parts, '/' ∉ part := fun part member =>
    plain_of_mem_pieces (split ▸ List.mem_append_left [name] member)
  rw [withExtension] at stays ⊢
  simp only [cut, notDot, notDots, or_self, if_false, put] at stays ⊢
  split at stays
  · rw [endsInName, steps_intercalate plain (by decide) (by decide)] at stays
    simp at stays
  · next unchanged => rw [if_neg unchanged]

/-- Another extension changes the last step of a path only. -/
theorem steps_withExtension (named : endsInName path = true)
    (unslashed : endsInSlash path = false) (plain : '/' ∉ extension.toList)
    (stays : endsInName (withExtension path extension) = true) :
    ∃ above name, steps path = above ++ [name] ∧
      steps (withExtension path extension) = above ++ [stem name ++ '.' :: extension.toList] ∧
      isAbsolute (withExtension path extension).toList = isAbsolute path.toList ∧
      endsInSlash (withExtension path extension) = false := by
  obtain ⟨parts, name, split, filled, notDot, notDots⟩ := exists_last_piece named unslashed
  have renamed := withExtension_of_pieces split filled notDot notDots stays
  have whole : String.ofList (['/'].intercalate (parts ++ [name])) = path := by
    rw [intercalate_of_split split, String.ofList_toList]
  have each : ∀ part ∈ parts ++ [name], '/' ∉ part := by
    rw [← split]
    exact fun part => plain_of_mem_pieces
  obtain ⟨partsPlain, last⟩ := List.forall_mem_append.1 each
  have namePlain : '/' ∉ name := last name List.mem_cons_self
  have otherPlain : '/' ∉ stem name ++ '.' :: extension.toList := by
    simp only [List.mem_append, List.mem_cons, not_or]
    exact ⟨fun member => namePlain (mem_stem member), by decide, plain⟩
  refine ⟨parts.filter (!·.isEmpty), name, ?_, ?_, ?_, ?_⟩
  · rw [← whole, steps_intercalate partsPlain namePlain filled]
  · rw [renamed, steps_intercalate partsPlain otherPlain (by simp)]
  · rw [renamed, ← whole, String.toList_ofList, String.toList_ofList,
      isAbsolute_intercalate parts otherPlain namePlain]
  · rw [renamed, endsInSlash_intercalate partsPlain otherPlain (by simp)]

end LastPiece

end ApiOutline.Path
