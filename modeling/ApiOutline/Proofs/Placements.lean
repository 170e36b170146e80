import ApiOutline.Proofs.OpenFields
import ApiOutline.Proofs.Text
import Mathlib.Data.List.Basic
import Mathlib.Data.List.Induction

/-!
Any sequence of placements and completions, those that fail included.

A section starts empty, and each act works on what the acts before it have left.  Two views of such
a history do not look at the frames: which fields were accepted, and whether a nested field one
level above a depth is still open, judged by the acts after it alone.  The section holds exactly the
accepted fields, in order; and a field is refused exactly where the second view finds no parent.
-/

namespace ApiOutline.Outline

/-- One thing that is done to a section. -/
inductive Act where
  /-- A field without children is placed at a depth. -/
  | place (depth : Nat) (decl : FieldDecl) (raw : String)
  /-- All open fields are completed. -/
  | drain
  deriving DecidableEq, Repr

/-- An act that leaves a field open which stands one level above a depth.  Whether the act itself
succeeds makes no difference. -/
def Act.Spares (depth : Nat) : Act → Prop
  | .place deeper _ _ => depth ≤ deeper
  | .drain => False

namespace OpenFields

variable {s : OpenFields} {depth : Nat}

/-- Does one thing to a section. -/
def act (s : OpenFields) : Act → OpenFields × Option Fault
  | .place depth decl raw => s.place depth ⟨decl, []⟩ raw
  | .drain => (s.drain, none)

/-- An empty section after some acts.  A fault is no reason to stop. -/
def after (acts : List Act) : OpenFields := acts.foldl (fun s a => (s.act a).1) {}

/-- What an act adds to a section: the field of a placement that does not fail, no higher than the
outermost fields stand. -/
def gained (s : OpenFields) : Act → List (Nat × FieldDecl)
  | .place depth decl raw =>
    match (s.place depth ⟨decl, []⟩ raw).2 with
    | none => [(max depth fieldDepth, decl)]
    | some _ => []
  | .drain => []

/-- The fields that the acts on a section add to it, in order. -/
def acceptedFrom (s : OpenFields) : List Act → List (Nat × FieldDecl)
  | [] => []
  | a :: rest => s.gained a ++ acceptedFrom (s.act a).1 rest

/-- The fields that some acts add to an empty section. -/
def accepted (acts : List Act) : List (Nat × FieldDecl) := acceptedFrom {} acts

/-- An act that opens a field one level above a depth: a nested field, in a place of its own. -/
def Opens (s : OpenFields) (depth : Nat) : Act → Prop
  | .place above decl raw =>
    decl.isNested = true ∧ (s.place above ⟨decl, []⟩ raw).2 = none ∧
      max above fieldDepth + 1 = depth
  | .drain => False

/-- One of the acts has opened a field one level above a depth, and every later one spares it. -/
def LeaveOpen (acts : List Act) (depth : Nat) : Prop :=
  ∃ earlier a later, acts = earlier ++ a :: later ∧ (after earlier).Opens depth a ∧
    ∀ b ∈ later, b.Spares depth

/-! ## One placement, at any depth -/

/-- A field that stands too high is placed among the outermost ones. -/
theorem place_max (depth : Nat) (field : Field) (raw : String) (s : OpenFields) :
    s.place depth field raw = s.place (max depth fieldDepth) field raw := by
  by_cases outermost : depth ≤ fieldDepth
  · rw [Nat.max_eq_right outermost, place, place, if_pos outermost, if_pos (Nat.le_refl _)]
  · rw [Nat.max_eq_left (by omega)]

/-- A field up to which the frames reach finds its place, after all declarations so far.  Its depth
and its kind alone decide how far the frames reach afterwards. -/
theorem place_accepted (chained : Chained s.frames) (field : Field) (raw : String)
    (reaches : depth ≤ fieldDepth + s.frames.length) :
    ∃ t, s.place depth field raw = (t, none) ∧ Chained t.frames ∧
      t.frames.length = max depth fieldDepth - fieldDepth + field.isNested.toNat ∧
      t.preorder = s.preorder ++ field.preorder (max depth fieldDepth) := by
  have inside : fieldDepth ≤ max depth fieldDepth := Nat.le_max_right _ _
  have placed : s.place (max depth fieldDepth) field raw =
      ((s.closeTo (max depth fieldDepth)).settle (max depth fieldDepth) field, none) := by
    rw [place_eq chained inside, if_pos (by omega)]
  refine ⟨_, (place_max depth field raw s).trans placed, ?_, ?_, ?_⟩
  · exact place_chained chained inside placed
  · exact place_frames_length chained inside placed
  · exact place_preorder chained inside placed

/-- A field that the frames do not reach is a fault of its own line, and it changes nothing: the
frames that it would close are those at its depth or deeper, and there are none. -/
theorem place_refused (chained : Chained s.frames) (field : Field) (raw : String)
    (beyond : fieldDepth + s.frames.length < depth) :
    s.place depth field raw = (s, some (.grammar field.line raw (.noOpenField (depth - 1)))) := by
  rw [place_eq chained (by omega), if_neg (by omega), closeTo_of_length chained (by omega)]

/-- A field is refused exactly if it stands more than one level below the innermost open field. -/
theorem place_accepts_iff (chained : Chained s.frames) (field : Field) (raw : String) :
    (s.place depth field raw).2 = none ↔ depth ≤ fieldDepth + s.frames.length := by
  by_cases reaches : depth ≤ fieldDepth + s.frames.length
  · obtain ⟨t, placed, -⟩ := place_accepted chained field raw reaches
    rw [placed]
    exact iff_of_true rfl reaches
  · rw [place_refused chained field raw (by omega)]
    exact iff_of_false nofun reaches

/-! ## One act -/

private theorem act_chained (chained : Chained s.frames) (a : Act) :
    Chained (s.act a).1.frames := by
  cases a with
  | drain =>
    rw [act, drain_frames]
    trivial
  | place depth decl raw =>
    by_cases reaches : depth ≤ fieldDepth + s.frames.length
    · obtain ⟨t, placed, still, -⟩ := place_accepted chained ⟨decl, []⟩ raw reaches
      rw [act, placed]
      exact still
    · rw [act, place_refused chained _ raw (by omega)]
      exact chained

/-- An act adds what it gains after all that is there, and nothing gets lost. -/
theorem act_preorder (chained : Chained s.frames) (a : Act) :
    (s.act a).1.preorder = s.preorder ++ s.gained a := by
  cases a with
  | drain =>
    rw [act, gained, List.append_nil, drain_eq_closeTo chained, closeTo_preorder _ chained]
  | place depth decl raw =>
    by_cases reaches : depth ≤ fieldDepth + s.frames.length
    · obtain ⟨t, placed, -, -, added⟩ := place_accepted chained ⟨decl, []⟩ raw reaches
      rw [act, gained, placed, added, Field.preorder, Field.preorderAll]
    · rw [act, gained, place_refused chained _ raw (by omega), List.append_nil]

/-- The frames reach up to a depth after an act if the act opens a field one level above it, or if
they did before and the act spares what they end with. -/
theorem act_reaches_iff (chained : Chained s.frames) (a : Act) (inside : fieldDepth < depth) :
    depth ≤ fieldDepth + (s.act a).1.frames.length ↔
      s.Opens depth a ∨ (a.Spares depth ∧ depth ≤ fieldDepth + s.frames.length) := by
  cases a with
  | drain =>
    simp only [act, drain_frames, List.length_nil, Opens, Act.Spares, false_and, or_self, iff_false]
    omega
  | place other decl raw =>
    simp only [act, Opens, Act.Spares, place_accepts_iff chained]
    by_cases reaches : other ≤ fieldDepth + s.frames.length
    · obtain ⟨t, placed, -, length, -⟩ := place_accepted chained ⟨decl, []⟩ raw reaches
      rw [placed, length]
      cases decl.isNested <;> simp <;> omega
    · rw [place_refused chained _ raw (by omega)]
      dsimp only
      omega

/-! ## A history -/

private theorem after_concat (acts : List Act) (a : Act) :
    after (acts ++ [a]) = ((after acts).act a).1 := by
  rw [after, after, List.foldl_append, List.foldl_cons, List.foldl_nil]

private theorem chained_after (acts : List Act) : Chained (after acts).frames := by
  induction acts using List.reverseRecOn with
  | nil => trivial
  | append_singleton acts a chained =>
    rw [after_concat]
    exact act_chained chained a

private theorem acceptedFrom_append (acts more : List Act) (s : OpenFields) :
    s.acceptedFrom (acts ++ more) =
      s.acceptedFrom acts ++ (acts.foldl (fun s a => (s.act a).1) s).acceptedFrom more := by
  induction acts generalizing s with
  | nil => rfl
  | cons a acts ih =>
    rw [List.cons_append, acceptedFrom, ih, acceptedFrom, List.append_assoc, List.foldl_cons]

private theorem accepted_concat (acts : List Act) (a : Act) :
    accepted (acts ++ [a]) = accepted acts ++ (after acts).gained a := by
  rw [accepted, acceptedFrom_append, acceptedFrom, acceptedFrom, List.append_nil]
  rfl

/-- The section holds the accepted fields, in the order in which they were accepted. -/
theorem preorder_after (acts : List Act) : (after acts).preorder = accepted acts := by
  induction acts using List.reverseRecOn with
  | nil => rfl
  | append_singleton acts a held =>
    rw [after_concat, accepted_concat, act_preorder (chained_after acts), held]

private theorem leaveOpen_concat (acts : List Act) (a : Act) (depth : Nat) :
    LeaveOpen (acts ++ [a]) depth ↔
      (after acts).Opens depth a ∨ (a.Spares depth ∧ LeaveOpen acts depth) := by
  constructor
  · rintro ⟨earlier, parent, later, same, opens, spared⟩
    rcases Text.concat_eq_append_cons_iff.1 same with ⟨rfl, rfl, rfl⟩ | ⟨later, rfl, rfl⟩
    · exact .inl opens
    · rw [List.forall_mem_append, List.forall_mem_singleton] at spared
      exact .inr ⟨spared.2, earlier, parent, later, rfl, opens, spared.1⟩
  · rintro (opens | ⟨spares, earlier, parent, later, rfl, opens, spared⟩)
    · exact ⟨acts, a, [], rfl, opens, List.forall_mem_nil _⟩
    · refine ⟨earlier, parent, later ++ [a], by simp, opens, ?_⟩
      rw [List.forall_mem_append, List.forall_mem_singleton]
      exact ⟨spared, spares⟩

/-- How far the frames reach can be told without them. -/
theorem reaches_iff_leaveOpen (acts : List Act) (inside : fieldDepth < depth) :
    depth ≤ fieldDepth + (after acts).frames.length ↔ LeaveOpen acts depth := by
  induction acts using List.reverseRecOn with
  | nil =>
    refine iff_of_false (Nat.not_le.2 inside) ?_
    rintro ⟨earlier, a, later, same, -⟩
    exact List.append_ne_nil_of_right_ne_nil _ (List.cons_ne_nil _ _) same.symm
  | append_singleton acts a earlier =>
    rw [after_concat, act_reaches_iff (chained_after acts) a inside, earlier,
      leaveOpen_concat]

/-- A depth is out of reach exactly if a field there has to be inside of another and none is open
for it. -/
theorem beyond_iff (acts : List Act) (depth : Nat) :
    fieldDepth + (after acts).frames.length < depth ↔
      fieldDepth < depth ∧ ¬ LeaveOpen acts depth := by
  rw [← Nat.not_le]
  constructor
  · intro beyond
    have inside : fieldDepth < depth := by omega
    exact ⟨inside, mt (reaches_iff_leaveOpen acts inside).2 beyond⟩
  · rintro ⟨inside, orphan⟩
    exact mt (reaches_iff_leaveOpen acts inside).1 orphan

/-- What holds after any acts on an empty section.  The section holds exactly the fields that were
accepted, in order and at their depths, whether they are complete or still open.  Completing the
open fields leaves no frame, and all of them among the complete ones.  A field is refused exactly
where it has to be inside of another and no field is open for it; then that is a fault of its own
line, and the section stays as it is. -/
theorem after_holds_accepted (acts : List Act) :
    (after acts).preorder = accepted acts ∧
    ((after (acts ++ [.drain])).frames = [] ∧
      Field.preorderAll fieldDepth (after (acts ++ [.drain])).roots = accepted acts) ∧
    ∀ depth decl raw,
      (((after acts).place depth ⟨decl, []⟩ raw).2 ≠ none ↔
        fieldDepth < depth ∧ ¬ LeaveOpen acts depth) ∧
      ((after acts).place depth ⟨decl, []⟩ raw =
          (after acts, some (.grammar decl.line raw (.noOpenField (depth - 1)))) ↔
        fieldDepth < depth ∧ ¬ LeaveOpen acts depth) := by
  have chained := chained_after acts
  have held := preorder_after acts
  refine ⟨held, ?_, fun depth decl raw => ?_⟩
  · rw [after_concat, ← held, act]
    exact ⟨drain_frames _, drain_preorder chained⟩
  · have accepts : ((after acts).place depth ⟨decl, []⟩ raw).2 = none ↔
        depth ≤ fieldDepth + (after acts).frames.length := place_accepts_iff chained _ raw
    rw [← beyond_iff, ← Nat.not_le, ← accepts]
    refine ⟨Iff.rfl, ?_, ?_⟩
    · intro refused
      rw [refused]
      nofun
    · intro fails
      exact place_refused chained _ raw (by rwa [← Nat.not_le, ← accepts])

end OpenFields

end ApiOutline.Outline
