import ApiOutline.Outline.OpenFields

/-!
The open fields of a section, and what placing one more field does to them.

The frames of a section stand at consecutive depths, and closing them one after the other moves no
declaration: the declarations of the section, read from the outside in, stay in the order in which
they were placed.  A field finds its place exactly when the depths of the frames reach up to it.
-/

namespace ApiOutline.Outline

/-- Frames as a reading leaves them, innermost first: the outermost stands at the depth of the
outermost fields, each other one level deeper than the one around it, and all of them are nested. -/
def Chained : List Frame → Prop
  | [] => True
  | frame :: outer =>
    frame.depth = fieldDepth + outer.length ∧ frame.field.isNested = true ∧ Chained outer

/-- The declarations inside some frames, outermost frame first. -/
def framesPreorder : List Frame → List (Nat × FieldDecl)
  | [] => []
  | frame :: outer => framesPreorder outer ++ frame.field.preorder frame.depth

namespace OpenFields

variable {s t : OpenFields} {field : Field} {depth : Nat} {raw : String}

/-- The declarations of a section so far, each with its depth. -/
def preorder (s : OpenFields) : List (Nat × FieldDecl) :=
  Field.preorderAll fieldDepth s.roots ++ framesPreorder s.frames

/-- Puts a complete field into the innermost open field, or among the complete ones if none is
open. -/
def attach (field : Field) (s : OpenFields) : OpenFields :=
  match s.frames with
  | [] => { s with roots := s.roots ++ [field] }
  | frame :: outer =>
    { s with frames := { frame with field := frame.field.addChild field } :: outer }

/-- Adds a field where nothing at its own depth is open: a nested field stays open. -/
def settle (depth : Nat) (field : Field) (s : OpenFields) : OpenFields :=
  if field.isNested then { s with frames := ⟨depth, field⟩ :: s.frames } else s.attach field

/-! ## Attaching -/

private theorem preorderAll_append (depth : Nat) (first second : List Field) :
    Field.preorderAll depth (first ++ second) =
      Field.preorderAll depth first ++ Field.preorderAll depth second := by
  induction first with
  | nil => rfl
  | cons field first ih => simp [Field.preorderAll, ih]

private theorem preorder_addChild (depth : Nat) (field child : Field) :
    (field.addChild child).preorder depth =
      field.preorder depth ++ child.preorder (depth + 1) := by
  cases field
  simp [Field.addChild, Field.preorder, Field.preorderAll, preorderAll_append]

@[simp]
theorem attach_frames_length (field : Field) (s : OpenFields) :
    (s.attach field).frames.length = s.frames.length := by
  unfold attach
  split
  · next none => rw [none]
  · next parent rest some => rw [some, List.length_cons, List.length_cons]

/-- Open fields stay a chain when a field is attached to the innermost. -/
theorem attach_chained (chained : Chained s.frames) : Chained (s.attach field).frames := by
  unfold attach
  split
  · simpa
  · next frame outer same =>
    rw [same] at chained
    exact ⟨chained.1, chained.2.1, chained.2.2⟩

/-- A field that is attached comes after all declarations so far, one level below the innermost
frame. -/
theorem attach_preorder (chained : Chained s.frames) :
    (s.attach field).preorder =
      s.preorder ++ field.preorder (fieldDepth + s.frames.length) := by
  unfold attach
  split
  · next same => simp [preorder, same, framesPreorder, preorderAll_append, Field.preorderAll]
  · next frame outer same =>
    rw [same] at chained
    simp [preorder, same, framesPreorder, preorder_addChild, chained.1, Nat.add_assoc]

/-! ## Closing -/

@[simp]
theorem closeTo_nil (depth : Nat) (roots : List Field) : closeTo depth ⟨[], roots⟩ = ⟨[], roots⟩ :=
  rfl

/-- Closing goes from the innermost frame outwards. -/
theorem closeTo_cons (depth : Nat) (frame : Frame) (outer : List Frame) (roots : List Field) :
    closeTo depth ⟨frame :: outer, roots⟩ =
      if depth ≤ frame.depth then closeTo depth (attach frame.field ⟨outer, roots⟩)
      else ⟨frame :: outer, roots⟩ := by
  cases outer <;> simp only [closeTo, attach, unwind]

private theorem drain_cons (frame : Frame) (outer : List Frame) (roots : List Field) :
    drain ⟨frame :: outer, roots⟩ = drain (attach frame.field ⟨outer, roots⟩) := by
  cases outer <;> simp [drain, attach, enclose]

/-- What every closing step keeps, the whole closing keeps. -/
theorem closeTo_induction {motive : OpenFields → Prop} (depth : Nat)
    (step : ∀ frame outer roots, depth ≤ frame.depth → motive ⟨frame :: outer, roots⟩ →
      motive (attach frame.field ⟨outer, roots⟩))
    (s : OpenFields) (start : motive s) : motive (s.closeTo depth) := by
  obtain ⟨frames, roots⟩ := s
  cases frames with
  | nil => exact start
  | cons frame outer =>
    induction outer generalizing frame with
    | nil =>
      rw [closeTo_cons]
      split
      · next within => exact step frame [] roots within start
      · exact start
    | cons parent outer ih =>
      rw [closeTo_cons]
      split
      · next within => exact ih _ (step frame (parent :: outer) roots within start)
      · exact start

/-- Open fields stay a chain when the inner ones are completed. -/
theorem closeTo_chained (depth : Nat) (chained : Chained s.frames) :
    Chained (s.closeTo depth).frames :=
  closeTo_induction (motive := fun s => Chained s.frames) depth
    (fun _ _ _ _ chained => attach_chained chained.2.2) s chained

/-- Closing frames moves no declaration. -/
theorem closeTo_preorder (depth : Nat) (chained : Chained s.frames) :
    (s.closeTo depth).preorder = s.preorder := by
  refine (closeTo_induction (motive := fun t => Chained t.frames ∧ t.preorder = s.preorder)
    depth ?_ s ⟨chained, rfl⟩).2
  rintro frame outer roots - ⟨chained, same⟩
  refine ⟨attach_chained chained.2.2, ?_⟩
  rw [attach_preorder chained.2.2, ← same]
  simp [preorder, framesPreorder, chained.1]

/-- The frames that stay open are those above the depth. -/
theorem closeTo_frames_length (depth : Nat) (chained : Chained s.frames) :
    (s.closeTo depth).frames.length = min s.frames.length (depth - fieldDepth) := by
  obtain ⟨frames, roots⟩ := s
  cases frames with
  | nil => simp
  | cons frame outer =>
    induction outer generalizing frame with
    | nil =>
      have standing : frame.depth = fieldDepth := chained.1
      rw [closeTo_cons]
      split
      · simp only [attach, closeTo_nil, List.length_nil, List.length_singleton]
        omega
      · simp only [List.length_singleton]
        omega
    | cons parent outer ih =>
      have standing : frame.depth = fieldDepth + (outer.length + 1) := chained.1
      rw [closeTo_cons]
      split
      · have closed := ih { parent with field := parent.field.addChild frame.field }
          (attach_chained (s := ⟨parent :: outer, roots⟩) chained.2.2)
        simp only [attach, List.length_cons] at closed ⊢
        omega
      · simp only [List.length_cons]
        omega

/-- Closing up to a depth that no frame reaches does nothing. -/
theorem closeTo_of_length (chained : Chained s.frames)
    (above : s.frames.length + fieldDepth ≤ depth) : s.closeTo depth = s := by
  obtain ⟨frames, roots⟩ := s
  cases frames with
  | nil => rfl
  | cons frame outer =>
    have standing : frame.depth = fieldDepth + outer.length := chained.1
    simp only [List.length_cons] at above
    rw [closeTo_cons, if_neg (by omega)]

/-- Closing in two goes is closing in one. -/
theorem closeTo_closeTo {deeper : Nat} (order : depth ≤ deeper) (s : OpenFields) :
    (s.closeTo deeper).closeTo depth = s.closeTo depth := by
  refine closeTo_induction (motive := fun t => t.closeTo depth = s.closeTo depth) deeper ?_ s rfl
  intro frame outer roots within same
  rw [closeTo_cons, if_pos (Nat.le_trans order within)] at same
  exact same

/-- Completing all open fields is closing up to the depth of the outermost ones. -/
theorem drain_eq_closeTo (chained : Chained s.frames) : s.drain = s.closeTo fieldDepth := by
  obtain ⟨frames, roots⟩ := s
  cases frames with
  | nil => rfl
  | cons frame outer =>
    induction outer generalizing frame with
    | nil =>
      have standing : frame.depth = fieldDepth := chained.1
      rw [drain_cons, closeTo_cons, if_pos (Nat.le_of_eq standing.symm)]
      rfl
    | cons parent outer ih =>
      have standing : frame.depth = fieldDepth + (outer.length + 1) := chained.1
      rw [drain_cons, closeTo_cons, if_pos (by omega)]
      exact ih _ (attach_chained (s := ⟨parent :: outer, roots⟩) chained.2.2)

@[simp]
theorem drain_frames (s : OpenFields) : s.drain.frames = [] := by
  obtain ⟨frames, roots⟩ := s
  cases frames <;> rfl

/-- Completing all open fields moves none of them. -/
theorem drain_preorder (chained : Chained s.frames) :
    Field.preorderAll fieldDepth s.drain.roots = s.preorder := by
  rw [← closeTo_preorder fieldDepth chained, ← drain_eq_closeTo chained]
  simp [preorder, framesPreorder]

/-! ## Placing -/

/-- Open fields stay a chain when a field is opened one level below the innermost. -/
theorem settle_chained (chained : Chained s.frames) (fits : depth = fieldDepth + s.frames.length) :
    Chained (s.settle depth field).frames := by
  unfold settle
  split
  · next nested => exact ⟨fits, nested, chained⟩
  · exact attach_chained chained

/-- A field is left open exactly if it can have children. -/
theorem settle_frames_length (depth : Nat) (field : Field) (s : OpenFields) :
    (s.settle depth field).frames.length = s.frames.length + field.isNested.toNat := by
  unfold settle
  split
  · next nested => rw [nested, List.length_cons, Bool.toNat_true]
  · next plain =>
    rw [Bool.eq_false_iff.2 plain, attach_frames_length, Bool.toNat_false, Nat.add_zero]

private theorem settle_preorder (chained : Chained s.frames)
    (fits : depth = fieldDepth + s.frames.length) :
    (s.settle depth field).preorder = s.preorder ++ field.preorder depth := by
  unfold settle
  split
  · simp [preorder, framesPreorder]
  · rw [attach_preorder chained, fits]

/-- Once it is closed, a nested field stands where a field that is not nested stands at once. -/
theorem closeTo_settle (chained : Chained s.frames) (fits : depth = fieldDepth + s.frames.length) :
    (s.settle depth field).closeTo depth = s.attach field := by
  have idle : (s.attach field).closeTo depth = s.attach field :=
    closeTo_of_length (attach_chained chained) (by rw [attach_frames_length]; omega)
  unfold settle
  split
  · rw [closeTo_cons, if_pos (Nat.le_refl _)]
    exact idle
  · exact idle

/-- Placing a field closes what is open at its depth and deeper.  Then the field settles if the
frames reach up to it, and otherwise it is a fault of its line. -/
theorem place_eq (chained : Chained s.frames) (inside : fieldDepth ≤ depth) :
    place depth field raw s =
      if depth ≤ fieldDepth + s.frames.length then ((s.closeTo depth).settle depth field, none)
      else (s.closeTo depth, some (.grammar field.line raw (.noOpenField (depth - 1)))) := by
  have left := closeTo_frames_length depth chained
  have leftChained := closeTo_chained depth chained
  unfold place
  by_cases outermost : depth ≤ fieldDepth
  · obtain rfl : depth = fieldDepth := Nat.le_antisymm outermost inside
    have none : (s.closeTo fieldDepth).frames = [] := by
      rw [← drain_eq_closeTo chained]; exact drain_frames s
    simp only [Nat.le_refl, ↓reduceIte, drain_eq_closeTo chained, Nat.le_add_right, settle, attach,
      none]
    split <;> rfl
  · simp only [if_neg outermost]
    cases same : (s.closeTo depth).frames with
    | nil =>
      rw [same] at left
      simp only [List.length_nil] at left
      rw [if_neg (by omega)]
    | cons parent outer =>
      rw [same] at left leftChained
      have standing : parent.depth = fieldDepth + outer.length := leftChained.1
      simp only [List.length_cons] at left
      dsimp only
      by_cases reaches : depth ≤ fieldDepth + s.frames.length
      · rw [if_pos reaches, if_neg (by omega)]
        simp only [settle, attach, same]
        split <;> rfl
      · rw [if_neg reaches, if_pos (by omega)]

section Placed

variable (chained : Chained s.frames) (inside : fieldDepth ≤ depth)
  (placed : place depth field raw s = (t, none))

include chained inside placed

/-- A field finds its place only where the frames reach up to it. -/
theorem place_reaches :
    depth ≤ fieldDepth + s.frames.length ∧ t = (s.closeTo depth).settle depth field := by
  rw [place_eq chained inside] at placed
  split at placed
  · next reaches => exact ⟨reaches, (Prod.mk.inj placed).1.symm⟩
  · cases placed

private theorem place_fits : depth = fieldDepth + (s.closeTo depth).frames.length := by
  have reaches := (place_reaches chained inside placed).1
  rw [closeTo_frames_length depth chained]
  omega

/-- Open fields are a chain after every field that is placed. -/
theorem place_chained : Chained t.frames := by
  rw [(place_reaches chained inside placed).2]
  exact settle_chained (closeTo_chained depth chained) (place_fits chained inside placed)

/-- How far the frames reach afterwards is decided by the field alone. -/
theorem place_frames_length : t.frames.length = depth - fieldDepth + field.isNested.toNat := by
  have fits := place_fits chained inside placed
  rw [(place_reaches chained inside placed).2, settle_frames_length]
  omega

/-- A field that finds its place comes last in the section, at its own depth. -/
theorem place_preorder : t.preorder = s.preorder ++ field.preorder depth := by
  rw [(place_reaches chained inside placed).2,
    settle_preorder (closeTo_chained depth chained) (place_fits chained inside placed),
    closeTo_preorder depth chained]

end Placed

end OpenFields

end ApiOutline.Outline
