import ApiOutline.Model

/-!
A model with other line numbers and other comments.

Two models that say the same on other lines differ in these alone, so they are compared with their
lines and comments renamed.  Renaming the comments in two ways gives the same exactly if the two
ways agree on every comment that occurs.
-/

namespace ApiOutline

variable (line : Nat → Nat) (comment other : String → String)

/-- A declaration with another line and another comment. -/
def FieldDecl.relabel (d : FieldDecl) : FieldDecl :=
  { d with comment := comment d.comment, line := line d.line }

namespace Field

mutual

/-- A field with other lines and comments, those of its children included. -/
def relabel : Field → Field
  | ⟨d, children⟩ => ⟨d.relabel line comment, relabelAll children⟩

/-- Some fields with other lines and comments. -/
def relabelAll : List Field → List Field
  | [] => []
  | f :: fs => relabel f :: relabelAll fs

end

/-- Fields are relabelled one by one. -/
theorem relabelAll_eq_map (fs : List Field) :
    relabelAll line comment fs = fs.map (relabel line comment) := by
  induction fs with
  | nil => rfl
  | cons f fs ih => rw [relabelAll, ih, List.map_cons]

/-- A child is relabelled with its parent. -/
theorem relabel_addChild (field child : Field) :
    (field.addChild child).relabel line comment =
      (field.relabel line comment).addChild (child.relabel line comment) := by
  obtain ⟨d, children⟩ := field
  simp [addChild, relabel, relabelAll_eq_map]

mutual

/-- A field with its own lines and comments is the field itself. -/
theorem relabel_id : (f : Field) → f.relabel id id = f
  | ⟨d, children⟩ => by rw [relabel, relabelAll_id children]; rfl

private theorem relabelAll_id : (fs : List Field) → relabelAll id id fs = fs
  | [] => rfl
  | f :: fs => by rw [relabelAll, relabel_id f, relabelAll_id fs]

end

end Field

/-- An endpoint with other lines and comments, those of its fields included. -/
def Endpoint.relabel (e : Endpoint) : Endpoint :=
  { e with
    comment := comment e.comment
    line := line e.line
    requestFields := Field.relabelAll line comment e.requestFields
    responseFields := Field.relabelAll line comment e.responseFields }

/-- A group with other lines and comments, those of its endpoints included. -/
def Group.relabel (g : Group) : Group :=
  { g with
    comment := comment g.comment
    line := line g.line
    endpoints := g.endpoints.map (Endpoint.relabel line comment) }

theorem Endpoint.relabel_id (e : Endpoint) : e.relabel id id = e := by
  rw [relabel, Field.relabelAll_id, Field.relabelAll_id]
  rfl

theorem Group.relabel_id (g : Group) : g.relabel id id = g := by
  rw [relabel, List.map_congr_left fun e _ => Endpoint.relabel_id e, List.map_id']
  rfl

/-- The comments of an endpoint and of its fields. -/
def Endpoint.comments (e : Endpoint) : List String :=
  e.comment ::
    (Field.preorderAll 0 e.requestFields ++ Field.preorderAll 0 e.responseFields).map (·.2.comment)

def Group.comments (g : Group) : List String := g.comment :: g.endpoints.flatMap Endpoint.comments

def Model.comments (m : Model) : List String := m.groups.flatMap Group.comments

namespace Field

variable {line comment other}

mutual

/-- Relabelled fields are equal exactly if each comment of theirs is changed alike. -/
theorem relabel_eq_iff (depth : Nat) : (f : Field) →
    (f.relabel line comment = f.relabel line other ↔
      ∀ d ∈ f.preorder depth, comment d.2.comment = other d.2.comment)
  | ⟨d, children⟩ => by
    rw [relabel, relabel, Field.mk.injEq, relabelAll_eq_iff (depth + 1) children, preorder,
      List.forall_mem_cons]
    simp [FieldDecl.relabel]

theorem relabelAll_eq_iff (depth : Nat) : (fs : List Field) →
    (relabelAll line comment fs = relabelAll line other fs ↔
      ∀ d ∈ preorderAll depth fs, comment d.2.comment = other d.2.comment)
  | [] => by simp [relabelAll, preorderAll]
  | f :: fs => by
    rw [relabelAll, relabelAll, List.cons.injEq, relabel_eq_iff depth f, relabelAll_eq_iff depth fs,
      preorderAll, List.forall_mem_append]

end

end Field

variable {line comment other}

theorem Endpoint.relabel_eq_iff (e : Endpoint) :
    e.relabel line comment = e.relabel line other ↔ ∀ c ∈ e.comments, comment c = other c := by
  have fields : ∀ fs, Field.relabelAll line comment fs = Field.relabelAll line other fs ↔
      ∀ c ∈ (Field.preorderAll 0 fs).map (·.2.comment), comment c = other c := by
    intro fs
    rw [Field.relabelAll_eq_iff 0 fs, List.forall_mem_map]
  rw [comments, List.map_append, List.forall_mem_cons, List.forall_mem_append, ← fields, ← fields]
  simp [relabel]

theorem Group.relabel_eq_iff (g : Group) :
    g.relabel line comment = g.relabel line other ↔ ∀ c ∈ g.comments, comment c = other c := by
  have endpoints : g.endpoints.map (Endpoint.relabel line comment) =
      g.endpoints.map (Endpoint.relabel line other) ↔
      ∀ c ∈ g.endpoints.flatMap Endpoint.comments, comment c = other c := by
    rw [List.map_inj_left, List.forall_mem_flatMap]
    exact forall₂_congr fun e _ => e.relabel_eq_iff
  rw [comments, List.forall_mem_cons, ← endpoints]
  simp [relabel]

/-- Relabelled groups are equal exactly if each comment of the model is changed alike. -/
theorem relabel_groups_eq_iff (m : Model) :
    m.groups.map (Group.relabel line comment) = m.groups.map (Group.relabel line other) ↔
      ∀ c ∈ m.comments, comment c = other c := by
  rw [List.map_inj_left, Model.comments, List.forall_mem_flatMap]
  exact forall₂_congr fun g _ => g.relabel_eq_iff

end ApiOutline
