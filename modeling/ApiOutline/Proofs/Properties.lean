import ApiOutline.DocNode
import ApiOutline.Swagger.Schema
import Mathlib.Data.List.Induction
import Mathlib.Data.List.Nodup

/-!
Objects that get their properties one after the other.

A schema and a node of a documentation tree collect the names that have to be present in the same
way: a name is listed where it is asked for first, and never again.  They differ in the properties
themselves.  A schema has one for each name, the last one given; a node has all of them, in order.
-/

namespace ApiOutline

universe u

variable {α : Type u}

/-! ## Names, each once -/

/-- A name is listed where it comes first, so one that is known is not listed again. -/
theorem eraseDups_concat {names : List String} {name : String} :
    (names ++ [name]).eraseDups =
      if name ∈ names then names.eraseDups else names.eraseDups ++ [name] := by
  rw [List.eraseDups_append, List.removeAll]
  by_cases member : name ∈ names
  · rw [if_pos member, List.filter_cons_of_neg (by simpa using member), List.filter_nil,
      List.eraseDups_nil, List.append_nil]
  · rw [if_neg member, List.filter_cons_of_pos (by simpa using member), List.filter_nil,
      List.eraseDups_cons, List.filter_nil, List.eraseDups_nil]

theorem nodup_eraseDups (names : List String) : names.eraseDups.Nodup := by
  induction names using List.reverseRecOn with
  | nil => exact List.nodup_nil
  | append_singleton names name distinct =>
    rw [eraseDups_concat]
    split
    · exact distinct
    · next fresh =>
      rw [← List.concat_eq_append]
      exact distinct.concat (mt List.mem_eraseDups.1 fresh)

/-- Lists a name that has to be present, unless it is listed already. -/
def addRequired (required : Bool) (names : List String) (name : String) : List String :=
  if required && !names.contains name then names ++ [name] else names

private theorem addRequired_eraseDups (names : List String) (name : String) :
    addRequired true names.eraseDups name = (names ++ [name]).eraseDups := by
  rw [addRequired, eraseDups_concat]
  by_cases listed : name ∈ names <;> simp [listed]

/-- The names listed one after the other are those asked for, in the order in which they come
first. -/
theorem foldl_addRequired (name : α → String) (required : α → Bool) (items : List α) :
    items.foldl (fun names a => addRequired (required a) names (name a)) [] =
      ((items.filter required).map name).eraseDups := by
  induction items using List.reverseRecOn with
  | nil => rfl
  | append_singleton items last listed =>
    rw [List.foldl_append, List.foldl_cons, List.foldl_nil, listed, List.filter_append,
      List.map_append]
    cases asked : required last with
    | false => simp [asked, addRequired]
    | true => rw [addRequired_eraseDups, List.filter_cons_of_pos asked]; rfl

theorem mem_requiredNames {name : α → String} {required : α → Bool} {items : List α}
    {key : String} : key ∈ ((items.filter required).map name).eraseDups ↔
      ∃ a ∈ items, name a = key ∧ required a = true := by
  simp only [List.mem_eraseDups, List.mem_map, List.mem_filter]
  exact exists_congr fun a => and_right_comm.trans and_assoc

/-! ## Schemas -/

namespace Swagger.Schema

variable {s : Schema}

/-- Sets a property for each of some items. -/
def setAll (name : α → String) (property : α → Schema) (required : α → Bool) (items : List α)
    (s : Schema) : Schema :=
  items.foldl (fun s a => s.setProperty (name a) (property a) (required a)) s

section SetAll

variable (name : α → String) (property : α → Schema) (required : α → Bool) (items : List α)

/-- Setting properties changes nothing else. -/
theorem setAll_frame (s : Schema) :
    setAll name property required items s =
      { s with
        required := (setAll name property required items s).required
        properties := (setAll name property required items s).properties } := by
  induction items generalizing s with
  | nil => cases s; rfl
  | cons a rest ih => exact ih (s.setProperty (name a) (property a) (required a))

/-- The required properties are listed once each, in the order in which they come first. -/
theorem required_setAll (bare : s.required = []) :
    (setAll name property required items s).required =
      ((items.filter required).map name).eraseDups := by
  rw [← foldl_addRequired, ← bare]
  clear bare
  induction items generalizing s with
  | nil => rfl
  | cons a rest ih => exact ih

/-- The property of a name is the one given last. -/
theorem property?_setAll (bare : s.properties = []) (key : String) :
    (setAll name property required items s).property? key =
      (items.reverse.find? (name · == key)).map property := by
  induction items using List.reverseRecOn with
  | nil => rw [setAll, List.foldl_nil, property?, bare]; rfl
  | append_singleton items last earlier =>
    rw [setAll, List.foldl_append, List.foldl_cons, List.foldl_nil, List.reverse_append,
      List.reverse_singleton, List.singleton_append, List.find?_cons, ← setAll]
    by_cases same : name last = key
    · rw [same, beq_self_eq_true, property?, setProperty, Entries.lookup_insert_self]
      rfl
    · rw [beq_false_of_ne same, ← earlier, property?, setProperty,
        Entries.lookup_insert_of_ne (Ne.symm same)]
      rfl

/-- Properties stay in the order of their keys. -/
theorem sorted_setAll (sorted : Entries.Sorted s.properties) :
    Entries.Sorted (setAll name property required items s).properties := by
  induction items generalizing s with
  | nil => exact sorted
  | cons a rest ih => exact ih (Entries.sorted_insert sorted)

end SetAll

/-- Fields are set as properties one after the other. -/
theorem setFields_eq_setAll (s : Schema) (fields : List Field) :
    setFields s fields = setAll (·.name) ofField (·.required) fields s := by
  induction fields generalizing s with
  | nil => rw [setFields]; rfl
  | cons field rest ih => rw [setFields, ih]; rfl

theorem type_setFields (s : Schema) (fields : List Field) : (setFields s fields).type = s.type := by
  rw [setFields_eq_setAll, setAll_frame]

theorem items_setFields (s : Schema) (fields : List Field) :
    (setFields s fields).items = s.items := by
  rw [setFields_eq_setAll, setAll_frame]

/-- A schema that got its properties from fields has those of the last fields of each name. -/
theorem property?_last {before after : List Field} {field : Field}
    (last : ∀ later ∈ after, later.name ≠ field.name) :
    (ofFields (before ++ field :: after)).property? field.name = some (ofField field) := by
  have later : after.reverse.find? (·.name == field.name) = none := by
    rw [List.find?_eq_none]
    intro other member
    simpa using last other (List.mem_reverse.1 member)
  rw [ofFields, setFields_eq_setAll, property?_setAll _ _ _ _ rfl, List.reverse_append,
    List.reverse_cons, List.append_assoc, List.find?_append, later, Option.none_or,
    List.singleton_append, List.find?_cons, beq_self_eq_true]
  rfl

end Swagger.Schema

/-! ## Documentation trees -/

namespace Field

/-- Adding properties changes nothing else. -/
theorem pushDocs_frame (node : DocNode) (fields : List Field) :
    pushDocs node fields =
      { node with
        required := (pushDocs node fields).required
        properties := node.properties ++ fields.map docNode } := by
  induction fields generalizing node with
  | nil =>
    cases node
    simp [pushDocs]
  | cons field rest ih =>
    rw [pushDocs, ih]
    simp [DocNode.push]

theorem docNode_name (field : Field) : field.docNode.name = field.name := by
  obtain ⟨d, children⟩ := field
  rw [docNode]
  split
  · rfl
  · rw [pushDocs_frame]

/-- Documentation lists the required fields as a schema does. -/
theorem required_pushDocs {node : DocNode} (bare : node.required = []) (fields : List Field) :
    (pushDocs node fields).required =
      ((fields.filter (·.required)).map (·.name)).eraseDups := by
  rw [← foldl_addRequired, ← bare]
  clear bare
  induction fields generalizing node with
  | nil => rw [pushDocs]; rfl
  | cons field rest ih =>
    rw [pushDocs, ih, DocNode.push, docNode_name]
    rfl

end Field

end ApiOutline
