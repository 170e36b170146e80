import ApiOutline.Proofs.KitResponses
import ApiOutline.Proofs.Paths
import ApiOutline.Proofs.Routes
import Mathlib.Data.Finset.Card
import Mathlib.Data.Finset.Image

/-!
Where the kits of different groups are, and how often they are read.

A path that is followed by a plain name has the components that it had before, and that name.  The
last two components of a kit's path name its group, whatever the layout puts before them; so kits of
different groups are never at one path, and a document on a fresh cache reads one kit for each group
that leaves a response undeclared.
-/

namespace ApiOutline

/-! ## Components -/

namespace Path

/-- A text that is one component of a path, wherever it stands. -/
structure IsName (name : String) : Prop where
  plain : '/' ∉ name.toList
  filled : name ≠ ""
  named : name.toList ≠ dot

/-- The components among the stretches between slashes. -/
def partsOf : List (List Char) → List (List Char)
  | [] => []
  | first :: rest =>
    if first = dot then first :: innerParts rest else innerParts (first :: rest)

private theorem components_eq (path : String) :
    components path = ⟨isAbsolute path.toList, partsOf (path.toList.splitOn '/')⟩ := by
  rw [components]
  cases path.toList.splitOn '/' with
  | nil => rfl
  | cons first rest =>
    simp only [partsOf]
    split <;> rfl

private theorem partsOf_append {pieces : List (List Char)} (some : pieces ≠ [])
    (more : List (List Char)) : partsOf (pieces ++ more) = partsOf pieces ++ innerParts more := by
  cases pieces with
  | nil => exact absurd rfl some
  | cons first rest =>
    simp only [List.cons_append, partsOf, innerParts]
    split
    · rw [List.filter_append, List.cons_append]
    · rw [← List.cons_append, List.filter_append]

/-- A name is one component, and is not left out. -/
theorem IsName.innerParts {name : String} (isName : IsName name) :
    innerParts [name.toList] = [name.toList] := by
  have filled : name.toList ≠ [] := mt String.toList_eq_nil_iff.1 isName.filled
  simp [Path.innerParts, filled, isName.named]

/-- A name follows a path after a slash: the one that the path ends with, or one of its own. -/
theorem join_cases {name : String} (isName : IsName name) (path : String) :
    (path = "" ∧ join path name = name) ∨
    (∃ before, path.toList = before ++ ['/'] ∧
      (join path name).toList = before ++ '/' :: name.toList) ∨
    (path.toList ≠ [] ∧ (join path name).toList = path.toList ++ '/' :: name.toList) := by
  have relative : ¬ isAbsolute name.toList = true :=
    Bool.eq_false_iff.1 (isAbsolute_eq_false isName.plain)
  rw [join, if_neg relative]
  by_cases empty : path = ""
  · subst empty
    exact .inl ⟨rfl, String.empty_append⟩
  · right
    have filled : path.isEmpty = false := by simpa using empty
    rw [filled, Bool.false_or]
    split
    · next ends =>
      obtain ⟨front, split⟩ := List.isSuffixOf_iff_suffix.1 ends
      refine .inl ⟨front, split.symm, ?_⟩
      rw [String.toList_append, ← split, List.append_assoc]
      rfl
    · refine .inr ⟨mt String.toList_eq_nil_iff.1 empty, ?_⟩
      rw [String.toList_append, String.toList_append, List.append_assoc]
      rfl

/-- A name that follows a path is one more component of it. -/
theorem components_join {name : String} (isName : IsName name) (path : String) :
    components (join path name) =
      ⟨(components path).isAbsolute, (components path).parts ++ [name.toList]⟩ := by
  have single : name.toList.splitOn '/' = [name.toList] := List.splitOn_eq_singleton isName.plain
  rw [components_eq, components_eq path]
  rcases join_cases isName path with ⟨rfl, joined⟩ | ⟨before, split, joined⟩ | ⟨filled, joined⟩
  · have alone : partsOf [name.toList] = [name.toList] := by
      rw [partsOf, if_neg isName.named, isName.innerParts]
    rw [joined, isAbsolute_eq_false isName.plain, single, alone]
    rfl
  · have ended : path.toList ≠ [] := by simp [split]
    have absolute : isAbsolute (before ++ '/' :: name.toList) = isAbsolute path.toList := by
      rw [List.append_cons, ← split, isAbsolute_append ended]
    rw [joined, absolute, List.splitOn_append_cons_self,
      partsOf_append (List.splitOn_ne_nil _ _), single, isName.innerParts, split,
      List.splitOn_append_cons_self, partsOf_append (List.splitOn_ne_nil _ _)]
    simp [innerParts]
  · rw [joined, isAbsolute_append filled, List.splitOn_append_cons_self,
      partsOf_append (List.splitOn_ne_nil _ _), single, isName.innerParts]

end Path

/-! ## The paths of kits -/

namespace Kit.Layout

variable {group other : String}

private theorem isName_group (valid : Ident.isValid group = true) : Path.IsName group where
  plain := Ident.slash_not_mem valid
  filled := by
    rintro rfl
    cases valid
  named := by
    intro dotted
    rw [Ident.isValid, dotted] at valid
    cases valid

private theorem isName_file (valid : Ident.isValid group = true) :
    Path.IsName (group ++ "_kit.go") where
  plain := by
    rw [String.toList_append, List.mem_append, not_or]
    exact ⟨Ident.slash_not_mem valid, by decide⟩
  filled := by simp
  named := by
    intro dotted
    have short := congrArg List.length dotted
    simp [Path.dot] at short

/-- The directory that the groups of a project have theirs in. -/
def groupsDir (layout : Layout) : String :=
  [layout.moduleDir, "app", "api"].foldl Path.join layout.root

private theorem kitPath_eq (layout : Layout) (group : String) :
    layout.kitPath group =
      Path.join (Path.join layout.groupsDir group) (group ++ "_kit.go") := by
  rw [kitPath, groupsDir]
  simp only [List.foldl_cons, List.foldl_nil]

private theorem components_kitPath (valid : Ident.isValid group = true) (layout : Layout) :
    Path.components (layout.kitPath group) = ⟨(Path.components layout.groupsDir).isAbsolute,
      (Path.components layout.groupsDir).parts ++ [group.toList, (group ++ "_kit.go").toList]⟩ := by
  rw [kitPath_eq, Path.components_join (isName_file valid),
    Path.components_join (isName_group valid)]
  simp only [List.append_assoc, List.cons_append, List.nil_append]

/-- Kits of different groups are at different paths. -/
theorem components_kitPath_inj (valid : Ident.isValid group = true)
    (validOther : Ident.isValid other = true) (layout : Layout) :
    Path.components (layout.kitPath group) = Path.components (layout.kitPath other) ↔
      group = other := by
  constructor
  · intro same
    rw [components_kitPath valid, components_kitPath validOther] at same
    have ends := List.append_cancel_left (congrArg Path.Components.parts same)
    exact String.toList_inj.1 (List.cons.inj ends).1
  · rintro rfl
    rfl

end Kit.Layout

/-! ## Reading kits -/

namespace Kit.Cache

variable {reader : Reader} {paths : List String} {c : Cache} {path : String} {kit : Kit}

private theorem mem_keys (known : c.find? path = some kit) :
    Path.components path ∈ c.kits.map Prod.fst := by
  obtain ⟨before, after, whole, -⟩ := List.lookup_eq_some_iff.1 known
  rw [whole]
  exact List.mem_map_of_mem (List.mem_append_right before List.mem_cons_self)

/-- If no visit fails, the cache remembers the paths it was visited for, and no others. -/
theorem mem_keys_getAll (fine : ∀ v ∈ visits reader paths {}, v.failed = false)
    {key : Path.Components} :
    key ∈ (getAll reader paths {}).kits.map Prod.fst ↔ key ∈ paths.map Path.components := by
  have visited := visited_start.visits reader paths
  rw [List.nil_append] at visited
  have asked : paths = (visits reader paths {}).map Visit.path := (visits_path {}).symm
  constructor
  · rw [visited.keys, List.mem_reverse]
    intro member
    obtain ⟨v, learned, rfl⟩ := List.mem_map.1 member
    refine List.mem_map.2 ⟨v.path, ?_, rfl⟩
    rw [asked]
    exact List.mem_map_of_mem (List.mem_filter.1 learned).1
  · intro member
    rw [asked, List.map_map] at member
    obtain ⟨v, made, rfl⟩ := List.mem_map.1 member
    rcases found : v.outcome with fault | kit
    · have failed := fine v made
      rw [Visit.failed, found] at failed
      cases failed
    · exact mem_keys ((visited.known v.path kit).2 ⟨v, made, rfl, found⟩)

/-- If no visit fails, each path is read once, however often it is asked for. -/
theorem reads_getAll (fine : ∀ v ∈ visits reader paths {}, v.failed = false) :
    (getAll reader paths {}).reads = (getAll reader paths {}).size ∧
      (getAll reader paths {}).size = (paths.map Path.components).toFinset.card := by
  have visited := visited_start.visits reader paths
  rw [List.nil_append] at visited
  constructor
  · have none : (visits reader paths {}).countP Visit.failed = 0 := by
      rw [List.countP_eq_zero]
      intro v made
      rw [fine v made]
      decide
    rw [visited.reads, none, Nat.add_zero]
  · have same : ((getAll reader paths {}).kits.map Prod.fst).toFinset =
        (paths.map Path.components).toFinset := by
      ext key
      rw [List.mem_toFinset, List.mem_toFinset, mem_keys_getAll fine]
    rw [← same, List.toFinset_card_of_nodup visited.distinct, List.length_map]
    rfl

end Kit.Cache

namespace Swagger

open Kit (Cache Layout Reader)

variable {o : Options} {lines : List String} {m : Model}

/-- The groups that leave a response of some of their endpoints to their kits. -/
def undeclaredGroups (m : Model) : Finset String :=
  ((m.endpoints.filter (·.responseFields.isEmpty)).map Endpoint.group).toFinset

private theorem card_kitPaths (valid : ∀ e ∈ m.endpoints, Ident.isValid e.group = true)
    (layout : Layout) :
    ((kitPaths layout m.endpoints).map Path.components).toFinset.card =
      (undeclaredGroups m).card := by
  have image : ((kitPaths layout m.endpoints).map Path.components).toFinset =
      (undeclaredGroups m).image fun group => Path.components (layout.kitPath group) := by
    ext key
    simp [kitPaths, undeclaredGroups]
  rw [image]
  refine Finset.card_image_of_injOn ?_
  have known : ∀ group ∈ undeclaredGroups m, Ident.isValid group = true := by
    intro group member
    obtain ⟨e, inside, rfl⟩ := List.mem_map.1 (List.mem_toFinset.1 member)
    exact valid e (List.mem_filter.1 inside).1
  intro a inA b inB same
  exact (Layout.components_kitPath_inj (known a inA) (known b inB) layout).1 same

/-- A document on a fresh cache reads the kit of each group that leaves a response undeclared, and
reads it once; for no two groups have one kit, wherever the layout puts it. -/
theorem one_read_per_group (compiled : Outline.compileLines o lines = .ok m) (layout : Layout)
    (reader : Reader) :
    (∀ doc after, documentWithKits reader layout m {} = (.ok doc, after) →
      after.reads = after.size ∧ after.size = (undeclaredGroups m).card) ∧
    ∀ a b, Ident.isValid a = true → Ident.isValid b = true → a ≠ b →
      Path.components (layout.kitPath a) ≠ Path.components (layout.kitPath b) ∧
      ∀ (c : Cache) (kit : Kit), (c.remember (layout.kitPath a) kit).find? (layout.kitPath b) =
        c.find? (layout.kitPath b) := by
  constructor
  · intro doc after built
    obtain ⟨reached, fine, -, -, -⟩ := builtWithKits built
    obtain ⟨reads, size⟩ := Cache.reads_getAll fine
    have valid := fun e member => (Outline.endpoints_wellFormed compiled e member).2
    rw [card_kitPaths valid] at size
    rw [reached]
    exact ⟨reads, size⟩
  · intro a b validA validB differ
    have apart := mt (Layout.components_kitPath_inj validA validB layout).1 differ
    refine ⟨apart, ?_⟩
    intro c kit
    rw [Cache.find?_remember, if_neg (Ne.symm apart)]

/-- Two groups, of which one is declared in two places. -/
def reopenedLines : List String :=
  ["root shop", "a", "    b", "    c", "ab", "    c", "a", "    d"]

theorem one_read_per_group_reopened : ∃ m doc after,
    Outline.compileLines ⟨.v4, 4⟩ reopenedLines = .ok m ∧
    documentWithKits (.ofFiles []) { module := "/srv/./shop/" } m {} = (.ok doc, after) ∧
    m.endpoints.length = 4 ∧ after.reads = after.size ∧ after.size = 2 := by
  have facts : (Outline.compileLines ⟨.v4, 4⟩ reopenedLines).toOption.map (fun m =>
      ((documentWithKits (.ofFiles []) { module := "/srv/./shop/" } m {}).1.isOk,
        m.endpoints.length, (undeclaredGroups m).card)) = some (true, 4, 2) := by
    decide +kernel
  rcases compiled : Outline.compileLines ⟨.v4, 4⟩ reopenedLines with fault | m
  · rw [compiled] at facts
    cases facts
  rcases built : documentWithKits (.ofFiles []) { module := "/srv/./shop/" } m {} with
    ⟨fault | doc, after⟩
  · rw [compiled] at facts
    simp [Except.toOption, built, Except.isOk, Except.toBool] at facts
  · rw [compiled] at facts
    simp only [Except.toOption, Option.map_some, Option.some.injEq, Prod.mk.injEq] at facts
    obtain ⟨reads, size⟩ := (one_read_per_group compiled _ _).1 doc after built
    exact ⟨m, doc, after, rfl, built, facts.2.1, reads, size.trans facts.2.2⟩

end Swagger

end ApiOutline
