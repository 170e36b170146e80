import ApiOutline.Proofs.Conflicts
import ApiOutline.Proofs.Ident
import ApiOutline.Proofs.WellFormed

/-!
Which endpoints share a path.

A path is put together with slashes: one before the group, one after it, and one for each dot of the
name.  No group and no name of a compiled model holds a slash of its own, so a path is taken apart
in one way only, and endpoints share it exactly if they repeat a group and a name.
-/

namespace ApiOutline

namespace Endpoint

/-- An endpoint whose path has slashes only where they separate its parts. -/
structure Slashless (e : Endpoint) : Prop where
  group : '/' ∉ e.group.toList
  name : '/' ∉ e.name.toList

variable {a b e : Endpoint}

/-! ## Paths -/

/-- The dots come back for the slashes. -/
theorem name_of_routerName (plain : '/' ∉ e.name.toList) :
    e.routerName.toList.map (fun c => if c = '/' then '.' else c) = e.name.toList := by
  rw [routerName, String.toList_ofList, List.map_map]
  refine (List.map_congr_left ?_).trans (List.map_id' _)
  intro c member
  have apart : c ≠ '/' := fun same => plain (same ▸ member)
  by_cases dot : c = '.'
  · simp [dot]
  · simp [dot, apart]

/-- Endpoints whose names have no slash share a name for the router exactly if they share their
name. -/
theorem routerName_eq_iff (plainA : '/' ∉ a.name.toList) (plainB : '/' ∉ b.name.toList) :
    a.routerName = b.routerName ↔ a.name = b.name := by
  constructor
  · intro same
    apply String.toList_inj.1
    rw [← name_of_routerName plainA, same, name_of_routerName plainB]
  · intro same
    rw [routerName, same, routerName]

/-- The group ends at the second slash of a path. -/
theorem cut?_groupPath (plain : '/' ∉ e.group.toList) :
    Text.cut? '/' e.groupPath.toList.tail = some (e.group.toList, e.routerName.toList) := by
  refine Text.cut?_eq_some_iff.2 ⟨?_, plain⟩
  simp [groupPath]

/-- Endpoints without slashes share a path exactly if they share their group and their name. -/
theorem groupPath_eq_iff (plainA : a.Slashless) (plainB : b.Slashless) :
    a.groupPath = b.groupPath ↔ a.group = b.group ∧ a.name = b.name := by
  constructor
  · intro same
    have cut := cut?_groupPath plainA.group
    rw [same, cut?_groupPath plainB.group] at cut
    obtain ⟨group, router⟩ := Prod.mk.inj (Option.some.inj cut)
    refine ⟨String.toList_inj.1 group.symm, ?_⟩
    exact (routerName_eq_iff plainA.name plainB.name).1 (String.toList_inj.1 router.symm)
  · rintro ⟨group, name⟩
    rw [groupPath, groupPath, group, (routerName_eq_iff plainA.name plainB.name).2 name]

/-- Whether two routes are the same does not depend on the root. -/
theorem routePath_eq_iff (routePrefix version : String) :
    a.routePath routePrefix version = b.routePath routePrefix version ↔
      a.groupPath = b.groupPath := by
  rw [routePath, routePath, String.append_right_inj]

/-! ## Names that can be declared -/

private theorem segments_slashless {dialect : Dialect} {group : String}
    (wellFormed : e.WellFormed dialect group) : ∀ segment ∈ e.segments, '/' ∉ segment := by
  rcases wellFormed.name with all | ⟨-, front, -, split, all⟩
  · intro segment member
    exact Ident.slash_not_mem (all segment member)
  · rw [split]
    intro segment member
    rcases List.mem_append.1 member with inFront | last
    · exact Ident.slash_not_mem (all segment inFront)
    · rw [List.mem_singleton.1 last]
      decide

/-- A name is its segments with dots between them, so a slash would have to stand in a segment. -/
theorem WellFormed.slashless {dialect : Dialect} {group : String}
    (wellFormed : e.WellFormed dialect group) (valid : Ident.isValid group = true) :
    e.Slashless where
  group := by
    rw [wellFormed.group]
    exact Ident.slash_not_mem valid
  name := by
    have joined : ['.'].intercalate e.segments = e.name.toList :=
      List.intercalate_splitOn '.'
    rw [← joined]
    intro slash
    rcases Text.mem_of_mem_intercalate slash with dot | ⟨segment, member, inside⟩
    · exact absurd dot (by decide)
    · exact segments_slashless wellFormed segment member inside

end Endpoint

namespace Swagger

variable {o : Options} {lines : List String} {m : Model}

private theorem slashless_of_compiled (compiled : Outline.compileLines o lines = .ok m) :
    ∀ e ∈ m.endpoints, e.Slashless := by
  intro e member
  obtain ⟨wellFormed, valid⟩ := Outline.endpoints_wellFormed compiled e member
  exact wellFormed.slashless valid

/-- A conflict of paths is what the first clash is, if it repeats a path. -/
theorem document_path_conflict_iff {path : String} :
    document m = .error (.conflict .path path) ↔
      ∃ earlier e, FirstClash m.endpoints earlier e ∧ e.groupPath = path ∧
        e.groupPath ∈ earlier.map Endpoint.groupPath := by
  constructor
  · intro failed
    obtain ⟨earlier, e, first⟩ := exists_firstClash_of_fault failed
    have reported := (document_of_firstClash first).symm.trans failed
    split at reported
    · next taken =>
      cases reported
      exact ⟨earlier, e, first, rfl, taken⟩
    · cases reported
  · rintro ⟨earlier, e, first, rfl, taken⟩
    rw [document_of_firstClash first, if_pos taken]

/-- In a compiled model, endpoints share a path exactly if they repeat a group and a name; so that
is what a conflict of paths says about the endpoint that it reports. -/
theorem routes_identify_endpoints (compiled : Outline.compileLines o lines = .ok m) :
    (∀ a ∈ m.endpoints, ∀ b ∈ m.endpoints,
      (∀ routePrefix version,
        a.routePath routePrefix version = b.routePath routePrefix version ↔
          a.group = b.group ∧ a.name = b.name) ∧
      (a.groupPath = b.groupPath ↔ a.group = b.group ∧ a.name = b.name)) ∧
    ∀ path, document m = .error (.conflict .path path) ↔
      ∃ earlier e, FirstClash m.endpoints earlier e ∧ e.groupPath = path ∧
        ∃ d ∈ earlier, d.group = e.group ∧ d.name = e.name := by
  have slashless := slashless_of_compiled compiled
  have paths : ∀ a ∈ m.endpoints, ∀ b ∈ m.endpoints,
      (a.groupPath = b.groupPath ↔ a.group = b.group ∧ a.name = b.name) := by
    intro a inA b inB
    exact Endpoint.groupPath_eq_iff (slashless a inA) (slashless b inB)
  refine ⟨fun a inA b inB => ⟨fun routePrefix version => ?_, paths a inA b inB⟩, fun path => ?_⟩
  · rw [Endpoint.routePath_eq_iff, paths a inA b inB]
  · rw [document_path_conflict_iff]
    refine exists₂_congr fun earlier e => and_congr_right fun first => and_congr_right fun _ => ?_
    obtain ⟨later, whole⟩ := first.within
    have inModel : e ∈ m.endpoints := by simp [whole]
    rw [List.mem_map]
    refine exists_congr fun d => and_congr_right fun member => ?_
    exact paths d (by simp [whole, member]) e inModel

/-- A group that is declared twice, with one endpoint of the same name in both places. -/
def repeatedLines : List String :=
  ["root shop", "a", "    b.c", "    b.*", "ab", "    c", "a", "    b.c post"]

theorem routes_identify_endpoints_repeated : ∃ m,
    Outline.compileLines {} repeatedLines = .ok m ∧
      document m = .error (.conflict .path "/a/b/c") ∧
      ∃ earlier e, FirstClash m.endpoints earlier e ∧ e.groupPath = "/a/b/c" ∧
        ∃ d ∈ earlier, d.group = e.group ∧ d.name = e.name := by
  obtain ⟨m, compiled, conflict⟩ : ∃ m, Outline.compileLines {} repeatedLines = .ok m ∧
      document m = .error (.conflict .path "/a/b/c") := ⟨_, rfl, rfl⟩
  exact ⟨m, compiled, conflict, ((routes_identify_endpoints compiled).2 "/a/b/c").1 conflict⟩

end Swagger

end ApiOutline
