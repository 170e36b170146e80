import ApiOutline.Proofs.WellFormed
import Mathlib.Data.List.Nodup

/-!
Looking endpoints up beside listing them.

A lookup goes to the first group of a name and searches there.  An outline may open a group again
under the same name, and what is declared there is listed among the endpoints of that group; but a
lookup never gets to it.  Apart from that the two agree: what a lookup finds is the first endpoint
listed with that group and name.
-/

namespace ApiOutline

namespace Model

variable {m : Model} {group name : String} {e : Endpoint} {first : Group}

/-- The first of all endpoints that has a group and a name. -/
def firstEndpoint? (m : Model) (group name : String) : Option Endpoint :=
  m.endpoints.find? fun e => e.group == group && e.name == name

/-- A model whose endpoints say which group they are in. -/
def EndpointsNamed (m : Model) : Prop := ∀ g ∈ m.groups, ∀ e ∈ g.endpoints, e.group = g.name

/-- A model finds no endpoint exactly if none has the group and the name. -/
theorem firstEndpoint?_eq_none_iff : m.firstEndpoint? group name = none ↔
    ∀ e ∈ m.endpoints, e.group = group → e.name ≠ name := by
  simp [firstEndpoint?, List.find?_eq_none]

/-- A group finds no endpoint exactly if none of its own has the name. -/
theorem endpoint?_eq_none_iff {g : Group} :
    g.endpoint? name = none ↔ ∀ e ∈ g.endpoints, e.name ≠ name := by
  simp [Group.endpoint?, List.find?_eq_none]

/-- Within a group only the name counts. -/
theorem find?_of_named (named : ∀ e ∈ first.endpoints, e.group = group) :
    first.endpoints.find? (fun e => e.group == group && e.name == name) =
      first.endpoint? name := by
  have same : first.endpoints.filter (fun e => e.group == group && e.name == name) =
      first.endpoints.filter (·.name == name) := by
    refine List.filter_congr fun e member => ?_
    rw [named e member, beq_self_eq_true, Bool.true_and]
  rw [Group.endpoint?, ← List.head?_filter, ← List.head?_filter, same]

/-- A search through all endpoints comes to the first group of the name before any other of that
name, and the groups before it have none of its endpoints. -/
theorem firstEndpoint?_of_group? (named : m.EndpointsNamed) (found : m.group? group = some first)
    (name : String) :
    ∃ later, m.firstEndpoint? group name = (first.endpoint? name).or later := by
  obtain ⟨isNamed, before, after, whole, others⟩ := List.find?_eq_some_iff_append.1 found
  have skipped : (before.flatMap (·.endpoints)).find?
      (fun e => e.group == group && e.name == name) = none := by
    rw [List.find?_eq_none]
    intro e member
    obtain ⟨g, earlier, inside⟩ := List.mem_flatMap.1 member
    have differ : g.name ≠ group := by simpa using others g earlier
    simp [named g (by simp [whole, earlier]) e inside, differ]
  have own : ∀ e ∈ first.endpoints, e.group = group := by
    intro e inside
    rw [named first (by simp [whole]) e inside]
    exact beq_iff_eq.1 isNamed
  refine ⟨(after.flatMap (·.endpoints)).find? fun e => e.group == group && e.name == name, ?_⟩
  rw [firstEndpoint?, endpoints, whole, List.flatMap_append, List.flatMap_cons, List.find?_append,
    skipped, Option.none_or, List.find?_append, find?_of_named own]

/-- Whatever a lookup finds is what a search through all endpoints finds. -/
theorem firstEndpoint?_of_endpoint? (named : m.EndpointsNamed)
    (found : m.endpoint? group name = some e) : m.firstEndpoint? group name = some e := by
  obtain ⟨first, known, inside⟩ := Option.bind_eq_some_iff.1 found
  obtain ⟨later, whole⟩ := firstEndpoint?_of_group? named known name
  rw [whole, inside, Option.some_or]

/-- A lookup agrees with a search through all endpoints exactly if the first group of the name has
an endpoint of the name, or no group of the name has one. -/
theorem endpoint?_eq_firstEndpoint?_iff (named : m.EndpointsNamed) (group name : String) :
    m.endpoint? group name = m.firstEndpoint? group name ↔
      ∀ e ∈ m.endpoints, e.group = group → e.name = name →
        ∃ first, m.group? group = some first ∧ ∃ d ∈ first.endpoints, d.name = name := by
  rcases found : m.endpoint? group name with none | e
  · -- A lookup that fails agrees only with a search that fails as well.
    rw [eq_comm, firstEndpoint?_eq_none_iff]
    refine forall₃_congr fun e member inGroup => imp_congr_right fun same => ?_
    refine iff_of_false id ?_
    rintro ⟨first, known, d, inside, sameName⟩
    rw [endpoint?, known] at found
    exact endpoint?_eq_none_iff.1 found d inside sameName
  · rw [firstEndpoint?_of_endpoint? named found]
    refine iff_of_true rfl fun _ _ _ _ => ?_
    obtain ⟨first, known, inside⟩ := Option.bind_eq_some_iff.1 found
    have sameName := List.find?_some inside
    exact ⟨first, known, e, List.mem_of_find?_eq_some inside, beq_iff_eq.1 sameName⟩

/-- Where no group is opened twice, the first group of a name is the only one. -/
theorem endpoint?_eq_firstEndpoint?_of_nodup (named : m.EndpointsNamed)
    (distinct : (m.groups.map Group.name).Nodup) (group name : String) :
    m.endpoint? group name = m.firstEndpoint? group name := by
  rw [endpoint?_eq_firstEndpoint?_iff named]
  rintro e member rfl same
  obtain ⟨g, inModel, inside⟩ := List.mem_flatMap.1 member
  rw [named g inModel e inside]
  rcases found : m.group? g.name with none | first
  · exact absurd (beq_self_eq_true g.name) (List.find?_eq_none.1 found g inModel)
  · have sameName := List.find?_some found
    have only : first = g := List.inj_on_of_nodup_map distinct (List.mem_of_find?_eq_some found)
      inModel (beq_iff_eq.1 sameName)
    exact ⟨first, rfl, e, only ▸ inside, same⟩

end Model

namespace Outline

variable {o : Options} {lines : List String} {m : Model}

private theorem endpointsNamed_of_compiled (compiled : compileLines o lines = .ok m) :
    m.EndpointsNamed := by
  obtain ⟨-, groups⟩ :=
    @compileLines_declared (fun _ => True) o lines m (fun _ _ => trivial) compiled
  intro g member e inside
  exact ((groups g member).wellFormed.endpoints e inside).group

/-- When a lookup in a compiled model finds what is listed: exactly if the first group of the name
has the endpoint, whenever any group of the name has it.  So it always does where no group is opened
again, and it never finds anything but the first endpoint listed. -/
theorem lookup_finds_listed_iff (compiled : compileLines o lines = .ok m) (group name : String) :
    (m.endpoint? group name = m.firstEndpoint? group name ↔
      ∀ e ∈ m.endpoints, e.group = group → e.name = name →
        ∃ first, m.group? group = some first ∧ ∃ d ∈ first.endpoints, d.name = name) ∧
    (∀ e, m.endpoint? group name = some e → m.firstEndpoint? group name = some e) ∧
    ((m.groups.map Group.name).Nodup →
      m.endpoint? group name = m.firstEndpoint? group name) := by
  have named := endpointsNamed_of_compiled compiled
  exact ⟨Model.endpoint?_eq_firstEndpoint?_iff named group name,
    fun _ => Model.firstEndpoint?_of_endpoint? named,
    fun distinct => Model.endpoint?_eq_firstEndpoint?_of_nodup named distinct group name⟩

/-- A group that is opened again, for another endpoint. -/
def reopenedGroup : List String :=
  ["root api", "user", "    a GET none", "user", "    b GET none"]

/-- The endpoint of the first place is found, as it should be. -/
theorem lookup_finds_listed_iff_reopened : ∃ m, compileLines {} reopenedGroup = .ok m ∧
    (∀ e ∈ m.endpoints, e.group = "user" → e.name = "a" →
      ∃ first, m.group? "user" = some first ∧ ∃ d ∈ first.endpoints, d.name = "a") ∧
    m.endpoint? "user" "a" = m.firstEndpoint? "user" "a" := by
  obtain ⟨m, compiled, condition⟩ : ∃ m, compileLines {} reopenedGroup = .ok m ∧
      ∃ first, m.group? "user" = some first ∧ ∃ d ∈ first.endpoints, d.name = "a" :=
    ⟨_, rfl, _, rfl, _, List.mem_cons_self, rfl⟩
  have always : ∀ e ∈ m.endpoints, e.group = "user" → e.name = "a" →
      ∃ first, m.group? "user" = some first ∧ ∃ d ∈ first.endpoints, d.name = "a" :=
    fun _ _ _ _ => condition
  exact ⟨m, compiled, always, (lookup_finds_listed_iff compiled "user" "a").1.2 always⟩

/-- The endpoint of the second place is listed, and a lookup does not find it. -/
theorem lookup_misses_reopened : ∃ m e, compileLines {} reopenedGroup = .ok m ∧
    e ∈ m.endpoints ∧ e.group = "user" ∧ e.name = "b" ∧
    m.firstEndpoint? "user" "b" = some e ∧ m.endpoint? "user" "b" = none :=
  ⟨_, { name := "b", group := "user", line := 5 }, rfl, by decide +kernel, rfl, rfl, rfl, rfl⟩

end Outline

end ApiOutline
