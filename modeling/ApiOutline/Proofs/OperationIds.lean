import ApiOutline.Proofs.Build
import ApiOutline.Proofs.WellFormed
import Mathlib.Data.List.Nodup

/-!
What tells the endpoints of a document apart.

The identifier of an operation is the full name of its endpoint.  Full names are not checked for
conflicts, but the names of requests are, and two endpoints of one full name would have one name for
their requests: a compiled model has no group without a name, so that upper case goes no further
than the group.
-/

namespace ApiOutline.Swagger

/-- An operation of a document, with its path and its verb. -/
def Document.HasOperation (doc : Document) (path : String) (verb : Verb) (o : Operation) : Prop :=
  ∃ operations, doc.paths.get? path = some operations ∧ (verb, o) ∈ operations

variable {o : Options} {lines : List String} {m : Model} {doc : Document}

private theorem group_ne_empty (compiled : Outline.compileLines o lines = .ok m) :
    ∀ e ∈ m.endpoints, e.group ≠ "" := by
  intro e member empty
  have valid := (Outline.endpoints_wellFormed compiled e member).2
  rw [empty] at valid
  cases valid

/-- Endpoints whose requests have different names have different full names. -/
theorem fullName_ne_of_apart {a b : Endpoint} (inA : a.group ≠ "") (inB : b.group ≠ "")
    (apart : Apart a b) : a.fullName ≠ b.fullName := by
  intro same
  apply apart.2
  rw [Endpoint.requestModelName_eq_capitalize inA, same,
    ← Endpoint.requestModelName_eq_capitalize inB]

private theorem pairwise_fullName (filled : ∀ e ∈ m.endpoints, e.group ≠ "")
    (distinct : m.endpoints.Pairwise Apart) : (m.endpoints.map Endpoint.fullName).Nodup := by
  apply List.pairwise_map.2
  refine distinct.imp_of_mem ?_
  intro a b inA inB apart
  exact fullName_ne_of_apart (filled a inA) (filled b inB) apart

/-- The operations of a document are those of its endpoints. -/
theorem hasOperation_iff {path : String} {verb : Verb} {op : Operation}
    (built : document m = .ok doc) : doc.HasOperation path verb op ↔
      ∃ e ∈ m.endpoints, e.groupPath = path ∧ verb ∈ e.method.verbs ∧
        operation m.settings.envelope e verb = op := by
  obtain ⟨described, same, -, describes, -⟩ := describes_build (Prod.ext built rfl)
  rw [← same]
  constructor
  · rintro ⟨along, found, member⟩
    obtain ⟨d, inside, rfl, rfl⟩ := describes.get?_path_iff.1 found
    obtain ⟨other, answers, pair⟩ := List.mem_map.1 member
    cases pair
    exact ⟨d.1, List.mem_map_of_mem inside, rfl, answers, rfl⟩
  · rintro ⟨e, member, rfl, answers, rfl⟩
    obtain ⟨d, inside, rfl⟩ := List.mem_map.1 member
    have found := describes.get?_path_iff.2 ⟨d, inside, rfl, rfl⟩
    exact ⟨_, found, List.mem_map_of_mem answers⟩

private theorem any_of_verbs {method : Method} {verb other : Verb} (differ : verb ≠ other)
    (answers : verb ∈ method.verbs) (alsoAnswers : other ∈ method.verbs) : method = .any := by
  cases method with
  | get =>
    rw [List.mem_singleton.1 answers, List.mem_singleton.1 alsoAnswers] at differ
    contradiction
  | post =>
    rw [List.mem_singleton.1 answers, List.mem_singleton.1 alsoAnswers] at differ
    contradiction
  | any => rfl

/-- In the document of a compiled model, operations share their identifier along one path only,
where they are those of an endpoint for both verbs; and a group has no two endpoints of one
handler. -/
theorem operationIds_identify_endpoints (compiled : Outline.compileLines o lines = .ok m)
    (built : document m = .ok doc) :
    (∀ path verb first path' verb' second,
      doc.HasOperation path verb first → doc.HasOperation path' verb' second →
        (first.operationId = second.operationId ↔ path = path') ∧
        (path = path' → verb ≠ verb' →
          ∃ e ∈ m.endpoints, e.groupPath = path ∧ e.method = .any)) ∧
    m.endpoints.Pairwise (fun a b => ¬ (a.group = b.group ∧ a.handlerName = b.handlerName)) ∧
    (m.endpoints.map Endpoint.fullName).Nodup := by
  obtain ⟨-, -, -, -, distinct⟩ := describes_build (Prod.ext built rfl)
  have named := pairwise_fullName (group_ne_empty compiled) distinct
  have paths : (m.endpoints.map Endpoint.groupPath).Nodup :=
    List.pairwise_map.2 (distinct.imp fun apart => apart.1)
  refine ⟨?_, ?_, named⟩
  · intro path verb first path' verb' second one other
    obtain ⟨a, inA, rfl, answersA, rfl⟩ := (hasOperation_iff built).1 one
    obtain ⟨b, inB, rfl, answersB, rfl⟩ := (hasOperation_iff built).1 other
    refine ⟨⟨?_, ?_⟩, ?_⟩
    · intro same
      rw [List.inj_on_of_nodup_map named inA inB same]
    · intro same
      rw [List.inj_on_of_nodup_map paths inA inB same]
      rfl
    · intro same differ
      cases List.inj_on_of_nodup_map paths inA inB same
      exact ⟨a, inA, rfl, any_of_verbs differ answersA answersB⟩
  · refine (List.pairwise_map.1 named).imp ?_
    rintro a b differ ⟨group, handler⟩
    apply differ
    rw [Endpoint.fullName, Endpoint.fullName, group, Endpoint.handlerName_eq_iff.1 handler]

/-- Two groups whose endpoints have full names that differ in one letter, one of them for both
verbs. -/
def nearbyLines : List String :=
  ["root shop", "a", "    b.c any", "ab", "    c post"]

theorem operationIds_identify_endpoints_nearby : ∃ m doc first second third,
    Outline.compileLines {} nearbyLines = .ok m ∧ document m = .ok doc ∧
    doc.HasOperation "/a/b/c" .get first ∧ doc.HasOperation "/a/b/c" .post second ∧
    doc.HasOperation "/ab/c" .post third ∧
    first.operationId = second.operationId ∧ first.operationId ≠ third.operationId ∧
    (m.endpoints.map Endpoint.fullName).Nodup := by
  obtain ⟨m, doc, first, second, third, compiled, built, atFirst, atSecond, atThird⟩ :
      ∃ m doc first second third,
        Outline.compileLines {} nearbyLines = .ok m ∧ document m = .ok doc ∧
        doc.HasOperation "/a/b/c" .get first ∧ doc.HasOperation "/a/b/c" .post second ∧
        doc.HasOperation "/ab/c" .post third :=
    ⟨_, _, _, _, _, rfl, rfl, ⟨_, rfl, List.mem_cons_self⟩,
      ⟨_, rfl, List.mem_cons_of_mem _ List.mem_cons_self⟩, ⟨_, rfl, List.mem_cons_self⟩⟩
  obtain ⟨ids, -, names⟩ := operationIds_identify_endpoints compiled built
  refine ⟨m, doc, first, second, third, compiled, built, atFirst, atSecond, atThird, ?_, ?_, names⟩
  · exact (ids _ _ _ _ _ _ atFirst atSecond).1.2 rfl
  · exact mt (ids _ _ _ _ _ _ atFirst atThird).1.1 (by decide)

end ApiOutline.Swagger
