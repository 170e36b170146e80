import ApiOutline.Proofs.Build
import Mathlib.Data.List.Induction

/-!
Which models have a document, and what is reported of the others.

Endpoints are added in the order of their declaration, so it is the first endpoint that repeats
something which ends the building: as a conflict of paths if its path is taken, and as a conflict of
definitions if only the name of its request is.
-/

namespace ApiOutline.Swagger

universe u

/-- The first of some endpoints that repeats a path or the name of a request. -/
structure FirstClash (endpoints earlier : List Endpoint) (e : Endpoint) : Prop where
  within : ∃ later, endpoints = earlier ++ e :: later
  distinct : earlier.Pairwise Apart
  repeats : e.groupPath ∈ earlier.map Endpoint.groupPath ∨
    e.requestModelName ∈ earlier.map Endpoint.requestModelName

/-! ## Distinct names -/

/-- Endpoints are apart if no two share a path and no two share the name of a request. -/
theorem pairwise_apart_iff {endpoints : List Endpoint} :
    endpoints.Pairwise Apart ↔ (endpoints.map Endpoint.groupPath).Nodup ∧
      (endpoints.map Endpoint.requestModelName).Nodup := by
  unfold List.Nodup
  rw [List.pairwise_map, List.pairwise_map, ← List.pairwise_and_iff]
  rfl

private theorem apart_of_not_repeated {earlier : List Endpoint} {e : Endpoint}
    (unique : ¬ (e.groupPath ∈ earlier.map Endpoint.groupPath ∨
      e.requestModelName ∈ earlier.map Endpoint.requestModelName)) :
    ∀ d ∈ earlier, Apart d e := by
  intro d member
  constructor
  · intro same
    exact unique (.inl (same ▸ List.mem_map_of_mem member))
  · intro same
    exact unique (.inr (same ▸ List.mem_map_of_mem member))

/-- Where endpoints are not all apart, one of them is the first to clash. -/
theorem exists_firstClash {endpoints : List Endpoint} (clash : ¬ endpoints.Pairwise Apart) :
    ∃ earlier e, FirstClash endpoints earlier e := by
  -- From the end: the last endpoint is the first to clash only if those before it are all apart.
  induction endpoints using List.reverseRecOn with
  | nil => exact absurd .nil clash
  | append_singleton front last ih =>
    by_cases distinct : front.Pairwise Apart
    · by_cases repeats : last.groupPath ∈ front.map Endpoint.groupPath ∨
          last.requestModelName ∈ front.map Endpoint.requestModelName
      · exact ⟨front, last, ⟨[], rfl⟩, distinct, repeats⟩
      · exact absurd (pairwise_apart_concat distinct (apart_of_not_repeated repeats)) clash
    · obtain ⟨earlier, e, ⟨later, whole⟩, before, repeats⟩ := ih distinct
      refine ⟨earlier, e, ⟨later ++ [last], ?_⟩, before, repeats⟩
      rw [whole, List.append_assoc, List.cons_append]

/-! ## Building -/

private theorem addEndpoints_append {σ : Type u} (source : ResponseSource σ) (envelope : Envelope)
    (first second : List Endpoint) (doc : Document) (s : σ) :
    addEndpoints source envelope (first ++ second) doc s =
      match addEndpoints source envelope first doc s with
      | (.error fault, s) => (.error fault, s)
      | (.ok doc, s) => addEndpoints source envelope second doc s := by
  induction first generalizing doc s with
  | nil => rfl
  | cons e first ih =>
    rw [List.cons_append, addEndpoints, addEndpoints]
    rcases addEndpoint source envelope doc e s with ⟨fault | next, t⟩
    · rfl
    · exact ih next t

section Sources

variable {σ : Type u} {source : ResponseSource σ} {kind : Fault → Prop} {envelope : Envelope}
  {doc : Document} {described : List (Endpoint × Schema)} {endpoints earlier : List Endpoint}
  {e : Endpoint} {m : Model}

/-- A source all of whose faults are of one kind. -/
def FailsWith (kind : Fault → Prop) (source : ResponseSource σ) : Prop :=
  ∀ e s fault, (source e s).1 = .error fault → kind fault

private theorem payload_fault (fails : FailsWith kind source) {s t : σ} {fault : Fault}
    (failed : payload source e s = (.error fault, t)) : kind fault := by
  unfold payload at failed
  split at failed
  · rcases asked : source e s with ⟨cause | responses, u⟩
    · rw [asked] at failed
      cases failed
      exact fails e s fault (congrArg Prod.fst asked)
    · rw [asked] at failed
      cases failed
  · cases failed

/-- Endpoints that are apart can all be added, unless a response cannot be had. -/
theorem addEndpoints_apart (fails : FailsWith kind source)
    (describes : Describes envelope described doc)
    (distinct : (described.map Prod.fst ++ endpoints).Pairwise Apart) (s : σ) :
    (∃ doc' t, addEndpoints source envelope endpoints doc s = (.ok doc', t)) ∨
      ∃ fault t, addEndpoints source envelope endpoints doc s = (.error fault, t) ∧
        kind fault := by
  induction endpoints generalizing described doc s with
  | nil => exact .inl ⟨doc, s, rfl⟩
  | cons e rest ih =>
    have apart : ∀ d ∈ described, Apart d.1 e := by
      intro d member
      have across := (List.pairwise_append.1 distinct).2.2
      exact across d.1 (List.mem_map_of_mem member) e List.mem_cons_self
    rw [addEndpoints, addEndpoint_apart describes apart]
    rcases given : payload source e s with ⟨fault | response, t⟩
    · exact .inr ⟨fault, t, rfl, payload_fault fails given⟩
    · refine ih (describes_withEndpoint describes apart response) ?_ t
      rw [List.map_append, List.append_assoc]
      exact distinct

/-- The endpoints before the first clash are added, and then the building ends with that clash,
unless a response could not be had before. -/
theorem build_of_firstClash (fails : FailsWith kind source)
    (clash : FirstClash m.endpoints earlier e) (s : σ) :
    (build source m s).1 = .error (if e.groupPath ∈ earlier.map Endpoint.groupPath
      then .conflict .path e.groupPath else .conflict .definition e.requestModelName) ∨
    ∃ fault, (build source m s).1 = .error fault ∧ kind fault := by
  obtain ⟨⟨later, whole⟩, distinct, repeats⟩ := clash
  have start := describes_start m.settings.envelope m
  rw [build, whole, addEndpoints_append]
  rcases addEndpoints_apart fails start distinct s with ⟨doc, t, built⟩ | ⟨fault, t, failed, ofKind⟩
  · left
    obtain ⟨described, same, -, describes, -⟩ := addEndpoints_ok start .nil built
    rw [List.nil_append] at describes
    rw [built]
    simp only [addEndpoints]
    rw [← same, List.map_map, List.map_map] at repeats
    rw [← same, List.map_map]
    by_cases taken : e.groupPath ∈ described.map (Endpoint.groupPath ∘ Prod.fst)
    · rw [if_pos taken, addEndpoint_path_taken describes (List.mem_map.1 taken)]
    · have free : ∀ d ∈ described, d.1.groupPath ≠ e.groupPath := by
        intro d member alike
        exact taken (List.mem_map.2 ⟨d, member, alike⟩)
      have known := List.mem_map.1 (repeats.resolve_left taken)
      rw [if_neg taken, addEndpoint_request_taken describes free known]
  · right
    rw [failed]
    exact ⟨fault, rfl, ofKind⟩

end Sources

variable {earlier : List Endpoint} {e : Endpoint} {m : Model}

private theorem noResponses_never_fails : FailsWith (fun _ => False) noResponses := by
  intro e s fault failed
  cases failed

/-- A model whose endpoints are apart has a document. -/
theorem document_ok_of_apart (distinct : m.endpoints.Pairwise Apart) :
    ∃ doc, document m = .ok doc := by
  have start := describes_start m.settings.envelope m
  rcases addEndpoints_apart noResponses_never_fails start distinct () with
    ⟨doc, t, built⟩ | ⟨_, _, _, never⟩
  · exact ⟨doc, congrArg Prod.fst built⟩
  · cases never

/-- Where a document is refused, there is a first endpoint that repeats a path or the name of a
request. -/
theorem exists_firstClash_of_fault {fault : Fault} (failed : document m = .error fault) :
    ∃ earlier e, FirstClash m.endpoints earlier e := by
  apply exists_firstClash
  intro distinct
  obtain ⟨doc, built⟩ := document_ok_of_apart distinct
  cases built.symm.trans failed

/-- The first endpoint that clashes is the one reported, by its path if that is what it repeats. -/
theorem document_of_firstClash (clash : FirstClash m.endpoints earlier e) :
    document m = .error (if e.groupPath ∈ earlier.map Endpoint.groupPath
      then .conflict .path e.groupPath else .conflict .definition e.requestModelName) := by
  rcases build_of_firstClash noResponses_never_fails clash () with conflict | ⟨_, _, never⟩
  · exact conflict
  · cases never

/-- The models that have a document, and what is reported of the others: never a conflict about the
name of a response. -/
theorem document_conflicts (m : Model) :
    ((∃ doc, document m = .ok doc) ↔
      (m.endpoints.map Endpoint.groupPath).Nodup ∧
        (m.endpoints.map Endpoint.requestModelName).Nodup) ∧
    ((∃ fault, document m = .error fault) → ∃ earlier e, FirstClash m.endpoints earlier e) ∧
    (∀ earlier e, FirstClash m.endpoints earlier e →
      document m = .error (if e.groupPath ∈ earlier.map Endpoint.groupPath
        then .conflict .path e.groupPath else .conflict .definition e.requestModelName)) ∧
    (∀ name, document m = .error (.conflict .definition name) →
      ∀ e : Endpoint, name ≠ e.responseModelName) ∧
    ∀ a b : Endpoint, a.requestModelName ≠ b.responseModelName := by
  refine ⟨?_, fun ⟨_, failed⟩ => exists_firstClash_of_fault failed,
    fun _ _ => document_of_firstClash, ?_, Endpoint.requestModelName_ne_responseModelName⟩
  · rw [← pairwise_apart_iff]
    constructor
    · rintro ⟨doc, built⟩
      obtain ⟨-, -, -, -, distinct⟩ := describes_build (Prod.ext built rfl)
      exact distinct
    · exact document_ok_of_apart
  · intro name failed e
    obtain ⟨earlier, first, clash⟩ := exists_firstClash_of_fault failed
    have reported := (document_of_firstClash clash).symm.trans failed
    split at reported
    · cases reported
    · cases reported
      exact Endpoint.requestModelName_ne_responseModelName first e

-- A wildcard counts in the path and not in the name of the request.
example : document { routePrefix := "api", version := "v1", groups := [{ name := "web", endpoints :=
      [{ name := "files", group := "web" }, { name := "files.*", group := "web" }] }] } =
    .error (.conflict .definition "ReqWebFiles") := rfl

end ApiOutline.Swagger
