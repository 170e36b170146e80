import ApiOutline.SortedMap
import Mathlib.Data.List.Pairwise

/-!
Maps seen through their entries.  A map has at most one entry for a key, so looking a key up and
finding an entry for it are the same; and putting a value under a new key adds one entry and leaves
the others alone, wherever the order puts the new one.
-/

namespace ApiOutline

universe u

variable {α : Type u}

/-- A fresh key adds an entry and changes none. -/
theorem Entries.perm_insert {key : String} {value : α} {entries : List (String × α)}
    (fresh : key ∉ entries.map (·.1)) :
    (Entries.insert key value entries).Perm ((key, value) :: entries) := by
  induction entries with
  | nil => exact .refl _
  | cons entry rest ih =>
    obtain ⟨other, kept⟩ := entry
    obtain ⟨differ, later⟩ := not_or.1 (mt List.mem_cons.2 fresh)
    simp only [Entries.insert, if_neg differ]
    split
    · exact .refl _
    · exact ((ih later).cons (other, kept)).trans (.swap _ _ rest)

/-- A key that is greater than all others goes to the end. -/
theorem Entries.insert_last {key : String} {value : α} {entries : List (String × α)}
    (greatest : ∀ entry ∈ entries, entry.1 < key) :
    Entries.insert key value entries = entries ++ [(key, value)] := by
  induction entries with
  | nil => rfl
  | cons entry rest ih =>
    obtain ⟨other, kept⟩ := entry
    obtain ⟨less, later⟩ := List.forall_mem_cons.1 greatest
    have differ : key ≠ other := fun same => String.lt_irrefl key (same ▸ less)
    rw [Entries.insert, if_neg differ, if_neg (String.lt_asymm less), ih later, List.cons_append]

/-- There is a value under the keys that are listed, and under no others. -/
theorem Entries.isSome_lookup_iff {key : String} {entries : List (String × α)} :
    (entries.lookup key).isSome = true ↔ key ∈ entries.map (·.1) := by
  rw [List.lookup_isSome_iff, List.mem_map]
  constructor
  · rintro ⟨entry, member, same⟩
    exact ⟨entry, member, (beq_iff_eq.1 same).symm⟩
  · rintro ⟨entry, member, rfl⟩
    exact ⟨entry, member, beq_self_eq_true _⟩

namespace SortedMap

variable {m : SortedMap α} {key : String} {value : α}

/-- A map has no key twice. -/
theorem nodup_keys (m : SortedMap α) : m.keys.Nodup := by
  apply List.pairwise_map.2
  refine m.sorted.imp ?_
  intro first second increase same
  rw [same] at increase
  exact String.lt_irrefl _ increase

theorem contains_iff : m.contains key = true ↔ key ∈ m.keys := Entries.isSome_lookup_iff

theorem contains_eq_false_iff : m.contains key = false ↔ key ∉ m.keys := by
  rw [← contains_iff, Bool.not_eq_true]

/-- The value under a key is the one in the entry with this key. -/
theorem get?_eq_some_iff : m.get? key = some value ↔ (key, value) ∈ m.entries := by
  rw [get?, List.lookup_eq_some_iff]
  constructor
  · rintro ⟨before, after, whole, -⟩
    rw [whole]
    exact List.mem_append_right before List.mem_cons_self
  · intro member
    obtain ⟨before, after, whole⟩ := List.append_of_mem member
    refine ⟨before, after, whole, ?_⟩
    -- An earlier entry for the same key would make the keys repeat.
    intro entry earlier
    have distinct := m.nodup_keys
    rw [keys, whole, List.map_append, List.map_cons] at distinct
    have apart := (List.nodup_append.1 distinct).2.2
    rw [bne_iff_ne]
    exact (apart entry.1 (List.mem_map_of_mem earlier) key List.mem_cons_self).symm

theorem contains_insert_of_ne {other : String} (differ : other ≠ key) (value : α) :
    (m.insert key value).contains other = m.contains other := by
  rw [contains, contains, get?_insert_of_ne m differ]

/-- A fresh key adds one entry to a map. -/
theorem entries_insert (fresh : m.contains key = false) (value : α) :
    (m.insert key value).entries.Perm ((key, value) :: m.entries) :=
  Entries.perm_insert (contains_eq_false_iff.1 fresh)

/-- A map has one order of its entries. -/
theorem eq_of_perm {m m' : SortedMap α} (perm : m.entries.Perm m'.entries) : m = m' := by
  have same : m.entries = m'.entries := by
    refine perm.eq_of_pairwise ?_ m.sorted m'.sorted
    intro a b _ _ less greater
    exact absurd greater (String.lt_asymm less)
  cases m
  cases m'
  simpa using same

/-- Maps with the same keys list them in the same order. -/
theorem keys_eq_of_perm {m m' : SortedMap α} (perm : m.keys.Perm m'.keys) : m.keys = m'.keys := by
  refine perm.eq_of_pairwise ?_ (List.pairwise_map.2 m.sorted) (List.pairwise_map.2 m'.sorted)
  intro a b _ _ less greater
  exact absurd greater (String.lt_asymm less)

/-- A map is put together again from its entries. -/
theorem ofList_entries (m : SortedMap α) : ofList m.entries = m := by
  have collected : ∀ (entries : List (String × α)) (start : SortedMap α),
      Entries.Sorted (start.entries ++ entries) →
      (entries.foldl (fun m entry => m.insert entry.1 entry.2) start).entries =
        start.entries ++ entries := by
    intro entries
    induction entries with
    | nil => exact fun start _ => (List.append_nil _).symm
    | cons entry rest ih =>
      intro start sorted
      have greatest : ∀ earlier ∈ start.entries, earlier.1 < entry.1 :=
        fun earlier member => (List.pairwise_append.1 sorted).2.2 earlier member entry
          List.mem_cons_self
      have inserted : (start.insert entry.1 entry.2).entries = start.entries ++ [entry] :=
        Entries.insert_last greatest
      rw [List.foldl_cons, ih, inserted, List.append_assoc]
      · rfl
      · rw [inserted, List.append_assoc]
        exact sorted
  have same : (ofList m.entries).entries = m.entries := collected m.entries empty m.sorted
  exact eq_of_perm (.of_eq same)

end SortedMap

end ApiOutline
