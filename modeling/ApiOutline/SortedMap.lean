/-!
Maps from names to values, kept in the order of their keys.

The order is by code point, and it is the order in which every printed document lists its entries.
`Entries.insert` is the insertion on a plain list, for types that hold such a list of themselves;
`SortedMap` carries the proof that its keys increase, so that a map has one representation.
-/

namespace ApiOutline

universe u

variable {α : Type u}

namespace Entries

/-- Puts a value under a key: in place of the old value, or before the first greater key. -/
def insert (key : String) (value : α) : List (String × α) → List (String × α)
  | [] => [(key, value)]
  | (k, v) :: rest =>
    if key = k then (key, value) :: rest
    else if key < k then (key, value) :: (k, v) :: rest
    else (k, v) :: insert key value rest

/-- The keys increase strictly from each entry to every later one. -/
def Sorted (entries : List (String × α)) : Prop := entries.Pairwise (·.1 < ·.1)

/-- Nothing comes into a list but the entry that is inserted. -/
theorem mem_insert {key : String} {value : α} {entries : List (String × α)} {e : String × α}
    (member : e ∈ insert key value entries) : e = (key, value) ∨ e ∈ entries := by
  induction entries with
  | nil => simpa [insert] using member
  | cons a rest ih =>
    obtain ⟨k, v⟩ := a
    simp only [insert] at member
    split at member
    · rcases List.mem_cons.1 member with new | old
      · exact .inl new
      · exact .inr (List.mem_cons_of_mem _ old)
    · split at member
      · simpa using member
      · rcases List.mem_cons.1 member with first | later
        · exact .inr (first ▸ List.mem_cons_self)
        · exact (ih later).imp_right (List.mem_cons_of_mem _)

/-- The keys increase after an insertion as well. -/
theorem sorted_insert {key : String} {value : α} {entries : List (String × α)}
    (sorted : Sorted entries) : Sorted (insert key value entries) := by
  induction entries with
  | nil => simp [insert, Sorted]
  | cons a rest ih =>
    obtain ⟨k, v⟩ := a
    have below := List.pairwise_cons.1 sorted
    simp only [insert]
    split
    · next same => subst same; exact List.pairwise_cons.2 below
    · next differ =>
      split
      · next less =>
        refine List.pairwise_cons.2 ⟨fun e member => ?_, sorted⟩
        rcases List.mem_cons.1 member with rfl | later
        · exact less
        · exact String.lt_trans less (below.1 e later)
      · next notLess =>
        refine List.pairwise_cons.2 ⟨fun e member => ?_, ih below.2⟩
        rcases mem_insert member with rfl | old
        · exact Std.lt_of_le_of_ne (String.not_lt.1 notLess) (Ne.symm differ)
        · exact below.1 e old

theorem lookup_insert_self (key : String) (value : α) (entries : List (String × α)) :
    (insert key value entries).lookup key = some value := by
  induction entries with
  | nil => simp [insert]
  | cons a rest ih =>
    obtain ⟨k, v⟩ := a
    simp only [insert]
    split
    · simp
    · next differ =>
      split
      · simp
      · have distinct : (key == k) = false := by simpa using differ
        rw [List.lookup_cons, distinct]
        exact ih

/-- The values under other keys are kept. -/
theorem lookup_insert_of_ne {key other : String} (differ : other ≠ key) (value : α)
    (entries : List (String × α)) :
    (insert key value entries).lookup other = entries.lookup other := by
  have distinct : (other == key) = false := by simpa using differ
  induction entries with
  | nil => simp only [insert, List.lookup_cons, distinct]
  | cons a rest ih =>
    obtain ⟨k, v⟩ := a
    simp only [insert]
    split
    · next same => subst same; simp only [List.lookup_cons, distinct]
    · split
      · simp only [List.lookup_cons, distinct]
      · simp only [List.lookup_cons, ih]

end Entries

/-- A map from names to values, its entries in the order of their keys. -/
structure SortedMap (α : Type u) where
  /-- The entries, in the order of their keys. -/
  entries : List (String × α) := []
  /-- No two entries share a key, and the keys increase. -/
  sorted : Entries.Sorted entries := by exact List.Pairwise.nil

namespace SortedMap

def empty : SortedMap α := {}

instance : Inhabited (SortedMap α) := ⟨empty⟩

instance [DecidableEq α] : DecidableEq (SortedMap α) := fun a b =>
  if same : a.entries = b.entries then
    isTrue (by cases a; cases b; simpa using same)
  else isFalse fun equal => same (by rw [equal])

def get? (m : SortedMap α) (key : String) : Option α := m.entries.lookup key

def contains (m : SortedMap α) (key : String) : Bool := (m.get? key).isSome

/-- The keys, in increasing order. -/
def keys (m : SortedMap α) : List String := m.entries.map (·.1)

def size (m : SortedMap α) : Nat := m.entries.length

/-- Puts a value under a key, in place of an old one. -/
def insert (m : SortedMap α) (key : String) (value : α) : SortedMap α where
  entries := Entries.insert key value m.entries
  sorted := Entries.sorted_insert m.sorted

/-- The map of some entries, the last of those that share a key. -/
def ofList (entries : List (String × α)) : SortedMap α :=
  entries.foldl (fun m (key, value) => m.insert key value) empty

@[simp]
theorem get?_insert_self (m : SortedMap α) (key : String) (value : α) :
    (m.insert key value).get? key = some value :=
  Entries.lookup_insert_self key value m.entries

theorem get?_insert_of_ne (m : SortedMap α) {key other : String} (differ : other ≠ key)
    (value : α) : (m.insert key value).get? other = m.get? other :=
  Entries.lookup_insert_of_ne differ value m.entries

end SortedMap

end ApiOutline
