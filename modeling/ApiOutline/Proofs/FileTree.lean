import ApiOutline.FileTree.Basic
import ApiOutline.Proofs.Paths

/-!
Following a path in a tree of files, and what one operation on a tree leaves as it was.

Following a path is read as a relation of walks (`Walk`), in which every step starts in a
directory.  A walk stays one in every tree that keeps the directories (`Walk.mono`), and it only
visits locations below directories (`Walk.rooted`); so a path to something that is no directory ends
in a name (`endsInName_of_locate`).  Making directories adds them where nothing was, and only on the
way along the path, also when it ends in a fault (`makeDirectoriesUpTo_grown`).
-/

namespace ApiOutline.FileTree

variable {t after : FileTree} {l start location : Location} {path : String}

/-! ## Nodes -/

/-- The root and the working directory are apart from every place that is no directory. -/
private theorem base_ne (free : t.node? location ≠ some .directory) (base : l = [] ∨ l = home) :
    l ≠ location := by
  rintro rfl
  rcases base with rfl | rfl <;> exact free rfl

private theorem lookup_filter {entries : List (Location × FileNode)} :
    (entries.filter (·.1 != location)).lookup l =
      if l = location then none else entries.lookup l := by
  induction entries with
  | nil => simp
  | cons entry rest ih =>
    obtain ⟨place, node⟩ := entry
    by_cases same : place = location
    · subst same
      rw [List.filter_cons_of_neg (by simp), ih]
      by_cases here : l = place
      · rw [if_pos here, if_pos here]
      · have passed : (l == place) = false := beq_false_of_ne here
        rw [if_neg here, if_neg here, List.lookup_cons, passed]
    · by_cases here : l = place
      · subst here
        simp [same]
      · have passed : (l == place) = false := beq_false_of_ne here
        simp [List.lookup_cons, same, passed, ih]

/-- Only what is at the location is gone. -/
theorem node?_erase (free : t.node? location ≠ some .directory) (l : Location) :
    (t.erase location).node? l = if l = location then none else t.node? l := by
  by_cases base : l = [] ∨ l = home
  · rw [if_neg (base_ne free base), node?, node?, if_pos base, if_pos base]
  · rw [node?, node?, if_neg base, if_neg base]
    exact lookup_filter

/-- Only the location holds something else. -/
theorem node?_set (free : t.node? location ≠ some .directory) (node : FileNode) (l : Location) :
    (t.set location node).node? l = if l = location then some node else t.node? l := by
  have erased := node?_erase free l
  by_cases base : l = [] ∨ l = home
  · rw [if_neg (base_ne free base), node?, node?, if_pos base, if_pos base]
  · rw [node?, if_neg base] at erased ⊢
    rw [set, List.lookup_append, erased]
    by_cases here : l = location
    · subst here
      simp
    · have passed : (l == location) = false := beq_false_of_ne here
      simp [here, List.lookup_cons, passed]

/-! ## Walks -/

/-- The way that the steps of a path take from one location to another. -/
inductive Walk (t : FileTree) : Location → List (List Char) → Location → Prop
  | here {l : Location} : Walk t l [] l
  | stay {start l : Location} {rest : List (List Char)} (inside : t.node? start = some .directory)
      (onward : Walk t start rest l) : Walk t start (Path.dot :: rest) l
  | up {start l : Location} {rest : List (List Char)} (inside : t.node? start = some .directory)
      (onward : Walk t start.dropLast rest l) : Walk t start (Path.dotDot :: rest) l
  | down {start l : Location} {part : List Char} {rest : List (List Char)}
      (inside : t.node? start = some .directory) (notDot : part ≠ Path.dot)
      (notDots : part ≠ Path.dotDot) (short : ¬ nameLimit < (String.ofList part).utf8ByteSize)
      (onward : Walk t (start ++ [part]) rest l) : Walk t start (part :: rest) l

/-- Following steps succeeds exactly if there is a walk along them, and leads where the walk does.
-/
theorem follow_eq_ok_iff {steps : List (List Char)} :
    t.follow start steps = .ok l ↔ Walk t start steps l := by
  constructor
  · intro followed
    induction steps generalizing start with
    | nil =>
      cases followed
      exact .here
    | cons part rest ih =>
      rw [follow] at followed
      split at followed
      · cases followed
      · cases followed
      · next inside =>
        split at followed
        · next same => exact same ▸ .stay inside (ih followed)
        · next notDot =>
          split at followed
          · next same => exact same ▸ .up inside (ih followed)
          · next notDots =>
            split at followed
            · cases followed
            · next short => exact .down inside notDot notDots short (ih followed)
  · intro walk
    induction walk with
    | here => rfl
    | stay inside _ ih => simpa [follow, inside] using ih
    | up inside _ ih => simpa [follow, inside, Path.dotDot, Path.dot] using ih
    | down inside notDot notDots short _ ih =>
      simpa [follow, inside, notDot, notDots, short] using ih

namespace Walk

variable {steps : List (List Char)}

/-- A walk that goes on starts in a directory. -/
theorem isDirectory {part : List Char} (walk : Walk t start (part :: steps) l) :
    t.node? start = some .directory := by
  cases walk <;> assumption

/-- Walks along the same steps lead to the same place. -/
theorem deterministic {other : Location} (walk : Walk t start steps l)
    (again : Walk t start steps other) : l = other :=
  Except.ok.inj ((follow_eq_ok_iff.2 walk).symm.trans (follow_eq_ok_iff.2 again))

/-- Steps taken one after the other. -/
theorem split {more : List (List Char)} (walk : Walk t start (steps ++ more) l) :
    ∃ middle, Walk t start steps middle ∧ Walk t middle more l := by
  induction steps generalizing start with
  | nil => exact ⟨start, .here, walk⟩
  | cons part rest ih =>
    cases walk with
    | stay inside onward =>
      obtain ⟨middle, first, second⟩ := ih onward
      exact ⟨middle, .stay inside first, second⟩
    | up inside onward =>
      obtain ⟨middle, first, second⟩ := ih onward
      exact ⟨middle, .up inside first, second⟩
    | down inside notDot notDots short onward =>
      obtain ⟨middle, first, second⟩ := ih onward
      exact ⟨middle, .down inside notDot notDots short first, second⟩

/-- A walk whose last step is a name ends in the directory where that step starts. -/
theorem last {name : List Char} (walk : Walk t start (steps ++ [name]) l)
    (notDot : name ≠ Path.dot) (notDots : name ≠ Path.dotDot) :
    ∃ directory, Walk t start steps directory ∧ l = directory ++ [name] := by
  obtain ⟨directory, first, second⟩ := walk.split
  cases second with
  | stay => exact absurd rfl notDot
  | up => exact absurd rfl notDots
  | down _ _ _ _ onward =>
    cases onward
    exact ⟨directory, first, rfl⟩

end Walk

/-- Directories stay directories. -/
def KeepsDirectories (t after : FileTree) : Prop :=
  ∀ l, t.node? l = some .directory → after.node? l = some .directory

theorem KeepsDirectories.trans {last : FileTree} (first : KeepsDirectories t after)
    (second : KeepsDirectories after last) : KeepsDirectories t last :=
  fun l directory => second l (first l directory)

/-- A write keeps the directories if it does not go to the place of one. -/
theorem keepsDirectories_set (free : t.node? location ≠ some .directory) (node : FileNode) :
    KeepsDirectories t (t.set location node) := by
  intro l directory
  rw [node?_set free, if_neg, directory]
  rintro rfl
  exact free directory

private theorem keepsDirectories_erase (free : t.node? location ≠ some .directory) :
    KeepsDirectories t (t.erase location) := by
  intro l directory
  rw [node?_erase free, if_neg, directory]
  rintro rfl
  exact free directory

/-- A walk is still there as long as the directories are. -/
theorem Walk.mono {steps : List (List Char)} (keeps : KeepsDirectories t after)
    (walk : Walk t start steps l) : Walk after start steps l := by
  induction walk with
  | here => exact .here
  | stay inside _ ih => exact .stay (keeps _ inside) ih
  | up inside _ ih => exact .up (keeps _ inside) ih
  | down inside notDot notDots short _ ih => exact .down (keeps _ inside) notDot notDots short ih

/-- Everything above a location is a directory. -/
def Rooted (t : FileTree) (l : Location) : Prop :=
  ∀ above, above <+: l → above ≠ l → t.node? above = some .directory

theorem Walk.rooted {steps : List (List Char)} (walk : Walk t start steps l)
    (rooted : Rooted t start) : Rooted t l := by
  induction walk with
  | here => exact rooted
  | stay _ _ ih => exact ih rooted
  | @up start _ _ _ _ ih =>
    refine ih fun above prior apart => rooted above (prior.trans (List.dropLast_prefix _)) ?_
    rintro rfl
    have shorter := prior.length_le
    have same : above.dropLast = above := List.dropLast_prefix above |>.eq_of_length_le shorter
    exact apart same.symm
  | @down start _ _ _ inside _ _ _ _ ih =>
    refine ih fun above prior apart => ?_
    rcases List.prefix_concat_iff.1 prior with same | prior
    · exact absurd same apart
    · by_cases here : above = start
      · exact here ▸ inside
      · exact rooted above prior here

/-! ## Paths in a tree -/

/-- A path that can be followed at all. -/
structure Followable (path : String) : Prop where
  /-- It has no zero character. -/
  nonzero : path.toList.any (·.toNat = 0) = false
  /-- It is not empty. -/
  filled : path ≠ ""
  /-- It is not too long. -/
  short : path.utf8ByteSize ≤ pathLimit

/-- Where a path is followed from. -/
def origin (path : String) : Location := if Path.isAbsolute path.toList then [] else home

/-- The paths that lead somewhere, and where they lead. -/
theorem locate_eq_ok_iff :
    t.locate path = .ok l ↔ Followable path ∧ Walk t (origin path) (Path.steps path) l := by
  rw [← follow_eq_ok_iff, locate, origin]
  constructor
  · intro located
    split at located
    · cases located
    · next nonzero =>
      split at located
      · cases located
      · next filled =>
        split at located
        · cases located
        · next short =>
          exact ⟨⟨Bool.eq_false_iff.2 nonzero, by simpa using filled, by omega⟩, located⟩
  · rintro ⟨⟨nonzero, filled, short⟩, followed⟩
    rw [if_neg (by simp [nonzero]), if_neg (by simpa using filled), if_neg (by omega), followed]

/-- A path leads to the same place as long as the directories are kept. -/
theorem locate_mono (keeps : KeepsDirectories t after) (located : t.locate path = .ok l) :
    after.locate path = .ok l := by
  obtain ⟨followable, walk⟩ := locate_eq_ok_iff.1 located
  exact locate_eq_ok_iff.2 ⟨followable, walk.mono keeps⟩

private theorem rooted_origin (t : FileTree) (path : String) : Rooted t (origin path) := by
  intro above prior apart
  have root : above = [] := by
    rw [origin] at prior apart
    split at prior
    · exact List.prefix_nil.1 prior
    · next relative =>
      rw [if_neg relative] at apart
      rcases List.prefix_concat_iff.1 (show above <+: [] ++ [[]] from prior) with same | prior
      · exact absurd same apart
      · exact List.prefix_nil.1 prior
  rw [root]
  rfl

private theorem node?_origin (t : FileTree) (path : String) :
    t.node? (origin path) = some .directory := by
  rw [origin]
  split <;> rfl

/-- A path is a directory if it leads to one. -/
theorem isDirectory_iff : t.isDirectory path = true ↔
    ∃ l, t.locate path = .ok l ∧ t.node? l = some .directory := by
  rw [isDirectory]
  cases located : t.locate path <;> simp

/-- What is above a path that leads somewhere is a directory. -/
theorem isDirectory_of_under {above : String} (under : Path.Under path above)
    (located : t.locate path = .ok l) : t.isDirectory above = true := by
  obtain ⟨⟨nonzero, -, short⟩, walk⟩ := locate_eq_ok_iff.1 located
  obtain ⟨more, some, taken⟩ := under.steps
  obtain ⟨rest, whole⟩ := under.starts
  obtain ⟨part, others, rfl⟩ := List.exists_cons_of_ne_nil some
  rw [taken] at walk
  obtain ⟨middle, first, second⟩ := walk.split
  have together : above ++ String.ofList rest = path := by
    rw [← String.toList_inj, String.toList_append, String.toList_ofList, whole]
  have followable : Followable above := by
    refine ⟨?_, under.filled, ?_⟩
    · rw [← whole, List.any_append, Bool.or_eq_false_iff] at nonzero
      exact nonzero.1
    · rw [← together, String.utf8ByteSize_append] at short
      omega
  have start : origin path = origin above := by
    rw [origin, origin, under.isAbsolute_eq]
  have found : t.locate above = .ok middle := locate_eq_ok_iff.2 ⟨followable, start ▸ first⟩
  exact isDirectory_iff.2 ⟨middle, found, second.isDirectory⟩

/-- A path to something that is no directory ends in a name: a dot stays in a directory, and two
dots lead to what is above one. -/
theorem endsInName_of_locate (located : t.locate path = .ok l)
    (free : t.node? l ≠ some .directory) : Path.endsInName path = true := by
  obtain ⟨-, walk⟩ := locate_eq_ok_iff.1 located
  rw [Path.endsInName]
  rcases List.eq_nil_or_concat' (Path.steps path) with none | ⟨before, last, steps⟩
  · rw [none] at walk
    cases walk
    exact absurd (node?_origin t path) free
  · rw [steps] at walk
    obtain ⟨middle, first, second⟩ := walk.split
    rw [steps, List.getLast?_concat]
    cases second with
    | stay inside onward =>
      cases onward
      exact absurd inside free
    | up inside onward =>
      cases onward
      refine absurd ?_ free
      by_cases root : middle = []
      · subst root
        rfl
      · refine first.rooted (rooted_origin t path) _ (List.dropLast_prefix _) fun same => root ?_
        have shorter := congrArg List.length same
        rw [List.length_dropLast] at shorter
        refine List.length_eq_zero_iff.1 ?_
        omega
    | down inside notDot notDots short onward => simp [notDot, notDots]

/-! ## Operations -/

/-- What is read at a path is what the file holds that it leads to.  A path with a slash at its end
leads to no file. -/
theorem readBytes_eq_ok_iff {bytes : List UInt8} :
    t.readBytes path = .ok bytes ↔
      ∃ l, t.locate path = .ok l ∧ t.node? l = some (.file bytes) ∧
        Path.endsInSlash path = false := by
  rw [readBytes]
  cases located : t.locate path with
  | error cause => simp [bind, Except.bind]
  | ok l =>
    simp only [bind, Except.bind, Except.ok.injEq, exists_eq_left']
    cases found : t.node? l with
    | none => simp
    | some node =>
      cases node with
      | directory => simp
      | file old => cases Path.endsInSlash path <;> simp

/-- When a file can be written, and what is where afterwards. -/
theorem writeBytes_eq_ok_iff {bytes : List UInt8} :
    t.writeBytes path bytes = .ok after ↔
      ∃ l, t.locate path = .ok l ∧ Path.endsInSlash path = false ∧
        t.node? l ≠ some .directory ∧ t.set l (.file bytes) = after := by
  rw [writeBytes]
  cases located : t.locate path with
  | error cause => simp [bind, Except.bind]
  | ok l =>
    simp only [bind, Except.bind, Except.ok.injEq, exists_eq_left']
    cases Path.endsInSlash path with
    | true => simp
    | false => by_cases directory : t.node? l = some .directory <;> simp [directory]

/-- A directory is made where nothing is. -/
theorem makeDirectory_eq_ok (made : t.makeDirectory path = .ok after) :
    ∃ l, t.locate path = .ok l ∧ t.node? l = none ∧ after = t.set l .directory := by
  rw [makeDirectory] at made
  cases located : t.locate path with
  | error cause => simp [located, bind, Except.bind] at made
  | ok l =>
    simp only [located, bind, Except.bind] at made
    split at made
    · cases made
    · next free => exact ⟨l, rfl, free, (Except.ok.inj made).symm⟩

/-- When a file can be given another path, and what is where afterwards. -/
theorem renameFile_eq_ok_iff {source target : String} :
    t.renameFile source target = .ok after ↔
      ∃ old new bytes, t.locate source = .ok old ∧ t.locate target = .ok new ∧
        Path.endsInName target = true ∧ t.node? old = some (.file bytes) ∧
        Path.endsInSlash source = false ∧ Path.endsInSlash target = false ∧
        t.node? new ≠ some .directory ∧ (t.erase old).set new (.file bytes) = after := by
  rw [renameFile]
  cases sourced : t.locate source with
  | error cause => simp [bind, Except.bind]
  | ok old =>
    cases targeted : t.locate target with
    | error cause => simp [bind, Except.bind]
    | ok new =>
      simp only [bind, Except.bind, Except.ok.injEq, exists_eq_left', exists_and_left]
      cases named : Path.endsInName target with
      | false => simp
      | true =>
        cases found : t.node? old with
        | none => simp
        | some node =>
          cases node with
          | directory => simp
          | file bytes =>
            cases Path.endsInSlash source with
            | true => simp
            | false =>
              cases Path.endsInSlash target with
              | true => simp
              | false => by_cases directory : t.node? new = some .directory <;> simp [directory]

/-- After a renaming the file is at the new place only, and everything else is where it was. -/
theorem node?_of_renameFile {source target : String}
    (renamed : t.renameFile source target = .ok after) :
    ∃ old new bytes, t.locate source = .ok old ∧ t.node? old = some (.file bytes) ∧
      after.locate target = .ok new ∧ KeepsDirectories t after ∧
      ∀ l, after.node? l =
        if l = new then some (.file bytes) else if l = old then none else t.node? l := by
  obtain ⟨old, new, bytes, sourced, targeted, -, found, -, -, notDirectory, rfl⟩ :=
    renameFile_eq_ok_iff.1 renamed
  have isFile : t.node? old ≠ some .directory := by simp [found]
  have free : (t.erase old).node? new ≠ some .directory := by
    rw [node?_erase isFile]
    split
    · simp
    · exact notDirectory
  have keeps := (keepsDirectories_erase isFile).trans (keepsDirectories_set free (.file bytes))
  refine ⟨old, new, bytes, sourced, found, locate_mono keeps targeted, keeps, fun l => ?_⟩
  rw [node?_set free, node?_erase isFile]

/-! ## Making directories -/

/-- A tree with some more directories, each at one of the given paths. -/
def Grown (t after : FileTree) (places : String → Prop) : Prop :=
  ∀ l, after.node? l = t.node? l ∨
    t.node? l = none ∧ after.node? l = some .directory ∧
      ∃ place, places place ∧ after.locate place = .ok l

namespace Grown

variable {places others : String → Prop}

theorem refl (t : FileTree) (places : String → Prop) : Grown t t places := fun _ => .inl rfl

/-- A tree that has grown has kept its directories. -/
theorem keepsDirectories (grown : Grown t after places) : KeepsDirectories t after := by
  intro l directory
  rcases grown l with same | ⟨none, -⟩
  · rw [same, directory]
  · rw [none] at directory
    cases directory

/-- A tree that has grown at some places has grown at those and others. -/
theorem widen (grown : Grown t after places) (each : ∀ place, places place → others place) :
    Grown t after others := by
  intro l
  refine (grown l).imp_right ?_
  rintro ⟨none, directory, place, among, located⟩
  exact ⟨none, directory, place, each place among, located⟩

theorem trans {last : FileTree} (first : Grown t after places) (second : Grown after last places) :
    Grown t last places := by
  intro l
  rcases second l with same | ⟨none, directory, found⟩
  · rcases first l with before | ⟨none, directory, place, among, located⟩
    · exact .inl (same.trans before)
    · exact .inr ⟨none, same.trans directory, place, among,
        locate_mono second.keepsDirectories located⟩
  · rcases first l with before | ⟨-, made, -⟩
    · exact .inr ⟨before ▸ none, directory, found⟩
    · rw [made] at none
      cases none

/-- A tree grows by directories only: it has the files that it had. -/
theorem file_iff (grown : Grown t after places) {bytes : List UInt8} :
    after.node? l = some (.file bytes) ↔ t.node? l = some (.file bytes) := by
  rcases grown l with same | ⟨none, directory, -⟩
  · rw [same]
  · simp [none, directory]

end Grown

private theorem makeDirectory_grown {places : String → Prop} (among : places path)
    (made : t.makeDirectory path = .ok after) : Grown t after places := by
  obtain ⟨location, located, none, rfl⟩ := makeDirectory_eq_ok made
  have free : t.node? location ≠ some .directory := by simp [none]
  intro l
  rw [node?_set free]
  split
  · next here =>
    subst here
    exact .inr ⟨none, rfl, path, among, locate_mono (keepsDirectories_set free _) located⟩
  · exact .inl rfl

/-- Only the path itself and those above it are made into directories, whether or not all of them
can be. -/
theorem makeDirectoriesUpTo_grown (fuel : Nat) (path : String) (t : FileTree) :
    Grown t (makeDirectoriesUpTo fuel path t).1 (Relation.ReflTransGen Path.HasParent path) := by
  induction fuel generalizing path with
  | zero => exact .refl t _
  | succ fuel ih =>
    rw [makeDirectoriesUpTo]
    split
    · exact .refl t _
    · split
      · next made => exact makeDirectory_grown .refl made
      · split
        · exact .refl t _
        · next above parent =>
          -- Whatever comes after it, the directories above are made first.
          have first := (ih above).widen fun place => Relation.ReflTransGen.head parent
          split
          · next made => exact made ▸ first
          · next made =>
            rw [made] at first
            split
            · next last => exact first.trans (makeDirectory_grown .refl last)
            · exact first
      · exact .refl t _

/-- Nothing is made where there is a directory already. -/
theorem makeDirectories_of_isDirectory (present : t.isDirectory path = true) :
    t.makeDirectories path = (t, none) := by
  obtain ⟨l, located, directory⟩ := isDirectory_iff.1 present
  have filled := (locate_eq_ok_iff.1 located).1.filled
  have exists_ : t.makeDirectory path = .error .alreadyExists := by
    simp [makeDirectory, located, directory, bind, Except.bind]
  simp [makeDirectories, makeDirectoriesUpTo, filled, exists_, present]

end ApiOutline.FileTree
