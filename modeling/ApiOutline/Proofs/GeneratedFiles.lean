import ApiOutline.FileTree.Generated
import ApiOutline.Proofs.FileTree

/-!
What the writing of a generated file does to the rest of the tree.

The new text is written beside the file and then renamed.  So one place besides the target is not
left as it was: a file that happens to be at the staging path is gone after a success, and may hold
the new text after a fault (`generated_file_frame`).  Everything else stays, and the old file is
whole as long as the new one is not there.
-/

namespace ApiOutline.FileTree

variable {t made staged after : FileTree} {l : Location} {path content : String}

/-! ## The steps of a writing -/

private theorem makeParent_grown (t : FileTree) (path : String) :
    Grown t (t.makeParent path).1 (Relation.TransGen Path.HasParent path) := by
  rw [makeParent]
  split
  · exact .refl t _
  · next above parent =>
    have grown := makeDirectoriesUpTo_grown (above.length + 1) above t
    exact grown.widen fun place => Relation.TransGen.head' parent

/-- The directory of a path that leads somewhere is there. -/
theorem makeParent_of_locate (located : t.locate path = .ok l) : t.makeParent path = (t, none) := by
  rw [makeParent]
  split
  · rfl
  · next above parent =>
    by_cases empty : above = ""
    · subst empty
      rfl
    · have under := Path.under_of_parent? parent empty
      rw [makeDirectories_of_isDirectory (isDirectory_of_under under located)]
      rfl

/-- A writing stops before anything but directories is made, at the renaming, or not at all. -/
theorem writeGenerated_cases (t : FileTree) (path content : String) :
    (∃ fault, t.writeGenerated path content = ((t.makeParent path).1, some fault)) ∨
    ∃ staged,
      (t.makeParent path).1.writeBytes (stagingPath path) (Text.encode content) = .ok staged ∧
      ((∃ cause, staged.renameFile (stagingPath path) path = .error cause ∧
          t.writeGenerated path content = (staged, some (.write path cause))) ∨
        ∃ after, staged.renameFile (stagingPath path) path = .ok after ∧
          t.writeGenerated path content = (after, none)) := by
  rw [writeGenerated]
  rcases t.makeParent path with ⟨made, _ | fault⟩
  · cases written : made.writeBytes (stagingPath path) (Text.encode content) with
    | error cause => exact .inl ⟨.write (stagingPath path) cause, by simp only [written]⟩
    | ok staged =>
      refine .inr ⟨staged, rfl, ?_⟩
      cases renamed : staged.renameFile (stagingPath path) path with
      | error cause => exact .inl ⟨cause, rfl, by simp only [written, renamed]⟩
      | ok after => exact .inr ⟨after, rfl, by simp only [written, renamed]⟩
  · exact .inl ⟨fault, by simp only⟩

/-! ## What stays -/

/-- The directories stay, and new ones are above the path. -/
structure ParentsMade (before after : FileTree) (path : String) : Prop where
  kept : KeepsDirectories before after
  above : ∀ l, after.node? l = some .directory → before.node? l = some .directory ∨
    ∃ place, Relation.TransGen Path.HasParent path place ∧ after.locate place = .ok l

/-- A path is in a directory, and no directory is in the way of its file. -/
structure Ready (t : FileTree) (path : String) : Prop where
  unslashed : Path.endsInSlash path = false
  target : ∃ l, t.locate path = .ok l ∧ t.node? l ≠ some .directory
  staging : ∃ l, t.locate (stagingPath path) = .ok l ∧ t.node? l ≠ some .directory

/-- The file at a path is replaced by a new one. -/
structure Replaced (before after : FileTree) (path content : String) : Prop where
  holds : after.readBytes path = .ok (Text.encode content)
  parents : ∀ above, Relation.TransGen Path.HasParent path above → above ≠ "" →
    after.isDirectory above = true
  directories : ParentsMade before after path
  /-- The two paths are in one directory, and only their names differ. -/
  beside : ∃ directory name, after.locate path = .ok (directory ++ [name]) ∧
    after.locate (stagingPath path) = .ok (directory ++ [Path.stem name ++ ".tmp".toList])
  kept : ∀ l bytes, before.node? l = some (.file bytes) →
    after.node? l = some (.file bytes) ∨ after.locate path = .ok l ∨
      after.locate (stagingPath path) = .ok l ∧ after.node? l = none
  /-- What was at the staging path is gone, unless the path stages itself. -/
  cleared : ∀ l, after.locate (stagingPath path) = .ok l →
    after.locate path = .ok l ∨ after.node? l = none
  noNewFile : ∀ l bytes, after.node? l = some (.file bytes) →
    before.node? l = some (.file bytes) ∨ after.locate path = .ok l

/-- The file at a path is not replaced. -/
structure Survives (before after : FileTree) (path content : String) : Prop where
  unready : ¬ Ready before path
  target : ∀ bytes, before.readBytes path = .ok bytes → after.readBytes path = .ok bytes
  directories : ParentsMade before after path
  kept : ∀ l bytes, before.node? l = some (.file bytes) →
    after.node? l = some (.file bytes) ∨
      after.locate (stagingPath path) = .ok l ∧ after.node? l = some (.file (Text.encode content))
  noNewFile : ∀ l bytes, after.node? l = some (.file bytes) →
    before.node? l = some (.file bytes) ∨
      after.locate (stagingPath path) = .ok l ∧ bytes = Text.encode content

private theorem parentsMade_of_grown (grown : Grown t made (Relation.TransGen Path.HasParent path))
    (keeps : KeepsDirectories made after)
    (old : ∀ l, after.node? l = some .directory → made.node? l = some .directory) :
    ParentsMade t after path where
  kept := grown.keepsDirectories.trans keeps
  above l directory := by
    rcases grown l with same | ⟨-, -, place, above, located⟩
    · exact .inl (same ▸ old l directory)
    · exact .inr ⟨place, above, locate_mono keeps located⟩

/-! ## Success -/

/-- The tree after a success is the one in which the directories are made, but for two places. -/
structure Swapped (made after : FileTree) (path content : String) (target staging : Location) :
    Prop where
  keeps : KeepsDirectories made after
  unslashed : Path.endsInSlash path = false
  located : after.locate path = .ok target
  placed : made.locate (stagingPath path) = .ok staging
  free : made.node? staging ≠ some .directory
  node : ∀ l, after.node? l =
    if l = target then some (.file (Text.encode content))
    else if l = staging then none else made.node? l

private theorem swapped_of_renameFile
    (written : made.writeBytes (stagingPath path) (Text.encode content) = .ok staged)
    (renamed : staged.renameFile (stagingPath path) path = .ok after) :
    ∃ target staging, Swapped made after path content target staging := by
  obtain ⟨staging, placed, -, free, rfl⟩ := writeBytes_eq_ok_iff.1 written
  have toStaged := keepsDirectories_set free (.file (Text.encode content))
  obtain ⟨-, -, -, -, -, -, -, -, unslashed, -⟩ := renameFile_eq_ok_iff.1 renamed
  obtain ⟨old, target, bytes, sourced, found, located, keeps, node⟩ := node?_of_renameFile renamed
  obtain rfl : staging = old := Except.ok.inj ((locate_mono toStaged placed).symm.trans sourced)
  rw [node?_set free, if_pos rfl] at found
  cases found
  refine ⟨target, staging, toStaged.trans keeps, unslashed, located, placed, free, fun l => ?_⟩
  rw [node l, node?_set free]
  split_ifs <;> rfl

namespace Swapped

variable {target staging : Location}

/-- The content that was written is read at the path. -/
theorem holds (swapped : Swapped made after path content target staging) :
    after.readBytes path = .ok (Text.encode content) := by
  refine readBytes_eq_ok_iff.2 ⟨target, swapped.located, ?_, swapped.unslashed⟩
  rw [swapped.node, if_pos rfl]

private theorem placed_after (swapped : Swapped made after path content target staging) :
    after.locate (stagingPath path) = .ok staging :=
  locate_mono swapped.keeps swapped.placed

private theorem of_directory (swapped : Swapped made after path content target staging)
    (directory : after.node? l = some .directory) : made.node? l = some .directory := by
  rw [swapped.node] at directory
  split at directory
  · cases directory
  · split at directory
    · cases directory
    · exact directory

/-- A file is staged beside its place: in the same directory, under its stem. -/
theorem beside (swapped : Swapped made after path content target staging) :
    ∃ directory name, target = directory ++ [name] ∧
      staging = directory ++ [Path.stem name ++ ".tmp".toList] := by
  have isFile : after.node? target ≠ some .directory := by simp [swapped.node]
  have named := endsInName_of_locate swapped.located isFile
  have stays := endsInName_of_locate swapped.placed swapped.free
  obtain ⟨above, name, steps, others, absolute, -⟩ :=
    Path.steps_withExtension named swapped.unslashed (by decide) stays
  rw [← stagingPath] at others absolute
  obtain ⟨-, toTarget⟩ := locate_eq_ok_iff.1 swapped.located
  obtain ⟨-, toStaging⟩ := locate_eq_ok_iff.1 swapped.placed_after
  obtain ⟨notDot, notDots⟩ := Path.last_of_endsInName named steps
  obtain ⟨otherDot, otherDots⟩ := Path.last_of_endsInName stays others
  rw [steps] at toTarget
  rw [others, origin, absolute, ← origin] at toStaging
  obtain ⟨directory, first, rfl⟩ := toTarget.last notDot notDots
  obtain ⟨other, again, rfl⟩ := toStaging.last otherDot otherDots
  obtain rfl := first.deterministic again
  exact ⟨directory, name, rfl, rfl⟩

/-- The staging path leads to the new file or to nothing. -/
theorem cleared (swapped : Swapped made after path content target staging)
    (located : after.locate (stagingPath path) = .ok l) :
    after.locate path = .ok l ∨ after.node? l = none := by
  obtain rfl : staging = l := Except.ok.inj (swapped.placed_after.symm.trans located)
  by_cases same : staging = target
  · exact .inl (same ▸ swapped.located)
  · rw [swapped.node, if_neg same, if_pos rfl]
    exact .inr rfl

private theorem replaced (swapped : Swapped made after path content target staging)
    (grown : Grown t made (Relation.TransGen Path.HasParent path)) :
    Replaced t after path content where
  holds := swapped.holds
  parents above isAbove filled :=
    isDirectory_of_under (Path.under_of_transGen isAbove filled) swapped.located
  directories := parentsMade_of_grown grown swapped.keeps fun _ => swapped.of_directory
  beside := by
    obtain ⟨directory, name, rfl, rfl⟩ := swapped.beside
    exact ⟨directory, name, swapped.located, swapped.placed_after⟩
  kept l bytes file := by
    by_cases atTarget : l = target
    · exact .inr (.inl (atTarget ▸ swapped.located))
    · have node := swapped.node l
      rw [if_neg atTarget] at node
      by_cases atStaging : l = staging
      · rw [if_pos atStaging] at node
        exact .inr (.inr ⟨atStaging ▸ swapped.placed_after, node⟩)
      · rw [if_neg atStaging, grown.file_iff.2 file] at node
        exact .inl node
  cleared _ := swapped.cleared
  noNewFile l bytes file := by
    rw [swapped.node] at file
    split at file
    · next atTarget => exact .inr (atTarget ▸ swapped.located)
    · split at file
      · cases file
      · exact .inl (grown.file_iff.1 file)

end Swapped

/-! ## Failure -/

/-- A file at the staging path can be renamed if its path leads to no directory. -/
theorem renameFile_of_written {bytes : List UInt8}
    (written : made.writeBytes (stagingPath path) bytes = .ok staged)
    (located : made.locate path = .ok l) (notDirectory : made.node? l ≠ some .directory)
    (unslashed : Path.endsInSlash path = false) :
    ∃ after, staged.renameFile (stagingPath path) path = .ok after := by
  obtain ⟨staging, placed, plain, free, rfl⟩ := writeBytes_eq_ok_iff.1 written
  have keeps := keepsDirectories_set free (.file bytes)
  refine ⟨_, renameFile_eq_ok_iff.2 ⟨staging, l, bytes, locate_mono keeps placed,
    locate_mono keeps located, endsInName_of_locate located notDirectory, ?_, plain, unslashed, ?_,
    rfl⟩⟩
  · rw [node?_set free, if_pos rfl]
  · rw [node?_set free]
    split
    · simp
    · exact notDirectory

private theorem writeGenerated_of_ready (ready : Ready t path) (content : String) :
    (t.writeGenerated path content).2 = none := by
  obtain ⟨l, located, notDirectory⟩ := ready.target
  obtain ⟨staging, placed, free⟩ := ready.staging
  have named := endsInName_of_locate located notDirectory
  have stays := endsInName_of_locate placed free
  obtain ⟨-, -, -, -, -, plain⟩ :=
    Path.steps_withExtension named ready.unslashed (by decide) stays
  have written := writeBytes_eq_ok_iff.2
    ⟨staging, placed, plain, free, Eq.refl (t.set staging (.file (Text.encode content)))⟩
  obtain ⟨after, renamed⟩ := renameFile_of_written written located notDirectory ready.unslashed
  rw [writeGenerated, makeParent_of_locate located]
  simp only [written, renamed]

private theorem readBytes_of_grown {bytes : List UInt8} {places : String → Prop}
    (grown : Grown t after places) (held : t.readBytes path = .ok bytes) :
    after.readBytes path = .ok bytes := by
  obtain ⟨l, located, file, unslashed⟩ := readBytes_eq_ok_iff.1 held
  exact readBytes_eq_ok_iff.2
    ⟨l, locate_mono grown.keepsDirectories located, grown.file_iff.2 file, unslashed⟩

private theorem survives_of_grown (grown : Grown t after (Relation.TransGen Path.HasParent path))
    (unready : ¬ Ready t path) : Survives t after path content where
  unready := unready
  target _ := readBytes_of_grown grown
  directories := parentsMade_of_grown grown (fun _ => id) fun _ => id
  kept _ _ file := .inl (grown.file_iff.2 file)
  noNewFile _ _ file := .inl (grown.file_iff.1 file)

/-- A renaming that fails leaves the new text at the staging path. -/
theorem survives_of_written (grown : Grown t made (Relation.TransGen Path.HasParent path))
    (written : made.writeBytes (stagingPath path) (Text.encode content) = .ok staged)
    (failed : ∀ after, staged.renameFile (stagingPath path) path ≠ .ok after)
    (unready : ¬ Ready t path) : Survives t staged path content := by
  -- A file that can be read is no obstacle to the renaming, so there is none at the path.
  have unread : ∀ bytes, made.readBytes path ≠ .ok bytes := by
    intro bytes held
    obtain ⟨l, located, file, unslashed⟩ := readBytes_eq_ok_iff.1 held
    obtain ⟨after, renamed⟩ := renameFile_of_written written located (by simp [file]) unslashed
    exact failed after renamed
  obtain ⟨staging, placed, -, free, rfl⟩ := writeBytes_eq_ok_iff.1 written
  have keeps := keepsDirectories_set free (.file (Text.encode content))
  have placedAfter := locate_mono keeps placed
  have node := node?_set free (.file (Text.encode content))
  refine ⟨unready, ?_, parentsMade_of_grown grown keeps ?_, ?_, ?_⟩
  · exact fun bytes held => absurd (readBytes_of_grown grown held) (unread bytes)
  · intro l directory
    rw [node] at directory
    split at directory
    · cases directory
    · exact directory
  · intro l bytes file
    rw [node]
    split
    · next here =>
      subst here
      exact .inr ⟨placedAfter, rfl⟩
    · exact .inl (grown.file_iff.2 file)
  · intro l bytes file
    rw [node] at file
    split at file
    · next here =>
      subst here
      exact .inr ⟨placedAfter, (FileNode.file.inj (Option.some.inj file)).symm⟩
    · exact .inl (grown.file_iff.1 file)

/-! ## The frame of a writing -/

/-- After a success the path holds the text and is in a directory, no file is new, and every other
file is as it was, unless it was at the staging path, the name beside the path with `tmp` for its
extension: nothing is left there, unless that name is the path itself.  After a fault every file is
as it was, that at the path included; one at the staging path may hold the text instead.  There is
no fault when the directory is there and no other directory stands in the way. -/
theorem generated_file_frame (t : FileTree) (path content : String) :
    ((t.writeGenerated path content).2 = none →
      Replaced t (t.writeGenerated path content).1 path content) ∧
    ((t.writeGenerated path content).2 ≠ none →
      Survives t (t.writeGenerated path content).1 path content) := by
  have grown := makeParent_grown t path
  have unready (fault : (t.writeGenerated path content).2 ≠ none) : ¬ Ready t path :=
    fun ready => fault (writeGenerated_of_ready ready content)
  rcases writeGenerated_cases t path content with ⟨fault, same⟩ | ⟨staged, written, ended⟩
  · rw [same] at unready ⊢
    exact ⟨fun success => absurd success (Option.some_ne_none fault),
      fun failed => survives_of_grown grown (unready failed)⟩
  · rcases ended with ⟨cause, failed, same⟩ | ⟨after, renamed, same⟩
    · rw [same] at unready ⊢
      have stuck : ∀ after, staged.renameFile (stagingPath path) path ≠ .ok after := by
        simp [failed]
      exact ⟨fun success => absurd success (Option.some_ne_none _),
        fun fault => survives_of_written grown written stuck (unready fault)⟩
    · rw [same]
      obtain ⟨target, staging, swapped⟩ := swapped_of_renameFile written renamed
      exact ⟨fun _ => swapped.replaced grown, fun fault => absurd rfl fault⟩

/-- A directory, and beside it a file under the name that stages one in its place. -/
def crowded : FileTree where
  entries := [([[], "docs".toList], .directory),
    ([[], "docs.tmp".toList], .file (Text.encode "notes"))]

theorem generated_file_frame_crowded :
    ((crowded.writeGenerated "docs/v1/api.yaml" "new").2 = none ∧
      Replaced crowded (crowded.writeGenerated "docs/v1/api.yaml" "new").1 "docs/v1/api.yaml"
        "new") ∧
    (crowded.writeGenerated "docs" "new").2 ≠ none ∧
      Survives crowded (crowded.writeGenerated "docs" "new").1 "docs" "new" := by
  have success : (crowded.writeGenerated "docs/v1/api.yaml" "new").2 = none := by rfl
  have failure : (crowded.writeGenerated "docs" "new").2 = some (.write "docs" .isDirectory) := by
    rfl
  have fault : (crowded.writeGenerated "docs" "new").2 ≠ none := by
    rw [failure]
    exact Option.some_ne_none _
  exact ⟨⟨success, (generated_file_frame crowded _ _).1 success⟩,
    fault, (generated_file_frame crowded _ _).2 fault⟩

/-- A file at the staging path is not spared: it holds the new text after a fault and is gone after
a success. -/
theorem staging_path_not_spared :
    crowded.readBytes "docs.tmp" = .ok (Text.encode "notes") ∧
    ((crowded.writeGenerated "docs" "new").2 = some (.write "docs" .isDirectory) ∧
      (crowded.writeGenerated "docs" "new").1.readBytes "docs.tmp" = .ok (Text.encode "new")) ∧
    (crowded.writeGenerated "docs.yaml" "new").2 = none ∧
      (crowded.writeGenerated "docs.yaml" "new").1.readBytes "docs.tmp" = .error .notFound :=
  ⟨rfl, ⟨rfl, rfl⟩, rfl, rfl⟩

end ApiOutline.FileTree
