import ApiOutline.Fault
import ApiOutline.Path
import ApiOutline.Text.Lines
import ApiOutline.Text.Utf8

/-!
A tree of files and directories, and what reading, writing, making directories and renaming do to
it.

A path is followed step by step, and everything on the way has to be a directory, also where the
next step is a dot.  A path that ends in a slash means a directory.

The tree holds a working directory, from which the paths that do not start at the root are followed.
What a listing shows is the working directory alone.
-/

namespace ApiOutline

/-- Something in a tree of files. -/
inductive FileNode where
  | directory
  | file (bytes : List UInt8)
  deriving DecidableEq, Repr

/-- A place in a tree: the names on the way to it from the root. -/
abbrev Location := List (List Char)

/-- A tree of files.  The root and the working directory are not among its entries. -/
structure FileTree where
  /-- What is at each location, in the order of its making. -/
  entries : List (Location × FileNode) := []
  deriving DecidableEq, Repr, Inhabited

namespace FileTree

/-- The working directory.  Its name is empty, so no path has it for a step. -/
def home : Location := [[]]

def node? (t : FileTree) (location : Location) : Option FileNode :=
  if location = [] ∨ location = home then some .directory else t.entries.lookup location

/-- Removes what is at a location. -/
def erase (t : FileTree) (location : Location) : FileTree :=
  ⟨t.entries.filter (·.1 != location)⟩

/-- Puts something at a location, in place of what is there. -/
def set (t : FileTree) (location : Location) (node : FileNode) : FileTree :=
  ⟨(t.erase location).entries ++ [(location, node)]⟩

/-- The greatest number of bytes in a name. -/
def nameLimit : Nat := 255

/-- The greatest number of bytes in a path. -/
def pathLimit : Nat := 4095

/-- Follows the steps of a path from a directory. -/
def follow (t : FileTree) (start : Location) : List (List Char) → Except FileFault Location
  | [] => .ok start
  | part :: rest =>
    match t.node? start with
    | none => .error .notFound
    | some (.file _) => .error .notDirectory
    | some .directory =>
      if part = Path.dot then t.follow start rest
      else if part = Path.dotDot then t.follow start.dropLast rest
      else if nameLimit < (String.ofList part).utf8ByteSize then .error .nameTooLong
      else t.follow (start ++ [part]) rest

/-- The location that a path leads to; there may be nothing at it. -/
def locate (t : FileTree) (path : String) : Except FileFault Location :=
  if path.toList.any (·.toNat = 0) then .error .zeroCharacter
  else if path.isEmpty then .error .notFound
  else if pathLimit < path.utf8ByteSize then .error .nameTooLong
  else t.follow (if Path.isAbsolute path.toList then [] else home) (Path.steps path)

/-- Whether a path leads to a directory. -/
def isDirectory (t : FileTree) (path : String) : Bool :=
  match t.locate path with
  | .ok location => t.node? location == some .directory
  | .error _ => false

def readBytes (t : FileTree) (path : String) : Except FileFault (List UInt8) := do
  let location ← t.locate path
  match t.node? location with
  | none => .error .notFound
  | some .directory => .error .isDirectory
  | some (.file bytes) => if Path.endsInSlash path then .error .notDirectory else .ok bytes

def readText (t : FileTree) (path : String) : Except FileFault String := do
  match Text.decode? (← t.readBytes path) with
  | some text => .ok text
  | none => .error .invalidText

/-- Writes a file, in place of an old one. -/
def writeBytes (t : FileTree) (path : String) (bytes : List UInt8) : Except FileFault FileTree := do
  let location ← t.locate path
  if Path.endsInSlash path || t.node? location = some .directory then .error .isDirectory
  else .ok (t.set location (.file bytes))

/-- Makes a directory in a directory that exists. -/
def makeDirectory (t : FileTree) (path : String) : Except FileFault FileTree := do
  let location ← t.locate path
  match t.node? location with
  | some _ => .error .alreadyExists
  | none => .ok (t.set location .directory)

/-- Makes a directory and those above it; `fuel` bounds how many.  What has been made stays after a
fault. -/
def makeDirectoriesUpTo : (fuel : Nat) → (path : String) → FileTree → FileTree × Option FileFault
  | 0, _, t => (t, some .notFound)
  | fuel + 1, path, t =>
    if path.isEmpty then (t, none)
    else match t.makeDirectory path with
      | .ok t => (t, none)
      | .error .notFound =>
        match Path.parent? path with
        | none => (t, some .notFound)
        | some above =>
          match makeDirectoriesUpTo fuel above t with
          | (t, some cause) => (t, some cause)
          | (t, none) =>
            match t.makeDirectory path with
            | .ok t => (t, none)
            | .error cause => (t, if t.isDirectory path then none else some cause)
      | .error cause => (t, if t.isDirectory path then none else some cause)

/-- Makes a directory and those above it, as far as they do not exist.  A path has no more
components than characters. -/
def makeDirectories (t : FileTree) (path : String) : FileTree × Option FileFault :=
  makeDirectoriesUpTo (path.length + 1) path t

/-- Gives the file at a path another path, in place of a file there. -/
def renameFile (t : FileTree) (source target : String) : Except FileFault FileTree := do
  let old ← t.locate source
  let new ← t.locate target
  if !Path.endsInName target then .error .busy
  else match t.node? old with
  | none => .error .notFound
  | some .directory => .error .isDirectory
  | some (.file bytes) =>
    if Path.endsInSlash source || Path.endsInSlash target then .error .notDirectory
    else if t.node? new = some .directory then .error .isDirectory
    else .ok ((t.erase old).set new (.file bytes))

/-- Every file and directory of the working directory under its path from there: a file with its
text, a directory with a slash at its end and without text. -/
def listing (t : FileTree) : List (String × Option String) :=
  t.entries.filterMap fun (location, node) =>
    match location, node with
    | [] :: names, .directory => some (String.ofList (['/'].intercalate names ++ ['/']), none)
    | [] :: names, .file bytes =>
      some (String.ofList (['/'].intercalate names), some (Text.decodeLossy bytes))
    | _, _ => none

end FileTree

end ApiOutline
