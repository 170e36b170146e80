import ApiOutline.Text.Split

/-!
Paths of files, as text with slashes.

Two paths are the same when they have the same components: slashes that follow each other or end a
path, and dots in its middle, do not count.  A dot at the start of a relative path does.
-/

namespace ApiOutline.Path

/-- The components of a path, and whether it starts at the root. -/
structure Components where
  /-- Whether the path starts at the root. -/
  isAbsolute : Bool
  /-- The components, from left to right. -/
  parts : List (List Char)
  deriving DecidableEq, Repr, Inhabited

/-- The component that stands for the directory itself. -/
def dot : List Char := ['.']

/-- The component that stands for the directory above. -/
def dotDot : List Char := ['.', '.']

/-- Whether a path starts at the root. -/
def isAbsolute (path : List Char) : Bool := ['/'].isPrefixOf path

/-- Those stretches between slashes that are components anywhere in a path. -/
def innerParts (pieces : List (List Char)) : List (List Char) :=
  pieces.filter fun piece => !piece.isEmpty && piece != dot

def components (path : String) : Components :=
  let isAbsolute := isAbsolute path.toList
  match path.toList.splitOn '/' with
  | [] => ⟨isAbsolute, []⟩
  | first :: rest =>
    if first = dot then ⟨isAbsolute, first :: innerParts rest⟩
    else ⟨isAbsolute, innerParts (first :: rest)⟩

/-- The steps of a path, from left to right; a dot is one as well. -/
def steps (path : String) : List (List Char) :=
  (path.toList.splitOn '/').filter (!·.isEmpty)

/-- Whether a path ends in the name of something, and not in a dot or two. -/
def endsInName (path : String) : Bool :=
  match (steps path).getLast? with
  | none => false
  | some last => last != dot && last != dotDot

/-- A path followed by another: an absolute one takes its place. -/
def join (path other : String) : String :=
  if isAbsolute other.toList then other
  else if path.isEmpty || ['/'].isSuffixOf path.toList then path ++ other
  else path ++ "/" ++ other

/-- The stretches between the slashes of a path, each with whether it is a component. -/
def stretches (path : List Char) : List (List Char × Bool) :=
  match path.splitOn '/' with
  | [] => []
  | first :: rest =>
    (first, !first.isEmpty) :: rest.map fun piece => (piece, !piece.isEmpty && piece != dot)

/-- The stretches of a path up to its last component, from right to left. -/
def toLastComponent (path : List Char) : List (List Char × Bool) :=
  (stretches path).reverse.dropWhile (!·.2)

/-- The path up to a stretch, given from right to left. -/
def ofReversed (reversed : List (List Char × Bool)) : List Char :=
  ['/'].intercalate (reversed.reverse.map (·.1))

/-- The path without its last component; a path without components has none. -/
def parent? (path : String) : Option String :=
  match toLastComponent path.toList with
  | [] => none
  | _ :: before =>
    match before.dropWhile (!·.2) with
    | [] => some (if isAbsolute path.toList then "/" else "")
    | kept => some (String.ofList (ofReversed kept))

/-- The name of a file without its extension.  The extension starts at the last dot of the name,
unless that is its first character. -/
def stem (name : List Char) : List Char :=
  match Text.beforeLast? '.' name with
  | none | some [] => name
  | some before => before

/-- The path with another extension of its last component; a path whose last component is no name
stays as it is.  The old extension is taken away up to its dot before the new one is added.  So a
name that is two dots and an extension, with nothing after it, turns into the two dots, and to these
nothing is added. -/
def withExtension (path extension : String) : String :=
  let reversed := toLastComponent path.toList
  match reversed with
  | [] => path
  | (name, _) :: before =>
    if name = dot ∨ name = dotDot then path
    else if stem name = dot ∧ reversed.length = (stretches path.toList).length then
      String.ofList (ofReversed ((dotDot, true) :: before))
    else String.ofList (ofReversed ((stem name ++ '.' :: extension.toList, true) :: before))

def endsInSlash (path : String) : Bool := ['/'].isSuffixOf path.toList

end ApiOutline.Path
