import ApiOutline.FileTree.Basic
import ApiOutline.Kit.Cache
import ApiOutline.Outline.Compile

/-!
The files of a project: outlines and kits that are read, and documents that are written.

A generated file is first written beside its place and then renamed, so that the old file stays
whole until the new one is.
-/

namespace ApiOutline.FileTree

def readLines (t : FileTree) (path : String) : Except Fault (List String) :=
  match t.readText path with
  | .ok text => .ok (Text.lines text)
  | .error cause => .error (.read path cause)

def compileFile (t : FileTree) (o : Options) (path : String) : Except Fault Model := do
  Outline.compileLines o (← t.readLines path)

/-- The names of the functions that a source file defines; a file that does not exist defines
none. -/
def functionNames (t : FileTree) (path : String) : Except Fault (List String) :=
  match t.readText path with
  | .ok text => .ok (Kit.ofText text).functionNames
  | .error .notFound => .ok []
  | .error cause => .error (.read path cause)

/-- The reader of kits that a tree is. -/
def reader (t : FileTree) : Kit.Reader := fun _ path => t.readText path

/-- Where a generated file is written before it is renamed. -/
def stagingPath (path : String) : String := Path.withExtension path "tmp"

/-- Makes the directory of a file. -/
def makeParent (t : FileTree) (path : String) : FileTree × Option Fault :=
  match Path.parent? path with
  | none => (t, none)
  | some above =>
    match t.makeDirectories above with
    | (t, cause) => (t, cause.map (.write above))

/-- Writes a generated file, and makes its directory if needed. -/
def writeGenerated (t : FileTree) (path content : String) : FileTree × Option Fault :=
  match t.makeParent path with
  | (t, some fault) => (t, some fault)
  | (t, none) =>
    let staging := stagingPath path
    match t.writeBytes staging (Text.encode content) with
    | .error cause => (t, some (.write staging cause))
    | .ok t =>
      match t.renameFile staging path with
      | .error cause => (t, some (.write path cause))
      | .ok t => (t, none)

end ApiOutline.FileTree
