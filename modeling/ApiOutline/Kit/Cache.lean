import ApiOutline.Fault
import ApiOutline.Kit.Basic
import ApiOutline.Model
import ApiOutline.Path

/-!
Where the kits of a project are, and a cache that reads each of them once.

A kit that does not exist counts as an empty one, and is remembered as such.  A kit that cannot be
read for another reason is not remembered: the next request reads again.
-/

namespace ApiOutline.Kit

/-- Where the kits of a project are. -/
structure Layout where
  /-- The dialect of the project. -/
  dialect : Dialect := .v4
  /-- The directory of the module; the first dialect always has the default one. -/
  module : String := "gopher"
  /-- The directory of the project. -/
  root : String := "."
  deriving DecidableEq, Repr, Inhabited

namespace Layout

def moduleDir (l : Layout) : String :=
  match l.dialect with
  | .v1 => "gopher"
  | .v4 => l.module

def kitPath (l : Layout) (group : String) : String :=
  [l.moduleDir, "app", "api", group, group ++ "_kit.go"].foldl Path.join l.root

def toValue (l : Layout) : Value :=
  .object [("dialect", .string l.dialect.name), ("module", .string l.module),
    ("root", .string l.root)]

end Layout

/-- What answers to a request for a file: the number of requests before it and the path give a text
or a fault.  So the same path may be answered differently from one request to the next. -/
abbrev Reader := Nat → String → Except FileFault String

/-- A reader of some files, each a path with its answer, of which the first with the components of
the path counts; any other path is not found. -/
def Reader.ofFiles (files : List (String × Except FileFault String)) : Reader := fun _ path =>
  match files.find? fun file => Path.components file.1 = Path.components path with
  | some (_, answer) => answer
  | none => .error .notFound

/-- The kits read so far. -/
structure Cache where
  /-- The kits, each under the components of its path. -/
  kits : List (Path.Components × Kit) := []
  /-- How many files have been asked for. -/
  reads : Nat := 0
  deriving DecidableEq, Inhabited

namespace Cache

/-- The kit at a path, if it has been read. -/
def find? (c : Cache) (path : String) : Option Kit := c.kits.lookup (Path.components path)

/-- Remembers the kit at a path. -/
def remember (c : Cache) (path : String) (kit : Kit) : Cache :=
  { c with kits := (Path.components path, kit) :: c.kits }

/-- The kit at a path, from memory or from the reader, and the cache afterwards. -/
def get (reader : Reader) (path : String) (c : Cache) : Except Fault Kit × Cache :=
  match c.find? path with
  | some kit => (.ok kit, c)
  | none =>
    let counted := { c with reads := c.reads + 1 }
    match reader c.reads path with
    | .ok text => (.ok (Kit.ofText text), counted.remember path (Kit.ofText text))
    | .error .notFound => (.ok {}, counted.remember path {})
    | .error cause => (.error (.read path cause), counted)

def size (c : Cache) : Nat := c.kits.length

/-- The responses that the handler of an endpoint declares in the kit of its group. -/
def declaredResponses (reader : Reader) (layout : Layout) (e : Endpoint) (c : Cache) :
    Except Fault (List Response) × Cache :=
  let (kit, c) := c.get reader (layout.kitPath e.group)
  (kit.map (·.responses e.handlerName), c)

/-- The endpoints of a group without a handler in the group's kit. -/
def missingHandlers (reader : Reader) (layout : Layout) (g : Group) (c : Cache) :
    Except Fault (List Endpoint) × Cache :=
  let (kit, c) := c.get reader (layout.kitPath g.name)
  (kit.map fun kit => g.endpoints.filter (!kit.defines ·.handlerName), c)

end Cache

end ApiOutline.Kit
