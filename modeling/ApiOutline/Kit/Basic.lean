import ApiOutline.Ident
import ApiOutline.Kit.Response
import ApiOutline.SortedMap
import ApiOutline.Text.Lines

/-!
Kits: the source files that hold the handlers of a group.

A kit is read line by line.  A handler opens at the left margin and closes at the next brace there;
the responses in between are those it declares.  A handler that is not closed declares nothing, and
a later handler of the same name takes the place of an earlier one.
-/

namespace ApiOutline

/-- What is known of a kit. -/
structure Kit where
  /-- The names of the functions, in the order of the source. -/
  functions : List String := []
  /-- The responses of each closed handler. -/
  handlers : SortedMap (List Kit.Response) := .empty
  deriving DecidableEq, Inhabited

namespace Kit

/-- The name of the function that a line defines at the left margin; a method has none. -/
def functionName? (line : List Char) : Option (List Char) := do
  let rest ← "func ".toList.isPrefixOf? line
  let name := Text.trim (← Text.before? ['('] (Text.trimStart rest))
  if Ident.isIdent name then some name else none

/-- Whether a line opens a handler. -/
def isOpener (line : List Char) : Bool :=
  "func".toList.isPrefixOf line && Text.occurs "Api(req".toList line

/-- Whether a line closes a handler. -/
def isCloser (line : List Char) : Bool := ['\x7d'].isPrefixOf line

/-- What has been read: the closed handlers, and the open one with its responses so far. -/
structure Scan where
  /-- The closed handlers. -/
  closed : SortedMap (List Response) := .empty
  /-- The open handler. -/
  current : Option (String × List Response) := none
  deriving DecidableEq

/-- Reads one line. -/
def Scan.step (s : Scan) (line : List Char) : Scan :=
  if isOpener line then
    match functionName? line with
    | some name => { s with current := some (String.ofList name, []) }
    | none => s
  else if isCloser line then
    match s.current with
    | some (name, responses) => { closed := s.closed.insert name responses, current := none }
    | none => s
  else
    match s.current, response? (Text.trim line) with
    | some (name, responses), some response =>
      { s with current := some (name, responses ++ [response]) }
    | _, _ => s

/-- Reads the lines of a kit. -/
def ofLines (lines : List String) : Kit where
  functions := lines.filterMap fun line => (functionName? line.toList).map String.ofList
  handlers := (lines.foldl (fun s line => s.step line.toList) ({} : Scan)).closed

def ofText (text : String) : Kit := ofLines (Text.lines text)

def defines (k : Kit) (name : String) : Bool := k.functions.contains name

/-- The names of the functions, in order and each once. -/
def functionNames (k : Kit) : List String :=
  (SortedMap.ofList (k.functions.map (·, ()))).keys

/-- The responses that a handler declares; none for an unknown handler. -/
def responses (k : Kit) (handler : String) : List Response := (k.handlers.get? handler).getD []

def isEmpty (k : Kit) : Bool := k.functions.isEmpty

end Kit

end ApiOutline
