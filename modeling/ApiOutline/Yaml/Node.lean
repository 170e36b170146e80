import ApiOutline.Yaml.Token.Lexer

/-!
The nodes of a YAML document, read from its tokens.

A node may be given a name by an anchor, and an alias stands for the node of that name.  Names are
numbered by how many are known when a name is given, so a name that is given once more takes a
number that the next new name takes as well.  An alias keeps the number, and stands for the last
node that has it.
-/

namespace ApiOutline.Yaml

/-- A node. -/
inductive Node where
  /-- A scalar. -/
  | scalar (tag : Option Tag) (style : Style) (text : List Char)
  /-- A list of nodes. -/
  | sequence (items : List Node)
  /-- Keys with their values. -/
  | mapping (entries : List (Node × Node))
  /-- The node that a number stands for. -/
  | alias (number : Nat)
  /-- A node with a number. -/
  | anchored (number : Nat) (node : Node)
  deriving Repr, Inhabited

/-- The node where nothing is written. -/
def Node.nothing : Node := .scalar none .plain []

/-! ## Anchors -/

mutual

/-- The nodes inside a node that have numbers, itself among them, in the order of the text. -/
def Node.numbered : Node → List (Nat × Node)
  | .scalar _ _ _ | .alias _ => []
  | .sequence items => Node.numberedInItems items
  | .mapping entries => Node.numberedInEntries entries
  | .anchored number node => (number, node) :: Node.numbered node

/-- The nodes inside the items of a sequence that have numbers. -/
def Node.numberedInItems : List Node → List (Nat × Node)
  | [] => []
  | item :: rest => Node.numbered item ++ Node.numberedInItems rest

/-- The nodes inside the entries of a mapping that have numbers. -/
def Node.numberedInEntries : List (Node × Node) → List (Nat × Node)
  | [] => []
  | (key, value) :: rest =>
    Node.numbered key ++ Node.numbered value ++ Node.numberedInEntries rest

end

/-- The node that a node of a document stands for. -/
def Node.resolve (root : Node) : Node → Node
  | .alias number => (root.numbered.reverse.lookup number).getD .nothing
  | .anchored _ node => node
  | node => node

/-! ## Reading -/

/-- The tokens still to be read, and the names that are known with their numbers. -/
structure Reading where
  /-- The tokens. -/
  tokens : List Token
  /-- The names. -/
  names : List (List Char × Nat) := []

/-- Goes on with other tokens. -/
def Reading.to (r : Reading) (tokens : List Token) : Reading := { r with tokens }

/-- Whether the next token is one of some. -/
def Reading.isAt (r : Reading) (tokens : List Token) : Bool := r.tokens.head?.any tokens.contains

/-- Gives a name to a node, and the number that the node gets. -/
def Reading.name (r : Reading) (name : List Char) : Nat × Reading :=
  (r.names.length, { r with names := (name, r.names.length) :: r.names.filter (·.1 != name) })

/-- What stands before the content of a node. -/
structure Properties where
  /-- The name that the node is given. -/
  anchor : Option (List Char) := none
  /-- The handle and the suffix of its tag. -/
  tag : Option (List Char × Tag) := none

/-- Reads the properties of a node: an anchor and a tag, in either order. -/
def properties : List Token → Properties × List Token
  | .anchor name :: .tag handle suffix :: rest => (⟨some name, some (handle, suffix)⟩, rest)
  | .tag handle suffix :: .anchor name :: rest => (⟨some name, some (handle, suffix)⟩, rest)
  | .anchor name :: rest => (⟨some name, none⟩, rest)
  | .tag handle suffix :: rest => (⟨none, some (handle, suffix)⟩, rest)
  | rest => (⟨none, none⟩, rest)

/-- What the handles of a document stand for. -/
abbrev Handles := List (List Char × Tag)

/-- The whole of a tag; a handle that stands for nothing is an error. -/
def wholeTag? (handles : Handles) : Option (List Char × Tag) → Option (Option Tag)
  | none => some none
  | some ([], suffix) => some (some suffix)
  | some (handle, suffix) => (handles.lookup handle).map fun start => some (start ++ suffix)

/-- Gives a node the name in its properties, if there is one. -/
def Reading.anchor (r : Reading) : Option (List Char) → Option Nat × Reading
  | none => (none, r)
  | some name =>
    let (number, r) := r.name name
    (some number, r)

/-- A node with the number of its name. -/
def Node.withNumber (node : Node) : Option Nat → Node
  | none => node
  | some number => .anchored number node

mutual

/-- Reads a node.  Collections that the layout makes are read where `block` allows it, and `dashes`
tells whether a sequence may begin with a dash at the column of the mapping around it. -/
def node? (handles : Handles) : (fuel : Nat) → (block dashes : Bool) → Reading →
    Option (Node × Reading)
  | 0, _, _, _ => none
  | fuel + 1, block, dashes, r =>
    match r.tokens with
    | .alias name :: rest => do some (.alias (← r.names.lookup name), r.to rest)
    | tokens => do
      let (props, tokens) := properties tokens
      let tag ← wholeTag? handles props.tag
      let (number, r) := (r.to tokens).anchor props.anchor
      let (node, r) ← content? handles fuel block dashes tag (number.isSome || tag.isSome) r
      some (node.withNumber number, r)

/-- Reads the content of a node, which may be missing after properties. -/
def content? (handles : Handles) : (fuel : Nat) → (block dashes : Bool) → Option Tag →
    (mayMiss : Bool) → Reading → Option (Node × Reading)
  | 0, _, _, _, _, _ => none
  | fuel + 1, block, dashes, tag, mayMiss, r =>
    match r.tokens, block, dashes with
    | .blockEntry :: _, _, true => do
      let (items, r) ← dashItems? handles fuel r
      some (.sequence items, r)
    | .scalar style text :: rest, _, _ => some (.scalar tag style text, r.to rest)
    | .flowSequenceStart :: rest, _, _ => do
      let (items, r) ← flowItems? handles fuel true (r.to rest)
      some (.sequence items, r)
    | .flowMappingStart :: rest, _, _ => do
      let (entries, r) ← flowEntries? handles fuel true (r.to rest)
      some (.mapping entries, r)
    | .blockSequenceStart :: rest, true, _ => do
      let (items, r) ← blockItems? handles fuel (r.to rest)
      some (.sequence items, r)
    | .blockMappingStart :: rest, true, _ => do
      let (entries, r) ← blockEntries? handles fuel (r.to rest)
      some (.mapping entries, r)
    | _, _, _ => if mayMiss then some (.scalar tag .plain [], r) else none

/-- Reads a node, or nothing before certain tokens. -/
def nodeBefore? (handles : Handles) : (fuel : Nat) → (block dashes : Bool) →
    (stops : List Token) → Reading → Option (Node × Reading)
  | 0, _, _, _, _ => none
  | fuel + 1, block, dashes, stops, r =>
    if r.isAt stops then some (.nothing, r) else node? handles fuel block dashes r

/-- Reads the value after a key, or nothing where there is no colon. -/
def valueBefore? (handles : Handles) : (fuel : Nat) → (block : Bool) → (stops : List Token) →
    Reading → Option (Node × Reading)
  | 0, _, _, _ => none
  | fuel + 1, block, stops, r =>
    match r.tokens with
    | .value :: rest => nodeBefore? handles fuel block block stops (r.to rest)
    | _ => some (.nothing, r)

/-- Reads the items of a sequence up to its end. -/
def blockItems? (handles : Handles) : (fuel : Nat) → Reading → Option (List Node × Reading)
  | 0, _ => none
  | fuel + 1, r =>
    match r.tokens with
    | .blockEnd :: rest => some ([], r.to rest)
    | .blockEntry :: rest => do
      let (item, r) ←
        nodeBefore? handles fuel true false [.blockEntry, .blockEnd] (r.to rest)
      let (items, r) ← blockItems? handles fuel r
      some (item :: items, r)
    | _ => none

/-- Reads the items of a sequence that ends where no dash follows. -/
def dashItems? (handles : Handles) : (fuel : Nat) → Reading → Option (List Node × Reading)
  | 0, _ => none
  | fuel + 1, r =>
    match r.tokens with
    | .blockEntry :: rest => do
      let (item, r) ← nodeBefore? handles fuel true false
        [.blockEntry, .key, .value, .blockEnd] (r.to rest)
      let (items, r) ← dashItems? handles fuel r
      some (item :: items, r)
    | _ => some ([], r)

/-- Reads the entries of a mapping up to its end. -/
def blockEntries? (handles : Handles) : (fuel : Nat) → Reading →
    Option (List (Node × Node) × Reading)
  | 0, _ => none
  | fuel + 1, r =>
    match r.tokens with
    | .blockEnd :: rest => some ([], r.to rest)
    | .key :: rest => do
      let (key, r) ← nodeBefore? handles fuel true true [.key, .value, .blockEnd] (r.to rest)
      let (value, r) ← valueBefore? handles fuel true [.key, .value, .blockEnd] r
      let (entries, r) ← blockEntries? handles fuel r
      some ((key, value) :: entries, r)
    | _ => none

/-- Reads the items between square brackets.  A key among them begins a mapping of one entry; where
that key is missing, the token after its mark is passed over. -/
def flowItems? (handles : Handles) : (fuel : Nat) → (isFirst : Bool) → Reading →
    Option (List Node × Reading)
  | 0, _, _ => none
  | fuel + 1, isFirst, r =>
    match isFirst, r.tokens with
    | _, .flowSequenceEnd :: rest | false, .flowEntry :: .flowSequenceEnd :: rest =>
      some ([], r.to rest)
    | true, tokens | false, .flowEntry :: tokens => do
      let (item, r) ← match tokens with
        | .key :: rest => do
          let stops := [.flowEntry, .flowSequenceEnd]
          let (key, r) ←
            if (r.to rest).isAt (.value :: stops) then some (.nothing, r.to (rest.drop 1))
            else node? handles fuel false false (r.to rest)
          let (value, r) ← valueBefore? handles fuel false stops r
          some (.mapping [(key, value)], r)
        | tokens => node? handles fuel false false (r.to tokens)
      let (items, r) ← flowItems? handles fuel false r
      some (item :: items, r)
    | false, _ => none

/-- Reads the entries between curly brackets.  A node without a mark before it is a key without a
value. -/
def flowEntries? (handles : Handles) : (fuel : Nat) → (isFirst : Bool) → Reading →
    Option (List (Node × Node) × Reading)
  | 0, _, _ => none
  | fuel + 1, isFirst, r =>
    match isFirst, r.tokens with
    | _, .flowMappingEnd :: rest | false, .flowEntry :: .flowMappingEnd :: rest =>
      some ([], r.to rest)
    | true, tokens | false, .flowEntry :: tokens => do
      let (entry, r) ← match tokens with
        | .key :: rest => do
          let stops := [.flowEntry, .flowMappingEnd]
          let (key, r) ← nodeBefore? handles fuel false false (.value :: stops) (r.to rest)
          let (value, r) ← valueBefore? handles fuel false stops r
          some ((key, value), r)
        | tokens => do
          let (key, r) ← node? handles fuel false false (r.to tokens)
          some ((key, .nothing), r)
      let (entries, r) ← flowEntries? handles fuel false r
      some (entry :: entries, r)
    | false, _ => none

end

/-! ## Documents -/

/-- The handles that are known everywhere. -/
def standardHandles : Handles :=
  [(['!'], bytesOf ['!']), (['!', '!'], bytesOf "tag:yaml.org,2002:".toList)]

/-- Reads the directives before a document: what handles stand for, and the tokens after them.  No
directive may be repeated, and only two versions are known. -/
def directives? (hasVersion : Bool) (handles : Handles) : List Token →
    Option (Handles × List Token)
  | .versionDirective major minor :: rest =>
    if !hasVersion && major == 1 && (minor == 1 || minor == 2) then directives? true handles rest
    else none
  | .tagDirective handle start :: rest =>
    if (handles.lookup handle).isSome then none
    else directives? hasVersion ((handle, start) :: handles) rest
  | rest => some (handles, rest)

/-- Whether a token cannot be in a document. -/
def isOutside : Token → Bool
  | .versionDirective _ _ | .tagDirective _ _ | .documentStart | .documentEnd | .streamEnd => true
  | _ => false

/-- The root of a document, from its tokens and what handles stand for, and the tokens after it. -/
def rootNode? (handles : Handles) (tokens : List Token) : Option (Node × List Token) := do
  let (root, r) ← node? (handles ++ standardHandles) (4 * tokens.length + 4) true false { tokens }
  some (root, r.tokens)

/-- The root of the first document, and the tokens after it.  Directives and an empty document need
a mark at the start. -/
def firstDocument? (tokens : List Token) : Option (Node × List Token) := do
  match ← directives? false [] tokens with
  | (handles, .documentStart :: rest) =>
    if rest.head?.any isOutside then some (.nothing, rest) else rootNode? handles rest
  | (_, rest) => if rest.length = tokens.length then rootNode? [] tokens else none

/-- The root of the only document of a text, or `none` inside where there is no document.  More than
one document is an error. -/
def root? (text : String) : Option (Option Node) := do
  let tokens ← tokens? text
  if tokens = [.streamEnd] then some none
  else
    let (root, rest) ← firstDocument? tokens
    if rest.dropWhile (· == .documentEnd) = [.streamEnd] then some (some root) else none

end ApiOutline.Yaml
