/-!
The tokens of a YAML text: its marks of structure, the scalars between them, and the marks that the
layout implies.
-/

namespace ApiOutline.Yaml

/-- How a scalar is written. -/
inductive Style where
  | plain
  | singleQuoted
  | doubleQuoted
  | literal
  | folded
  deriving DecidableEq, Repr

/-- A tag of a node.  It is a row of bytes, since it may be written byte by byte and need not be a
text then. -/
abbrev Tag := List UInt8

/-- A token. -/
inductive Token where
  /-- A directive with the version of the language. -/
  | versionDirective (major minor : Nat)
  /-- A directive that lets a handle stand for the start of tags. -/
  | tagDirective (handle : List Char) (start : Tag)
  /-- The mark at the start of a document. -/
  | documentStart
  /-- The mark at the end of a document. -/
  | documentEnd
  /-- The place where the layout begins a sequence. -/
  | blockSequenceStart
  /-- The place where the layout begins a mapping. -/
  | blockMappingStart
  /-- The place where the layout ends a sequence or a mapping. -/
  | blockEnd
  /-- An opening square bracket. -/
  | flowSequenceStart
  /-- A closing square bracket. -/
  | flowSequenceEnd
  /-- An opening curly bracket. -/
  | flowMappingStart
  /-- A closing curly bracket. -/
  | flowMappingEnd
  /-- The dash before an item. -/
  | blockEntry
  /-- The comma between items. -/
  | flowEntry
  /-- The place where a key begins, with a question mark or without. -/
  | key
  /-- The colon before a value. -/
  | value
  /-- A name that stands for a node. -/
  | alias (name : List Char)
  /-- A name that is given to a node. -/
  | anchor (name : List Char)
  /-- A tag, with a handle for its start.  An empty handle stands for nothing. -/
  | tag (handle : List Char) (suffix : Tag)
  /-- A scalar. -/
  | scalar (style : Style) (text : List Char)
  /-- The end of the text. -/
  | streamEnd
  deriving DecidableEq, Repr

end ApiOutline.Yaml
