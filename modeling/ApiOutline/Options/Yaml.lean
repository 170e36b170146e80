import ApiOutline.Fault
import ApiOutline.Text.Utf8
import ApiOutline.Value.Basic
import ApiOutline.Yaml.Node

/-!
Options from a YAML text: a mapping with the keys `dialect` and `tab_width`, each of which may be
left out.  Other keys are passed over.
-/

namespace ApiOutline.Options

def toValue (o : Options) : Value :=
  .object [("dialect", .string o.dialect.name), ("tab_width", .ofNat o.tabWidth)]

/-- The choice that a tag names, which is what follows its exclamation mark; the mark alone is a
choice as well.  Tags without the mark, and those that are no text, name none. -/
def choiceOf? : Yaml.Tag → Option String
  | 0x21 :: rest => Text.decode? (if rest.isEmpty then [0x21] else rest)
  | _ => none

/-- The dialect that a node names, by its text, or by its tag if it has no text. -/
def dialectOf? : Yaml.Node → Option Dialect
  | .scalar tag style text =>
    match tag.bind choiceOf? with
    | none => Dialect.ofName? (String.ofList text)
    | some choice =>
      if style = .plain ∧ Yaml.isNull text then Dialect.ofName? choice else none
  | _ => none

def integerTag : Yaml.Tag := Yaml.bytesOf "tag:yaml.org,2002:int".toList

/-- The width that a node gives: a number of sixty-four bits that is plain, or literal and tagged as
an integer. -/
def tabWidthOf? : Yaml.Node → Option Nat
  | .scalar tag style text =>
    if style = .plain ∨ (style = .literal ∧ tag = some integerTag) then
      Yaml.natural? (Nat.pow 2 64) text
    else none
  | _ => none

/-- The values of a key, in order. -/
def valuesOf (key : String) (entries : List (Yaml.Node × Yaml.Node)) : List Yaml.Node :=
  entries.filterMap fun (k, value) =>
    match k with
    | .scalar _ _ text => if text = key.toList then some value else none
    | _ => none

/-- The value of a key that stands at most once, or a default. -/
def valueOf? {α : Type} (key : String) (read : Yaml.Node → Option α) (fallback : α)
    (entries : List (Yaml.Node × Yaml.Node)) : Option α :=
  match valuesOf key entries with
  | [] => some fallback
  | [value] => read value
  | _ => none

def isScalar : Yaml.Node → Bool
  | .scalar _ _ _ => true
  | _ => false

/-- The options that the root of a document gives.  No document, and an empty one, leave everything
out. -/
def ofRoot? : Option Yaml.Node → Option Options
  | none => some {}
  | some root =>
    match root.resolve root with
    | .scalar _ .plain [] => some {}
    | .mapping entries =>
      let entries := entries.map fun (key, value) => (root.resolve key, root.resolve value)
      if entries.all (isScalar ·.1) then do
        let dialect ← valueOf? "dialect" dialectOf? .v4 entries
        let tabWidth ← valueOf? "tab_width" tabWidthOf? 4 entries
        some { dialect, tabWidth }
      else none
    | _ => none

/-- The options that a text gives.  A width of zero is refused. -/
def ofYaml (text : String) : Except Fault Options :=
  match (Yaml.root? text).bind ofRoot? with
  | none => .error (.options .malformed)
  | some o => if o.tabWidth = 0 then .error (.options .zeroTabWidth) else .ok o

end ApiOutline.Options
