import ApiOutline.Fault
import ApiOutline.Field.Basic

/-!
The fields of a section while it is being read: those that are complete, and the chain of nested
fields that may still receive children.

Each open field is inside the next one of the chain.  A field is complete, and joins the field
around it or the complete ones, as soon as a line stands at its own depth or further left.
-/

namespace ApiOutline.Outline

/-- The depth of the outermost fields of a section. -/
def fieldDepth : Nat := 2

/-- A nested field that may still receive children. -/
structure Frame where
  /-- How deep the field stands. -/
  depth : Nat
  /-- The field, with the children it has so far. -/
  field : Field
  deriving DecidableEq, Repr

/-- The complete fields of a section, and the open ones, innermost first. -/
structure OpenFields where
  /-- The open fields, innermost first. -/
  frames : List Frame := []
  /-- The complete outermost fields. -/
  roots : List Field := []
  deriving DecidableEq, Repr

namespace OpenFields

/-- The outermost field, once `inner` and every frame around it are complete. -/
def enclose (inner : Field) : List Frame → Field
  | [] => inner
  | frame :: outer => enclose (frame.field.addChild inner) outer

/-- Completes all open fields. -/
def drain (s : OpenFields) : OpenFields :=
  match s.frames with
  | [] => s
  | frame :: outer => { frames := [], roots := s.roots ++ [enclose frame.field outer] }

/-- Completes the open fields at `depth` and deeper. -/
def unwind (depth : Nat) (roots : List Field) (frame : Frame) : List Frame → OpenFields
  | [] =>
    if depth ≤ frame.depth then ⟨[], roots ++ [frame.field]⟩ else ⟨[frame], roots⟩
  | parent :: outer =>
    if depth ≤ frame.depth then
      unwind depth roots { parent with field := parent.field.addChild frame.field } outer
    else ⟨frame :: parent :: outer, roots⟩

/-- Completes the open fields at `depth` and deeper. -/
def closeTo (depth : Nat) (s : OpenFields) : OpenFields :=
  match s.frames with
  | [] => s
  | frame :: outer => unwind depth s.roots frame outer

/-- The depth of the innermost open field. -/
def openDepth? (s : OpenFields) : Option Nat := s.frames.head?.map (·.depth)

/-- Adds a field at a depth.  An outermost field completes all that are open; a deeper one goes into
the open field one level above it, and it is a fault if there is none.  The open fields that the
field completes stay complete after the fault. -/
def place (depth : Nat) (field : Field) (raw : String) (s : OpenFields) :
    OpenFields × Option Fault :=
  if depth ≤ fieldDepth then
    let s := s.drain
    if field.isNested then ({ s with frames := [⟨fieldDepth, field⟩] }, none)
    else ({ s with roots := s.roots ++ [field] }, none)
  else
    let s := s.closeTo depth
    match s.frames with
    | [] => (s, some (.grammar field.line raw (.noOpenField (depth - 1))))
    | parent :: outer =>
      if parent.depth ≠ depth - 1 then
        (s, some (.grammar field.line raw (.noOpenField (depth - 1))))
      else if field.isNested then
        ({ s with frames := ⟨depth, field⟩ :: parent :: outer }, none)
      else
        ({ s with frames := { parent with field := parent.field.addChild field } :: outer }, none)

end OpenFields

end ApiOutline.Outline
