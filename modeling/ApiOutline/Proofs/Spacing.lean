import ApiOutline.Proofs.Renumber
import ApiOutline.Proofs.Settings
import Mathlib.Order.Monotone.Basic

/-!
Blank lines, and blanks at the end of a line.

A document says the same with blank lines anywhere between its lines and with blanks after any of
them.  All that changes is the number of each line, and with it the numbers that a model and a fault
remember.  Carriage returns before the line feeds of a text are such blanks.
-/

namespace ApiOutline

namespace Outline

/-- A line of a document, with blank lines put above it and blanks after it. -/
structure SpacedLine where
  above : List String := []
  text : String
  after : String := ""
  above_blank : ∀ raw ∈ above, IsBlankLine raw
  after_blank : IsBlankLine after

/-- The lines of a document, with blank lines put around them and blanks after them. -/
structure Spacing where
  lines : List SpacedLine
  below : List String := []
  below_blank : ∀ raw ∈ below, IsBlankLine raw

/-- The lines that a spaced line is written on. -/
def SpacedLine.written (l : SpacedLine) : List String := l.above ++ [l.text ++ l.after]

namespace Spacing

/-- The document without what was put between its lines and after them. -/
def plain (s : Spacing) : List String := s.lines.map (·.text)

/-- The document with what was put between its lines and after them. -/
def spaced (s : Spacing) : List String := s.lines.flatMap SpacedLine.written ++ s.below

/-- The number that a line of the document has afterwards. -/
def newLine (s : Spacing) (line : Nat) : Nat :=
  line + ((s.lines.take line).flatMap (·.above)).length

end Spacing

/-- Two outcomes that are the same up to the numbers of lines and the text that a fault repeats. -/
inductive Moved {α : Type} (f : Nat → Nat) (move : α → α) :
    Except Fault α → Except Fault α → Prop where
  | ok (a : α) : Moved f move (.ok a) (.ok (move a))
  | error (fault : Fault) (raw : String) :
      Moved f move (.error fault) (.error (fault.renumber f raw))

/-- Outcomes that are moved stay so when their results are changed in a way that commutes with
moving. -/
theorem Moved.map {α β : Type} {f : Nat → Nat} {move : α → α} {move' : β → β} {g : α → β}
    {x y : Except Fault α} (commutes : ∀ a, g (move a) = move' (g a)) (moved : Moved f move x y) :
    Moved f move' (x.map g) (y.map g) := by
  cases moved with
  | ok a =>
    simp only [Except.map, commutes]
    exact .ok (g a)
  | error fault raw => exact .error fault raw

/-- Outcomes are moved if their first parts are, and whatever follows them. -/
theorem Moved.bind {α β : Type} {f : Nat → Nat} {move : α → α} {move' : β → β}
    {next next' : α → Except Fault β} {x y : Except Fault α} (moved : Moved f move x y)
    (onward : ∀ a, Moved f move' (next a) (next' (move a))) :
    Moved f move' (x.bind next) (y.bind next') := by
  cases moved with
  | ok a => exact onward a
  | error fault raw => exact .error fault raw

/-! ## Readings -/

namespace Progress

variable {o : Options} {f : Nat → Nat} {p : Progress} {line : Nat} {raw : String}

/-- A reading with other line numbers. -/
def renumber (f : Nat → Nat) (p : Progress) : Progress := p.recast f p.model.settings

private theorem finish_renumber (p : Progress) : (p.renumber f).finish = p.finish.renumber f := by
  rw [renumber, finish_recast, ← finish_settings]
  rfl

/-- A line that declares something leaves the settings as they are. -/
theorem takeStructural_settings {q : Progress}
    (kind : classify o.dialect raw.toList = .structural)
    (taken : p.takeStructural o line raw = .ok q) : q.model.settings = p.model.settings := by
  rw [← take_structural_line kind] at taken
  rcases (step_of_take taken).settings with ⟨key, found, -⟩ | ⟨-, same⟩
  · simp [directives, kind] at found
  · exact same

/-- A line does the same under another number and with blanks after it. -/
theorem take_renumber {after : String} (blank : IsBlankLine after) (p : Progress) :
    Moved f (renumber f) (p.take o line raw) ((p.renumber f).take o (f line) (raw ++ after)) := by
  have kinds : classify o.dialect (raw ++ after).toList = classify o.dialect raw.toList := by
    rw [String.toList_append, classify_append_blank blank]
  cases kind : classify o.dialect raw.toList with
  | blank =>
    simp only [take, kinds, kind]
    exact .ok p
  | directive key =>
    have same : applyDirective key (raw ++ after).toList = applyDirective key raw.toList := by
      rw [String.toList_append, applyDirective_append_blank blank]
    have settings : (p.renumber f).model.settings = p.model.settings := rfl
    simp only [take, kinds, kind, same, settings]
    rcases applyDirective key raw.toList p.model.settings with ⟨settings, _ | cause⟩
    · exact .ok _
    · exact .error (.grammar line raw cause) (raw ++ after)
  | structural =>
    have filled := filled_of_structural kind
    have trimmed : Text.trim (raw ++ after).toList = Text.trim raw.toList := by
      rw [String.toList_append, Text.trim_append_blank blank]
    have width : Text.indentWidth (raw ++ after).toList = Text.indentWidth raw.toList := by
      rw [String.toList_append, Text.indentWidth_append_blank filled]
    rw [take_structural_line kind, take_structural_line (kinds.trans kind), renumber,
      takeStructural_recast f p.model.settings p trimmed width]
    cases taken : p.takeStructural o line raw with
    | error fault => exact .error fault (raw ++ after)
    | ok q =>
      rw [← takeStructural_settings kind taken]
      exact .ok q

private theorem takeAll_blank {blanks : List String} (blank : ∀ raw ∈ blanks, IsBlankLine raw)
    (rest : List String) (p : Progress) :
    takeAll o line (blanks ++ rest) p = takeAll o (line + blanks.length) rest p := by
  induction blanks generalizing line with
  | nil => rfl
  | cons raw blanks ih =>
    obtain ⟨first, others⟩ := List.forall_mem_cons.1 blank
    rw [List.cons_append, takeAll_cons, take_blank_line first, List.length_cons,
      Nat.add_comm blanks.length, ← Nat.add_assoc]
    exact ih others

end Progress

/-- Whether `f` gives the new numbers of spaced lines, of which the first had the number `line`, if
what is above it starts at `start`. -/
def Numbers (f : Nat → Nat) : Nat → Nat → List SpacedLine → Prop
  | _, _, [] => True
  | line, start, l :: lines =>
    f line = start + l.above.length ∧ Numbers f (line + 1) (f line + 1) lines

section Document

variable {o : Options} {f : Nat → Nat} {line start : Nat} {lines : List SpacedLine}
  {below : List String}

private theorem written_cons (l : SpacedLine) (lines : List SpacedLine) (below : List String) :
    (l :: lines).flatMap SpacedLine.written ++ below =
      l.above ++ (l.text ++ l.after) :: (lines.flatMap SpacedLine.written ++ below) := by
  simp [SpacedLine.written]

/-- Lines are taken alike with blank lines between them, but for the numbers of the lines. -/
theorem Progress.takeAll_spaced (numbers : Numbers f line start lines)
    (blank : ∀ raw ∈ below, IsBlankLine raw) (p : Progress) :
    Moved f (renumber f) (takeAll o line (lines.map (·.text)) p)
      (takeAll o start (lines.flatMap SpacedLine.written ++ below) (p.renumber f)) := by
  induction lines generalizing line start p with
  | nil =>
    rw [List.flatMap_nil, List.nil_append, ← List.append_nil below, takeAll_blank blank]
    exact .ok p
  | cons l lines ih =>
    obtain ⟨moved, numbers⟩ := numbers
    rw [written_cons, takeAll_blank l.above_blank, ← moved, List.map_cons, takeAll_cons,
      takeAll_cons]
    exact (take_renumber l.after_blank p).bind fun q => ih numbers q

/-- The root may stand on any of the lines, so this is an induction of its own. -/
theorem compileFrom_spaced (origin : f 0 = 0) (numbers : Numbers f line start lines)
    (blank : ∀ raw ∈ below, IsBlankLine raw) :
    Moved f (Model.renumber f) (compileFrom o line (lines.map (·.text)))
      (compileFrom o start (lines.flatMap SpacedLine.written ++ below)) := by
  induction lines generalizing line start with
  | nil =>
    rw [List.flatMap_nil, List.nil_append, ← List.append_nil below, compileFrom_blanks blank]
    have moved : Moved f (Model.renumber f) (.error (.root 0 "" .emptyDocument))
        (.error (.root (f 0) "" .emptyDocument)) := .error _ ""
    rw [origin] at moved
    exact moved
  | cons l lines ih =>
    obtain ⟨moved, numbers⟩ := numbers
    have empty : Text.isBlankText (l.text ++ l.after).toList = Text.isBlankText l.text.toList := by
      rw [String.toList_append, Text.isBlankText_append_blank l.after_blank]
    have root : parseRoot (l.text ++ l.after).toList = parseRoot l.text.toList := by
      rw [String.toList_append]
      exact parseRoot_congr (statement_append_blank l.after_blank _)
    rw [written_cons, compileFrom_blanks l.above_blank, ← moved, List.map_cons, compileFrom,
      compileFrom, empty, root]
    split
    · exact ih numbers
    · cases parseRoot l.text.toList with
      | error cause => exact .error (.root line l.text cause) _
      | ok parts =>
        exact (Progress.takeAll_spaced numbers blank _).map Progress.finish_renumber

end Document

/-! ## Line numbers -/

namespace Spacing

variable (s : Spacing)

private theorem length_written (lines : List SpacedLine) :
    (lines.flatMap SpacedLine.written).length =
      lines.length + (lines.flatMap (·.above)).length := by
  induction lines with
  | nil => rfl
  | cons l lines ih =>
    simp only [List.flatMap_cons, List.length_append, SpacedLine.written, List.length_cons,
      List.length_nil, ih]
    omega

private theorem newLine_strictMono : StrictMono s.newLine := by
  refine strictMono_nat_of_lt_succ fun n => ?_
  simp only [newLine, List.take_add_one, List.flatMap_append, List.length_append]
  omega

section Split

variable {s} {before after : List SpacedLine} {l : SpacedLine}

private theorem newLine_eq (split : s.lines = before ++ l :: after) :
    s.newLine (before.length + 1) =
      (before.flatMap SpacedLine.written).length + l.above.length + 1 := by
  have reached : s.lines.take (before.length + 1) = before ++ [l] := by
    rw [split, List.append_cons]
    exact List.take_left' (by simp)
  rw [newLine, reached, length_written, List.flatMap_append, List.length_append,
    List.flatMap_singleton]
  omega

/-- A line stands where its new number says. -/
theorem spaced_newLine (split : s.lines = before ++ l :: after) :
    s.spaced[s.newLine (before.length + 1) - 1]? = some (l.text ++ l.after) := by
  have regroup : s.spaced = (before.flatMap SpacedLine.written ++ l.above) ++
      (l.text ++ l.after) :: (after.flatMap SpacedLine.written ++ s.below) := by
    rw [spaced, split, List.flatMap_append, List.append_assoc, written_cons, List.append_assoc]
  rw [newLine_eq split, regroup, Nat.add_sub_cancel, ← List.length_append,
    List.getElem?_append_right (Nat.le_refl _), Nat.sub_self]
  rfl

private theorem numbers_newLine (split : s.lines = before ++ after) :
    Numbers s.newLine (before.length + 1) ((before.flatMap SpacedLine.written).length + 1)
      after := by
  induction after generalizing before with
  | nil => trivial
  | cons l after ih =>
    have moved := newLine_eq split
    have next : ((before ++ [l]).flatMap SpacedLine.written).length =
        s.newLine (before.length + 1) := by
      rw [moved, List.flatMap_append, List.length_append, List.flatMap_singleton,
        SpacedLine.written, List.length_append, List.length_singleton, Nat.add_assoc]
    have rest := ih (split.trans (List.append_cons before l after))
    rw [List.length_append, List.length_singleton, next] at rest
    exact ⟨by omega, rest⟩

end Split

end Spacing

private theorem compileLines_spaced (o : Options) (s : Spacing) :
    Moved s.newLine (Model.renumber s.newLine) (compileLines o s.plain)
      (compileLines o s.spaced) :=
  compileFrom_spaced rfl (Spacing.numbers_newLine (List.nil_append s.lines).symm) s.below_blank

end Outline

/-! ## Carriage returns -/

namespace Text

/-- A line feed with a carriage return before it, and any other character alone. -/
def putReturn (c : Char) : List Char := if c = '\n' then ['\r', '\n'] else [c]

/-- A text with a carriage return before each of its line feeds. -/
def withReturns (text : String) : String := String.ofList (text.toList.flatMap putReturn)

private theorem head_putReturn (s : List Char) : (s.flatMap putReturn).head? ≠ some '\n' := by
  cases s with
  | nil => exact nofun
  | cons c s =>
    rw [List.flatMap_cons, putReturn]
    split
    · simp
    · next plain => simpa using plain

/-- Of two carriage returns before a line feed, the first stands at the end of its line. -/
theorem splitLines_putReturn (s : List Char) :
    List.Forall₂ (fun line line' => ∃ after, isBlankText after = true ∧ line' = line ++ after)
      (splitLines s) (splitLines (s.flatMap putReturn)) := by
  fun_induction splitLines s with
  | case1 => exact .nil
  | case2 s ih => exact .cons ⟨[], rfl, rfl⟩ ih
  | case3 s ih => exact .cons ⟨['\r'], rfl, rfl⟩ ih
  | case4 c s plain apart ih =>
    have grown : splitLines ((c :: s).flatMap putReturn) =
        consLine c (splitLines (s.flatMap putReturn)) := by
      rw [List.flatMap_cons, putReturn, if_neg plain]
      exact splitLines_cons plain fun _ => head_putReturn s
    rw [grown]
    generalize splitLines s = lines, splitLines (s.flatMap putReturn) = lines' at ih
    cases ih with
    | nil => exact .cons ⟨[], rfl, (List.append_nil _).symm⟩ .nil
    | cons first rest =>
      obtain ⟨after, blank, rfl⟩ := first
      exact .cons ⟨after, blank, rfl⟩ rest

end Text

namespace Outline

private theorem exists_spacedLines {lines lines' : List (List Char)}
    (grown : List.Forall₂ (fun line line' => ∃ after, Text.isBlankText after = true ∧
      line' = line ++ after) lines lines') :
    ∃ spaced : List SpacedLine, spaced.map (·.text) = lines.map String.ofList ∧
      spaced.flatMap SpacedLine.written = lines'.map String.ofList ∧
      ∀ l ∈ spaced, l.above = [] := by
  induction grown with
  | nil => exact ⟨[], rfl, rfl, List.forall_mem_nil _⟩
  | @cons line line' lines lines' first _ ih =>
    obtain ⟨after, blank, rfl⟩ := first
    obtain ⟨spaced, plain, written, none⟩ := ih
    have blankAfter : IsBlankLine (String.ofList after) := by
      rw [IsBlankLine, String.toList_ofList]
      exact blank
    refine ⟨⟨[], String.ofList line, String.ofList after, List.forall_mem_nil _, blankAfter⟩ ::
      spaced, ?_, ?_, List.forall_mem_cons.2 ⟨rfl, none⟩⟩
    · rw [List.map_cons, plain, List.map_cons]
    · rw [List.flatMap_cons, written, List.map_cons, String.ofList_append]
      rfl

/-- The lines of a text with carriage returns are its lines, with a blank after some of them. -/
theorem exists_spacing_withReturns (text : String) :
    ∃ s : Spacing, s.plain = Text.lines text ∧ s.spaced = Text.lines (Text.withReturns text) ∧
      s.newLine = id := by
  obtain ⟨lines, plain, written, none⟩ :=
    exists_spacedLines (Text.splitLines_putReturn text.toList)
  refine ⟨⟨lines, [], List.forall_mem_nil _⟩, plain, ?_, funext fun n => ?_⟩
  · rw [Spacing.spaced, List.append_nil, written, Text.lines, Text.withReturns,
      String.toList_ofList]
  · have nothing : (lines.take n).flatMap (·.above) = [] := by
      rw [List.flatMap_eq_nil_iff]
      exact fun l member => none l (List.mem_of_mem_take member)
    rw [Spacing.newLine, nothing]
    rfl

private theorem compile_withReturns (o : Options) (text : String) :
    Moved id (Model.renumber id) (compile o text) (compile o (Text.withReturns text)) := by
  obtain ⟨s, plain, spaced, same⟩ := exists_spacing_withReturns text
  have moved := compileLines_spaced o s
  rw [plain, spaced, same] at moved
  exact moved

/-- Blank lines between the lines of a document and blanks after them change nothing but the
numbers of the lines; and putting a carriage return before every line feed of a text changes nothing
but the line that a fault repeats. -/
theorem compile_ignores_spacing (o : Options) :
    (∀ s : Spacing, StrictMono s.newLine ∧
      (∀ before l after, s.lines = before ++ l :: after →
        s.spaced[s.newLine (before.length + 1) - 1]? = some (l.text ++ l.after)) ∧
      Moved s.newLine (Model.renumber s.newLine) (compileLines o s.plain)
        (compileLines o s.spaced)) ∧
    ∀ text, (∀ m, compile o (Text.withReturns text) = .ok m ↔ compile o text = .ok m) ∧
      ∀ fault, compile o text = .error fault →
        ∃ raw, compile o (Text.withReturns text) = .error (fault.renumber id raw) := by
  refine ⟨fun s => ⟨s.newLine_strictMono, fun before l after => Spacing.spaced_newLine,
    compileLines_spaced o s⟩, fun text => ?_⟩
  have moved := compile_withReturns o text
  generalize compile o text = x, compile o (Text.withReturns text) = y at moved ⊢
  cases moved with
  | ok m =>
    rw [Model.renumber_id]
    exact ⟨fun _ => Iff.rfl, nofun⟩
  | error fault raw =>
    refine ⟨fun m => ⟨nofun, nofun⟩, ?_⟩
    rintro _ ⟨⟩
    exact ⟨raw, rfl⟩

/-- A group and its endpoint, with blank lines above the group and blanks after a comment. -/
def airyDocument : Spacing where
  lines := [
    { text := "root shop", after := " ", above_blank := by decide, after_blank := by decide },
    { above := ["", "\t"], text := "user", above_blank := by decide, after_blank := by decide },
    { text := "    find # all", after := " \r", above_blank := by decide,
      after_blank := by decide }]
  below := ["  "]
  below_blank := by decide

theorem compile_ignores_spacing_airy :
    airyDocument.spaced = ["root shop ", "", "\t", "user", "    find # all \r", "  "] ∧
      ∃ m, compileLines {} airyDocument.plain = .ok m ∧
        m.groups.map (fun g => (g.line, g.endpoints.map (·.line))) = [(2, [3])] ∧
        compileLines {} airyDocument.spaced = .ok (m.renumber airyDocument.newLine) ∧
        (m.renumber airyDocument.newLine).groups.map
          (fun g => (g.line, g.endpoints.map (·.line))) = [(4, [5])] := by
  refine ⟨rfl, ?_⟩
  obtain ⟨m, compiled, plain, spaced⟩ : ∃ m, compileLines {} airyDocument.plain = .ok m ∧
      m.groups.map (fun g => (g.line, g.endpoints.map (·.line))) = [(2, [3])] ∧
      (m.renumber airyDocument.newLine).groups.map
        (fun g => (g.line, g.endpoints.map (·.line))) = [(4, [5])] := ⟨_, rfl, rfl, rfl⟩
  have moved := ((compile_ignores_spacing {}).1 airyDocument).2.2
  rw [compiled] at moved
  refine ⟨m, compiled, plain, ?_, spaced⟩
  generalize compileLines {} airyDocument.spaced = outcome at moved ⊢
  cases moved
  rfl

end Outline

end ApiOutline
