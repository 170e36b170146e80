import ApiOutline.Proofs.KitResponses
import ApiOutline.Proofs.Stubs

/-!
Whose responses a kit records.

A kit is read by a machine that goes from line to line and remembers one open handler.  What it
records is stated here over the lines alone: a handler is closed if it is opened and the next line
that opens or closes anything closes it, and of the closed handlers of one name the last one
decides.  `Scan.Reflects` ties the machine to this, one kind of line at a time.

The functions of a kit are listed apart from this.  Still every handler is among them, so that an
endpoint whose handler is missing has no responses, whenever its kit is asked.
-/

namespace ApiOutline.Kit

/-! ## Handlers among the lines -/

/-- A line that opens a handler of a name. -/
structure Opens (name line : String) : Prop where
  isOpener : isOpener line.toList = true
  named : functionName? line.toList = some name.toList

/-- A line that opens or closes a handler. -/
def IsBoundary (line : String) : Prop := (∃ name, Opens name line) ∨ isCloser line.toList = true

instance (name line : String) : Decidable (Opens name line) :=
  decidable_of_iff (isOpener line.toList = true ∧ functionName? line.toList = some name.toList)
    ⟨fun ⟨isOpener, named⟩ => ⟨isOpener, named⟩, fun opens => ⟨opens.isOpener, opens.named⟩⟩

/-- A boundary is a line that opens a handler or one that closes whatever is open. -/
theorem isBoundary_iff {line : String} : IsBoundary line ↔
    (isOpener line.toList = true ∧ (functionName? line.toList).isSome = true) ∨
      isCloser line.toList = true := by
  refine or_congr_left ⟨fun ⟨name, opens⟩ => ⟨opens.isOpener, by rw [opens.named]; rfl⟩, ?_⟩
  rintro ⟨opener, named⟩
  obtain ⟨name, named⟩ := Option.isSome_iff_exists.1 named
  exact ⟨String.ofList name, opener, by rw [named, String.toList_ofList]⟩

instance (line : String) : Decidable (IsBoundary line) := decidable_of_iff' _ isBoundary_iff

/-- The lines end inside of a handler: `body` is what follows the line that opens it. -/
def OpenAt (lines : List String) (name : String) (body : List String) : Prop :=
  ∃ before opener, lines = before ++ opener :: body ∧ Opens name opener ∧
    ∀ line ∈ body, ¬ IsBoundary line

/-- The lines hold a closed handler: `body` stands between the line that opens it and the one that
closes it, with no other such line in it, and `after` is what follows. -/
def ClosedIn (lines : List String) (name : String) (body after : List String) : Prop :=
  ∃ before opener closer, lines = before ++ opener :: (body ++ closer :: after) ∧
    Opens name opener ∧ isCloser closer.toList = true ∧ ∀ line ∈ body, ¬ IsBoundary line

/-- The last closed handler of a name. -/
def Decides (lines : List String) (name : String) (body : List String) : Prop :=
  ∃ after, ClosedIn lines name body after ∧ ∀ body' after', ¬ ClosedIn after name body' after'

/-- The response that a line declares. -/
def responseOn (line : String) : Option Response := response? (Text.trim line.toList)

/-- The responses that some lines declare, in order. -/
def responsesOn (body : List String) : List Response := body.filterMap responseOn

theorem responsesOn_append_cons (before : List String) (line : String) (after : List String) :
    responsesOn (before ++ line :: after) =
      responsesOn before ++ ((responseOn line).toList ++ responsesOn after) := by
  rw [responsesOn, List.filterMap_append, List.filterMap_cons]
  rcases responseOn line with _ | response <;> rfl

section Lines

variable {lines body rest after : List String} {name other line : String}

/-- A line opens one handler. -/
theorem Opens.name_eq (opens : Opens name line) (opens' : Opens other line) : name = other :=
  String.toList_inj.1 (Option.some.inj (opens.named.symm.trans opens'.named))

/-- What opens a handler starts with a letter, so it closes none. -/
theorem not_isCloser_of_isOpener (opener : isOpener line.toList = true) :
    isCloser line.toList = false := by
  obtain ⟨rest, whole⟩ := List.isPrefixOf_iff_prefix.1 (Bool.and_eq_true_iff.1 opener).1
  rw [← whole]
  rfl

private theorem not_openAt_nil : ¬ OpenAt [] name body := by
  rintro ⟨before, opener, whole, -⟩
  simp at whole

theorem not_closedIn_nil : ¬ ClosedIn [] name body after := by
  rintro ⟨before, opener, closer, whole, -⟩
  simp at whole

/-- A handler is open after a line that opens it, and stays open after every line that is no
boundary. -/
theorem openAt_concat_iff : OpenAt (lines ++ [line]) name body ↔
    (body = [] ∧ Opens name line) ∨
      ∃ rest, body = rest ++ [line] ∧ ¬ IsBoundary line ∧ OpenAt lines name rest := by
  constructor
  · rintro ⟨before, opener, whole, opens, inner⟩
    rcases Text.concat_eq_append_cons_iff.1 whole with ⟨rfl, rfl, rfl⟩ | ⟨rest, rfl, rfl⟩
    · exact .inl ⟨rfl, opens⟩
    · obtain ⟨earlier, last⟩ := List.forall_mem_append.1 inner
      exact .inr ⟨rest, rfl, last line (List.mem_singleton_self line), before, opener, rfl, opens,
        earlier⟩
  · rintro (⟨rfl, opens⟩ | ⟨rest, rfl, plain, before, opener, rfl, opens, inner⟩)
    · exact ⟨lines, line, rfl, opens, List.forall_mem_nil _⟩
    · refine ⟨before, opener, by simp, opens, List.forall_mem_append.2 ⟨inner, ?_⟩⟩
      exact List.forall_mem_singleton.2 plain

/-- A handler is closed by the last line, or was closed before it. -/
theorem closedIn_concat_iff : ClosedIn (lines ++ [line]) name body after ↔
    (after = [] ∧ isCloser line.toList = true ∧ OpenAt lines name body) ∨
      ∃ rest, after = rest ++ [line] ∧ ClosedIn lines name body rest := by
  constructor
  · rintro ⟨before, opener, closer, whole, opens, closes, inner⟩
    rw [← List.cons_append, ← List.append_assoc] at whole
    rcases Text.concat_eq_append_cons_iff.1 whole with ⟨rfl, rfl, rfl⟩ | ⟨rest, rfl, rfl⟩
    · exact .inl ⟨rfl, closes, before, opener, rfl, opens, inner⟩
    · exact .inr ⟨rest, rfl, before, opener, closer, by simp, opens, closes, inner⟩
  · rintro (⟨rfl, closes, before, opener, rfl, opens, inner⟩ |
      ⟨rest, rfl, before, opener, closer, rfl, opens, closes, inner⟩)
    · exact ⟨before, opener, line, by simp, opens, closes, inner⟩
    · exact ⟨before, opener, closer, by simp, opens, closes, inner⟩

/-- At most one handler is open. -/
theorem openAt_unique {body' : List String} (isOpen : OpenAt lines name body)
    (isOpen' : OpenAt lines other body') : name = other ∧ body = body' := by
  induction lines using List.reverseRecOn generalizing body body' with
  | nil => exact absurd isOpen not_openAt_nil
  | append_singleton lines line ih =>
    rcases openAt_concat_iff.1 isOpen with ⟨rfl, opens⟩ | ⟨rest, rfl, inner, earlier⟩
    · rcases openAt_concat_iff.1 isOpen' with ⟨rfl, opens'⟩ | ⟨rest', -, inner', -⟩
      · exact ⟨opens.name_eq opens', rfl⟩
      · exact absurd (.inl ⟨name, opens⟩) inner'
    · rcases openAt_concat_iff.1 isOpen' with ⟨-, opens'⟩ | ⟨rest', rfl, -, earlier'⟩
      · exact absurd (.inl ⟨other, opens'⟩) inner
      · obtain ⟨rfl, rfl⟩ := ih earlier earlier'
        exact ⟨rfl, rfl⟩

/-- A handler that is open at the end was opened after every handler that is closed. -/
theorem openAt_of_closedIn {body' : List String} (closed : ClosedIn lines name body after)
    (isOpen : OpenAt lines other body') : OpenAt after other body' := by
  induction lines using List.reverseRecOn generalizing after body' with
  | nil => exact absurd isOpen not_openAt_nil
  | append_singleton lines line ih =>
    rcases openAt_concat_iff.1 isOpen with ⟨rfl, opens⟩ | ⟨rest', rfl, inner, earlier⟩
    · rcases closedIn_concat_iff.1 closed with ⟨-, closes, -⟩ | ⟨rest, rfl, -⟩
      · rw [not_isCloser_of_isOpener opens.isOpener] at closes
        cases closes
      · exact openAt_concat_iff.2 (.inl ⟨rfl, opens⟩)
    · rcases closedIn_concat_iff.1 closed with ⟨-, closes, -⟩ | ⟨rest, rfl, before⟩
      · exact absurd (.inr closes) inner
      · exact openAt_concat_iff.2 (.inr ⟨rest', rfl, inner, ih before earlier⟩)

/-- What is open or closed in the last lines is so in all of them. -/
theorem OpenAt.append (isOpen : OpenAt lines name body) (front : List String) :
    OpenAt (front ++ lines) name body := by
  obtain ⟨before, opener, rfl, opens, inner⟩ := isOpen
  exact ⟨front ++ before, opener, by simp, opens, inner⟩

theorem ClosedIn.isSuffix (closed : ClosedIn lines name body after) : after <:+ lines := by
  obtain ⟨before, opener, closer, rfl, -⟩ := closed
  exact ⟨before ++ opener :: (body ++ [closer]), by simp⟩

/-- The handler that decides stays the same as long as no other one of its name is closed. -/
theorem decides_concat_iff
    (other : isCloser line.toList = true → ∀ body, ¬ OpenAt lines name body) :
    Decides (lines ++ [line]) name body ↔ Decides lines name body := by
  constructor
  · rintro ⟨after, closed, last⟩
    rcases closedIn_concat_iff.1 closed with ⟨-, closes, isOpen⟩ | ⟨rest, rfl, before⟩
    · exact absurd isOpen (other closes body)
    · refine ⟨rest, before, fun body' after' later => ?_⟩
      exact last body' (after' ++ [line]) (closedIn_concat_iff.2 (.inr ⟨after', rfl, later⟩))
  · rintro ⟨after, closed, last⟩
    refine ⟨after ++ [line], closedIn_concat_iff.2 (.inr ⟨after, rfl, closed⟩), ?_⟩
    intro body' after' later
    rcases closedIn_concat_iff.1 later with ⟨-, closes, isOpen⟩ | ⟨rest, rfl, before⟩
    · obtain ⟨front, rfl⟩ := closed.isSuffix
      exact other closes body' (isOpen.append front)
    · exact last body' rest before

/-- A handler that is closed by the last line decides, whatever there was before. -/
theorem decides_closed_iff {body' : List String} (closes : isCloser line.toList = true)
    (isOpen : OpenAt lines name body) : Decides (lines ++ [line]) name body' ↔ body' = body := by
  constructor
  · rintro ⟨after, closed, last⟩
    rcases closedIn_concat_iff.1 closed with ⟨-, -, isOpen'⟩ | ⟨rest, rfl, before⟩
    · exact (openAt_unique isOpen' isOpen).2
    · -- The open handler stands behind an earlier one, and is closed now.
      have later := openAt_of_closedIn before isOpen
      exact absurd (closedIn_concat_iff.2 (.inl ⟨rfl, closes, later⟩)) (last body [])
  · rintro rfl
    exact ⟨[], closedIn_concat_iff.2 (.inl ⟨rfl, closes, isOpen⟩), fun _ _ => not_closedIn_nil⟩

/-- Of the closed handlers of a name, one is the last. -/
theorem exists_decides (closed : ClosedIn lines name body after) :
    ∃ body, Decides lines name body := by
  induction lines using List.reverseRecOn generalizing body after with
  | nil => exact absurd closed not_closedIn_nil
  | append_singleton lines line ih =>
    by_cases now : isCloser line.toList = true ∧ ∃ body, OpenAt lines name body
    · obtain ⟨closes, last, isOpen⟩ := now
      exact ⟨last, (decides_closed_iff closes isOpen).2 rfl⟩
    · have other : isCloser line.toList = true → ∀ body, ¬ OpenAt lines name body :=
        fun closes body isOpen => now ⟨closes, body, isOpen⟩
      rcases closedIn_concat_iff.1 closed with ⟨-, closes, isOpen⟩ | ⟨rest, -, before⟩
      · exact absurd isOpen (other closes body)
      · obtain ⟨last, decides⟩ := ih before
        exact ⟨last, (decides_concat_iff other).2 decides⟩

end Lines

/-! ## The machine -/

/-- What has been read after some lines. -/
def scan (lines : List String) : Scan := lines.foldl (fun s line => s.step line.toList) {}

private theorem scan_concat (lines : List String) (line : String) :
    scan (lines ++ [line]) = (scan lines).step line.toList := List.foldl_concat ..

namespace Scan

variable {s : Scan} {lines : List String} {name line : String}

private theorem step_opens (opens : Opens name line) (s : Scan) :
    s.step line.toList = { s with current := some (name, []) } := by
  rw [step, if_pos opens.isOpener, opens.named]
  simp only [String.ofList_toList]

private theorem step_closes (closes : isCloser line.toList = true) (s : Scan) :
    s.step line.toList = match s.current with
      | some (name, responses) => { closed := s.closed.insert name responses, current := none }
      | none => s := by
  have apart : isOpener line.toList = false := by
    by_contra opener
    rw [not_isCloser_of_isOpener (Bool.not_eq_false _ ▸ opener)] at closes
    cases closes
  rw [step, apart, closes]
  rfl

/-- A line without the lead of a response declares none. -/
theorem responseOn_of_isOpener (opener : isOpener line.toList = true) : responseOn line = none := by
  obtain ⟨rest, whole⟩ := List.isPrefixOf_iff_prefix.1 (Bool.and_eq_true_iff.1 opener).1
  have apart : (Text.trim line.toList).head? ≠ some 'r' := by
    intro first
    have start := Text.head?_trimStart_of_trim first
    rw [← whole] at start
    cases start
  have missing : "resp[".toList.isPrefixOf? (Text.trim line.toList) = none :=
    Text.isPrefixOf?_cons_eq_none _ apart
  rw [responseOn, response?, missing]
  rfl

private theorem step_inner (inner : ¬ IsBoundary line) (s : Scan) :
    s.step line.toList = { s with
      current := s.current.map fun open' => (open'.1, open'.2 ++ (responseOn line).toList) } := by
  obtain ⟨closed, current⟩ := s
  by_cases opener : isOpener line.toList = true
  · -- It would open a handler, but has no name, and declares no response either.
    have unnamed : functionName? line.toList = none := by
      rw [← Option.not_isSome_iff_eq_none]
      exact fun named => inner (isBoundary_iff.2 (.inl ⟨opener, named⟩))
    rw [step, if_pos opener, unnamed, responseOn_of_isOpener opener]
    rcases current with _ | ⟨name, responses⟩ <;> simp
  · rw [step, if_neg opener, if_neg fun closes => inner (.inr closes), ← responseOn]
    rcases current with _ | ⟨name, responses⟩
    · rfl
    · rcases responseOn line with _ | response <;> simp

/-- A machine that has read some lines: it is inside of the handler that is open at their end, and
it has recorded for each name the responses of the last closed handler. -/
structure Reflects (s : Scan) (lines : List String) : Prop where
  current : ∀ name responses, s.current = some (name, responses) ↔
    ∃ body, OpenAt lines name body ∧ responses = responsesOn body
  closed : ∀ name responses, s.closed.get? name = some responses ↔
    ∃ body, Decides lines name body ∧ responses = responsesOn body

private theorem reflects_start : Reflects {} [] where
  current name responses := by
    constructor
    · nofun
    · rintro ⟨body, isOpen, -⟩
      exact absurd isOpen not_openAt_nil
  closed name responses := by
    constructor
    · nofun
    · rintro ⟨body, ⟨after, closed, -⟩, -⟩
      exact absurd closed not_closedIn_nil

namespace Reflects

/-- A scan keeps up with a line that opens a handler. -/
theorem opens (reflects : s.Reflects lines) (opens : Opens name line) :
    (s.step line.toList).Reflects (lines ++ [line]) := by
  have unclosed := not_isCloser_of_isOpener opens.isOpener
  rw [step_opens opens]
  constructor
  case current =>
    intro other responses
    constructor
    · rintro ⟨⟩
      exact ⟨[], openAt_concat_iff.2 (.inl ⟨rfl, opens⟩), rfl⟩
    · rintro ⟨body, isOpen, rfl⟩
      rcases openAt_concat_iff.1 isOpen with ⟨rfl, opens'⟩ | ⟨rest, -, inner, -⟩
      · rw [opens.name_eq opens']
        rfl
      · exact absurd (.inl ⟨name, opens⟩) inner
  case closed =>
    intro other responses
    refine (reflects.closed other responses).trans (exists_congr fun body => ?_)
    rw [decides_concat_iff]
    intro closes
    rw [unclosed] at closes
    cases closes

/-- A scan keeps up with a line that is no boundary. -/
theorem inner (reflects : s.Reflects lines) (inner : ¬ IsBoundary line) :
    (s.step line.toList).Reflects (lines ++ [line]) := by
  have grown : ∀ body,
      responsesOn body ++ (responseOn line).toList = responsesOn (body ++ [line]) := by
    intro body
    rw [responsesOn_append_cons, show responsesOn [] = [] from rfl, List.append_nil]
  rw [step_inner inner]
  constructor
  case current =>
    intro name responses
    simp only [Option.map_eq_some_iff, Prod.exists, Prod.mk.injEq, reflects.current]
    constructor
    · rintro ⟨_, _, ⟨body, isOpen, rfl⟩, rfl, rfl⟩
      refine ⟨body ++ [line], openAt_concat_iff.2 (.inr ⟨body, rfl, inner, isOpen⟩), ?_⟩
      exact grown body
    · rintro ⟨body, isOpen, rfl⟩
      rcases openAt_concat_iff.1 isOpen with ⟨-, opens⟩ | ⟨rest, rfl, -, earlier⟩
      · exact absurd (.inl ⟨name, opens⟩) inner
      · exact ⟨name, _, ⟨rest, earlier, rfl⟩, rfl, grown rest⟩
  case closed =>
    intro name responses
    refine (reflects.closed name responses).trans (exists_congr fun body => ?_)
    rw [decides_concat_iff fun closes => absurd (.inr closes) inner]

/-- A scan keeps up with a line that closes a handler. -/
theorem closes (reflects : s.Reflects lines) (closes : isCloser line.toList = true) :
    (s.step line.toList).Reflects (lines ++ [line]) := by
  have outside : ∀ name body, ¬ OpenAt (lines ++ [line]) name body := by
    intro name body isOpen
    rcases openAt_concat_iff.1 isOpen with ⟨-, opens⟩ | ⟨-, -, inner, -⟩
    · rw [not_isCloser_of_isOpener opens.isOpener] at closes
      cases closes
    · exact inner (.inr closes)
  rw [step_closes closes]
  rcases current : s.current with _ | ⟨name, responses⟩
  · have unopened : ∀ name body, ¬ OpenAt lines name body := by
      intro name body isOpen
      have found := (reflects.current name _).2 ⟨body, isOpen, rfl⟩
      rw [current] at found
      cases found
    constructor
    case current =>
      intro name responses
      simp only [current, reduceCtorEq, false_iff]
      rintro ⟨body, isOpen, -⟩
      exact outside name body isOpen
    case closed =>
      intro name responses
      refine (reflects.closed name responses).trans (exists_congr fun body => ?_)
      rw [decides_concat_iff fun _ => unopened name]
  · obtain ⟨body, isOpen, rfl⟩ := (reflects.current name responses).1 current
    constructor
    case current =>
      intro other responses
      simp only [reduceCtorEq, false_iff]
      rintro ⟨body, isOpen, -⟩
      exact outside other body isOpen
    case closed =>
      intro other responses
      by_cases same : other = name
      · subst same
        simp only [SortedMap.get?_insert_self, decides_closed_iff closes isOpen, exists_eq_left,
          Option.some.injEq]
        exact eq_comm
      · rw [SortedMap.get?_insert_of_ne _ same]
        refine (reflects.closed other responses).trans (exists_congr fun body => ?_)
        rw [decides_concat_iff]
        exact fun _ body' isOpen' => same (openAt_unique isOpen' isOpen).1

/-- Whatever the line, what it does is reflected. -/
theorem step (reflects : s.Reflects lines) (line : String) :
    (s.step line.toList).Reflects (lines ++ [line]) := by
  by_cases boundary : IsBoundary line
  · rcases boundary with ⟨name, opens⟩ | closes
    · exact reflects.opens opens
    · exact reflects.closes closes
  · exact reflects.inner boundary

end Reflects

end Scan

private theorem reflects_scan (lines : List String) : (scan lines).Reflects lines := by
  induction lines using List.reverseRecOn with
  | nil => exact Scan.reflects_start
  | append_singleton lines line ih =>
    rw [scan_concat]
    exact ih.step line

/-! ## Kits -/

/-- A kit in which every handler is among the functions. -/
def HandlersDefined (kit : Kit) : Prop :=
  ∀ name, kit.handlers.contains name = true → kit.defines name = true

/-- What a kit records of some lines: under each name the responses of the last closed handler. -/
structure Attributed (kit : Kit) (lines : List String) : Prop where
  responses : ∀ name responses, kit.handlers.get? name = some responses ↔
    ∃ body, Decides lines name body ∧ responses = responsesOn body
  recorded : ∀ name, (kit.handlers.get? name).isSome = true ↔
    ∃ body after, ClosedIn lines name body after
  /-- No response is recorded that is not declared inside of a closed handler. -/
  inside : ∀ entry ∈ kit.handlers.entries, ∀ response ∈ entry.2,
    ∃ body after, ClosedIn lines entry.1 body after ∧
      ∃ line ∈ body, responseOn line = some response
  defined : kit.HandlersDefined
  empty : kit.isEmpty = true → kit.handlers = .empty

section Kits

variable {lines : List String} {kit : Kit} {name : String}

/-- The responses of a handler are those in the body that decides them. -/
theorem get?_ofLines_iff {responses : List Response} :
    (ofLines lines).handlers.get? name = some responses ↔
      ∃ body, Decides lines name body ∧ responses = responsesOn body :=
  (reflects_scan lines).closed name responses

theorem get?_ofLines_of_decides {body : List String} (decides : Decides lines name body) :
    (ofLines lines).handlers.get? name = some (responsesOn body) :=
  get?_ofLines_iff.2 ⟨body, decides, rfl⟩

private theorem defines_of_closedIn {body after : List String}
    (closed : ClosedIn lines name body after) : (ofLines lines).defines name = true := by
  obtain ⟨before, opener, closer, rfl, opens, -⟩ := closed
  refine defines_iff.2 (List.mem_filterMap.2 ⟨opener, ?_, ?_⟩)
  · exact List.mem_append_right before List.mem_cons_self
  · rw [opens.named, Option.map_some, String.ofList_toList]

/-- A kit has responses for the handlers that are closed in it, and for no others. -/
theorem isSome_get?_ofLines_iff :
    ((ofLines lines).handlers.get? name).isSome = true ↔
      ∃ body after, ClosedIn lines name body after := by
  rw [Option.isSome_iff_exists]
  constructor
  · rintro ⟨responses, found⟩
    obtain ⟨body, ⟨after, closed, -⟩, -⟩ := get?_ofLines_iff.1 found
    exact ⟨body, after, closed⟩
  · rintro ⟨body, after, closed⟩
    obtain ⟨last, decides⟩ := exists_decides closed
    exact ⟨_, get?_ofLines_of_decides decides⟩

private theorem handlersDefined_ofLines (lines : List String) :
    (ofLines lines).HandlersDefined := by
  intro name known
  obtain ⟨body, after, closed⟩ := isSome_get?_ofLines_iff.1 known
  exact defines_of_closedIn closed

private theorem handlersDefined_empty : ({} : Kit).HandlersDefined := nofun

/-- A kit without functions has no responses. -/
theorem HandlersDefined.eq_empty (defined : kit.HandlersDefined) (empty : kit.isEmpty = true) :
    kit.handlers = .empty := by
  have none : kit.handlers.entries = [] := by
    refine List.eq_nil_iff_forall_not_mem.2 fun entry member => ?_
    have known : kit.handlers.contains entry.1 = true :=
      SortedMap.contains_iff.2 (List.mem_map_of_mem member)
    have listed := defines_iff.1 (defined entry.1 known)
    rw [List.isEmpty_iff.1 empty] at listed
    cases listed
  exact SortedMap.eq_of_perm (.of_eq none)

private theorem attributed_ofLines (lines : List String) : (ofLines lines).Attributed lines where
  responses _ _ := get?_ofLines_iff
  recorded _ := isSome_get?_ofLines_iff
  inside entry member response declared := by
    obtain ⟨body, ⟨after, closed, -⟩, same⟩ :=
      get?_ofLines_iff.1 (SortedMap.get?_eq_some_iff.2 member)
    rw [same] at declared
    exact ⟨body, after, closed, List.mem_filterMap.1 declared⟩
  defined := handlersDefined_ofLines lines
  empty := (handlersDefined_ofLines lines).eq_empty

/-- A handler that is missing declares nothing. -/
theorem HandlersDefined.responses_of_lacking (defined : kit.HandlersDefined) {g : Group}
    {e : Endpoint} (missing : e ∈ kit.lacking g) : kit.responses e.handlerName = [] := by
  have undefined := (List.mem_filter.1 missing).2
  rcases found : kit.handlers.get? e.handlerName with _ | responses
  · rw [responses, found]
    rfl
  · rw [defined e.handlerName (by rw [SortedMap.contains, found]; rfl)] at undefined
    cases undefined

end Kits

/-! ## Caches -/

namespace Cache

variable {reader : Reader} {layout : Layout} {c after : Cache} {kit : Kit} {g : Group}
  {e : Endpoint} {path : String}

/-- A cache in which every kit has its handlers among its functions. -/
def Sound (c : Cache) : Prop := ∀ path kit, c.find? path = some kit → kit.HandlersDefined

private theorem handlersDefined_of_read {asked : Nat} (read : reader.kit asked path = .ok kit) :
    kit.HandlersDefined := by
  unfold Reader.kit at read
  split at read
  · cases read
    exact handlersDefined_ofLines _
  · cases read
    exact handlersDefined_empty
  · cases read

/-- A cache stays sound when a kit is asked for. -/
theorem Sound.get (sound : c.Sound) (reader : Reader) (path : String) :
    (c.get reader path).2.Sound := by
  rcases c.get_cases reader path with ⟨kit, -, got⟩ | ⟨-, kit, read, got⟩ | ⟨-, cause, -, got⟩
  · rw [got]
    exact sound
  · rw [got]
    intro other found known
    rw [find?_remember] at known
    split at known
    · cases known
      exact handlersDefined_of_read read
    · exact sound other found known
  · rw [got]
    exact sound

/-- A cache stays sound when any number of kits are asked for. -/
theorem Sound.getAll (sound : c.Sound) (reader : Reader) (paths : List String) :
    (c.getAll reader paths).Sound := by
  induction paths generalizing c with
  | nil => exact sound
  | cons path rest ih => exact ih (sound.get reader path)

/-- A cache stays sound through every session. -/
theorem Sound.performAll (sound : c.Sound) (reader : Reader) (calls : List Call) :
    (Call.performAll reader calls c).Sound := by
  rw [Call.performAll_eq_getAll]
  exact sound.getAll reader _

/-- A session starts with a sound cache. -/
theorem sound_start : ({} : Cache).Sound := nofun

private theorem find?_performAll (known : c.find? path = some kit) (reader : Reader)
    (calls : List Call) : (Call.performAll reader calls c).find? path = some kit := by
  rw [Call.performAll_eq_getAll]
  exact find?_getAll known reader _

theorem Sound.of_get (sound : c.Sound) (got : c.get reader path = (.ok kit, after)) :
    after.find? path = some kit ∧ kit.HandlersDefined := by
  have known := find?_of_get got
  have later := sound.get reader path
  rw [got] at later
  exact ⟨known, later path kit known⟩

private theorem get_of_missingHandlers {missing : List Endpoint}
    (asked : c.missingHandlers reader layout g = (.ok missing, after)) :
    ∃ kit, c.get reader (layout.kitPath g.name) = (.ok kit, after) ∧ missing = kit.lacking g := by
  rcases got : c.get reader (layout.kitPath g.name) with ⟨fault | kit, later⟩
  · simp only [missingHandlers, got, Except.map] at asked
    cases asked
  · rw [missingHandlers_of_get got] at asked
    cases asked
    exact ⟨kit, rfl, rfl⟩

private theorem get_of_declaredResponses {responses : List Response}
    (asked : c.declaredResponses reader layout e = (.ok responses, after)) :
    ∃ kit, c.get reader (layout.kitPath e.group) = (.ok kit, after) ∧
      responses = kit.responses e.handlerName := by
  rcases got : c.get reader (layout.kitPath e.group) with ⟨fault | kit, later⟩
  · simp only [declaredResponses, got, Except.map] at asked
    cases asked
  · simp only [declaredResponses, got, Except.map] at asked
    cases asked
    exact ⟨kit, rfl, rfl⟩

private theorem declaredResponses_known (known : c.find? (layout.kitPath e.group) = some kit) :
    c.declaredResponses reader layout e = (.ok (kit.responses e.handlerName), c) := by
  simp only [declaredResponses, get_known known]
  rfl

/-- An endpoint that is reported missing has no responses, before the report and after it. -/
structure SilentIfMissing (reader : Reader) (c : Cache) (layout : Layout) (g : Group)
    (e : Endpoint) : Prop where
  after : ∀ missing reported later,
    c.missingHandlers reader layout g = (.ok missing, reported) → e ∈ missing →
    (Call.performAll reader later reported).declaredResponses reader layout e =
      (.ok [], Call.performAll reader later reported)
  before : ∀ responses asked later missing reported,
    c.declaredResponses reader layout e = (.ok responses, asked) →
    (Call.performAll reader later asked).missingHandlers reader layout g =
      (.ok missing, reported) → e ∈ missing → responses = []

theorem Sound.silentIfMissing (sound : c.Sound) (own : e.group = g.name) (reader : Reader)
    (layout : Layout) : SilentIfMissing reader c layout g e := by
  constructor
  case after =>
    intro missing reported later asked member
    obtain ⟨kit, got, rfl⟩ := get_of_missingHandlers asked
    rw [← own] at got
    obtain ⟨known, defined⟩ := sound.of_get got
    rw [declaredResponses_known (find?_performAll known reader later),
      defined.responses_of_lacking member]
  case before =>
    intro responses asked later missing reported answered asked' member
    obtain ⟨kit, got, rfl⟩ := get_of_declaredResponses answered
    obtain ⟨kit', got', rfl⟩ := get_of_missingHandlers asked'
    obtain ⟨known, defined⟩ := sound.of_get got
    -- The kit is remembered from the first request to the second.
    rw [← own, get_known (find?_performAll known reader later)] at got'
    cases got'
    exact defined.responses_of_lacking member

end Cache

/-- A kit records the responses that are declared inside of closed handlers, each under the name of
its handler, and no others.  All handlers are functions of the kit, so an endpoint whose handler is
missing from the kit of its group has no responses, whatever else the cache is asked for. -/
theorem responses_attributed (lines : List String) :
    (ofLines lines).Attributed lines ∧
    ∀ (reader : Reader) (calls : List Call) (layout : Layout) (g : Group) (e : Endpoint),
      e.group = g.name →
      Cache.SilentIfMissing reader (Call.performAll reader calls {}) layout g e :=
  ⟨attributed_ofLines lines, fun reader calls layout _ _ own =>
    (Cache.sound_start.performAll reader calls).silentIfMissing own reader layout⟩

/-- A handler that another one cuts off, one that is closed twice with a method inside, a response
outside, and a handler that is not closed. -/
def entangledKit : List String :=
  ["func AApi(req *Req) \x7b", "  resp[\"a\"] = 1", "func BApi(req *Req) \x7b", "  resp[\"b\"] = 1",
    "\x7d", "  resp[\"c\"] = 1", "\x7d", "func BApi(req *Req) \x7b",
    "func (s *Shop) MApi(req *Req) \x7b", "  resp[\"m\"] = 1", "\x7d", "func AApi(req *Req) \x7b",
    "  resp[\"d\"] = 1"]

/-- A group with one handler that the kit of a fickle reader defines, and one that it does not. -/
def halfHandledGroup : Group where
  name := "web"
  endpoints := [{ name := "files", group := "web" }, { name := "links", group := "web" }]

theorem responses_attributed_entangled :
    Decides entangledKit "BApi" (entangledKit.extract 8 10) ∧
    (ofLines entangledKit).handlers.get? "BApi" = some [{ name := "m" }] ∧
    (∀ body after, ¬ ClosedIn entangledKit "AApi" body after) ∧
    (ofLines entangledKit).defines "AApi" = true ∧
    ∃ reported, (Call.performAll fickleReader [.kit ""] {}).missingHandlers fickleReader {}
        halfHandledGroup = (.ok [{ name := "links", group := "web" }], reported) ∧
      reported.declaredResponses fickleReader {} { name := "links", group := "web" } =
        (.ok [], reported) := by
  obtain ⟨attributed, silent⟩ := responses_attributed entangledKit
  have decides : Decides entangledKit "BApi" (entangledKit.extract 8 10) := by
    refine ⟨entangledKit.drop 11, ⟨entangledKit.take 7, _, _, rfl, ?_⟩, ?_⟩
    · decide +kernel
    · have unclosed : ∀ line ∈ entangledKit.drop 11, isCloser line.toList = false := by
        decide +kernel
      rintro body after ⟨before, opener, closer, whole, -, closes, -⟩
      rw [unclosed closer (by simp [whole])] at closes
      cases closes
  refine ⟨decides, (attributed.responses "BApi" _).2 ⟨_, decides, by decide +kernel⟩, ?_, ?_, ?_⟩
  · intro body after closed
    have recorded := (attributed.recorded "AApi").2 ⟨body, after, closed⟩
    exact absurd recorded (by decide +kernel)
  · decide +kernel
  · have missing : ((Call.performAll fickleReader [.kit ""] {}).missingHandlers fickleReader {}
        halfHandledGroup).1.toOption = some [{ name := "links", group := "web" }] := by
      decide +kernel
    have own := silent fickleReader [.kit ""] {} halfHandledGroup
      { name := "links", group := "web" } rfl
    rcases asked : (Call.performAll fickleReader [.kit ""] {}).missingHandlers fickleReader {}
      halfHandledGroup with ⟨fault | found, reported⟩
    · rw [asked] at missing
      cases missing
    · rw [asked] at missing
      cases missing
      exact ⟨reported, rfl, own.after _ reported [] asked List.mem_cons_self⟩

end ApiOutline.Kit
