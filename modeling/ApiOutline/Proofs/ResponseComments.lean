import ApiOutline.Proofs.Blanks
import ApiOutline.Proofs.HandlerSpans

/-!
What the comment of a response says, and what is read from it.

A handler assigns to a key of its response and says in a comment what the value is.  The comment may
start with the kind of the value: a type of the table, or a mark with the name of an object.  Two
searches over free text decide what is read.  The comment is what follows the last two slashes of
the line, and its first word is taken for a type as soon as more words follow.  So a kind is read as
it is written exactly if no slashes follow it (`kind_read_iff`), and a comment that names no kind is
kept exactly if it is one word (`plain_comment_kept_iff`).
-/

namespace ApiOutline.Kit

/-! ## Lines -/

def slashes : List Char := ['/', '/']

/-- A line that assigns a value to a key of the response, up to its comment. -/
structure Assignment where
  indent : String
  key : String
  value : String
  blank : ∀ c ∈ indent.toList, Text.isBlank c = true
  valid : Ident.isValid key = true

/-- The line with a comment. -/
def Assignment.line (a : Assignment) (comment : String) : String :=
  a.indent ++ "resp[\"" ++ a.key ++ "\"] = " ++ a.value ++ " // " ++ comment

/-- The ways to mark an object. -/
inductive ObjectMark where
  | sign
  | word
  deriving DecidableEq, Repr

def ObjectMark.text : ObjectMark → String
  | sign => "@"
  | word => "object="

/-- What a comment may say of a value before anything else. -/
inductive ValueKind where
  /-- A type of the table. -/
  | type (name : String) (known : name ∈ valueTypes)
  /-- The name of an object, with an array marker or without. -/
  | object (mark : ObjectMark) (isArray : Bool) (name : String) (valid : Ident.isValid name = true)

namespace ValueKind

def text : ValueKind → String
  | type name _ => name
  | object mark isArray name _ => mark.text ++ (if isArray then "[]" else "") ++ name

/-- The response that is meant by a kind and a comment. -/
def response (key comment : String) : ValueKind → Response
  | type name _ => { name := key, valueType := name, comment }
  | object _ isArray name _ => { name := key, isArray, objectName := name, comment }

end ValueKind

section Line

variable {comment : String}

/-- What a line declares: its key, and what the comment after the last two slashes says of it. -/
theorem response?_eq_some_iff {line : List Char} {response : Response} :
    response? line = some response ↔ ∃ rest key,
      "resp[".toList.isPrefixOf? line = some rest ∧ key? rest = some key ∧
      response = ((Text.afterLast? slashes line).map fun comment =>
        Response.describe { name := String.ofList key } (Text.trim comment)).getD
          { name := String.ofList key } := by
  have marks : (['/', '/'] : List Char) = slashes := rfl
  simp only [response?, Option.bind_eq_bind, Option.bind_eq_some_iff, exists_and_left, marks]
  refine exists_congr fun rest => and_congr_right fun _ => exists_congr fun key =>
    and_congr_right fun _ => ?_
  cases Text.afterLast? slashes line <;> simp [eq_comm]

/-- The comment of a line is what follows the last two slashes of it. -/
theorem afterLast?_slashes_iff {s rest : List Char} : Text.afterLast? slashes s = some rest ↔
    ∃ before, s = before ++ (slashes ++ rest) ∧ ¬ slashes <:+: (slashes ++ rest).tail :=
  Text.afterLast?_eq_some_iff (List.cons_ne_nil _ _)

/-- The comment of a line, as it is written, has another one inside if slashes follow. -/
theorem afterLast?_comment (front comment : List Char) :
    Text.afterLast? slashes (front ++ (slashes ++ ' ' :: comment)) =
      some ((Text.afterLast? slashes comment).getD (' ' :: comment)) := by
  rcases inner : Text.afterLast? slashes comment with _ | rest
  · refine afterLast?_slashes_iff.2 ⟨front, rfl, ?_⟩
    have absent := Text.afterLast?_eq_none_iff.1 inner
    simpa [slashes, List.infix_cons_iff] using absent
  · obtain ⟨before, rfl, last⟩ := afterLast?_slashes_iff.1 inner
    exact afterLast?_slashes_iff.2 ⟨front ++ (slashes ++ ' ' :: before), by simp, last⟩

private theorem trim_line (a : Assignment) (filled : comment ≠ "")
    (trimmed : Text.Trimmed comment.toList) :
    Text.trim (a.line comment).toList =
      "resp[\"".toList ++ (a.key.toList ++ ("\"]".toList ++
        (" = ".toList ++ a.value.toList ++ ' ' :: (slashes ++ ' ' :: comment.toList)))) := by
  have text : (a.line comment).toList = a.indent.toList ++ ("resp[\"".toList ++ (a.key.toList ++
      ("\"]".toList ++ (" = ".toList ++ a.value.toList ++
        ' ' :: (slashes ++ ' ' :: comment.toList))))) := by
    simp [Assignment.line, slashes]
  rw [text, Text.trim_blank_append a.blank]
  refine Text.trim_eq_self ⟨?_, ?_⟩
  · rintro c ⟨⟩
    rfl
  · intro c last
    refine trimmed.ends c ?_
    obtain ⟨d, rest, same⟩ := List.exists_cons_of_ne_nil (mt String.toList_eq_nil_iff.1 filled)
    rw [same] at last ⊢
    simpa [List.getLast?_append, List.getLast?_cons, slashes] using last

/-- A line is read as the comment after its last two slashes describes the key. -/
theorem responseOn_line (a : Assignment) (filled : comment ≠ "")
    (trimmed : Text.Trimmed comment.toList) :
    responseOn (a.line comment) = some (Response.describe { name := a.key }
      (Text.trim ((Text.afterLast? slashes comment.toList).getD comment.toList))) := by
  have plain : '"' ∉ a.key.toList := Ident.not_mem_of_isTail_eq_false a.valid (by decide)
  have key : ∀ rest, key? ('"' :: (a.key.toList ++ ("\"]".toList ++ rest))) = some a.key.toList :=
    Text.before?_append plain [']']
  have lead : ∀ rest, "resp[".toList.isPrefixOf? ("resp[\"".toList ++ rest) =
      some ('"' :: rest) := fun _ => rfl
  have last := afterLast?_comment ("resp[\"".toList ++ (a.key.toList ++ ("\"]".toList ++
    (" = ".toList ++ a.value.toList ++ [' '])))) comment.toList
  -- The blank after the slashes is trimmed with the comment.
  have same : Text.trim ((Text.afterLast? slashes comment.toList).getD (' ' :: comment.toList)) =
      Text.trim ((Text.afterLast? slashes comment.toList).getD comment.toList) := by
    cases Text.afterLast? slashes comment.toList with
    | none => exact Text.trim_cons rfl _
    | some rest => rfl
  simp only [List.append_assoc, List.singleton_append] at last
  rw [responseOn, trim_line a filled trimmed]
  refine response?_eq_some_iff.2 ⟨_, _, lead _, key _, ?_⟩
  simp only [List.append_assoc, last, Option.map_some, Option.getD_some, String.ofList_toList,
    same]

end Line

/-! ## Comments -/

section Comment

variable {head rest : List Char} {c : Char}

private theorem headAndTail_word (word : Text.IsWord head) : headAndTail head = (head, []) := by
  rw [headAndTail, Text.cutWhere?_eq_none_iff.2 word.solid]

private theorem headAndTail_words (solid : ∀ c ∈ head, Text.isBlank c = false)
    (blank : Text.isBlank c = true) (rest : List Char) :
    headAndTail (head ++ c :: rest) = (head, Text.trim rest) := by
  rw [headAndTail, Text.cutWhere?_eq_some_iff.2 ⟨c, blank, rfl, solid⟩]

/-- The first word of a comment and the rest of it are parts of it. -/
theorem length_headAndTail_le (comment : List Char) :
    (headAndTail comment).1.length ≤ comment.length ∧
      (headAndTail comment).2.length ≤ comment.length := by
  rcases cut : Text.cutWhere? Text.isBlank comment with _ | ⟨head, rest⟩
  · rw [headAndTail, cut]
    simp
  · obtain ⟨c, -, rfl, -⟩ := Text.cutWhere?_eq_some_iff.1 cut
    have inner := (Text.isInfix_trim rest).length_le
    rw [headAndTail, cut]
    simp only [List.length_append, List.length_cons]
    omega

section Describe

variable {r : Response} {comment tail object element : List Char}

private theorem describe_array (parts : headAndTail comment = (head, tail))
    (marked : object? head = some (TypeToken.arrayMarker ++ element)) :
    r.describe comment = { r with
      objectName := String.ofList element, isArray := true, comment := String.ofList tail } := by
  simp only [Response.describe, parts, marked, Text.isPrefixOf?_append]

private theorem describe_object (parts : headAndTail comment = (head, tail))
    (marked : object? head = some object)
    (single : TypeToken.arrayMarker.isPrefixOf? object = none) :
    r.describe comment = { r with
      objectName := String.ofList object, comment := String.ofList tail } := by
  simp only [Response.describe, parts, marked, single]

/-- More words make the first one a type, whatever it is. -/
theorem describe_words (parts : headAndTail comment = (head, tail)) (plain : object? head = none)
    (more : tail ≠ []) : r.describe comment = { r with
      valueType := String.ofList head, comment := String.ofList tail } := by
  simp only [Response.describe, parts, plain, List.isEmpty_eq_false_iff.2 more, Bool.not_false,
    ↓reduceIte]

private theorem describe_word (parts : headAndTail comment = (head, []))
    (plain : object? head = none) :
    r.describe comment = if String.ofList head ∈ valueTypes
      then { r with valueType := String.ofList head }
      else { r with comment := String.ofList head } := by
  simp only [Response.describe, parts, plain, List.isEmpty_nil, Bool.not_true, Bool.false_eq_true,
    ↓reduceIte, List.contains_iff_mem]

/-- A comment says an object, a type, or nothing but itself. -/
theorem describe_cases (r : Response) (parts : headAndTail comment = (head, tail)) :
    (∃ name isArray, r.describe comment = { r with
      objectName := name, isArray, comment := String.ofList tail }) ∨
    (tail ≠ [] ∧ r.describe comment = { r with
      valueType := String.ofList head, comment := String.ofList tail }) ∨
    (String.ofList head ∈ valueTypes ∧
      r.describe comment = { r with valueType := String.ofList head }) ∨
    r.describe comment = { r with comment := String.ofList head } := by
  rcases plain : object? head with _ | object
  · by_cases more : tail = []
    · subst more
      by_cases known : String.ofList head ∈ valueTypes
      · exact .inr (.inr (.inl ⟨known, by rw [describe_word parts plain, if_pos known]⟩))
      · exact .inr (.inr (.inr (by rw [describe_word parts plain, if_neg known])))
    · exact .inr (.inl ⟨more, describe_words parts plain more⟩)
  · left
    rcases single : TypeToken.arrayMarker.isPrefixOf? object with _ | element
    · exact ⟨_, r.isArray, describe_object parts plain single⟩
    · rw [← List.append_eq_of_isPrefixOf?_eq_some single] at plain
      exact ⟨_, true, describe_array parts plain⟩

/-- What is read as a comment is a part of it. -/
theorem length_describe_le (silent : r.comment = "") (comment : List Char) :
    (r.describe comment).comment.toList.length ≤ comment.length := by
  have ⟨shortHead, shortTail⟩ := length_headAndTail_le comment
  rcases describe_cases r (Prod.eta _).symm with
    ⟨_, _, same⟩ | ⟨-, same⟩ | ⟨-, same⟩ | same
  · rw [same, String.toList_ofList]
    exact shortTail
  · rw [same, String.toList_ofList]
    exact shortTail
  · rw [same, silent]
    exact Nat.zero_le _
  · rw [same, String.toList_ofList]
    exact shortHead

end Describe

end Comment

/-! ## Kinds of values -/

namespace ValueKind

private theorem toList_text_object (mark : ObjectMark) (isArray : Bool) (name : String)
    (valid : Ident.isValid name = true) : (object mark isArray name valid).text.toList =
      mark.text.toList ++ ((if isArray then TypeToken.arrayMarker else []) ++ name.toList) := by
  cases isArray <;> simp [text, TypeToken.arrayMarker]

private theorem isWord_text (kind : ValueKind) : Text.IsWord kind.text.toList := by
  cases kind with
  | type name known =>
    have words : ∀ name ∈ valueTypes,
        name.toList.isEmpty = false ∧ name.toList.any Text.isBlank = false := by decide +kernel
    exact Text.isWord_of_any (words name known).1 (words name known).2
  | object mark isArray name valid =>
    have word := Ident.isWord valid
    rw [toList_text_object]
    refine ⟨by simp [word.filled], List.forall_mem_append.2 ⟨?_, List.forall_mem_append.2 ⟨?_, ?_⟩⟩⟩
    · cases mark <;> exact (Text.isWord_of_any rfl rfl).solid
    · cases isArray with
      | true => exact (Text.isWord_of_any rfl rfl).solid
      | false => exact List.forall_mem_nil _
    · exact word.solid

private theorem describe_text (kind : ValueKind) (key : String) {comment : List Char}
    (filled : comment ≠ []) (trimmed : Text.Trimmed comment) :
    Response.describe { name := key } (kind.text.toList ++ ' ' :: comment) =
      kind.response key (String.ofList comment) := by
  have parts : headAndTail (kind.text.toList ++ ' ' :: comment) =
      (kind.text.toList, comment) := by
    rw [headAndTail_words (isWord_text kind).solid rfl, Text.trim_eq_self trimmed]
  cases kind with
  | type name known =>
    have plain : ∀ name ∈ valueTypes, object? name.toList = none := by decide +kernel
    rw [describe_words parts (plain name known) filled, text, String.ofList_toList]
    rfl
  | object mark isArray name valid =>
    have marked : ∀ rest, object? (mark.text.toList ++ rest) = some rest := by
      intro rest
      cases mark <;> rfl
    rw [toList_text_object] at parts ⊢
    cases isArray with
    | true =>
      rw [describe_array parts (marked _), String.ofList_toList]
      rfl
    | false =>
      have single : TypeToken.arrayMarker.isPrefixOf? name.toList = none := by
        refine Text.isPrefixOf?_cons_eq_none [']'] fun first => ?_
        have absent : '[' ∉ name.toList := Ident.not_mem_of_isTail_eq_false valid (by decide)
        exact absent (List.mem_of_head? first)
      simp only [Bool.false_eq_true, ↓reduceIte, List.nil_append] at parts ⊢
      rw [describe_object parts (marked _) single, String.ofList_toList]
      rfl

private theorem slash_not_mem_text (kind : ValueKind) : '/' ∉ kind.text.toList := by
  cases kind with
  | type name known =>
    have plain : ∀ name ∈ valueTypes, '/' ∉ name.toList := by decide +kernel
    exact plain name known
  | object mark isArray name valid =>
    rw [toList_text_object, List.mem_append, List.mem_append, not_or, not_or]
    refine ⟨?_, ?_, Ident.slash_not_mem valid⟩
    · cases mark <;> decide +kernel
    · cases isArray <;> decide +kernel

/-- A kind has no slashes, so the last ones are those of the comment that follows it. -/
theorem afterLast?_text (kind : ValueKind) (comment : List Char) :
    Text.afterLast? slashes (kind.text.toList ++ ' ' :: comment) =
      Text.afterLast? slashes comment := by
  have apart : '/' ∉ kind.text.toList ++ [' '] := by
    simp [slash_not_mem_text kind]
  rw [← List.singleton_append, ← List.append_assoc]
  exact Text.afterLast?_append_of_not_mem apart ['/'] comment

private theorem trimmed_text (kind : ValueKind) {comment : List Char} (filled : comment ≠ [])
    (trimmed : Text.Trimmed comment) :
    Text.Trimmed (kind.text.toList ++ ' ' :: comment) := by
  have word := isWord_text kind
  have joined : Text.Trimmed ([' '].intercalate [kind.text.toList, comment]) := by
    refine Text.trimmed_intercalate [' '] ?_
    simp only [List.forall_mem_cons]
    exact ⟨⟨word.filled, word.trimmed⟩, ⟨filled, trimmed⟩, List.forall_mem_nil _⟩
  simpa using joined

end ValueKind

/-- What a kit records for a line of the handler that decides: the response stands between those of
the lines before it and those of the lines after it. -/
def RecordedFor (line : String) (response : Response) : Prop :=
  ∀ lines handler before after, Decides lines handler (before ++ line :: after) →
    (ofLines lines).handlers.get? handler =
      some (responsesOn before ++ response :: responsesOn after)

private theorem recordedFor_of_responseOn {line : String} {response : Response}
    (declared : responseOn line = some response) : RecordedFor line response := by
  intro lines handler before after decides
  rw [get?_ofLines_of_decides decides, responsesOn_append_cons, declared]
  rfl

/-- A line is read as what follows the last two slashes of its comment, which is not all of it. -/
theorem describe_ne_of_afterLast? {comment rest : List Char} {response : Response} (key : String)
    (found : Text.afterLast? slashes comment = some rest)
    (whole : response.comment = String.ofList comment) :
    Response.describe { name := key } (Text.trim rest) ≠ response := by
  intro same
  obtain ⟨before, rfl, -⟩ := afterLast?_slashes_iff.1 found
  have silent : ({ name := key } : Response).comment = "" := rfl
  have short := length_describe_le silent (Text.trim rest)
  have inner := (Text.isInfix_trim rest).length_le
  rw [same, whole, String.toList_ofList] at short
  simp only [slashes, List.length_append, List.length_cons] at short
  omega

/-- A kind is read as it is written, together with its comment, exactly if there are no two slashes
in the comment.  Otherwise what follows the last two of them is all that is read.  Slashes in the
value make no difference. -/
theorem kind_read_iff (a : Assignment) (kind : ValueKind) {comment : String}
    (filled : comment ≠ "") (trimmed : Text.Trimmed comment.toList) :
    ∃ response, responseOn (a.line (kind.text ++ " " ++ comment)) = some response ∧
      RecordedFor (a.line (kind.text ++ " " ++ comment)) response ∧
      (response = kind.response a.key comment ↔ ¬ slashes <:+: comment.toList) ∧
      ∀ before rest, comment.toList = before ++ (slashes ++ rest) →
        ¬ slashes <:+: (slashes ++ rest).tail →
        response = Response.describe { name := a.key } (Text.trim rest) := by
  have some : comment.toList ≠ [] := mt String.toList_eq_nil_iff.1 filled
  have text : (kind.text ++ " " ++ comment).toList =
      kind.text.toList ++ ' ' :: comment.toList := by simp
  have trimmed' : Text.Trimmed (kind.text ++ " " ++ comment).toList := by
    rw [text]
    exact kind.trimmed_text some trimmed
  have filled' : kind.text ++ " " ++ comment ≠ "" := by simp
  have declared := responseOn_line a filled' trimmed'
  refine ⟨_, declared, recordedFor_of_responseOn declared, ?_⟩
  rw [text, kind.afterLast?_text]
  rcases found : Text.afterLast? slashes comment.toList with _ | rest
  · have absent := Text.afterLast?_eq_none_iff.1 found
    rw [text] at trimmed'
    rw [Option.getD_none, Text.trim_eq_self trimmed', kind.describe_text a.key some trimmed,
      String.ofList_toList]
    refine ⟨iff_of_true rfl absent, ?_⟩
    intro before rest same
    exact absurd ⟨before, rest, by rw [same, List.append_assoc]⟩ absent
  · have present : slashes <:+: comment.toList := by
      by_contra absent
      rw [Text.afterLast?_eq_none_iff.2 absent] at found
      cases found
    refine ⟨iff_of_false ?_ (not_not_intro present), ?_⟩
    · refine describe_ne_of_afterLast? a.key found ?_
      rw [String.ofList_toList]
      cases kind <;> rfl
    · intro before other same last
      rw [afterLast?_slashes_iff.2 ⟨before, same, last⟩] at found
      cases found
      rfl

/-- A kit of one handler, with one line in it. -/
def handlerAround (line : String) : List String :=
  ["func ListApi(req *Req) \x7b", line, "\x7d"]

private theorem decides_handlerAround {line : String} (inner : ¬ IsBoundary line) :
    Decides (handlerAround line) "ListApi" [line] :=
  ⟨[], ⟨[], _, _, rfl, by decide +kernel, by decide +kernel, List.forall_mem_singleton.2 inner⟩,
    fun _ _ => not_closedIn_nil⟩

/-- A line for the key `items`. -/
def itemsAssignment : Assignment where
  indent := "\t"
  key := "items"
  value := "items"
  blank := Text.isBlank_of_mem rfl
  valid := by decide +kernel

/-- The same key, with slashes in its value. -/
def fetchedAssignment : Assignment :=
  { itemsAssignment with value := "get(\"http://items\")" }

def itemsKind : ValueKind := .object .sign true "Item" (by decide +kernel)

theorem kind_read_iff_items :
    fetchedAssignment.line (itemsKind.text ++ " " ++ "up to 5 / \"page\"") =
      "\tresp[\"items\"] = get(\"http://items\") // @[]Item up to 5 / \"page\"" ∧
    Text.Trimmed "up to 5 / \"page\"".toList ∧ ¬ slashes <:+: "up to 5 / \"page\"".toList ∧
    (ofLines (handlerAround (fetchedAssignment.line
        (itemsKind.text ++ " " ++ "up to 5 / \"page\"")))).handlers.get? "ListApi" =
      some [{ name := "items", isArray := true, objectName := "Item"
              comment := "up to 5 / \"page\"" }] := by
  have trimmed : Text.Trimmed "up to 5 / \"page\"".toList := by decide +kernel
  have unslashed : ¬ slashes <:+: "up to 5 / \"page\"".toList := by decide +kernel
  have filled : "up to 5 / \"page\"" ≠ "" := by decide
  obtain ⟨response, -, recorded, read, -⟩ :=
    kind_read_iff fetchedAssignment itemsKind filled trimmed
  refine ⟨by decide +kernel, trimmed, unslashed, ?_⟩
  rw [recorded _ "ListApi" [] [] (decides_handlerAround (by decide +kernel)), read.2 unslashed]
  rfl

def textKind : ValueKind := .type "str" (by decide +kernel)

/-- An address in the comment hides the type: what follows its slashes is all that is read. -/
theorem kind_hidden_by_link : ∃ response,
    (ofLines (handlerAround (itemsAssignment.line
        (textKind.text ++ " " ++ "see http://items/all")))).handlers.get? "ListApi" =
      some [response] ∧
    response = { name := "items", comment := "items/all" } ∧
    Text.Trimmed "see http://items/all".toList ∧
    textKind.response "items" "see http://items/all" =
      { name := "items", valueType := "str", comment := "see http://items/all" } ∧
    response ≠ textKind.response "items" "see http://items/all" := by
  refine ⟨{ name := "items", comment := "items/all" }, ?_⟩
  decide +kernel

/-! ## Comments that name no kind -/

/-- A text that goes on after its first word, with a blank in between. -/
def FirstWord (s first rest : List Char) : Prop :=
  ∃ c, Text.isBlank c = true ∧ s = first ++ c :: rest ∧ ∀ d ∈ first, Text.isBlank d = false

/-- A comment that starts with no kind of value. -/
structure PlainComment (comment : String) : Prop where
  filled : comment ≠ ""
  trimmed : Text.Trimmed comment.toList
  unslashed : ¬ slashes <:+: comment.toList
  untyped : ∀ first ∈ (Text.words comment.toList).head?, String.ofList first ∉ valueTypes
  unmarked : ∀ (mark : ObjectMark), ∀ first ∈ (Text.words comment.toList).head?,
    mark.text.toList.isPrefixOf first = false

section PlainComment

variable {s first rest : List Char} {comment : String}

/-- The first word of a comment ends at the first blank. -/
theorem firstWord_iff :
    FirstWord s first rest ↔ Text.cutWhere? Text.isBlank s = some (first, rest) :=
  Text.cutWhere?_eq_some_iff.symm

/-- A comment is parted after its first word, and what follows it is trimmed. -/
theorem FirstWord.headAndTail (goesOn : FirstWord s first rest) :
    headAndTail s = (first, Text.trim rest) := by
  rw [Kit.headAndTail, firstWord_iff.1 goesOn]

/-- In a trimmed text, something stands before the first blank and something after it. -/
theorem FirstWord.filled (goesOn : FirstWord s first rest) (trimmed : Text.Trimmed s) :
    Text.IsWord first ∧ Text.trim rest ≠ [] := by
  obtain ⟨c, blank, rfl, solid⟩ := goesOn
  refine ⟨⟨?_, solid⟩, ?_⟩
  · rintro rfl
    rw [trimmed.starts c rfl] at blank
    cases blank
  · intro empty
    -- The text would end in blanks.
    obtain ⟨before, after, blankBefore, blankAfter, whole⟩ := Text.exists_blanks_around rest
    rw [empty, List.nil_append] at whole
    have blanks : ∀ d ∈ c :: rest, Text.isBlank d = true := by
      rw [whole, List.forall_mem_cons, List.forall_mem_append]
      exact ⟨blank, Text.isBlank_of_mem blankBefore, Text.isBlank_of_mem blankAfter⟩
    obtain ⟨d, last⟩ : ∃ d, (c :: rest).getLast? = some d := ⟨_, List.getLast?_cons⟩
    have solid := trimmed.ends d (by rw [List.getLast?_append, last]; rfl)
    rw [blanks d (List.mem_of_getLast? last)] at solid
    cases solid

private theorem object?_eq_none
    (unmarked : ∀ mark : ObjectMark, mark.text.toList.isPrefixOf s = false) :
    object? s = none := by
  have missing : ∀ mark : ObjectMark, mark.text.toList.isPrefixOf? s = none :=
    fun mark => Text.isPrefixOf?_eq_none_iff.2 (unmarked mark)
  rw [object?, Option.or_eq_none_iff]
  exact ⟨missing .sign, missing .word⟩

/-- A word is kept, for it is no type. -/
theorem PlainComment.describe_word (plain : PlainComment comment)
    (solid : ∀ c ∈ comment.toList, Text.isBlank c = false) (key : String) :
    Response.describe { name := key } comment.toList = { name := key, comment } := by
  have word : Text.IsWord comment.toList :=
    ⟨mt String.toList_eq_nil_iff.1 plain.filled, solid⟩
  have first : comment.toList ∈ (Text.words comment.toList).head? := by
    rw [word.words_eq]
    rfl
  have untyped := plain.untyped _ first
  have unmarked := object?_eq_none fun mark => plain.unmarked mark _ first
  rw [Kit.describe_word (headAndTail_word word) unmarked, if_neg untyped, String.ofList_toList]

/-- The first of several words is taken for a type. -/
theorem PlainComment.describe_words (plain : PlainComment comment)
    (goesOn : FirstWord comment.toList first rest) (key : String) :
    Response.describe { name := key } comment.toList =
      { name := key, valueType := String.ofList first
        comment := String.ofList (Text.trim rest) } := by
  obtain ⟨word, more⟩ := goesOn.filled plain.trimmed
  have firstWord : first ∈ (Text.words comment.toList).head? := by
    obtain ⟨c, blank, whole, -⟩ := goesOn
    rw [whole, Text.words_append blank, word.words_eq]
    rfl
  have unmarked := object?_eq_none fun mark => plain.unmarked mark _ firstWord
  rw [Kit.describe_words goesOn.headAndTail unmarked more]

/-- The type that is recorded for a line: one of the table, or else the first word of its comment,
which goes on after it. -/
theorem valueType_of_responseOn {line : String} {response : Response}
    (declared : responseOn line = some response) :
    response.valueType ∈ "object" :: valueTypes ∨
      ∃ comment first rest, Text.afterLast? slashes (Text.trim line.toList) = some comment ∧
        FirstWord (Text.trim comment) first rest ∧ response.valueType = String.ofList first ∧
        response.comment = String.ofList (Text.trim rest) := by
  obtain ⟨rest, key, -, -, rfl⟩ := response?_eq_some_iff.1 declared
  rcases Text.afterLast? slashes (Text.trim line.toList) with _ | comment
  · exact .inl List.mem_cons_self
  · simp only [Option.map_some, Option.getD_some]
    have parts := (Prod.eta (headAndTail (Text.trim comment))).symm
    rcases describe_cases { name := String.ofList key } parts with
      ⟨_, _, same⟩ | ⟨more, same⟩ | ⟨known, same⟩ | same
    · exact .inl (by rw [same]; exact List.mem_cons_self)
    · right
      rcases cut : Text.cutWhere? Text.isBlank (Text.trim comment) with _ | ⟨first, rest⟩
      · rw [headAndTail, cut] at more
        exact absurd rfl more
      · have goesOn := firstWord_iff.2 cut
        rw [same, goesOn.headAndTail]
        exact ⟨comment, first, rest, rfl, goesOn, rfl, rfl⟩
    · exact .inl (by rw [same]; exact List.mem_cons_of_mem _ known)
    · exact .inl (by rw [same]; exact List.mem_cons_self)

/-- A line that assigns a response with a plain comment is read as that response. -/
theorem PlainComment.responseOn_line (plain : PlainComment comment) (a : Assignment) :
    responseOn (a.line comment) =
      some (Response.describe { name := a.key } comment.toList) := by
  rw [Kit.responseOn_line a plain.filled plain.trimmed,
    Text.afterLast?_eq_none_iff.2 plain.unslashed, Option.getD_none,
    Text.trim_eq_self plain.trimmed]

/-- A plain comment is kept word for word exactly if it is one word. -/
theorem PlainComment.kept_iff (plain : PlainComment comment) (key : String) :
    Response.describe { name := key } comment.toList = { name := key, comment } ↔
      ∀ c ∈ comment.toList, Text.isBlank c = false := by
  constructor
  · intro kept
    rcases cut : Text.cutWhere? Text.isBlank comment.toList with _ | ⟨first, rest⟩
    · exact Text.cutWhere?_eq_none_iff.1 cut
    · -- What is left without the first word is too short.
      have goesOn := firstWord_iff.2 cut
      rw [plain.describe_words goesOn, Response.mk.injEq] at kept
      obtain ⟨c, -, whole, -⟩ := goesOn
      have short := congrArg (·.toList.length) kept.2.2.2.2
      have inner := (Text.isInfix_trim rest).length_le
      simp only [String.toList_ofList, whole, List.length_append, List.length_cons] at short
      omega
  · exact fun solid => plain.describe_word solid key

/-- A comment that names no kind is kept as it is exactly if it is one word.  The first of several
words is recorded as the type of the value, and every recorded type is such a word unless it is one
of the table or that of an object. -/
theorem plain_comment_kept_iff (lines : List String) (handler : String) :
    (∀ (a : Assignment) (comment : String) (before after : List String), PlainComment comment →
      Decides lines handler (before ++ a.line comment :: after) → ∃ response,
        (ofLines lines).handlers.get? handler =
          some (responsesOn before ++ response :: responsesOn after) ∧
        (response = { name := a.key, comment } ↔ ∀ c ∈ comment.toList, Text.isBlank c = false) ∧
        ∀ first rest, FirstWord comment.toList first rest → response =
          { name := a.key, valueType := String.ofList first
            comment := String.ofList (Text.trim rest) }) ∧
    ∀ responses, (ofLines lines).handlers.get? handler = some responses →
      ∀ response ∈ responses, response.valueType ∈ "object" :: valueTypes ∨
        ∃ line ∈ lines, ∃ comment first rest,
          Text.afterLast? slashes (Text.trim line.toList) = some comment ∧
          FirstWord (Text.trim comment) first rest ∧ response.valueType = String.ofList first ∧
          response.comment = String.ofList (Text.trim rest) := by
  constructor
  · intro a comment before after plain decides
    refine ⟨_, recordedFor_of_responseOn (plain.responseOn_line a) _ _ _ _ decides,
      plain.kept_iff a.key, ?_⟩
    exact fun first rest goesOn => plain.describe_words goesOn a.key
  · intro responses found response member
    obtain ⟨body, ⟨after, closed, -⟩, rfl⟩ := get?_ofLines_iff.1 found
    obtain ⟨line, inside, declared⟩ := List.mem_filterMap.1 member
    refine (valueType_of_responseOn declared).imp_right fun named => ⟨line, ?_, named⟩
    obtain ⟨before, opener, closer, rfl, -⟩ := closed
    simp [inside]

end PlainComment

private theorem plainComment_internal :
    PlainComment "internal" ∧ PlainComment "internal id of the user" := by
  constructor <;> refine ⟨by decide, by decide +kernel, by decide +kernel, by decide +kernel, ?_⟩
  · intro mark
    cases mark <;> decide +kernel
  · intro mark
    cases mark <;> decide +kernel

/-- What a kit records for a comment of one word, and for one of several. -/
theorem plain_comment_kept_iff_internal :
    PlainComment "internal" ∧ PlainComment "internal id of the user" ∧
    (ofLines (handlerAround (itemsAssignment.line "internal"))).handlers.get? "ListApi" =
      some [{ name := "items", comment := "internal" }] ∧
    (ofLines (handlerAround (itemsAssignment.line "internal id of the user"))).handlers.get?
        "ListApi" =
      some [{ name := "items", valueType := "internal", comment := "id of the user" }] := by
  have ⟨word, words⟩ := plainComment_internal
  have decides : ∀ comment, ¬ IsBoundary (itemsAssignment.line comment) →
      Decides (handlerAround (itemsAssignment.line comment)) "ListApi"
        ([] ++ itemsAssignment.line comment :: []) := fun _ => decides_handlerAround
  obtain ⟨_, recorded, kept, -⟩ := (plain_comment_kept_iff _ "ListApi").1 itemsAssignment
    "internal" [] [] word (decides _ (by decide +kernel))
  obtain ⟨_, recorded', -, typed⟩ := (plain_comment_kept_iff _ "ListApi").1 itemsAssignment
    "internal id of the user" [] [] words (decides _ (by decide +kernel))
  have goesOn : FirstWord "internal id of the user".toList "internal".toList
      "id of the user".toList := ⟨' ', rfl, rfl, (Text.isWord_of_any rfl rfl).solid⟩
  refine ⟨word, words, ?_, ?_⟩
  · rw [recorded, kept.2 (Text.isWord_of_any rfl rfl).solid]
    rfl
  · rw [recorded', typed _ _ goesOn]
    decide +kernel

/-- The first word of a comment is recorded as a type that the table does not have. -/
theorem plain_comment_read_as_type : ∃ response,
    (ofLines (handlerAround (itemsAssignment.line "internal id of the user"))).handlers.get?
      "ListApi" = some [response] ∧
    response = { name := "items", valueType := "internal", comment := "id of the user" } ∧
    PlainComment "internal id of the user" ∧ response.valueType ∉ "object" :: valueTypes ∧
    response ≠ { name := "items", comment := "internal id of the user" } :=
  ⟨_, by decide +kernel, rfl, plainComment_internal.2, by decide, by decide⟩

end ApiOutline.Kit
