import ApiOutline.Proofs.Written

/-!
The lines that are written for declarations, read again.

A root, a group, an endpoint or a field that some line declares is declared by the line that is
written for it, with another line number and with a comment that has lost its backslashes.  Only the
rule of a field is more than words: it is cut out of a text that was put together from words, so its
blanks are single spaces and it comes back as it was.
-/

namespace ApiOutline.Outline

variable {raw : List Char} {line depth : Nat}

/-! ## Roots, groups and endpoints -/

private theorem mem_of_rootParts? {ws : List (List Char)} {name version : List Char}
    (parts : rootParts? ws = some (name, version)) :
    name ∈ ws ∧ (version ∈ ws ∨ version = defaultVersion) := by
  unfold rootParts? at parts
  split at parts
  · split at parts
    · cases parts
      simp
    · cases parts
  · split at parts
    · cases parts
      simp
    · cases parts
  · cases parts

/-- A root that was read is read again from the line it is written as. -/
theorem parseRoot_written {routePrefix version : String}
    (parsed : parseRoot raw = .ok (routePrefix, version)) :
    let root := "root " ++ routePrefix ++ " " ++ version
    parseRoot root.toList = .ok (routePrefix, version) ∧ Text.IsLine root.toList := by
  obtain ⟨name, number, parts, valid, numbered, same⟩ := parseRoot_ok_iff.1 parsed
  cases same
  obtain ⟨named, versioned⟩ := mem_of_rootParts? parts
  have writable : Writable [rootWord, name, number] "" := by
    refine ⟨?_, ⟨nofun, nofun⟩, nofun⟩
    have numberToken : IsToken number := by
      rcases versioned with member | rfl
      · exact tokens_statement raw number member
      · exact ⟨Text.isWord_of_any rfl rfl, rfl⟩
    simp only [List.forall_mem_cons]
    exact ⟨⟨Text.isWord_of_any rfl rfl, rfl⟩, tokens_statement raw name named, numberToken, nofun⟩
  have line : "root " ++ String.ofList name ++ " " ++ String.ofList number =
      written 0 [rootWord, name, number] "" := by
    rw [← String.toList_inj, toList_written]
    simp [rootWord, commentSuffix]
  simp only [line]
  refine ⟨parseRoot_ok_iff.2 ⟨name, number, ?_, valid, numbered, rfl⟩, isLine_written writable 0⟩
  rw [statement_written writable]
  rfl

private theorem isIdent_head {name : List Char} (valid : Ident.isIdent name = true) :
    name.head? ≠ some '-' := by
  intro dash
  obtain ⟨rest, rfl⟩ := List.head?_eq_some_iff.1 dash
  cases valid

/-- A group that was read is read again from the line it is written as, but for escapes in its
comment. -/
theorem parseGroup_written (dialect : Dialect) {g : Group} (whole : '\n' ∉ raw)
    (parsed : parseGroup line raw = .ok g) :
    Legible dialect 0 (g.name ++ commentSuffix g.comment) ∧
      ∀ again, parseGroup again (g.name ++ commentSuffix g.comment).toList =
        .ok { g with comment := unescapeText g.comment, line := again } := by
  obtain ⟨name, rest, words, valid, rfl⟩ := parseGroup_ok_iff.1 parsed
  have writable : Writable [name] (statement raw).2 :=
    (writable_statement whole).replace
      (List.forall_mem_singleton.2 (tokens_statement raw name (by simp [words])))
  have text : String.ofList name ++ commentSuffix (statement raw).2 =
      written 0 [name] (statement raw).2 := by
    rw [← String.toList_inj, toList_written]
    simp
  simp only [text]
  refine ⟨legible_written writable fun _ => isIdent_head valid, fun again => ?_⟩
  refine parseGroup_ok_iff.2 ⟨name, [], ?_, valid, ?_⟩ <;> rw [statement_written writable]

private theorem methodOfWord_name (method : Method) : methodOfWord method.name.toList = method := by
  cases method <;> rfl

private theorem protocolOfWord_name (protocol : Protocol) :
    protocolOfWord protocol.name.toList = .ok protocol := by
  cases protocol <;> rfl

/-- The word of an authentication, or of none, is read as the same. -/
private theorem auth_written {modifiers : List (List Char)} (tokens : ∀ w ∈ modifiers, IsToken w) :
    let auth := modifiers[1]?.bind authOfWord
    IsToken (auth.getD Endpoint.noAuth).toList ∧
      authOfWord (auth.getD Endpoint.noAuth).toList = auth := by
  have absent : IsToken Endpoint.noAuth.toList ∧ authOfWord Endpoint.noAuth.toList = none :=
    ⟨⟨Text.isWord_of_any rfl rfl, rfl⟩, rfl⟩
  cases found : modifiers[1]? with
  | none => exact absent
  | some word =>
    by_cases none : String.ofList word = Endpoint.noAuth
    · have asked : authOfWord word = Option.none := if_pos none
      simp only [Option.bind_some, asked]
      exact absent
    · have asked : authOfWord word = some (String.ofList word) := if_neg none
      simp only [Option.bind_some, asked, Option.getD_some, String.toList_ofList, and_true]
      exact tokens word (List.mem_of_getElem? found)

/-- An endpoint that was read is read again from the line it is written as, but for escapes in its
comment. -/
theorem parseEndpoint_written {dialect : Dialect} {group : String} {e : Endpoint}
    (whole : '\n' ∉ raw) (parsed : parseEndpoint dialect group line raw = .ok e) :
    Legible dialect 1 (indented 1 e.render) ∧
      ∀ again, parseEndpoint dialect group again (indented 1 e.render).toList =
        .ok { e with comment := unescapeText e.comment, line := again } := by
  obtain ⟨name, modifiers, protocol, words, few, checked, chosen, rfl⟩ :=
    parseEndpoint_ok_iff.1 parsed
  have tokens := tokens_statement raw
  rw [words, List.forall_mem_cons] at tokens
  obtain ⟨authToken, authAgain⟩ := auth_written tokens.2
  unfold endpointOf
  generalize (modifiers[0]?.map methodOfWord).getD .get = method
  generalize modifiers[1]?.bind authOfWord = auth at authToken authAgain ⊢
  have methodToken : IsToken method.name.toList := by
    cases method <;> exact ⟨Text.isWord_of_any rfl rfl, rfl⟩
  have protocolToken : IsToken protocol.name.toList := by
    cases protocol <;> exact ⟨Text.isWord_of_any rfl rfl, rfl⟩
  have writable : Writable
      [name, method.name.toList, (auth.getD Endpoint.noAuth).toList, protocol.name.toList]
      (statement raw).2 := by
    refine (writable_statement whole).replace ?_
    simp only [List.forall_mem_cons]
    exact ⟨tokens.1, methodToken, authToken, protocolToken, List.forall_mem_nil _⟩
  have text : indented 1 (String.ofList name ++ " " ++ method.name ++ " " ++
        auth.getD Endpoint.noAuth ++ " " ++ protocol.name ++ commentSuffix (statement raw).2) =
      written 1 [name, method.name.toList, (auth.getD Endpoint.noAuth).toList,
        protocol.name.toList] (statement raw).2 := by
    rw [← String.toList_inj, toList_written]
    simp [indented]
  simp only [Endpoint.render, text]
  refine ⟨legible_written writable (absurd · Nat.one_ne_zero), fun again => parseEndpoint_ok_iff.2
    ⟨name, _, protocol, congrArg Prod.fst (statement_written writable 1), by simp, checked,
      protocolOfWord_name protocol, ?_⟩⟩
  simp [endpointOf, statement_written writable, methodOfWord_name, authAgain]

/-! ## Rules -/

/-- A rule as a reading leaves it. -/
structure IsRule (rule : List Char) : Prop where
  /-- Its blanks are single spaces. -/
  spaced : Text.Spaced rule
  /-- No comment starts in it. -/
  free : CommentFree rule
  /-- It has no quote. -/
  unquoted : '"' ∉ rule

def flagWord (required : Bool) : List Char := (if required then "true" else "false").toList

/-- A rule as it follows a flag. -/
def ruleText (rule : String) : List Char :=
  if rule = "" then [] else ':' :: '"' :: (rule.toList ++ ['"'])

/-- What a section makes of the text after a flag. -/
def ruleOf (residual : List Char) : Scope → Except GrammarFault String
  | .request => parseRule residual
  | .response => .ok ""

private theorem toList_ruleText (rule : String) :
    (if rule = "" then "" else ":\"" ++ rule ++ "\"").toList = ruleText rule := by
  unfold ruleText
  split <;> simp

section Rules

variable {scope : Scope} {required : Bool} {rule : String} {flags : List Char}

/-- A rule is what stands between two quotes. -/
theorem quoted_of_parseRule {residual : List Char} (parsed : parseRule residual = .ok rule) :
    rule = "" ∨ '"' ∉ rule.toList ∧ ('"' :: (rule.toList ++ ['"'])) <:+: residual := by
  unfold parseRule at parsed
  have inner : ([':'].isPrefixOf? residual).getD residual <:+: residual := by
    cases found : [':'].isPrefixOf? residual with
    | none => exact List.infix_rfl
    | some rest =>
      rw [← List.append_eq_of_isPrefixOf?_eq_some found]
      exact (List.suffix_cons ':' rest).isInfix
  split at parsed
  · cases parsed
    exact .inl rfl
  · next quoted starts =>
    split at parsed
    · next text after cut =>
      cases parsed
      obtain ⟨rfl, absent⟩ := Text.cut?_eq_some_iff.1 cut
      rw [String.toList_ofList]
      have whole := (Text.isInfix_trim _).trans inner
      rw [starts] at whole
      refine .inr ⟨absent, .trans ⟨[], after, ?_⟩ whole⟩
      simp
    · cases parsed
  · cases parsed

private theorem parseFlags_flagWord (scope : Scope) (required : Bool) (residual : List Char) :
    parseFlags scope (flagWord required ++ residual) =
      (ruleOf residual scope).map (required, ·) := by
  have apart : "true".toList.isPrefixOf? (flagWord false ++ residual) = none := rfl
  cases required with
  | true =>
    rw [parseFlags, show flagWord true = "true".toList from rfl, Text.isPrefixOf?_append]
    cases scope <;> rfl
  | false =>
    rw [parseFlags, apart, show flagWord false = "false".toList from rfl, Text.isPrefixOf?_append]
    cases scope <;> rfl

private theorem starts_of_parseFlags {parts : Bool × String}
    (parsed : parseFlags scope flags = .ok parts) :
    ∃ required residual, flags = flagWord required ++ residual := by
  cases yes : "true".toList.isPrefixOf? flags with
  | some residual => exact ⟨true, residual, (List.append_eq_of_isPrefixOf?_eq_some yes).symm⟩
  | none =>
    cases no : "false".toList.isPrefixOf? flags with
    | some residual => exact ⟨false, residual, (List.append_eq_of_isPrefixOf?_eq_some no).symm⟩
    | none =>
      unfold parseFlags at parsed
      rw [yes, no] at parsed
      cases parsed

/-- Only a request has rules, and a rule stands between two quotes. -/
theorem quoted_of_parseFlags (parsed : parseFlags scope flags = .ok (required, rule)) :
    rule = "" ∨
      scope = .request ∧ '"' ∉ rule.toList ∧ ('"' :: (rule.toList ++ ['"'])) <:+: flags := by
  obtain ⟨flag, residual, rfl⟩ := starts_of_parseFlags parsed
  rw [parseFlags_flagWord] at parsed
  cases scope with
  | response =>
    cases parsed
    exact .inl rfl
  | request =>
    cases found : parseRule residual with
    | error cause => simp [ruleOf, found, Except.map] at parsed
    | ok rule' =>
      simp only [ruleOf, found, Except.map, Except.ok.injEq, Prod.mk.injEq] at parsed
      obtain ⟨rfl, rfl⟩ := parsed
      refine (quoted_of_parseRule found).imp_right fun ⟨unquoted, inside⟩ => ⟨rfl, unquoted, ?_⟩
      exact inside.trans (List.suffix_append (flagWord flag) residual).isInfix

/-- What the words after a type give is a rule, and none for a response. -/
theorem isRule_of_flagsOf {rest : List (List Char)} (tokens : ∀ w ∈ rest, IsToken w)
    (parsed : flagsOf scope rest = .ok (required, rule)) :
    IsRule rule.toList ∧ (rule ≠ "" → scope = .request) := by
  have empty : rule = "" → IsRule rule.toList ∧ (rule ≠ "" → scope = .request) := by
    rintro rfl
    exact ⟨⟨⟨.nil, nofun⟩, rfl, nofun⟩, fun filled => absurd rfl filled⟩
  unfold flagsOf at parsed
  split at parsed
  · cases parsed
    exact empty rfl
  · rcases quoted_of_parseFlags parsed with none | ⟨request, unquoted, inside⟩
    · exact empty none
    · have spaced := Text.spaced_intercalate fun w member => (tokens w member).toIsWord
      have free := commentFree_intercalate fun w member => (tokens w member).free
      -- Quotes neither start nor escape a comment, so the rule between them is free of one.
      obtain ⟨before, after, whole⟩ := inside
      have around : before ++ '"' :: (rule.toList ++ '"' :: after) = [' '].intercalate rest := by
        rw [← whole]
        simp
      rw [← around] at spaced free
      have inner := ((commentFree_append_iff (by decide) (by decide) _ _).1 free).2
      refine ⟨⟨?_, ?_, unquoted⟩, fun _ => request⟩
      · exact spaced.inner ⟨before ++ ['"'], '"' :: after, by simp⟩
      · exact ((commentFree_append_iff (by decide) (by decide) _ _).1 inner).1

private theorem parseRule_ruleText (unquoted : '"' ∉ rule.toList) :
    parseRule (ruleText rule) = .ok rule := by
  by_cases empty : rule = ""
  · subst empty
    rfl
  · have text : ruleText rule = ':' :: '"' :: (rule.toList ++ ['"']) :=
      if_neg empty
    have trimmed : Text.Trimmed ('"' :: (rule.toList ++ ['"'])) := by
      refine ⟨?_, ?_⟩
      · rintro c ⟨⟩
        rfl
      · intro c last
        rw [← List.cons_append, List.getLast?_concat] at last
        cases last
        rfl
    have cut : Text.cut? '"' (rule.toList ++ ['"']) = some (rule.toList, []) :=
      Text.cut?_eq_some_iff.2 ⟨rfl, unquoted⟩
    have lead : [':'].isPrefixOf? (':' :: '"' :: (rule.toList ++ ['"'])) =
        some ('"' :: (rule.toList ++ ['"'])) := rfl
    rw [text, parseRule, lead, Option.getD_some, Text.trim_eq_self trimmed]
    simp only [cut, String.ofList_toList]

private theorem ruleOf_ruleText (unquoted : '"' ∉ rule.toList)
    (request : rule ≠ "" → scope = .request) : ruleOf (ruleText rule) scope = .ok rule := by
  cases scope with
  | request => exact parseRule_ruleText unquoted
  | response =>
    have none : rule = "" := Decidable.byContradiction fun filled => nomatch request filled
    rw [none]
    rfl

private theorem isToken_flagWord (required : Bool) : IsToken (flagWord required) := by
  cases required <;> exact ⟨Text.isWord_of_any rfl rfl, rfl⟩

/-- No comment starts in a flag and the rule after it, unless one starts in the rule. -/
theorem commentFree_flags (free : CommentFree rule.toList) (required : Bool) :
    CommentFree (flagWord required ++ ruleText rule) := by
  have flag := (isToken_flagWord required).free
  unfold ruleText
  split
  · rwa [List.append_nil]
  · refine (commentFree_append_iff (by decide) (by decide) _ _).2 ⟨flag, ?_⟩
    refine (commentFree_cons_iff (by decide) (by decide) _).2 ?_
    exact (commentFree_append_iff (by decide) (by decide) _ _).2 ⟨free, rfl⟩

/-- A flag and a rule as they are written: single spaces, and none at the ends. -/
theorem flags_text (isRule : IsRule rule.toList) (required : Bool) :
    Text.Spaced (flagWord required ++ ruleText rule) ∧
      Text.Trimmed (flagWord required ++ ruleText rule) := by
  have flag := isToken_flagWord required
  by_cases empty : rule = ""
  · subst empty
    have text : flagWord required ++ ruleText "" = flagWord required := List.append_nil _
    rw [text]
    exact ⟨flag.spaced, flag.trimmed⟩
  · have text : ruleText rule = [':', '"'] ++ (rule.toList ++ ['"']) :=
      if_neg empty
    have opening : Text.IsWord [':', '"'] := Text.isWord_of_any rfl rfl
    have closing : Text.IsWord ['"'] := Text.isWord_of_any rfl rfl
    rw [text]
    refine ⟨?_, ?_, ?_⟩
    · refine flag.spaced.append (opening.spaced.append ?_ (.inl opening.trimmed.ends))
        (.inl flag.trimmed.ends)
      exact isRule.spaced.append closing.spaced (.inr closing.trimmed.starts)
    · obtain ⟨c, rest, same⟩ := List.exists_cons_of_ne_nil flag.filled
      intro d first
      refine flag.trimmed.starts d ?_
      rw [same] at first ⊢
      exact first
    · intro d last
      rw [← List.append_assoc, ← List.append_assoc, List.getLast?_concat] at last
      cases last
      rfl

private theorem words_flags_ne_nil (required : Bool) (text : List Char) :
    Text.words (flagWord required ++ text) ≠ [] := by
  have flag := isToken_flagWord required
  obtain ⟨rest, joined⟩ := Text.intercalate_words_append flag.toIsWord text
  intro none
  rw [none] at joined
  exact flag.filled (List.append_eq_nil_iff.1 joined.symm).1

private theorem intercalate_flags (isRule : IsRule rule.toList) (required : Bool) :
    [' '].intercalate (Text.words (flagWord required ++ ruleText rule)) =
      flagWord required ++ ruleText rule := by
  obtain ⟨spaced, trimmed⟩ := flags_text isRule required
  exact Text.intercalate_words spaced trimmed (by simp [(isToken_flagWord required).filled])

/-- A flag and a rule are read from the words they are written with. -/
theorem flagsOf_flags (isRule : IsRule rule.toList) (request : rule ≠ "" → scope = .request)
    (required : Bool) :
    flagsOf scope (Text.words (flagWord required ++ ruleText rule)) = .ok (required, rule) := by
  rw [flagsOf, if_neg (words_flags_ne_nil required _), intercalate_flags isRule,
    parseFlags_flagWord, ruleOf_ruleText isRule.unquoted request]
  rfl

/-- In a response, what follows a flag may be any text. -/
theorem flagsOf_response (required : Bool) (text : List Char) :
    flagsOf .response (Text.words (flagWord required ++ text)) = .ok (required, "") := by
  have flag := isToken_flagWord required
  obtain ⟨rest, joined⟩ := Text.intercalate_words_append flag.toIsWord text
  rw [flagsOf, if_neg (words_flags_ne_nil required text), joined, parseFlags_flagWord]
  rfl

end Rules

/-! ## Fields -/

/-- The words of a field, its rule in quotes, and its comment. -/
theorem toList_render (d : FieldDecl) : d.render.toList =
    d.name.toList ++ ' ' :: (d.declaredType.toList ++ ' ' ::
      (flagWord d.required ++ ruleText d.rule)) ++ (commentSuffix d.comment).toList := by
  have flagText : (if d.required = true then "true" else "false").toList = flagWord d.required :=
    rfl
  simp [FieldDecl.render, flagText, toList_ruleText]

/-- A field that was read is read again from the line it is written as, but for escapes in its
comment, and that line is no marker. -/
theorem parseField_written (dialect : Dialect) {scope : Scope} {decl : FieldDecl}
    (whole : '\n' ∉ raw) (parsed : parseField scope line raw = .ok decl)
    (inside : fieldDepth ≤ depth) :
    Legible dialect depth (indented depth decl.render) ∧
      marker? (Text.trim (indented depth decl.render).toList) = none ∧
      ∀ again, parseField scope again (indented depth decl.render).toList =
        .ok { decl with comment := unescapeText decl.comment, line := again } := by
  obtain ⟨name, declared, rest, required, rule, words, valid, flags, rfl⟩ :=
    parseField_ok_iff.1 parsed
  have tokens := tokens_statement raw
  simp only [words, List.forall_mem_cons] at tokens
  obtain ⟨isRule, request⟩ := isRule_of_flagsOf tokens.2.2 flags
  have joined := intercalate_flags isRule required
  have some := words_flags_ne_nil required (ruleText rule)
  have tokens' : ∀ w ∈ Text.words (flagWord required ++ ruleText rule), IsToken w :=
    fun w member => tokens_of_mem_words (commentFree_flags isRule.free required) member
  have flags' := flagsOf_flags isRule request required
  generalize Text.words (flagWord required ++ ruleText rule) = written'
    at joined some tokens' flags'
  have writable : Writable (name :: declared :: written') (statement raw).2 := by
    refine (writable_statement whole).replace ?_
    simp only [List.forall_mem_cons]
    exact ⟨tokens.1, tokens.2.1, tokens'⟩
  have text : indented depth
        (fieldOf name declared required rule (statement raw).2 line).render =
      written depth (name :: declared :: written') (statement raw).2 := by
    rw [← String.toList_inj, toList_written, List.intercalate_cons_cons,
      List.intercalate_cons_of_ne_nil some, joined, indented, String.toList_append, toList_render]
    simp [fieldOf, FieldDecl.ofTypes]
  rw [text]
  refine ⟨legible_written writable fun outermost => ?_,
    marker?_written writable (isIdent_head valid) depth, fun again => ?_⟩
  · rw [outermost] at inside
    exact absurd inside (by decide)
  · refine parseField_ok_iff.2 ⟨name, declared, written', required, rule, ?_, valid, flags', ?_⟩
    · rw [statement_written writable]
    · simp only [statement_written writable, fieldOf]

/-! ## Aliases -/

private theorem marker?_aliases (list : List Char) :
    marker? ("- alias:".toList ++ list) = some (.aliases list) := by
  rw [marker?, Text.isPrefixOf?_append]
  rfl

section Aliases

variable {items : List (List Char)}

private theorem trimmed_aliases (some : items ≠ []) (each : ∀ item ∈ items, Text.IsItem item) :
    Text.Trimmed ("- alias: ".toList ++ [','].intercalate items) := by
  have filled : [','].intercalate items ≠ [] := by
    obtain ⟨first, rest, rfl⟩ := List.exists_cons_of_ne_nil some
    exact Text.intercalate_ne_nil [','] (each first List.mem_cons_self).filled rest
  have trimmed : Text.Trimmed ([','].intercalate items) :=
    Text.trimmed_intercalate [','] fun item member =>
      ⟨(each item member).filled, (each item member).trimmed⟩
  refine ⟨by rintro c ⟨⟩; rfl, fun c last => ?_⟩
  rw [List.getLast?_append, Option.or_eq_some_iff] at last
  rcases last with last | ⟨none, -⟩
  · exact trimmed.ends c last
  · exact absurd (List.getLast?_eq_none_iff.1 none) filled

private theorem whole_aliases (each : ∀ item ∈ items, '\n' ∉ item) :
    '\n' ∉ "- alias: ".toList ++ [','].intercalate items := by
  intro feed
  rcases List.mem_append.1 feed with feed | feed
  · exact absurd feed (by decide)
  · rcases Text.mem_of_mem_intercalate feed with feed | ⟨item, member, feed⟩
    · exact absurd feed (by decide)
    · exact each item member feed

/-- The line of a list of aliases is read as this list. -/
theorem aliases_written (dialect : Dialect) {aliases : List String} (filled : aliases ≠ [])
    (each : ∀ name ∈ aliases, Text.IsItem name.toList ∧ '\n' ∉ name.toList) :
    Legible dialect fieldDepth
        (indented fieldDepth ("- alias: " ++ String.intercalate "," aliases)) ∧
      ∃ list, marker? (Text.trim
          (indented fieldDepth ("- alias: " ++ String.intercalate "," aliases)).toList) =
        some (.aliases list) ∧ (Text.commaItems list).map String.ofList = aliases := by
  obtain ⟨items, rfl⟩ : ∃ items : List (List Char), aliases = items.map String.ofList :=
    ⟨aliases.map String.toList, by simp⟩
  simp only [List.forall_mem_map, String.toList_ofList] at each
  have isItem : ∀ item ∈ items, Text.IsItem item := fun item member => (each item member).1
  have trimmed := trimmed_aliases (mt (congrArg _) filled) isItem
  have whole := whole_aliases fun item member => (each item member).2
  have text : ("- alias: " ++ String.intercalate "," (items.map String.ofList)).toList =
      "- alias: ".toList ++ [','].intercalate items := by
    rw [String.toList_append, String.toList_intercalate]
    simp
  refine ⟨⟨isLine_indented fieldDepth (text ▸ whole) (text ▸ trimmed.ends), ?_⟩,
    ' ' :: [','].intercalate items, ?_, ?_⟩
  · exact standsAt_indented (by rw [text]; rfl) rfl nofun
  · -- The blank after the colon goes to the list, where it is trimmed with the first entry.
    rw [indented, String.toList_append, String.toList_ofList, text, Text.trim_replicate_append,
      Text.trim_eq_self trimmed]
    exact marker?_aliases (' ' :: [','].intercalate items)
  · rw [Text.commaItems_cons rfl (by decide), Text.commaItems_intercalate isItem]

end Aliases

end ApiOutline.Outline
