import ApiOutline.Proofs.Provenance
import ApiOutline.Proofs.Rendering
import ApiOutline.Proofs.TypeToken

/-!
What holds of every compiled model, whatever its lines were.

Each part of a model was read from one line, and a reader accepts nothing malformed; so the shape of
names, types, rules and comments is a matter of single lines.  Only the fields are more: they were
put together from many lines, and the section that a nested field belongs to does not change as long
as the field can still receive children.
-/

namespace ApiOutline

/-- A field that can be reached from some fields: one of them, or inside of one at any depth. -/
inductive Field.Within (fields : List Field) : Field → Prop where
  | outermost {field : Field} (member : field ∈ fields) : Within fields field
  | child {outer field : Field} (within : Within fields outer) (member : field ∈ outer.children) :
      Within fields field

namespace Field

variable {fields inner rest : List Field} {field outer : Field}

/-- What is within the fields that are within others is within these. -/
theorem Within.trans (inside : ∀ f ∈ inner, Within fields f) (within : Within inner field) :
    Within fields field := by
  induction within with
  | outermost member => exact inside _ member
  | child _ member outer => exact .child outer member

theorem not_within_nil : ¬ Within [] field := by
  intro within
  induction within with
  | outermost member => exact List.not_mem_nil member
  | child _ _ none => exact none

/-- What is inside of fields is the first of them, or inside of it, or inside of the others. -/
theorem within_cons : Within (outer :: rest) field ↔
    field = outer ∨ Within outer.children field ∨ Within rest field := by
  constructor
  · intro within
    induction within with
    | outermost member =>
      rcases List.mem_cons.1 member with same | later
      · exact .inl same
      · exact .inr (.inr (.outermost later))
    | child _ member earlier =>
      rcases earlier with rfl | inside | later
      · exact .inr (.inl (.outermost member))
      · exact .inr (.inl (.child inside member))
      · exact .inr (.inr (.child later member))
  · rintro (rfl | inside | later)
    · exact .outermost List.mem_cons_self
    · exact inside.trans fun f member => .child (.outermost List.mem_cons_self) member
    · exact later.trans fun f member => .outermost (List.mem_cons_of_mem outer member)

end Field

/-- What a field has to look like, apart from the fields inside it. -/
structure Field.WellFormed (f : Field) : Prop where
  name : Ident.isValid f.name = true
  declaredType : Text.IsWord f.declaredType.toList
  resolvedType : f.resolvedType = (TypeToken.resolve f.declaredType).target
  isArray : f.isArray = (TypeToken.resolve f.declaredType).isArray
  isNested : f.isNested = (TypeToken.resolve f.declaredType).isNested
  children : f.isNested = false → f.children = []
  rule : '"' ∉ f.rule.toList
  comment : Text.Trimmed f.comment.toList

/-- What an endpoint of a group has to look like. -/
structure Endpoint.WellFormed (dialect : Dialect) (group : String) (e : Endpoint) : Prop where
  group : e.group = group
  /-- Only the last of several segments may be a wildcard, and only in the later dialect. -/
  name : (∀ segment ∈ e.segments, Ident.isIdent segment = true) ∨
    dialect = .v4 ∧ ∃ front, front ≠ [] ∧ e.segments = front ++ [wildcard] ∧
      ∀ segment ∈ front, Ident.isIdent segment = true
  auth : ∀ tag, e.auth = some tag → Text.IsWord tag.toList ∧ tag ≠ "none"
  aliases : ∀ path ∈ e.aliases, Text.IsItem path.toList
  comment : Text.Trimmed e.comment.toList
  requestFields : ∀ field, Field.Within e.requestFields field → field.WellFormed
  /-- Responses are not validated, so nothing inside of one has a rule. -/
  responseFields : ∀ field, Field.Within e.responseFields field →
    field.WellFormed ∧ field.rule = ""

/-- What a group has to look like. -/
structure Group.WellFormed (dialect : Dialect) (g : Group) : Prop where
  name : Ident.isValid g.name = true
  comment : Text.Trimmed g.comment.toList
  endpoints : ∀ e ∈ g.endpoints, e.WellFormed dialect g.name

/-- What a model has to look like. -/
structure Model.WellFormed (dialect : Dialect) (m : Model) : Prop where
  routePrefix : Ident.isValid m.routePrefix = true
  version : ∃ digits, m.version.toList = 'v' :: digits ∧ digits ≠ [] ∧
    ∀ digit ∈ digits, digit.isDigit = true
  groups : ∀ g ∈ m.groups, g.WellFormed dialect

namespace Outline

variable {kind : List Char → Prop}

/-! ## Fields -/

/-- A field that is read from a line is well-formed, with children only if its type has any, and in
a response it has no rule. -/
theorem parseField_wellFormed {scope : Scope} {line : Nat} {raw : List Char} {decl : FieldDecl}
    {children : List Field} (parsed : parseField scope line raw = .ok decl)
    (nested : decl.isNested = true ∨ children = []) :
    Field.WellFormed ⟨decl, children⟩ ∧ (scope = .response → decl.rule = "") := by
  obtain ⟨name, declared, rest, required, rule, words, valid, flags, rfl⟩ :=
    parseField_ok_iff.1 parsed
  have tokens := tokens_statement raw
  simp only [words, List.forall_mem_cons] at tokens
  obtain ⟨isRule, request⟩ := isRule_of_flagsOf tokens.2.2 flags
  constructor
  · constructor
    case name =>
      rw [Ident.isValid, fieldOf, FieldDecl.ofTypes, String.toList_ofList]
      exact valid
    case declaredType =>
      rw [fieldOf, FieldDecl.ofTypes, String.toList_ofList]
      exact tokens.2.1.toIsWord
    case resolvedType => rw [fieldOf, FieldDecl.ofTypes]
    case isArray => rw [fieldOf, FieldDecl.ofTypes, TypeToken.resolve_isArray]
    case isNested => rw [fieldOf, FieldDecl.ofTypes]
    case children =>
      intro scalar
      rcases nested with nested | none
      · exact absurd (nested.symm.trans scalar) (by decide)
      · exact none
    case rule => exact isRule.unquoted
    case comment => exact trimmed_statement raw
  · intro response
    by_contra filled
    rw [request filled] at response
    cases response

/-- Every declared field is well-formed, at any depth. -/
theorem DeclaredField.wellFormed {scope : Scope} {field : Field}
    (declared : DeclaredField kind scope field) :
    field.WellFormed ∧ (scope = .response → field.rule = "") := by
  cases declared with
  | mk _ parsed nested _ => exact parseField_wellFormed parsed nested

/-- What is inside of a declared field was declared in the same section. -/
theorem declared_of_within {scope : Scope} {fields : List Field} {field : Field}
    (declared : ∀ field ∈ fields, DeclaredField kind scope field)
    (within : Field.Within fields field) : DeclaredField kind scope field := by
  induction within with
  | outermost member => exact declared _ member
  | child _ member outer =>
    cases outer with
    | mk _ _ _ inside => exact inside _ member

/-! ## Endpoints -/

/-- Segments that pass the check are identifiers, up to a wildcard at their end. -/
theorem checkSegments_ok {dialect : Dialect} {name : String} {isFirst : Bool}
    {segments : List (List Char)} (checked : checkSegments dialect name isFirst segments = .ok ()) :
    (∀ segment ∈ segments, Ident.isIdent segment = true) ∨
      dialect.allowsWildcard = true ∧ ∃ front, (isFirst = true → front ≠ []) ∧
        segments = front ++ [Endpoint.wildcard] ∧
        ∀ segment ∈ front, Ident.isIdent segment = true := by
  induction segments generalizing isFirst with
  | nil => exact .inl (List.forall_mem_nil _)
  | cons segment rest ih =>
    unfold checkSegments at checked
    split at checked
    · next valid =>
      rcases ih checked with all | ⟨allowed, front, -, same, all⟩
      · exact .inl (List.forall_mem_cons.2 ⟨valid, all⟩)
      · refine .inr ⟨allowed, segment :: front, fun _ => by simp, by rw [same]; rfl, ?_⟩
        exact List.forall_mem_cons.2 ⟨valid, all⟩
    · split at checked
      · next last =>
        obtain ⟨rfl, rfl, later⟩ := last
        split at checked
        · next allowed =>
          refine .inr ⟨allowed, [], fun first => ?_, rfl, List.forall_mem_nil _⟩
          exact absurd (later.symm.trans first) (by decide)
        · cases checked
      · cases checked

private theorem dialect_of_allowsWildcard {dialect : Dialect}
    (allowed : dialect.allowsWildcard = true) : dialect = .v4 := by
  cases dialect with
  | v1 => cases allowed
  | v4 => rfl

private theorem auth_of_modifiers {modifiers : List (List Char)} {tag : String}
    (tokens : ∀ w ∈ modifiers, IsToken w) (asked : modifiers[1]?.bind authOfWord = some tag) :
    Text.IsWord tag.toList ∧ tag ≠ "none" := by
  obtain ⟨word, found, chosen⟩ := Option.bind_eq_some_iff.1 asked
  simp only [authOfWord] at chosen
  split at chosen
  · cases chosen
  · next other =>
    cases chosen
    rw [String.toList_ofList]
    exact ⟨(tokens word (List.mem_of_getElem? found)).toIsWord, other⟩

/-- Every declared endpoint is well-formed. -/
theorem DeclaredEndpoint.wellFormed {dialect : Dialect} {group : String} {e : Endpoint}
    (declared : DeclaredEndpoint kind dialect group e) : e.WellFormed dialect group := by
  obtain ⟨line, raw, -, parsed⟩ := declared.declared
  obtain ⟨name, modifiers, protocol, words, -, checked, -, same⟩ := parseEndpoint_ok_iff.1 parsed
  have tokens := tokens_statement raw
  rw [words, List.forall_mem_cons] at tokens
  have named : e.name = String.ofList name := congrArg Endpoint.name same
  have asked : e.auth = modifiers[1]?.bind authOfWord := congrArg Endpoint.auth same
  have noted : e.comment = (statement raw).2 := congrArg Endpoint.comment same
  rw [← named] at checked
  exact {
    group := congrArg Endpoint.group same
    name := by
      rcases checkSegments_ok checked with all | ⟨allowed, front, several, split, all⟩
      · exact .inl all
      · exact .inr ⟨dialect_of_allowsWildcard allowed, front, several rfl, split, all⟩
    auth := by
      intro tag found
      exact auth_of_modifiers tokens.2 (asked.symm.trans found)
    aliases := declared.isItem
    comment := noted ▸ trimmed_statement raw
    requestFields := by
      intro field within
      exact (declared_of_within (declared.fields .request) within).wellFormed.1
    responseFields := by
      intro field within
      have inside := declared_of_within (declared.fields .response) within
      exact inside.wellFormed.imp_right fun noRule => noRule rfl }

/-! ## Groups and models -/

/-- Every declared group is well-formed. -/
theorem DeclaredGroup.wellFormed {dialect : Dialect} {g : Group}
    (declared : DeclaredGroup kind dialect g) : g.WellFormed dialect := by
  obtain ⟨line, raw, -, parsed⟩ := declared.declared
  obtain ⟨name, rest, -, valid, same⟩ := parseGroup_ok_iff.1 parsed
  have named : g.name = String.ofList name := congrArg Group.name same
  have noted : g.comment = (statement raw).2 := congrArg Group.comment same
  exact {
    name := by
      rw [Ident.isValid, named, String.toList_ofList]
      exact valid
    comment := noted ▸ trimmed_statement raw
    endpoints := fun e member => (declared.endpoints e member).wellFormed }

/-- A version is a letter and at least one digit. -/
theorem isVersion_iff {version : List Char} :
    isVersion version = true ↔ ∃ digits, version = 'v' :: digits ∧ digits ≠ [] ∧
      ∀ digit ∈ digits, digit.isDigit = true := by
  unfold isVersion
  split
  · next digits => simp
  · next other =>
    refine ⟨nofun, ?_⟩
    rintro ⟨digits, rfl, -⟩
    exact absurd rfl (other digits)

/-- Every endpoint of a compiled model is well formed, in a group that has a proper name. -/
theorem endpoints_wellFormed {o : Options} {lines : List String} {m : Model}
    (compiled : compileLines o lines = .ok m) :
    ∀ e ∈ m.endpoints, e.WellFormed o.dialect e.group ∧ Ident.isValid e.group = true := by
  intro e member
  obtain ⟨-, groups⟩ :=
    @compileLines_declared (fun _ => True) o lines m (fun _ _ => trivial) compiled
  obtain ⟨g, inside, inner⟩ := List.mem_flatMap.1 member
  have wellFormed := (groups g inside).wellFormed
  have own := wellFormed.endpoints e inner
  rw [own.group]
  exact ⟨own, wellFormed.name⟩

/-- Every compiled model is well formed, for the dialect that it was compiled in. -/
theorem compileLines_wellFormed {o : Options} {lines : List String} {m : Model}
    (compiled : compileLines o lines = .ok m) : m.WellFormed o.dialect := by
  obtain ⟨⟨root, parsed⟩, groups⟩ :=
    @compileLines_declared (fun _ => True) o lines m (fun _ _ => trivial) compiled
  obtain ⟨name, version, -, valid, numbered, same⟩ := parseRoot_ok_iff.1 parsed
  obtain ⟨named, versioned⟩ := Prod.mk.inj same
  exact {
    routePrefix := by
      rw [Ident.isValid, named, String.toList_ofList]
      exact valid
    version := by
      rw [versioned, String.toList_ofList]
      exact isVersion_iff.1 numbered
    groups := fun g member => (groups g member).wellFormed }

/-- A document with a wildcard, a rule inside of a nested field and one that is ignored. -/
def guardedDocument : List String :=
  ["", "root shop v2", "user #  people \\# all  ", "    files.* POST admin",
    "        - alias: /f , ,/g", "        who []Person", "            name str true:\"max=3\"",
    "        - resp", "        found Pair[] false:\"max=3\"", "            first\nint # one"]

def guardedModel : Model where
  routePrefix := "shop"
  version := "v2"
  groups := [{
    name := "user", comment := "people # all", line := 3
    endpoints := [{
      name := "files.*", group := "user", method := .post, auth := some "admin", line := 4
      aliases := ["/f", "/g"]
      requestFields := [{
        name := "who", declaredType := "[]Person", resolvedType := "[]struct", isArray := true
        isNested := true, line := 6
        children := [{
          name := "name", declaredType := "str", resolvedType := "string", rule := "max=3"
          line := 7 }] }]
      responseFields := [{
        name := "found", declaredType := "Pair[]", resolvedType := "[]struct", isArray := true
        isNested := true, required := false, line := 9
        children := [{
          name := "first", declaredType := "int", resolvedType := "int64", comment := "one"
          line := 10 }] }] }] }]

theorem compileLines_wellFormed_guarded :
    compileLines ⟨.v4, 4⟩ guardedDocument = .ok guardedModel ∧ guardedModel.WellFormed .v4 := by
  have compiled : compileLines ⟨.v4, 4⟩ guardedDocument = .ok guardedModel := rfl
  exact ⟨compiled, compileLines_wellFormed compiled⟩

end Outline

end ApiOutline
