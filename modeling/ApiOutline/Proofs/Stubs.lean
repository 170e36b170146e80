import ApiOutline.Kit.Cache
import ApiOutline.Proofs.Routes

/-!
Stubs: the lines that open the handlers which a kit does not define yet.

The name of a handler is made from the segments of an endpoint's name, and a kit is searched for
functions by a reader that knows nothing of endpoints.  The two agree on every name that can be
declared: capitalised segments in a row are an identifier, and an identifier that stands between
`func` and a parenthesis is read back, whatever follows.  So a stub for each missing handler leaves
none missing.
-/

namespace ApiOutline

/-! ## Derived names are identifiers -/

namespace Ident

private theorem isIdent_flatMap {segments : List (List Char)} (filled : segments ≠ [])
    (each : ∀ segment ∈ segments, isIdent segment = true) :
    isIdent (segments.flatMap Text.upperFirst) = true := by
  cases segments with
  | nil => exact absurd rfl filled
  | cons first rest =>
    obtain ⟨valid, later⟩ := List.forall_mem_cons.1 each
    refine isIdent_append (isIdent_upperFirst valid) ?_
    intro c member
    obtain ⟨segment, inside, within⟩ := List.mem_flatMap.1 member
    exact isTail_of_mem (isIdent_upperFirst (later segment inside)) c within

end Ident

namespace Endpoint

variable {e : Endpoint} {dialect : Dialect} {group : String}

private theorem isIdent_apiName (wellFormed : e.WellFormed dialect group) :
    Ident.isIdent e.apiName.toList = true := by
  have kept : ∀ segments : List (List Char),
      (∀ segment ∈ segments, Ident.isIdent segment = true) →
      segments.filter (· != wildcard) = segments := by
    intro segments each
    refine List.filter_eq_self.2 fun segment member => bne_iff_ne.2 ?_
    rintro rfl
    exact absurd (each _ member) (by decide)
  rw [apiName, String.toList_ofList]
  rcases wellFormed.name with each | ⟨-, front, several, split, each⟩
  · rw [kept _ each]
    exact Ident.isIdent_flatMap (List.splitOn_ne_nil _ _) each
  · have dropped : [wildcard].filter (· != wildcard) = [] := by decide
    rw [split, List.filter_append, kept _ each, dropped, List.append_nil]
    exact Ident.isIdent_flatMap several each

private theorem isValid_handlerName (wellFormed : e.WellFormed dialect group) :
    Ident.isValid e.handlerName = true := by
  rw [Ident.isValid, handlerName, String.toList_append]
  have api : Ident.isIdent "Api".toList = true := by decide
  exact Ident.isIdent_append (isIdent_apiName wellFormed) (Ident.isTail_of_mem api)

/-- The names of both models put a word of their own before the group and the endpoint. -/
theorem isValid_modelName (wellFormed : e.WellFormed dialect group)
    (named : Ident.isValid e.group = true) {lead : String} (leads : Ident.isValid lead = true) :
    Ident.isValid (lead ++ Ident.capitalize e.group ++ e.apiName) = true := by
  have capital : Ident.isIdent (Ident.capitalize e.group).toList = true := by
    rw [Ident.capitalize, String.toList_ofList]
    exact Ident.isIdent_upperFirst named
  have tail := Ident.isTail_of_mem (isIdent_apiName wellFormed)
  rw [Ident.isValid, String.toList_append, String.toList_append]
  exact Ident.isIdent_append (Ident.isIdent_append leads (Ident.isTail_of_mem capital)) tail

end Endpoint

/-! ## Lines that define a function -/

namespace Kit

/-- An identifier between `func` and a parenthesis is the name of the function. -/
theorem functionName?_stub {name : List Char} (valid : Ident.isIdent name = true)
    (rest : List Char) : functionName? ("func ".toList ++ (name ++ '(' :: rest)) = some name := by
  have word := Ident.isWord valid
  have plain : '(' ∉ name := Ident.not_mem_of_isTail_eq_false valid (by decide)
  have start : Text.trimStart (name ++ '(' :: rest) = name ++ '(' :: rest := by
    cases name with
    | nil => cases valid
    | cons first more =>
      have solid := word.solid first List.mem_cons_self
      exact List.dropWhile_cons_of_neg (by simp [solid])
  have found : Text.before? ['('] (name ++ '(' :: rest) = some name :=
    Text.before?_append plain [] rest
  simp only [functionName?, Text.isPrefixOf?_append, Option.bind_eq_bind, Option.bind_some, start,
    found, Text.trim_eq_self word.trimmed, valid, ↓reduceIte]

/-- A line that opens the handler of an endpoint, and goes on in any way. -/
def IsStub (e : Endpoint) (line : String) : Prop :=
  ∃ rest : String, line = "func " ++ e.handlerName ++ "(" ++ rest

private theorem functionName?_of_isStub {e : Endpoint} {line : String}
    (valid : Ident.isValid e.handlerName = true) (stub : IsStub e line) :
    (functionName? line.toList).map String.ofList = some e.handlerName := by
  obtain ⟨rest, rfl⟩ := stub
  have text : ("func " ++ e.handlerName ++ "(" ++ rest).toList =
      "func ".toList ++ (e.handlerName.toList ++ '(' :: rest.toList) := by
    simp
  rw [text, functionName?_stub valid, Option.map_some, String.ofList_toList]

/-- Stubs add the handlers of their endpoints to a kit, and no other function. -/
theorem functions_ofLines_stubs {endpoints : List Endpoint} {stubs : List String}
    (valid : ∀ e ∈ endpoints, Ident.isValid e.handlerName = true)
    (each : List.Forall₂ IsStub endpoints stubs) (lines : List String) :
    (ofLines (lines ++ stubs)).functions =
      (ofLines lines).functions ++ endpoints.map Endpoint.handlerName := by
  have named : stubs.filterMap (fun line => (functionName? line.toList).map String.ofList) =
      endpoints.map Endpoint.handlerName := by
    induction each with
    | nil => rfl
    | @cons e line endpoints stubs stub _ ih =>
      obtain ⟨first, later⟩ := List.forall_mem_cons.1 valid
      have read := functionName?_of_isStub first stub
      rw [List.filterMap_cons, read, ih later, List.map_cons]
  simp only [ofLines, List.filterMap_append, named]

/-- The endpoints of a group whose handlers a kit does not define. -/
def lacking (kit : Kit) (g : Group) : List Endpoint :=
  g.endpoints.filter fun e => !kit.defines e.handlerName

theorem defines_iff {kit : Kit} {name : String} : kit.defines name = true ↔ name ∈ kit.functions :=
  List.contains_iff_mem

/-- A kit lacks nothing of a group exactly if it defines every handler of it. -/
theorem lacking_eq_nil_iff {kit : Kit} {g : Group} :
    kit.lacking g = [] ↔ ∀ e ∈ g.endpoints, kit.defines e.handlerName = true := by
  simp [lacking, List.filter_eq_nil_iff]

/-- The handlers that are missing are told from the kit of the group, once that has been read. -/
theorem missingHandlers_of_get {reader : Reader} {layout : Layout} {g : Group} {c after : Cache}
    {kit : Kit} (got : c.get reader (layout.kitPath g.name) = (.ok kit, after)) :
    c.missingHandlers reader layout g = (.ok (kit.lacking g), after) := by
  simp only [Cache.missingHandlers, got]
  rfl

/-- What stubs do to a kit: every endpoint of the group has its handler then, and no function is
lost. -/
structure Completes (g : Group) (lines stubs : List String) : Prop where
  lacking : (ofLines (lines ++ stubs)).lacking g = []
  defines : ∀ e ∈ g.endpoints, (ofLines (lines ++ stubs)).defines e.handlerName = true
  keeps : ∀ name, (ofLines lines).defines name = true →
    (ofLines (lines ++ stubs)).defines name = true
  /-- Whoever finds the kit at the path of the group is told that no handler is missing. -/
  missingHandlers : ∀ (reader : Reader) (layout : Layout) (c after : Cache),
    c.get reader (layout.kitPath g.name) = (.ok (ofLines (lines ++ stubs)), after) →
    c.missingHandlers reader layout g = (.ok [], after)

private theorem completes_of_valid {g : Group} {lines stubs : List String}
    (valid : ∀ e ∈ g.endpoints, Ident.isValid e.handlerName = true)
    (each : List.Forall₂ IsStub ((ofLines lines).lacking g) stubs) : Completes g lines stubs := by
  have functions := functions_ofLines_stubs
    (fun e member => valid e (List.mem_filter.1 member).1) each lines
  have keeps : ∀ name, (ofLines lines).defines name = true →
      (ofLines (lines ++ stubs)).defines name = true := by
    intro name known
    rw [defines_iff, functions]
    exact List.mem_append_left _ (defines_iff.1 known)
  have defines : ∀ e ∈ g.endpoints, (ofLines (lines ++ stubs)).defines e.handlerName = true := by
    intro e member
    by_cases known : (ofLines lines).defines e.handlerName = true
    · exact keeps e.handlerName known
    · have stubbed : e ∈ (ofLines lines).lacking g :=
        List.mem_filter.2 ⟨member, by simp [known]⟩
      rw [defines_iff, functions]
      exact List.mem_append_right _ (List.mem_map_of_mem stubbed)
  have none := lacking_eq_nil_iff.2 defines
  refine ⟨none, defines, keeps, ?_⟩
  intro reader layout c after got
  rw [missingHandlers_of_get got, none]

/-- Stubs for the handlers that a kit lacks complete it, for every group of a compiled model; and
the names of handlers and models are identifiers. -/
theorem stubs_complete_kit {o : Options} {source : List String} {m : Model}
    (compiled : Outline.compileLines o source = .ok m) :
    (∀ g ∈ m.groups, ∀ lines stubs : List String,
      List.Forall₂ IsStub ((ofLines lines).lacking g) stubs → Completes g lines stubs) ∧
    ∀ e ∈ m.endpoints, Ident.isValid e.handlerName = true ∧
      Ident.isValid e.requestModelName = true ∧ Ident.isValid e.responseModelName = true := by
  have wellFormed := Outline.endpoints_wellFormed compiled
  constructor
  · intro g member lines stubs each
    refine completes_of_valid (fun e inside => ?_) each
    have within : e ∈ m.endpoints := List.mem_flatMap.2 ⟨g, member, inside⟩
    exact Endpoint.isValid_handlerName (wellFormed e within).1
  · intro e member
    obtain ⟨own, named⟩ := wellFormed e member
    exact ⟨Endpoint.isValid_handlerName own, Endpoint.isValid_modelName own named rfl,
      Endpoint.isValid_modelName own named rfl⟩

/-- A group whose names have underscores, a wildcard and capitals already. -/
def handlerLines : List String :=
  ["root shop", "user", "    login", "    _x.files.* post", "    logOut"]

def handlerGroup : Group where
  name := "user"
  line := 2
  endpoints := [
    { name := "login", group := "user", line := 3 },
    { name := "_x.files.*", group := "user", method := .post, line := 4 },
    { name := "logOut", group := "user", line := 5 }]

/-- A kit with one of the handlers, and a method that has the name of another. -/
def handlerKit : List String :=
  ["package user", "func  LoginApi (req *Req) \x7b", "\x7d", "func (s *Shop) LogOutApi() \x7b"]

theorem stubs_complete_kit_underscored :
    Outline.compileLines ⟨.v4, 4⟩ handlerLines =
      .ok { routePrefix := "shop", version := "v1", groups := [handlerGroup] } ∧
    ((ofLines handlerKit).lacking handlerGroup).map Endpoint.handlerName =
      ["_xFilesApi", "LogOutApi"] ∧
    Completes handlerGroup handlerKit ["func _xFilesApi(", "func LogOutApi((("] := by
  have compiled : Outline.compileLines ⟨.v4, 4⟩ handlerLines =
      .ok { routePrefix := "shop", version := "v1", groups := [handlerGroup] } := rfl
  have lacks : (ofLines handlerKit).lacking handlerGroup = handlerGroup.endpoints.drop 1 := by
    decide +kernel
  refine ⟨compiled, by rw [lacks]; decide +kernel, ?_⟩
  refine (stubs_complete_kit compiled).1 handlerGroup List.mem_cons_self _ _ ?_
  rw [lacks]
  exact .cons ⟨"", by decide +kernel⟩ (.cons ⟨"((", by decide +kernel⟩ .nil)

end Kit

end ApiOutline
