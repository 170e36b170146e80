import ApiOutline.Outline.Declaration

/-!
The lines that declare something, opened up: which lines each reader accepts, and what it makes of
them.  Later proofs use these equivalences and not the readers.
-/

namespace ApiOutline.Outline

variable {line : Nat} {raw : List Char}

/-- The flag and the rule that the words after the type of a field give. -/
def flagsOf (scope : Scope) (rest : List (List Char)) : Except GrammarFault (Bool × String) :=
  if rest = [] then .ok (true, "") else parseFlags scope ([' '].intercalate rest)

/-- The field that a name, a type and the words after them declare. -/
def fieldOf (name declared : List Char) (required : Bool) (rule comment : String) (line : Nat) :
    FieldDecl :=
  let reading := TypeToken.resolve (String.ofList declared)
  { FieldDecl.ofTypes (String.ofList name) (String.ofList declared) reading.target with
    isNested := reading.isNested
    required, rule, comment, line }

/-- The lines that are a root, and what is read from them. -/
theorem parseRoot_ok_iff {parts : String × String} :
    parseRoot raw = .ok parts ↔ ∃ name version,
      rootParts? (statement raw).1 = some (name, version) ∧ Ident.isIdent name = true ∧
      isVersion version = true ∧ parts = (String.ofList name, String.ofList version) := by
  unfold parseRoot
  rcases found : rootParts? (statement raw).1 with _ | ⟨name, version⟩
  · simp
  · by_cases valid : Ident.isIdent name = true
    · by_cases numbered : isVersion version = true
      · simp only [valid, numbered, Bool.not_true, Bool.false_eq_true, ↓reduceIte, Except.ok.injEq]
        exact ⟨fun same => ⟨name, version, rfl, valid, numbered, same.symm⟩,
          fun ⟨_, _, parts, _, _, same⟩ => by cases parts; exact same.symm⟩
      · simp [valid, numbered]
    · simp [valid]

/-- The lines that declare a group, and the group. -/
theorem parseGroup_ok_iff {group : Group} :
    parseGroup line raw = .ok group ↔ ∃ name rest, (statement raw).1 = name :: rest ∧
      Ident.isIdent name = true ∧
      group = { name := String.ofList name, comment := (statement raw).2, line } := by
  unfold parseGroup
  rcases statement raw with ⟨_ | ⟨name, rest⟩, comment⟩
  · simp
  · by_cases valid : Ident.isIdent name = true
    · simp only [valid, ↓reduceIte, Except.ok.injEq]
      exact ⟨fun same => ⟨name, rest, rfl, valid, same.symm⟩,
        fun ⟨_, _, words, _, same⟩ => by cases words; exact same.symm⟩
    · simp [valid]

/-- The protocol that the last modifier of an endpoint gives. -/
def protocolOf (modifiers : List (List Char)) : Except GrammarFault Protocol :=
  match modifiers[2]? with
  | none => .ok .json
  | some word => protocolOfWord word

/-- The endpoint that a name and its modifiers declare. -/
def endpointOf (group : String) (name : List Char) (modifiers : List (List Char))
    (protocol : Protocol) (comment : String) (line : Nat) : Endpoint where
  name := String.ofList name
  group
  comment
  line
  protocol
  method := (modifiers[0]?.map methodOfWord).getD .get
  auth := modifiers[1]?.bind authOfWord

/-- A line with a name and few enough modifiers is refused for the segments of its name or for its
protocol only, and for the name first. -/
theorem parseEndpoint_of_words {dialect : Dialect} {group : String} {name : List Char}
    {modifiers : List (List Char)} (words : (statement raw).1 = name :: modifiers)
    (few : modifiers.length ≤ 3) :
    parseEndpoint dialect group line raw =
      (checkSegments dialect (String.ofList name) true
        (Endpoint.segmentsOf (String.ofList name))).bind fun _ =>
      (protocolOf modifiers).map fun protocol =>
        endpointOf group name modifiers protocol (statement raw).2 line := by
  unfold parseEndpoint
  generalize statement raw = parts at words ⊢
  obtain ⟨found, comment⟩ := parts
  cases words
  simp only [Nat.not_lt.2 few, ↓reduceIte]
  cases checkSegments dialect (String.ofList name) true
      (Endpoint.segmentsOf (String.ofList name)) with
  | error cause => rfl
  | ok _ =>
    unfold protocolOf
    cases modifiers[2]? with
    | none => rfl
    | some word => cases protocolOfWord word <;> rfl

/-- The lines that declare an endpoint, and the endpoint. -/
theorem parseEndpoint_ok_iff {dialect : Dialect} {group : String} {endpoint : Endpoint} :
    parseEndpoint dialect group line raw = .ok endpoint ↔ ∃ name modifiers protocol,
      (statement raw).1 = name :: modifiers ∧ modifiers.length ≤ 3 ∧
      checkSegments dialect (String.ofList name) true (Endpoint.segmentsOf (String.ofList name)) =
        .ok () ∧
      protocolOf modifiers = .ok protocol ∧
      endpoint = endpointOf group name modifiers protocol (statement raw).2 line := by
  constructor
  · intro parsed
    rcases words : (statement raw).1 with _ | ⟨name, modifiers⟩
    · simp [parseEndpoint, words] at parsed
    · by_cases few : modifiers.length ≤ 3
      · rw [parseEndpoint_of_words words few] at parsed
        cases checked : checkSegments dialect (String.ofList name) true
            (Endpoint.segmentsOf (String.ofList name)) with
        | error cause => simp [checked, Except.bind] at parsed
        | ok _ =>
          cases chosen : protocolOf modifiers with
          | error cause => simp [checked, chosen, Except.bind, Except.map] at parsed
          | ok protocol =>
            simp only [checked, chosen, Except.bind, Except.map, Except.ok.injEq] at parsed
            exact ⟨name, modifiers, protocol, rfl, few, checked, chosen, parsed.symm⟩
      · simp [parseEndpoint, words, Nat.not_le.1 few] at parsed
  · rintro ⟨name, modifiers, protocol, words, few, checked, chosen, rfl⟩
    rw [parseEndpoint_of_words words few, checked, chosen]
    rfl

/-- A line with a valid name and a type is refused for what follows the type only. -/
theorem parseField_of_words {scope : Scope} {name declared : List Char} {rest : List (List Char)}
    (words : (statement raw).1 = name :: declared :: rest) (valid : Ident.isIdent name = true) :
    parseField scope line raw = (flagsOf scope rest).map fun flags =>
      fieldOf name declared flags.1 flags.2 (statement raw).2 line := by
  unfold parseField flagsOf
  generalize statement raw = parts at words ⊢
  obtain ⟨found, comment⟩ := parts
  cases words
  simp only [valid, Bool.not_true, Bool.false_eq_true, ↓reduceIte]
  split
  · rfl
  · cases parseFlags scope ([' '].intercalate rest) <;> rfl

/-- The lines that declare a field, and the field. -/
theorem parseField_ok_iff {scope : Scope} {decl : FieldDecl} :
    parseField scope line raw = .ok decl ↔ ∃ name declared rest required rule,
      (statement raw).1 = name :: declared :: rest ∧ Ident.isIdent name = true ∧
      flagsOf scope rest = .ok (required, rule) ∧
      decl = fieldOf name declared required rule (statement raw).2 line := by
  constructor
  · intro parsed
    rcases words : (statement raw).1 with _ | ⟨name, _ | ⟨declared, rest⟩⟩
    · simp [parseField, words] at parsed
    · simp [parseField, words] at parsed
    · by_cases valid : Ident.isIdent name = true
      · rw [parseField_of_words words valid] at parsed
        cases flags : flagsOf scope rest with
        | error cause => simp [flags, Except.map] at parsed
        | ok parts =>
          simp only [flags, Except.map, Except.ok.injEq] at parsed
          exact ⟨name, declared, rest, parts.1, parts.2, rfl, valid, flags, parsed.symm⟩
      · simp [parseField, words, valid] at parsed
  · rintro ⟨name, declared, rest, required, rule, words, valid, flags, rfl⟩
    rw [parseField_of_words words valid, flags]
    rfl

/-- A field remembers the number of its line. -/
theorem parseField_line {scope : Scope} {decl : FieldDecl}
    (parsed : parseField scope line raw = .ok decl) : decl.line = line := by
  obtain ⟨name, declared, rest, required, rule, -, -, -, rfl⟩ := parseField_ok_iff.1 parsed
  rfl

/-- A group is declared without endpoints. -/
theorem parseGroup_endpoints {group : Group} (parsed : parseGroup line raw = .ok group) :
    group.endpoints = [] := by
  obtain ⟨name, rest, -, -, rfl⟩ := parseGroup_ok_iff.1 parsed
  rfl

end ApiOutline.Outline
