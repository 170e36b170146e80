import ApiOutline.Fault
import ApiOutline.Model
import ApiOutline.Outline.Line
import ApiOutline.Text.Split

/-!
The lines that declare something: the root, a group, an endpoint, a field.

Each is read from the whole line, indentation and comment included, and each tells why it cannot be
read.
-/

namespace ApiOutline.Outline

/-- The section of an endpoint that a field belongs to. -/
inductive Scope where
  | request
  | response
  deriving DecidableEq, Repr

/-- The words of a line and its comment. -/
def statement (raw : List Char) : List (List Char) × String :=
  let (content, comment) := splitComment raw
  (Text.words content, String.ofList comment)

/-! ## The root -/

/-- The word that starts a document. -/
def rootWord : List Char := "root".toList

/-- The version of a root that gives none. -/
def defaultVersion : List Char := "v1".toList

/-- Whether a text is a `v` followed by at least one digit and nothing else. -/
def isVersion : List Char → Bool
  | 'v' :: digits => !digits.isEmpty && digits.all Char.isDigit
  | _ => false

/-- The name and the version that the words of a root line give. -/
def rootParts? : List (List Char) → Option (List Char × List Char)
  | [word, name] => if word = rootWord then some (name, defaultVersion) else none
  | [word, name, version] => if word = rootWord then some (name, version) else none
  | _ => none

def parseRoot (raw : List Char) : Except RootFault (String × String) :=
  match rootParts? (statement raw).1 with
  | none => .error .malformed
  | some (name, version) =>
    if !Ident.isIdent name then .error (.invalidPrefix (String.ofList name))
    else if !isVersion version then .error (.invalidVersion (String.ofList version))
    else .ok (String.ofList name, String.ofList version)

/-! ## Groups -/

/-- Reads a group line.  Words after the name are ignored. -/
def parseGroup (line : Nat) (raw : List Char) : Except GrammarFault Group :=
  let (words, comment) := statement raw
  match words with
  | [] => .error .missingGroupName
  | name :: _ =>
    if Ident.isIdent name then .ok { name := String.ofList name, comment, line }
    else .error (.invalidGroupName (String.ofList name))

/-! ## Endpoints -/

/-- Checks the segments of an endpoint's name: each is an identifier, and only the last of several
may be a wildcard, in a dialect that has wildcards.  `isFirst` tells whether no segment stands
before these. -/
def checkSegments (dialect : Dialect) (name : String) (isFirst : Bool) :
    List (List Char) → Except GrammarFault Unit
  | [] => .ok ()
  | segment :: rest =>
    if Ident.isIdent segment then checkSegments dialect name false rest
    else if segment = Endpoint.wildcard ∧ rest = [] ∧ isFirst = false then
      if dialect.allowsWildcard then .ok () else .error (.wildcardUnsupported name dialect)
    else .error (.invalidEndpointName name)

/-- The method a word asks for: upper and lower case are one, and what is no other method is a
`GET`. -/
def methodOfWord (word : List Char) : Method :=
  let name := Text.upperAll word
  if name = "POST".toList then .post else if name = "ANY".toList then .any else .get

def authOfWord (word : List Char) : Option String :=
  let tag := String.ofList word
  if tag = Endpoint.noAuth then none else some tag

def protocolOfWord (word : List Char) : Except GrammarFault Protocol :=
  let name := String.ofList word
  match Protocol.ofName? name with
  | some protocol => .ok protocol
  | none => .error (.unknownProtocol name)

/-- Reads an endpoint line: a name, and then a method, an authentication and a protocol, of which
the last ones may be left out. -/
def parseEndpoint (dialect : Dialect) (group : String) (line : Nat) (raw : List Char) :
    Except GrammarFault Endpoint := do
  let (words, comment) := statement raw
  match words with
  | [] => .error (.wordCount 0)
  | name :: modifiers =>
    if 3 < modifiers.length then .error (.wordCount words.length)
    else
      let name := String.ofList name
      checkSegments dialect name true (Endpoint.segmentsOf name)
      let protocol ← match modifiers[2]? with
        | none => .ok .json
        | some word => protocolOfWord word
      .ok {
        name, group, comment, line, protocol
        method := (modifiers[0]?.map methodOfWord).getD .get
        auth := modifiers[1]?.bind authOfWord }

/-! ## Fields -/

/-- Reads the rule that follows the flag of a request field: nothing, or a text in double quotes,
with a colon before it or without.  What follows the second quote is ignored. -/
def parseRule (residual : List Char) : Except GrammarFault String :=
  match Text.trim (([':'].isPrefixOf? residual).getD residual) with
  | [] => .ok ""
  | '"' :: quoted =>
    match Text.cut? '"' quoted with
    | some (rule, _) => .ok (String.ofList rule)
    | none => .error .unterminatedRule
  | _ => .error .unquotedRule

/-- Reads what follows the type of a field: whether it is required, and its rule.  A response field
has no rule, whatever follows its flag. -/
def parseFlags (scope : Scope) (flags : List Char) : Except GrammarFault (Bool × String) :=
  let withRule (required : Bool) (residual : List Char) : Except GrammarFault (Bool × String) :=
    match scope with
    | .response => .ok (required, "")
    | .request => (parseRule residual).map (required, ·)
  match "true".toList.isPrefixOf? flags with
  | some residual => withRule true residual
  | none =>
    match "false".toList.isPrefixOf? flags with
    | some residual => withRule false residual
    | none => .error .expectedFlag

/-- Reads a field line: a name, a type, and then, unless they are left out, a flag and a rule. -/
def parseField (scope : Scope) (line : Nat) (raw : List Char) : Except GrammarFault FieldDecl :=
  let (words, comment) := statement raw
  match words with
  | name :: declared :: rest =>
    if !Ident.isIdent name then .error (.invalidFieldName (String.ofList name))
    else do
      let (required, rule) ←
        if rest = [] then .ok (true, "") else parseFlags scope ([' '].intercalate rest)
      let reading := TypeToken.resolve (String.ofList declared)
      .ok {
        FieldDecl.ofTypes (String.ofList name) (String.ofList declared) reading.target with
        isNested := reading.isNested
        required, rule, comment, line }
  | _ => .error .missingType

end ApiOutline.Outline
