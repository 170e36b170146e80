import ApiOutline.Model.Json
import ApiOutline.Proofs.SortedMap
import Mathlib.Data.List.Nodup
import Mathlib.Logic.Relation

/-!
A model as a value, and back.

Every part of a record is written under a key of its own, and a reader asks for the parts by their
keys.  So what is read back is what was written (`Model.ofValue?_toValue`, by induction on fields
inside of fields); and it stays that if entries are added under keys that the record does not have,
or trade places, or if an authentication that is not there is left out (`RecordKind.Edit`).  That is
so for a record at any depth, because a reader sees the records inside of another one only through
their own readers (`RecordKind.read_congr`).
-/

namespace ApiOutline

universe u v

/-- A number that a reader of values accepts as the number of a line. -/
def FitsWord (n : Nat) : Prop := n < Nat.pow 2 64

instance (n : Nat) : Decidable (FitsWord n) := Nat.decLt n _

/-! ## Plain parts -/

private theorem lookup_cons_of_ne {key other : String} {v : Value} {rest : List (String × Value)}
    (differ : key ≠ other) : ((other, v) :: rest).lookup key = rest.lookup key := by
  rw [List.lookup_cons, beq_false_of_ne differ]

private theorem mapM_map_eq_some {α : Type u} {β : Type v} {write : α → β} {read : β → Option α}
    {l : List α} (each : ∀ a ∈ l, read (write a) = some a) : (l.map write).mapM read = some l := by
  induction l with
  | nil => rfl
  | cons a l ih =>
    obtain ⟨first, later⟩ := List.forall_mem_cons.1 each
    rw [List.map_cons, List.mapM_cons, first, ih later]
    rfl

namespace Value

@[simp]
theorem string?_string (s : String) : (Value.string s).string? = some s := rfl

@[simp]
theorem bool?_bool (b : Bool) : (Value.bool b).bool? = some b := rfl

private theorem list?_map {α : Type} {write : α → Value} {read : Value → Option α} {l : List α}
    (each : ∀ a ∈ l, read (write a) = some a) : list? read (.array (l.map write)) = some l :=
  mapM_map_eq_some each

@[simp]
theorem list?_ofStrings (texts : List String) : list? string? (ofStrings texts) = some texts :=
  list?_map fun _ _ => rfl

private theorem word?_ofNat {n : Nat} (fits : FitsWord n) : (ofNat n).word? = some n :=
  if_pos fits

end Value

private theorem textMap?_entries (m : SortedMap String) :
    textMap? (.object (m.entries.map fun entry => (entry.1, .string entry.2))) = some m := by
  have texts : (m.entries.map fun entry => (entry.1, Value.string entry.2)).mapM
      (fun entry => entry.2.string?.map (entry.1, ·)) = some m.entries :=
    mapM_map_eq_some fun _ _ => rfl
  simp only [textMap?, Value.entries?, Option.bind_eq_bind, Option.bind_some]
  rw [texts, Option.bind_some, SortedMap.ofList_entries]

/-- The authentication that a value stands for, nothing for one that is not there. -/
def Endpoint.authOfValue? : Value → Option (Option String)
  | .null => some none
  | value => value.string?.map some

@[simp]
theorem Endpoint.authOfValue?_ofOption (auth : Option String) :
    authOfValue? (.ofOption auth) = some auth := by
  cases auth <;> rfl

/-- An absent authentication is read as a null one. -/
theorem Endpoint.authOf?_eq (entries : List (String × Value)) :
    authOf? entries = authOfValue? ((entries.lookup "auth").getD .null) := by
  rw [authOf?]
  rcases entries.lookup "auth" with none | value
  · rfl
  · cases value <;> rfl

/-! ## Fields -/

namespace Field

private theorem ofValues?_eq_mapM (values : List Value) :
    ofValues? values = values.mapM ofValue? := by
  induction values with
  | nil => rfl
  | cons value rest ih =>
    rw [ofValues?, ih, List.mapM_cons]
    rfl

private theorem ofArray?_eq : ofArray? = Value.list? ofValue? := by
  funext value
  cases value with
  | array items => rw [ofArray?, ofValues?_eq_mapM, Value.list?]
  | _ => simp only [ofArray?, Value.list?]

private theorem childrenIn?_eq (entries : List (String × Value)) :
    childrenIn? entries = part? entries "children" (Value.list? ofValue?) := by
  induction entries with
  | nil => rw [childrenIn?, part?, List.lookup_nil, Option.bind_none]
  | cons entry rest ih =>
    obtain ⟨key, value⟩ := entry
    rw [childrenIn?, ih, part?, part?]
    by_cases same : key = "children"
    · simp [same, ofArray?_eq]
    · rw [if_neg same, lookup_cons_of_ne (Ne.symm same)]

end Field

/-! ## Reading what was written -/

/-- A declaration is read back from its entries, whatever entries follow them. -/
theorem FieldDecl.ofEntries?_entries {d : FieldDecl} (fits : FitsWord d.line)
    (more : List (String × Value)) : FieldDecl.ofEntries? (d.entries ++ more) = some d := by
  have line := Value.word?_ofNat fits
  simp [FieldDecl.ofEntries?, FieldDecl.entries, part?, lookup_cons_of_ne, line]

namespace Field

mutual

/-- A field comes back with everything inside it. -/
theorem ofValue?_toValue {depth : Nat} : (f : Field) →
    (∀ d ∈ preorder depth f, FitsWord d.2.line) → ofValue? f.toValue = some f
  | ⟨decl, children⟩, fits => by
    rw [preorder, List.forall_mem_cons] at fits
    have inside := ofArray?_toValues children fits.2
    have last : childrenIn? (decl.entries ++ [("children", .array (toValues children))]) =
        some children := by
      simp [childrenIn?_eq, FieldDecl.entries, part?, lookup_cons_of_ne, ← ofArray?_eq, inside]
    simp [toValue, ofValue?, FieldDecl.ofEntries?_entries fits.1, last]

private theorem ofArray?_toValues {depth : Nat} : (fields : List Field) →
    (∀ d ∈ preorderAll depth fields, FitsWord d.2.line) →
    ofArray? (.array (toValues fields)) = some fields
  | [], _ => rfl
  | field :: rest, fits => by
    rw [preorderAll, List.forall_mem_append] at fits
    have first := ofValue?_toValue field fits.1
    have others := ofArray?_toValues rest fits.2
    rw [ofArray?] at others ⊢
    simp [toValues, ofValues?, first, others]

end

/-- Fields whose lines can be read back, at every depth. -/
def LinesFit (fields : List Field) : Prop := ∀ d ∈ preorderAll 0 fields, FitsWord d.2.line

instance (fields : List Field) : Decidable (LinesFit fields) := List.decidableBAll _ _

end Field

/-- An endpoint whose lines can be read back. -/
structure Endpoint.LinesFit (e : Endpoint) : Prop where
  line : FitsWord e.line
  requestFields : Field.LinesFit e.requestFields
  responseFields : Field.LinesFit e.responseFields

/-- A group whose lines can be read back. -/
structure Group.LinesFit (g : Group) : Prop where
  line : FitsWord g.line
  endpoints : ∀ e ∈ g.endpoints, e.LinesFit

/-- A model whose lines can be read back. -/
def Model.LinesFit (m : Model) : Prop := ∀ g ∈ m.groups, g.LinesFit

/-- An endpoint is read back from the value it is written as. -/
theorem Endpoint.ofValue?_toValue {e : Endpoint} (fits : e.LinesFit) :
    Endpoint.ofValue? e.toValue = some e := by
  have line := Value.word?_ofNat fits.line
  have request := Field.ofArray?_toValues _ fits.requestFields
  have response := Field.ofArray?_toValues _ fits.responseFields
  simp [Endpoint.ofValue?, Endpoint.toValue, parts?, part?, lookup_cons_of_ne, authOf?_eq, choice?,
    Method.ofName?_name, Protocol.ofName?_name, line, request, response]

/-- A group is read back from the value it is written as. -/
theorem Group.ofValue?_toValue {g : Group} (fits : g.LinesFit) :
    Group.ofValue? g.toValue = some g := by
  have line := Value.word?_ofNat fits.line
  have endpoints := Value.list?_map fun e member =>
    Endpoint.ofValue?_toValue (fits.endpoints e member)
  simp [Group.ofValue?, Group.toValue, parts?, part?, lookup_cons_of_ne, line, endpoints]

theorem Envelope.ofValue?_toValue (e : Envelope) : Envelope.ofValue? e.toValue = some e := by
  simp [Envelope.ofValue?, Envelope.toValue, parts?, part?, lookup_cons_of_ne]

theorem Settings.ofValue?_toValue (s : Settings) : Settings.ofValue? s.toValue = some s := by
  have authMap := textMap?_entries s.authMap
  simp [Settings.ofValue?, Settings.toValue, parts?, part?, lookup_cons_of_ne, authMap,
    Envelope.ofValue?_toValue]

/-- A model is read back from the value it is written as, if its line numbers fit into a word. -/
theorem Model.ofValue?_toValue {m : Model} (fits : m.LinesFit) :
    Model.ofValue? m.toValue = some m := by
  have groups := Value.list?_map fun g member => Group.ofValue?_toValue (fits g member)
  simp [Model.ofValue?, Model.toValue, parts?, part?, lookup_cons_of_ne, groups,
    Settings.ofValue?_toValue]

/-! ## Records and their parts -/

/-- The kinds of records that the value of a model is made of. -/
inductive RecordKind where
  | model
  | settings
  | envelope
  | group
  | endpoint
  | field
  deriving DecidableEq

/-- What stands under a key of a record. -/
inductive PartKind where
  | plain
  /-- A part that may be left out where it says nothing. -/
  | optional
  | record (kind : RecordKind)
  | records (kind : RecordKind)
  deriving DecidableEq

namespace RecordKind

/-- What a record of a kind stands for. -/
abbrev Content : RecordKind → Type
  | model => Model
  | settings => Settings
  | envelope => Envelope
  | group => Group
  | endpoint => Endpoint
  | field => Field

def write : (kind : RecordKind) → kind.Content → Value
  | model => Model.toValue
  | settings => Settings.toValue
  | envelope => Envelope.toValue
  | group => Group.toValue
  | endpoint => Endpoint.toValue
  | field => Field.toValue

def read : (kind : RecordKind) → Value → Option kind.Content
  | model => Model.ofValue?
  | settings => Settings.ofValue?
  | envelope => Envelope.ofValue?
  | group => Group.ofValue?
  | endpoint => Endpoint.ofValue?
  | field => Field.ofValue?

def parts : RecordKind → List (String × PartKind)
  | model =>
    [("prefix", .plain), ("version", .plain), ("groups", .records .group),
     ("meta", .record .settings)]
  | settings =>
    [("title", .plain), ("description", .plain), ("api_server", .plain),
     ("server_version", .plain), ("auth_map", .plain), ("response_envelope", .record .envelope)]
  | envelope => [("fields", .plain), ("data_field", .plain)]
  | group =>
    [("name", .plain), ("comment", .plain), ("endpoints", .records .endpoint), ("line", .plain)]
  | endpoint =>
    [("name", .plain), ("group", .plain), ("method", .plain), ("auth", .optional),
     ("protocol", .plain), ("comment", .plain), ("request_fields", .records .field),
     ("response_fields", .records .field), ("aliases", .plain), ("line", .plain)]
  | field =>
    [("name", .plain), ("declared_type", .plain), ("resolved_type", .plain), ("is_array", .plain),
     ("is_nested", .plain), ("required", .plain), ("validation_rule", .plain),
     ("comment", .plain), ("line", .plain), ("children", .records .field)]

def keys (kind : RecordKind) : List String := kind.parts.map Prod.fst

/-- A record has no key twice. -/
theorem nodup_keys (kind : RecordKind) : kind.keys.Nodup := by
  cases kind <;> decide

/-- A record is written with its keys and no others. -/
theorem keys_write (kind : RecordKind) (content : kind.Content) :
    ∃ entries, kind.write content = .object entries ∧ entries.map Prod.fst = kind.keys := by
  cases kind with
  | field =>
    obtain ⟨decl, children⟩ := content
    exact ⟨_, by rw [write, Field.toValue], rfl⟩
  | _ => exact ⟨_, rfl, rfl⟩

end RecordKind

/-- Whether two readers of a part would see the same, each in its record or not there. -/
def PartKind.Same : PartKind → Option Value → Option Value → Prop
  | plain, a, b => a = b
  | optional, a, b => a.getD .null = b.getD .null
  | record kind, a, b => a.bind kind.read = b.bind kind.read
  | records kind, a, b => a.bind (Value.list? kind.read) = b.bind (Value.list? kind.read)

theorem PartKind.same_refl (part : PartKind) (a : Option Value) : part.Same a a := by
  cases part <;> rfl

/-- A reader of a record sees nothing but its parts. -/
theorem RecordKind.read_congr {kind : RecordKind} {a b : List (String × Value)}
    (same : ∀ p ∈ kind.parts, p.2.Same (a.lookup p.1) (b.lookup p.1)) :
    kind.read (.object a) = kind.read (.object b) := by
  cases kind
  all_goals simp only [parts, List.forall_mem_cons, PartKind.Same, read] at same
  case model =>
    simp only [read, Model.ofValue?, parts?, part?, Option.bind_eq_bind, Option.bind_some, same]
  case settings =>
    simp only [read, Settings.ofValue?, parts?, part?, Option.bind_eq_bind, Option.bind_some, same]
  case envelope =>
    simp only [read, Envelope.ofValue?, parts?, part?, Option.bind_eq_bind, Option.bind_some, same]
  case group =>
    simp only [read, Group.ofValue?, parts?, part?, Option.bind_eq_bind, Option.bind_some, same]
  case endpoint =>
    simp only [read, Endpoint.ofValue?, parts?, part?, Option.bind_eq_bind, Option.bind_some,
      Endpoint.authOf?_eq, Field.ofArray?_eq, same]
  case field =>
    simp only [read, Field.ofValue?, FieldDecl.ofEntries?, Field.childrenIn?_eq, part?, same]

/-! ## Edits -/

/-- Changes to the value of a record, in itself or in a record inside it. -/
inductive RecordKind.Edit : RecordKind → Value → Value → Prop where
  /-- An entry is added under a key that the record does not have. -/
  | add {kind : RecordKind} (before after : List (String × Value)) (key : String) (value : Value)
      (unknown : key ∉ kind.keys) :
      Edit kind (.object (before ++ after)) (.object (before ++ (key, value) :: after))
  /-- An optional part that is null is left out. -/
  | drop {kind : RecordKind} (before after : List (String × Value)) (key : String)
      (known : (key, .optional) ∈ kind.parts) (only : key ∉ after.map Prod.fst) :
      Edit kind (.object (before ++ (key, .null) :: after)) (.object (before ++ after))
  /-- Two entries with different keys trade places. -/
  | swap {kind : RecordKind} (before after : List (String × Value)) (a b : String × Value)
      (differ : a.1 ≠ b.1) :
      Edit kind (.object (before ++ a :: b :: after)) (.object (before ++ b :: a :: after))
  /-- A record inside is changed. -/
  | inner {kind : RecordKind} (part : RecordKind) (before after : List (String × Value))
      (key : String) {v w : Value} (known : (key, .record part) ∈ kind.parts)
      (edit : Edit part v w) :
      Edit kind (.object (before ++ (key, v) :: after)) (.object (before ++ (key, w) :: after))
  /-- One record of a list inside is changed. -/
  | item {kind : RecordKind} (part : RecordKind) (before after : List (String × Value))
      (key : String) (front back : List Value) {v w : Value}
      (known : (key, .records part) ∈ kind.parts) (edit : Edit part v w) :
      Edit kind (.object (before ++ (key, .array (front ++ v :: back)) :: after))
        (.object (before ++ (key, .array (front ++ w :: back)) :: after))

section Lookup

variable {before after : List (String × Value)} {key other : String} {v w : Value}

private theorem lookup_append_cons_of_ne (differ : other ≠ key) :
    (before ++ (key, v) :: after).lookup other = (before ++ after).lookup other := by
  rw [List.lookup_append, List.lookup_append, lookup_cons_of_ne differ]

private theorem lookup_append_cons_self :
    (before ++ (key, v) :: after).lookup key = (before.lookup key).or (some v) := by
  rw [List.lookup_append, List.lookup_cons, beq_self_eq_true]

end Lookup

namespace RecordKind

variable {kind part : RecordKind} {key : String} {v w : Value}

/-- A key of a record has one kind of part. -/
theorem part_unique {p : PartKind} {q : String × PartKind} (known : (key, p) ∈ kind.parts)
    (member : q ∈ kind.parts) (same : q.1 = key) : q.2 = p := by
  have one : q = (key, p) := List.inj_on_of_nodup_map kind.nodup_keys member known same
  rw [one]

/-- A reader does not see a change under one key, if it does not see it in that part. -/
theorem read_replaced {p : PartKind} (known : (key, p) ∈ kind.parts)
    (before after : List (String × Value)) (same : p.Same (some v) (some w)) :
    kind.read (.object (before ++ (key, v) :: after)) =
      kind.read (.object (before ++ (key, w) :: after)) := by
  refine read_congr fun q member => ?_
  by_cases here : q.1 = key
  · rw [part_unique known member here, here, lookup_append_cons_self, lookup_append_cons_self]
    cases before.lookup key with
    | none => exact same
    | some earlier => exact p.same_refl _
  · rw [lookup_append_cons_of_ne here, lookup_append_cons_of_ne here]
    exact q.2.same_refl _

/-- No edit changes what is read from a value, whether or not anything can be read from it. -/
theorem Edit.read_eq (edit : kind.Edit v w) : kind.read v = kind.read w := by
  induction edit with
  | @add kind before after key value unknown =>
    refine read_congr fun q member => ?_
    have differ : q.1 ≠ key := by
      rintro rfl
      exact unknown (List.mem_map_of_mem member)
    rw [lookup_append_cons_of_ne differ]
    exact q.2.same_refl _
  | @drop kind before after key known only =>
    refine read_congr fun q member => ?_
    have absent : after.lookup key = none :=
      Option.not_isSome_iff_eq_none.1 (mt Entries.isSome_lookup_iff.1 only)
    by_cases here : q.1 = key
    · rw [part_unique known member here, here, lookup_append_cons_self, List.lookup_append, absent]
      cases before.lookup key <;> rfl
    · rw [lookup_append_cons_of_ne here]
      exact q.2.same_refl _
  | @swap kind before after a b differ =>
    obtain ⟨first, v⟩ := a
    obtain ⟨second, w⟩ := b
    refine read_congr fun q member => ?_
    have moved : (before ++ (first, v) :: (second, w) :: after).lookup q.1 =
        (before ++ (second, w) :: (first, v) :: after).lookup q.1 := by
      by_cases here : q.1 = second
      · rw [here, lookup_append_cons_of_ne (Ne.symm differ), lookup_append_cons_self,
          lookup_append_cons_self]
      · rw [lookup_append_cons_of_ne here, List.append_cons, lookup_append_cons_of_ne here,
          List.append_assoc]
        rfl
    rw [moved]
    exact q.2.same_refl _
  | inner part before after key known edit ih => exact read_replaced known before after ih
  | item part before after key front back known edit ih =>
    refine read_replaced known before after ?_
    simp only [PartKind.Same, Option.bind_some, Value.list?, List.mapM_append, List.mapM_cons, ih]

/-- Nor do any number of edits, one after the other. -/
theorem read_of_edited (edited : Relation.ReflTransGen kind.Edit v w) :
    kind.read v = kind.read w := by
  induction edited with
  | refl => rfl
  | tail _ edit ih => exact ih.trans edit.read_eq

end RecordKind

/-- A model is read back from its value as it was, also after any edits to its records; and the keys
that an edit may add to a record are all those that it is not written with. -/
theorem model_survives_edits {m : Model} (fits : m.LinesFit) :
    (∀ v, Relation.ReflTransGen (RecordKind.Edit .model) m.toValue v →
      Model.ofValue? v = some m) ∧
    ∀ (kind : RecordKind) (content : kind.Content), ∃ entries,
      kind.write content = .object entries ∧ entries.map Prod.fst = kind.keys := by
  refine ⟨fun v edited => ?_, RecordKind.keys_write⟩
  have same : Model.ofValue? m.toValue = Model.ofValue? v := RecordKind.read_of_edited edited
  rw [← same, Model.ofValue?_toValue fits]

/-- A model with a field inside a field, and an endpoint that asks for no authentication. -/
def formModel : Model where
  routePrefix := "shop"
  version := "v2"
  groups := [{
    name := "user", line := 2
    endpoints := [{
      name := "save", group := "user", line := 3
      requestFields := [{
        name := "who", declaredType := "Person", resolvedType := "struct", isNested := true
        children := [{ name := "age", declaredType := "int", resolvedType := "int64" }] }] }] }]
  settings := { authMap := .ofList [("u", "UserAuth"), ("a", "AdminAuth")] }

/-- Its value without that authentication, and with a note on the inner field. -/
def formValue : Value :=
  .object [("prefix", .string "shop"), ("version", .string "v2"),
    ("groups", .array [.object [("name", .string "user"), ("comment", .string ""),
      ("endpoints", .array [.object [("name", .string "save"), ("group", .string "user"),
        ("method", .string "GET"), ("protocol", .string "json"), ("comment", .string ""),
        ("request_fields", .array [.object [("name", .string "who"),
          ("declared_type", .string "Person"), ("resolved_type", .string "struct"),
          ("is_array", .bool false), ("is_nested", .bool true), ("required", .bool true),
          ("validation_rule", .string ""), ("comment", .string ""), ("line", .ofNat 0),
          ("children", .array [.object [("note", .array [.null]), ("name", .string "age"),
            ("declared_type", .string "int"), ("resolved_type", .string "int64"),
            ("is_array", .bool false), ("is_nested", .bool false), ("required", .bool true),
            ("validation_rule", .string ""), ("comment", .string ""), ("line", .ofNat 0),
            ("children", .array [])]])]]),
        ("response_fields", .array []), ("aliases", .array []), ("line", .ofNat 3)]]),
      ("line", .ofNat 2)]]),
    ("meta", formModel.settings.toValue)]

theorem model_survives_edits_form : formModel.LinesFit ∧
    Relation.ReflTransGen (RecordKind.Edit .model) formModel.toValue formValue ∧
    Model.ofValue? formValue = some formModel := by
  have fits : formModel.LinesFit := by
    refine List.forall_mem_singleton.2 ⟨by decide, List.forall_mem_singleton.2 ?_⟩
    exact ⟨by decide, by decide, by decide⟩
  have edited : Relation.ReflTransGen (RecordKind.Edit .model) formModel.toValue formValue :=
    .tail
      (.single
        (.item .group [_, _] _ "groups" [] _ (by decide)
          (.item .endpoint [_, _] _ "endpoints" [] _ (by decide)
            (.drop [_, _, _] _ "auth" (by decide) (by decide)))))
      (.item .group [_, _] _ "groups" [] _ (by decide)
        (.item .endpoint [_, _] _ "endpoints" [] _ (by decide)
          (.item .field [_, _, _, _, _] _ "request_fields" [] _ (by decide)
            (.item .field [_, _, _, _, _, _, _, _, _] _ "children" [] _ (by decide)
              (.add [] _ "note" (.array [.null]) (by decide))))))
  exact ⟨fits, edited, (model_survives_edits fits).1 formValue edited⟩

end ApiOutline
