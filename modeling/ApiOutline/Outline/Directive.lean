import ApiOutline.Fault
import ApiOutline.Model
import ApiOutline.Outline.Line
import ApiOutline.Text.Split

/-!
Directives: the lines that set something for the document as a whole.

A later directive takes the place of an earlier one of its key.  The entries of an authentication
map are taken one by one, so those before a malformed entry are kept.
-/

namespace ApiOutline.Outline

/-- Takes the entries of an authentication map up to the first without an equals sign. -/
def addAuthEntries : List (List Char) → Settings → Settings × Option GrammarFault
  | [], settings => (settings, none)
  | entry :: rest, settings =>
    match Text.cut? '=' entry with
    | none => (settings, some (.malformedAuthEntry (String.ofList entry)))
    | some (tag, name) =>
      addAuthEntries rest { settings with
        authMap := settings.authMap.insert (String.ofList (Text.trim tag))
          (String.ofList (Text.trim name)) }

/-- Takes one item of an envelope directive; an item of an unknown key changes nothing. -/
def applyEnvelopeItem (envelope : Envelope) (item : List Char) : Envelope :=
  match Text.cut? '=' item with
  | none => envelope
  | some (key, value) =>
    if key = "fields".toList then
      { envelope with fields := (Text.commaItems value).map String.ofList }
    else if key = "in".toList then
      { envelope with dataField := String.ofList (Text.trim value) }
    else envelope

/-- The value of a directive: what follows its key, trimmed. -/
def directiveValue (key : DirectiveKey) (raw : List Char) : List Char :=
  Text.trim ((key.lead.isPrefixOf? raw).getD [])

/-- Carries out a directive.  The settings are those that hold afterwards, also after a fault. -/
def applyDirective (key : DirectiveKey) (raw : List Char) (settings : Settings) :
    Settings × Option GrammarFault :=
  let value := directiveValue key raw
  match key with
  | .title => ({ settings with title := String.ofList value }, none)
  | .description => ({ settings with description := String.ofList value }, none)
  | .apiServer => ({ settings with apiServer := String.ofList value }, none)
  | .version => ({ settings with serverVersion := String.ofList value }, none)
  | .authMap => addAuthEntries (Text.commaItems value) settings
  | .envelope =>
    let envelope := (Text.words value).foldl applyEnvelopeItem settings.envelope
    ({ settings with envelope }, none)

end ApiOutline.Outline
