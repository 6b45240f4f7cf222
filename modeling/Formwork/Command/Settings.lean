import Formwork.OrderedMap
import Formwork.Json.Parse
import Formwork.Command.Arguments

/-!
# Settings

Settings come from a configuration file and from the command line, which wins.  A
configuration is a table with known keys, none of them repeated, or a list of their values in
the order messages, template, output, values.  Whatever it leaves out has no setting; so has
a key whose value is `null`, which `values` must not be.
-/

namespace Formwork.Command

set_option autoImplicit false

/-- What a configuration file says. -/
structure FileSettings where
  messages : Option String
  template : Option String
  output : Option OutputFormat
  values : OrderedMap String String

namespace FileSettings

/-- A configuration that says nothing. -/
def empty : FileSettings := ⟨none, none, none, .empty⟩

/-- The keys of a configuration. -/
inductive Key where
  | messages
  | template
  | output
  | values
  deriving DecidableEq, Repr

/-- The key with a name. -/
def Key.ofName? : String → Option Key
  | "messages" => some .messages
  | "template" => some .template
  | "output" => some .output
  | "values" => some .values
  | _ => none

/-- The keys in the order in which a list gives their values. -/
def Key.inOrder : List Key := [.messages, .template, .output, .values]

/-- A text, or `null` for none. -/
def optionalText? : Json → Option (Option String)
  | .null => some none
  | .text content => some (some content)
  | _ => none

/-- The name of an output format, alone or as the key of a table with the value `null`. -/
def optionalFormat? : Json → Option (Option OutputFormat)
  | .null => some none
  | .text name => (OutputFormat.ofName? name).map some
  | .table [(name, .null)] => (OutputFormat.ofName? name).map some
  | _ => none

/-- Values of fields by name; the last value for a name counts. -/
def fieldValues? : Json → Option (OrderedMap String String)
  | .table entries =>
    (entries.mapM fun (entry : String × Json) => match entry.2 with
      | .text content => some (entry.1, content)
      | _ => none).map .ofList
  | _ => none

/-- Take in the value of a key. -/
def set? (s : FileSettings) : Key → Json → Option FileSettings
  | .messages, value => (optionalText? value).map fun messages => { s with messages }
  | .template, value => (optionalText? value).map fun template => { s with template }
  | .output, value => (optionalFormat? value).map fun output => { s with output }
  | .values, value => (fieldValues? value).map fun values => { s with values }

/-- Take in the values of some keys, none of which is repeated. -/
def setAll? (s : FileSettings) (entries : List (Key × Json)) : Option FileSettings :=
  if (entries.map Prod.fst).Nodup then entries.foldlM (fun s (key, value) => s.set? key value) s
  else none

/-- What a configuration says, if it is one. -/
def ofJson? : Json → Option FileSettings
  | .table entries => do
    let entries ← entries.mapM fun (name, value) => (Key.ofName? name).map fun key => (key, value)
    empty.setAll? entries
  | .list items =>
    if items.length ≤ Key.inOrder.length then empty.setAll? (Key.inOrder.zip items) else none
  | _ => none

/-- Read the text of a configuration file. -/
def parse? (text : String) : Option FileSettings := (Json.parse? text).bind ofJson?

end FileSettings

/-- The settings that count. -/
structure Settings where
  templates : String
  messages : Option String
  template : Option String
  output : OutputFormat
  values : List (String × String)
  list : Bool
  deriving DecidableEq, Repr

/-- Put arguments before the settings of a file.  The values of the file are stored first, so that
those of the command line have the last word. -/
def Settings.merge (templates : String) (a : Arguments) (file : FileSettings) : Settings where
  templates := templates
  messages := a.messages <|> file.messages
  template := a.template <|> file.template
  output := (a.output <|> file.output).getD .human
  values := file.values.toList ++ a.values
  list := a.list

end Formwork.Command
