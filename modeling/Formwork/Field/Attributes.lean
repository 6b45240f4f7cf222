import Formwork.OrderedMap
import Formwork.Field.Vocabulary

/-!
# Attributes of fields

A field remembers the attributes of the element it was made from, each under its URI and
in the order of the element.  Some are flags, some are passed on to the widget.
-/

namespace Formwork

set_option autoImplicit false

/-- Attributes by their URIs, in the order they were given. -/
abbrev Attributes := OrderedMap String String

namespace Attributes

/-- The words that switch a flag on. -/
def isTrue (value : String) : Bool := value ∈ ["true", "yes", "1", "checked"]

/-- Whether a flag is on; a missing one is as `default` says. -/
def flag (attributes : Attributes) (uri : String) (default : Bool) : Bool :=
  match attributes.get? uri with
  | some value => isTrue value
  | none => default

/-- The name under which an attribute is passed on to the widget, if it is.  Attributes of the
widget namespace keep their local name, those of other namespaces are not passed on, and a plain
name is passed on as it is. -/
def widgetName? (uri : String) : Option String :=
  let space := Vocabulary.widgetNamespace.toList
  if space.isPrefixOf uri.toList then some (String.ofList (uri.toList.drop space.length))
  else if '#' ∈ uri.toList ∨ '/' ∈ uri.toList then none
  else some uri

/-- The attributes that are passed on to the widget, by the names they have there. -/
def forWidget (attributes : Attributes) : List (String × String) :=
  attributes.toList.filterMap fun (uri, value) => (widgetName? uri).map fun name => (name, value)

end Attributes

end Formwork
