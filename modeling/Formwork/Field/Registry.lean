import Formwork.OrderedMap
import Formwork.Markup.Name
import Formwork.Field.Kind
import Formwork.Field.Vocabulary

/-!
# Which elements make fields

A registry maps the URI of an element to a factory.  A factory either makes fields of a
kind or declines, and an element whose factory declines is treated as if it were not
registered.  Every registration makes a factory of its own: factories are told apart by a
label, and the labels of a registry are below its next free one.
-/

namespace Formwork

set_option autoImplicit false

/-- What makes fields for an element; without a kind it declines. -/
structure Factory where
  label : Nat
  makes : Option FieldKind
  deriving DecidableEq, Repr, Inhabited

/-- Factories by the URIs of elements. -/
structure Registry where
  factories : OrderedMap String Factory
  nextLabel : Nat
  deriving Inhabited

namespace Registry

/-- A registry without factories, whose labels begin at `firstLabel`. -/
def empty (firstLabel : Nat) : Registry := ⟨.empty, firstLabel⟩

/-- Register an element, in place of what was registered for it. -/
def register (r : Registry) (space : Option String) (localName : String)
    (makes : Option FieldKind) : Registry :=
  ⟨r.factories.insert (Markup.NameUri.make space localName) ⟨r.nextLabel, makes⟩, r.nextLabel + 1⟩

/-- The registry of the built-in elements, whose labels begin at `firstLabel`. -/
def builtin (firstLabel : Nat) : Registry :=
  FieldKind.builtinTags.foldl
    (fun r (localName, kind) => r.register (some Vocabulary.templateNamespace) localName (some kind))
    (empty firstLabel)

/-- The factory of an element, by its URI. -/
def lookupUri? (r : Registry) (uri : String) : Option Factory := r.factories.get? uri

/-- The factory of an element, by namespace and local name. -/
def lookup? (r : Registry) (space : Option String) (localName : String) : Option Factory :=
  r.lookupUri? (Markup.NameUri.make space localName)

/-- How many elements are registered. -/
def size (r : Registry) : Nat := r.factories.size

/-- Whether no element is registered. -/
def isEmpty (r : Registry) : Bool := r.factories.isEmpty

end Registry

end Formwork
