import Formwork.Cache.Compile
import Formwork.Cache.Hash
import Formwork.Field.Attributes
import Formwork.Field.Registry
import Formwork.Markup.Tree

/-!
# Compiled templates

A template is compiled into a cache: registered elements become composites, which carry a
blueprint of the field to be made; all other elements are written out around their content.
An element of the reserved namespace that is not registered leaves its content only.

Two blueprints agree when they have the same factory, the same element and the same
attributes in any order.
-/

namespace Formwork

set_option autoImplicit false

/-- What a composite of a template says: the factory of its field, which the template itself does
not have, the URI of its element, and the attributes of the field. -/
structure Blueprint where
  factory : Option Factory
  tag : String
  attributes : Attributes
  deriving Inhabited

/-- The attributes of an element by their URIs; the last value of a repeated one counts. -/
def Markup.Tag.fieldAttributes (t : Markup.Tag) : Attributes :=
  OrderedMap.ofList (t.attributes.map fun a => (a.uri, a.value))

namespace Blueprint

/-- The blueprint of an element: its attributes and, as one more, its URI. -/
def ofTag (factory : Option Factory) (t : Markup.Tag) : Blueprint :=
  ⟨factory, t.uri, t.fieldAttributes.insert Vocabulary.tagKey t.uri⟩

/-- Whether two blueprints have the same factory, element and attributes. -/
def agrees (a b : Blueprint) : Bool :=
  a.factory.map Factory.label == b.factory.map Factory.label && a.tag == b.tag &&
    a.attributes.sameEntries b.attributes

/-- What a blueprint writes when it is hashed: its element and its attributes in order. -/
def hashWrites (b : Blueprint) : List Cache.HashWrite :=
  .text b.tag :: b.attributes.toList.flatMap fun (uri, value) => [.text uri, .text value]

end Blueprint

/-- A compiled template. -/
abbrev Template := Cache.Composite Blueprint

namespace Template

/-! ## Elements as source trees -/

/-- What a node of markup is, apart from its children. -/
inductive Label where
  | text (content : String)
  | element (tag : Markup.Tag)

mutual
/-- A node of markup as a tree of labels. -/
def sourceOf : Markup.Node → Cache.SourceTree Label
  | .text content => .node (.text content) []
  | .element tag children => .node (.element tag) (sourcesOf children)

/-- Nodes of markup as trees of labels. -/
def sourcesOf : List Markup.Node → List (Cache.SourceTree Label)
  | [] => []
  | n :: ns => sourceOf n :: sourcesOf ns
end

/-! ## Compiling -/

/-- Whether an element is written out: not if it is reserved. -/
def isWritten (tag : Markup.Tag) : Bool := !Vocabulary.isReserved tag.uri

/-- How markup is mapped to a template by a registry. -/
def hooks (registry : Registry) : Cache.Hooks Label Blueprint Empty where
  root
    | .text _ => .ok (.leaf ⟨none, "", .empty⟩)
    | .element tag => .ok (.leaf (.ofTag none tag))
  composite
    | .text _ => .ok none
    | .element tag => .ok ((registry.lookupUri? tag.uri).map fun factory =>
        .leaf (.ofTag (some factory) tag))
  before
    | _, some _ => .ok none
    | .text content, none => .ok (some (Markup.Escape.text content))
    | .element tag, none => .ok (if isWritten tag then some tag.openMarkup else none)
  behind
    | _, some _ => .ok none
    | .text _, none => .ok none
    | .element tag, none => .ok (if isWritten tag then some tag.closeMarkup else none)
  descends
    | .text _, _ => false
    | .element _, _ => true

/-- Compile a node of markup. -/
def compile (registry : Registry) (n : Markup.Node) : Template :=
  match (hooks registry).compile (sourceOf n) with
  | .ok template => template
  | .error e => nomatch e

end Template

end Formwork
