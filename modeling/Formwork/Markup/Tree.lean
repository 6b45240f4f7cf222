import Formwork.Markup.Name
import Formwork.Markup.Escape

/-!
# Trees of markup

A tree of markup holds elements and runs of text.  Every element and attribute
keeps two names: the URI that identifies it and the qualified name it was written
with, so a tree can be written back as it was declared.

Adding a node to a list of siblings (`Node.push`) joins a text with the text
before it.  Writing a tree quotes attribute values with `'`.
-/

namespace Formwork.Markup

set_option autoImplicit false

/-! ## Data -/

/-- An attribute with its resolved name and decoded value. -/
structure Attribute where
  uri : String
  qname : String
  value : String
  deriving DecidableEq, Repr, Inhabited

/-- An attribute that is identified by its written name. -/
def Attribute.plain (qname value : String) : Attribute := ⟨qname, qname, value⟩

/-- What a start tag says: the names of an element and its attributes in order. -/
structure Tag where
  uri : String
  qname : String
  attributes : List Attribute
  deriving DecidableEq, Repr, Inhabited

/-- A node of a tree: decoded text, or an element with its children. -/
inductive Node where
  | text (content : String)
  | element (tag : Tag) (children : List Node)
  deriving Inhabited

/-- An element: its tag and its children. -/
structure Element extends Tag where
  children : List Node
  deriving Inhabited

/-- An element seen as a node. -/
def Element.toNode (e : Element) : Node := .element e.toTag e.children

/-- The element a node is, if it is one. -/
def Node.element? : Node → Option Element
  | .text _ => none
  | .element tag children => some ⟨tag, children⟩

/-! ## Reading -/

/-- The namespace of an element, its separator included. -/
def Tag.namespace? (t : Tag) : Option String := NameUri.namespace? t.uri

/-- The local name of an element, when it has a namespace. -/
def Tag.localName? (t : Tag) : Option String := NameUri.localName? t.uri

/-- The value of the first attribute with a URI. -/
def Tag.attribute? (t : Tag) (uri : String) : Option String :=
  (t.attributes.find? fun a => a.uri = uri).map Attribute.value

/-- The child elements, in order. -/
def Element.elements (e : Element) : List Element := e.children.filterMap Node.element?

mutual
/-- The text below a node, in document order. -/
def Node.allText : Node → String
  | .text content => content
  | .element _ children => allTextOf children

/-- The text below some siblings, in document order. -/
def allTextOf : List Node → String
  | [] => ""
  | n :: ns => n.allText ++ allTextOf ns
end

/-- The text below an element, in document order. -/
def Element.text (e : Element) : String := allTextOf e.children

/-! ## Building -/

/-- Add a node behind its siblings; a text joins the text before it. -/
def Node.push : List Node → Node → List Node
  | [], n => [n]
  | [.text before], .text behind => [.text (before ++ behind)]
  | m :: ms, n => m :: Node.push ms n

/-- Add a child to an element; a text joins the text before it. -/
def Element.pushChild (e : Element) (n : Node) : Element :=
  { e with children := Node.push e.children n }

/-! ## Writing -/

/-- The start tag. -/
def Tag.openMarkup (t : Tag) : String :=
  "<" ++ t.qname ++ String.join (t.attributes.map fun a => Escape.attr .single a.qname a.value)
    ++ ">"

/-- The end tag. -/
def Tag.closeMarkup (t : Tag) : String := "</" ++ t.qname ++ ">"

mutual
/-- A node as markup. -/
def Node.markup : Node → String
  | .text content => Escape.text content
  | .element tag children => tag.openMarkup ++ markupOf children ++ tag.closeMarkup

/-- Siblings as markup, one after the other. -/
def markupOf : List Node → String
  | [] => ""
  | n :: ns => n.markup ++ markupOf ns
end

/-- The content of an element as markup. -/
def Element.content (e : Element) : String := markupOf e.children

/-- An element with its tags as markup. -/
def Element.markup (e : Element) : String := e.toNode.markup

end Formwork.Markup
