import Formwork.Page.Edit
import Formwork.Markup.Parse

/-!
# Pages and markup

The content of a node can be written out as markup, read as plain text, and replaced
by parsed markup or by a single text.  Parsed nodes are numbered in document order, an
element before its children.  Writing quotes attribute values with `"`.
-/

namespace Formwork.Page

set_option autoImplicit false

/-! ## Writing -/

/-- A node as markup, for at most so many levels. -/
def markupUpTo (p : Page) : Nat → NodeId → String
  | 0, _ => ""
  | levels + 1, n =>
    match p.node? n with
    | none => ""
    | some ⟨.text content, _, _⟩ => Markup.Escape.text content
    | some ⟨.element tag attributes, _, children⟩ =>
      let attrs := attributes.toList.map fun (name, value) => Markup.Escape.attr .double name value
      "<" ++ tag ++ String.join attrs ++ ">" ++
        String.join (children.map (markupUpTo p levels)) ++ "</" ++ tag ++ ">"

/-- A node as markup, its own tags included. -/
def outerMarkup (p : Page) (n : NodeId) : String := p.markupUpTo p.size n

/-- The content of a node as markup. -/
def innerMarkup (p : Page) (n : NodeId) : String :=
  match p.node? n with
  | none => ""
  | some ⟨.text content, _, _⟩ => Markup.Escape.text content
  | some ⟨.element _ _, _, children⟩ => String.join (children.map p.outerMarkup)

/-- The text below a node in document order, for at most so many levels. -/
def textUpTo (p : Page) : Nat → NodeId → String
  | 0, _ => ""
  | levels + 1, n =>
    match p.node? n with
    | none => ""
    | some ⟨.text content, _, _⟩ => content
    | some ⟨.element _ _, _, children⟩ => String.join (children.map (textUpTo p levels))

/-- The text below a node, in document order. -/
def textContent (p : Page) (n : NodeId) : String := p.textUpTo p.size n

/-! ## Importing parsed markup -/

mutual
/-- Add a parsed node behind the children of `parent`. -/
def importNode (parent : NodeId) (p : Page) : Markup.Node → Page
  | .text content =>
    let (n, p) := p.createText content
    p.link parent n
  | .element tag children =>
    let attributes := OrderedMap.ofList (tag.attributes.map fun a => (a.qname, a.value))
    let (n, p) := p.create (.element tag.qname attributes)
    (importNodes n p children).link parent n

/-- Add parsed nodes behind the children of `parent`, in order. -/
def importNodes (parent : NodeId) (p : Page) : List Markup.Node → Page
  | [] => p
  | n :: ns => importNodes parent (importNode parent p n) ns
end

/-! ## Replacing content -/

/-- Read markup that is to become the content of a node. -/
def readMarkup (p : Page) (n : NodeId) (html : String) : Except PageError (List Markup.Node) :=
  if (p.tag? n).isNone then .error .childOfText
  else (Markup.parseFragment html).mapError .invalidMarkup

/-- Replace the content of a node by parsed nodes. -/
def setNodes (p : Page) (n : NodeId) (nodes : List Markup.Node) : Page :=
  importNodes n (p.clear n) nodes

/-- Replace the content of a node by parsed markup. -/
def setMarkup (p : Page) (n : NodeId) (html : String) : Except PageError Page :=
  (p.readMarkup n html).map (p.setNodes n)

/-- Replace the content of a node by a single text, or by nothing when the text is empty. -/
def setText (p : Page) (n : NodeId) (content : String) : Page :=
  if (p.tag? n).isNone then p.update n fun node => { node with content := .text content }
  else
    let p := p.clear n
    if content = "" then p
    else
      let (t, p) := p.createText content
      p.link n t

/-- Replace the content of a node by markup, or by the markup as text when it cannot be read. -/
def setMarkupOrText (p : Page) (n : NodeId) (html : String) : Page :=
  match p.setMarkup n html with
  | .ok p => p
  | .error _ => p.setText n html

end Formwork.Page
