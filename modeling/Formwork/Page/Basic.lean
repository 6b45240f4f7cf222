import Formwork.OrderedMap

/-!
# Pages

A page is a growing forest of nodes.  A node is created on its own, is known by its
number in the order of creation, and stays known when it is taken out of the tree it
lies in.  It records its parent and its children; the two must agree, which the
operations on pages take care of.

This module holds the data, the creation of nodes, and the questions that can be asked
of a page.  Walks over the forest take as many levels as there are nodes, which is
enough because no node lies below itself.
-/

namespace Formwork

set_option autoImplicit false

/-! ## Data -/

/-- A node of a page, by its number in the order of creation. -/
structure NodeId where
  index : Nat
  deriving DecidableEq, Repr, Inhabited

/-- What a node is: an element with its attributes, or text. -/
inductive Content where
  | element (tag : String) (attributes : OrderedMap String String)
  | text (content : String)
  deriving Inhabited

/-- A node: what it is and where it lies. -/
structure PageNode where
  content : Content
  parent : Option NodeId
  children : List NodeId
  deriving Inhabited

/-- A forest of nodes, numbered in the order of creation. -/
structure Page where
  nodes : Array PageNode
  deriving Inhabited

namespace Page

/-- The page without nodes. -/
def empty : Page := ⟨#[]⟩

/-- How many nodes were ever created. -/
def size (p : Page) : Nat := p.nodes.size

/-- The node with a number. -/
def node? (p : Page) (n : NodeId) : Option PageNode := p.nodes[n.index]?

/-- Change a node in place. -/
def update (p : Page) (n : NodeId) (f : PageNode → PageNode) : Page :=
  ⟨p.nodes.modify n.index f⟩

/-! ## Creating nodes -/

/-- A new node that lies nowhere yet. -/
def create (p : Page) (content : Content) : NodeId × Page :=
  (⟨p.size⟩, ⟨p.nodes.push ⟨content, none, []⟩⟩)

/-- A new element without attributes. -/
def createElement (p : Page) (tag : String) : NodeId × Page := p.create (.element tag .empty)

/-- A new text. -/
def createText (p : Page) (content : String) : NodeId × Page := p.create (.text content)

/-! ## Questions about one node -/

/-- The tag of an element; a text has none. -/
def tag? (p : Page) (n : NodeId) : Option String :=
  match (p.node? n).map PageNode.content with
  | some (.element tag _) => some tag
  | _ => none

/-- The value of an attribute; a text has none. -/
def attr? (p : Page) (n : NodeId) (name : String) : Option String :=
  match (p.node? n).map PageNode.content with
  | some (.element _ attributes) => attributes.get? name
  | _ => none

/-- The parent of a node. -/
def parent? (p : Page) (n : NodeId) : Option NodeId := (p.node? n).bind PageNode.parent

/-- The children of a node, in order. -/
def children (p : Page) (n : NodeId) : List NodeId := ((p.node? n).map PageNode.children).getD []

/-- The first child of a node. -/
def firstChild? (p : Page) (n : NodeId) : Option NodeId := (p.children n).head?

/-- The node behind another among the children of the same parent. -/
def nextSibling? (p : Page) (n : NodeId) : Option NodeId :=
  (p.parent? n).bind fun q => ((p.children q).dropWhile (· ≠ n))[1]?

/-! ## Walks -/

/-- A node, its parent, the parent of that, for at most so many steps. -/
def lineageUpTo (p : Page) : Nat → NodeId → List NodeId
  | 0, _ => []
  | steps + 1, n => n :: ((p.parent? n).map (lineageUpTo p steps)).getD []

/-- A node and everything it lies in. -/
def lineage (p : Page) (n : NodeId) : List NodeId := p.lineageUpTo (p.size + 1) n

/-- Whether one node lies below another, or is it. -/
def contains (p : Page) (ancestor n : NodeId) : Bool := decide (ancestor ∈ p.lineage n)

/-- The nodes below a node in document order, for at most so many levels. -/
def belowUpTo (p : Page) : Nat → NodeId → List NodeId
  | 0, _ => []
  | levels + 1, n => (p.children n).flatMap fun c => c :: belowUpTo p levels c

/-- The nodes below a node, in document order. -/
def below (p : Page) (n : NodeId) : List NodeId := p.belowUpTo p.size n

/-- The first node below another, in document order, whose `id` has a given value. -/
def byId? (p : Page) (root : NodeId) (id : String) : Option NodeId :=
  (p.below root).find? fun n => p.attr? n "id" = some id

end Page

end Formwork
