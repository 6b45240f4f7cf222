import Formwork.Page.Markup

/-!
# Building on a page step by step

A widget is built by a sequence of changes to a page, any of which may be refused.  The
changes made before a refusal stay: the page after a failed sequence is the page at the
point of failure.

Moving a node is itself such a sequence: the node leaves its former place before it gets
the new one, so what is asked must be asked first.
-/

namespace Formwork

set_option autoImplicit false

/-- A sequence of changes to a page; a refusal ends it but takes nothing back. -/
abbrev PageM (α : Type) := ExceptT PageError (StateM Page) α

namespace PageM

/-- Create an element. -/
def element (tag : String) : PageM NodeId := modifyGet fun p => p.createElement tag

/-- Set an attribute. -/
def setAttr (n : NodeId) (name value : String) : PageM Unit := modify fun p => p.setAttr n name value

/-- Set an attribute to its own name, or remove it. -/
def setFlag (n : NodeId) (name : String) (on : Bool) : PageM Unit :=
  modify fun p => p.setFlag n name on

/-- Replace the content of a node by a text. -/
def setText (n : NodeId) (content : String) : PageM Unit := modify fun p => p.setText n content

/-- Replace the content of a node by markup, or by text when the markup cannot be read. -/
def setMarkupOrText (n : NodeId) (html : String) : PageM Unit :=
  modify fun p => p.setMarkupOrText n html

/-- Take all children away from a node. -/
def clear (n : NodeId) : PageM Unit := modify fun p => p.clear n

/-- Take a node out of the tree it lies in. -/
def detach (n : NodeId) : PageM Unit := modify fun p => p.detach n

/-! ## Changes that may be refused -/

/-- Ask the page something that it may refuse to answer. -/
def ask {α : Type} (question : Page → Except PageError α) : PageM α := do
  match question (← get) with
  | .ok a => return a
  | .error e => throw e

/-- Make a change that may be refused; a refused change leaves the page as it is. -/
def attempt (change : Page → Except PageError Page) : PageM Unit := do
  set (← ask change)

/-- Move a node behind the children of another. -/
def append (parent child : NodeId) : PageM Unit := do
  ask fun p => p.checkPlace parent child
  detach child
  modify fun p => p.link parent child

/-- Move a node to the place before a child of another. -/
def insertBefore (parent child reference : NodeId) : PageM Unit := do
  ask fun p => p.checkChild parent reference
  if child = reference then return
  ask fun p => p.checkPlace parent child
  detach child
  attempt fun p => p.putBefore parent child reference

/-- Take a child away from its parent. -/
def remove (parent child : NodeId) : PageM Unit := do
  ask fun p => p.checkChild parent child
  detach child

/-- Replace the content of a node by parsed markup. -/
def setMarkup (n : NodeId) (html : String) : PageM Unit := do
  let nodes ← ask fun p => p.readMarkup n html
  clear n
  modify fun p => p.importNodes n nodes

end PageM

end Formwork
