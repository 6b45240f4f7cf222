import Formwork.Page.Basic
import Formwork.Page.Error

/-!
# Changing a page

Attributes are set and removed, nodes are moved, and a node is taken out of the tree
it lies in.  A node that is inserted leaves its former place first.  The changes that
can be refused return the page they make, so a refusal has no page to show and leaves
the old one as it was.
-/

namespace Formwork.Page

set_option autoImplicit false

/-! ## Attributes -/

/-- Change the attributes of an element; a text has none to change. -/
def updateAttrs (p : Page) (n : NodeId)
    (f : OrderedMap String String → OrderedMap String String) : Page :=
  p.update n fun node =>
    match node.content with
    | .element tag attributes => { node with content := .element tag (f attributes) }
    | .text _ => node

/-- Set an attribute. -/
def setAttr (p : Page) (n : NodeId) (name value : String) : Page :=
  p.updateAttrs n fun attributes => attributes.insert name value

/-- Remove an attribute. -/
def removeAttr (p : Page) (n : NodeId) (name : String) : Page :=
  p.updateAttrs n fun attributes => attributes.erase name

/-- Set an attribute to its own name, or remove it. -/
def setFlag (p : Page) (n : NodeId) (name : String) (on : Bool) : Page :=
  if on then p.setAttr n name name else p.removeAttr n name

/-! ## Moving nodes -/

/-- Take a node out of the tree it lies in. -/
def detach (p : Page) (n : NodeId) : Page :=
  match p.parent? n with
  | none => p
  | some q =>
    (p.update n fun node => { node with parent := none }).update q fun node =>
      { node with children := node.children.filter (· ≠ n) }

/-- Put a detached node behind the children of another. -/
def link (p : Page) (parent child : NodeId) : Page :=
  (p.update child fun node => { node with parent := some parent }).update parent fun node =>
    { node with children := node.children ++ [child] }

/-- Whether `child` can become a child of `parent`. -/
def checkPlace (p : Page) (parent child : NodeId) : Except PageError Unit :=
  if (p.tag? parent).isNone then .error .childOfText
  else if p.contains child parent then .error .insideItself
  else .ok ()

/-- Move a node behind the children of another. -/
def append (p : Page) (parent child : NodeId) : Except PageError Page := do
  p.checkPlace parent child
  return (p.detach child).link parent child

/-- Whether a node is a child of `parent`. -/
def checkChild (p : Page) (parent child : NodeId) : Except PageError Unit :=
  if p.parent? child = some parent then .ok () else .error .notAChild

/-- Put a detached node before one of the children of another. -/
def putBefore (p : Page) (parent child reference : NodeId) : Except PageError Page :=
  let (front, back) := (p.children parent).span (· ≠ reference)
  if back.isEmpty then .error .notAChild
  else .ok <| (p.update child fun node => { node with parent := some parent }).update parent
    fun node => { node with children := front ++ child :: back }

/-- Move a node to the place before a child of another. -/
def insertBefore (p : Page) (parent child reference : NodeId) : Except PageError Page := do
  p.checkChild parent reference
  if child = reference then return p
  p.checkPlace parent child
  (p.detach child).putBefore parent child reference

/-- Take a child away from its parent. -/
def remove (p : Page) (parent child : NodeId) : Except PageError Page := do
  p.checkChild parent child
  return p.detach child

/-- Take all children away from a node. -/
def clear (p : Page) (n : NodeId) : Page :=
  (p.children n).foldl (fun p c => (p.remove n c).toOption.getD p) p

end Formwork.Page
