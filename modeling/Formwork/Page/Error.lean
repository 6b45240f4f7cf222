import Formwork.Markup.Error

/-!
# Why a page refuses a change

A page refuses markup that cannot be read, a reference to a node that is not a child,
and an insertion that would break the tree.  A refused change changes nothing.
-/

namespace Formwork

set_option autoImplicit false

/-- Why a page refuses a change. -/
inductive PageError where
  /-- The markup cannot be read. -/
  | invalidMarkup (error : Markup.Error)
  /-- The node to insert before, or to remove, is not a child. -/
  | notAChild
  /-- A text was to get children. -/
  | childOfText
  /-- A node was to be inserted below itself. -/
  | insideItself
  deriving DecidableEq, Repr

/-- The name of the kind of an error. -/
def PageError.kind : PageError → String
  | .invalidMarkup _ => "invalid-markup"
  | .notAChild => "not-a-child"
  | .childOfText => "hierarchy"
  | .insideItself => "hierarchy"

/-- An error in words. -/
def PageError.message : PageError → String
  | .invalidMarkup e => "Invalid markup: " ++ e.text
  | .notAChild => "The reference node is not a child of this node"
  | .childOfText => "Text nodes cannot have children"
  | .insideItself => "A node cannot be inserted into itself"

end Formwork
