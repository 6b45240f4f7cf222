import Formwork.Field.Error

/-!
# Why a panel cannot be built
-/

namespace Formwork

set_option autoImplicit false

/-- Why a panel cannot be built. -/
inductive BuildError where
  /-- A field was begun after the template was finished. -/
  | beginAfterEnd
  /-- A field was ended that was never begun. -/
  | endWithoutBegin
  /-- Fields were left open. -/
  | leftOpen (count : Nat)
  /-- A template shows itself. -/
  | recursiveTemplate (name : String)
  /-- An operation on fields failed. -/
  | field (error : FieldError)
  /-- The page refused a change. -/
  | page (error : PageError)
  deriving DecidableEq, Repr

/-- The name of the kind of an error. -/
def BuildError.kind : BuildError → String
  | .beginAfterEnd | .endWithoutBegin | .leftOpen _ => "unbalanced-fields"
  | .recursiveTemplate _ => "recursive-template"
  | .field _ => "field"
  | .page _ => "dom"

/-- An error in words. -/
def BuildError.message : BuildError → String
  | .beginAfterEnd => "begin_field called after the template root was closed"
  | .endWithoutBegin => "end_field called without an open field"
  | .leftOpen count => s!"{count} field(s) left open"
  | .recursiveTemplate name => s!"Template '{name}' renders itself"
  | .field e => e.message
  | .page e => e.message

end Formwork
