import Formwork.Field.Basic
import Formwork.Page.Error

/-!
# Why an operation on fields fails
-/

namespace Formwork

set_option autoImplicit false

/-- Why an operation on fields fails. -/
inductive FieldError where
  /-- The field was never created in this panel, or was removed. -/
  | unknownField (f : FieldId)
  /-- The page refused a change. -/
  | page (error : PageError)
  deriving DecidableEq, Repr

/-- The name of the kind of an error. -/
def FieldError.kind : FieldError → String
  | .unknownField _ => "unknown-field"
  | .page _ => "dom"

/-- An error in words. -/
def FieldError.message : FieldError → String
  | .unknownField f => "Unknown field: " ++ f.text
  | .page e => e.message

end Formwork
