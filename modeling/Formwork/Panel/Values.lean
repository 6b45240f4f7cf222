import Formwork.Panel.Basic

/-!
# The values of a panel

The value of a field is read from its widget and stored there; fields without a value give
none and accept none.  Several fields may share a name: reading by name gives the first value
there is, storing by name offers the value to one field after the other until one accepts it,
and a list of values is handed out one to each field.
-/

namespace Formwork.PanelM

set_option autoImplicit false

/-! ## One field -/

/-- The value of a field. -/
def value? (f : FieldId) : PanelM (Option String) := do
  if !(← field f).kind.hasValue then return none
  let w ← widgetOf f
  return w.value? (← get).page

/-- The value of a field as a list. -/
def values (f : FieldId) : PanelM (List String) := return (← value? f).toList

/-- Store a value in a field and tell whether it was accepted. -/
def setValue (f : FieldId) (value : Option String) : PanelM Bool := do
  let field ← field f
  if !field.kind.hasValue ∧ field.kind ≠ .disclosure then return false
  let label := field.label? (← get).panel.messages
  let w ← widgetOf f
  onPage (w.setValue value label)

/-- Store the first of some values in a field, or none when there is none, and return the rest. -/
def setValues (f : FieldId) (values : List String) : PanelM (List String) := do
  let _ ← setValue f values.head?
  return values.tail

/-- Reset the value of a field. -/
def clearValue (f : FieldId) : PanelM Unit := do
  let field ← field f
  if !field.kind.hasValue then return
  let w ← widgetOf f
  changePage (w.resetValue field.defaultValue?)

/-! ## Fields by name -/

/-- The fields with a name. -/
def named (name : String) : PanelM (List FieldId) := return (← get).panel.table.named name

/-- The first value among some fields. -/
def firstValue? : List FieldId → PanelM (Option String)
  | [] => return none
  | f :: fs => do
    match ← value? f with
    | some value => return some value
    | none => firstValue? fs

/-- The first value among the fields with a name. -/
def fieldValue? (name : String) : PanelM (Option String) := do firstValue? (← named name)

/-- The values of all fields with a name. -/
def fieldValues (name : String) : PanelM (List String) := do
  return (← (← named name).mapM values).flatten

/-- Offer a value to some fields until one accepts it. -/
def offer (value : Option String) : List FieldId → PanelM Bool
  | [] => return false
  | f :: fs => do if ← setValue f value then return true else offer value fs

/-- Offer a value to the fields with a name until one accepts it. -/
def setFieldValue (name : String) (value : Option String) : PanelM Bool := do
  offer value (← named name)

/-- Hand out values to some fields, one to each; the values left over are returned. -/
def handOut : List FieldId → List String → PanelM (List String)
  | [], values => return values
  | f :: fs, values => do handOut fs (← setValues f values)

/-- Hand out values to the fields with a name; the values left over are returned. -/
def setFieldValues (name : String) (values : List String) : PanelM (List String) := do
  handOut (← named name) values

/-! ## Clearing -/

/-- Reset every field. -/
def clear : PanelM Unit := do (← get).panel.table.ids.forM clearValue

/-- A field and everything below it. -/
def subtree (f : FieldId) : PanelM (List FieldId) := do
  match (← get).panel.table.subtree f with
  | .ok fs => return fs
  | .error e => throw e

/-- Reset the fields with a name, together with everything below them if asked to. -/
def clearField (name : String) (descendants : Bool) : PanelM Unit := do
  (← named name).forM fun f => do
    if descendants then (← subtree f).forM clearValue else clearValue f

end Formwork.PanelM
