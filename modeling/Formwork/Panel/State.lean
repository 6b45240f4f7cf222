import Formwork.Panel.Values

/-!
# Enabling, showing and pressing

Disabling reaches the controls of a panel: a field with a control of its own is disabled
itself, any other field passes the request on to its children.

Pressing a button tells those who listen to it, in the order in which they were added:
first those who listen to buttons of its name, then, for a submit or a cancel button, those
who listen to that kind.  A clear button resets the fields it names, or all fields.
-/

namespace Formwork.PanelM

set_option autoImplicit false

/-! ## Enabling and showing -/

/-- Enable or disable a field or what lies below it, for at most so many levels. -/
def enableUpTo : Nat → FieldId → Bool → PanelM Unit
  | 0, _, _ => return
  | levels + 1, f, enabled => do
    let field ← field f
    if field.kind.togglesEnabled then
      let w ← widgetOf f
      changePage (w.setEnabled enabled)
    else field.contents.forM fun child => enableUpTo levels child enabled

/-- Enable or disable a field, or the fields below it when it has no control of its own. -/
def enableTree (f : FieldId) (enabled : Bool) : PanelM Unit := do
  enableUpTo (← get).panel.table.slots.size f enabled

/-- Enable or disable all fields. -/
def setEnabled (enabled : Bool) : PanelM Unit := do
  (← get).panel.table.ids.forM fun f => enableTree f enabled

/-- Enable or disable the fields with a name. -/
def setFieldEnabled (name : String) (enabled : Bool) : PanelM Unit := do
  (← named name).forM fun f => enableTree f enabled

/-- Show or hide the fields with a name; false when there is none. -/
def setFieldVisible (name : String) (visible : Bool) : PanelM Bool := do
  let fs ← named name
  fs.forM fun f => do
    let root ← widget f
    changePage fun p => p.setFlag root "hidden" (!visible)
  return !fs.isEmpty

/-! ## Listening -/

/-- Listen to submit buttons. -/
def listenToSubmit (listener : String) : PanelM Unit :=
  modify fun s => { s with panel := { s.panel with
    submitListeners := s.panel.submitListeners ++ [listener] } }

/-- Listen to cancel buttons. -/
def listenToCancel (listener : String) : PanelM Unit :=
  modify fun s => { s with panel := { s.panel with
    cancelListeners := s.panel.cancelListeners ++ [listener] } }

/-- Listen to the buttons with a name. -/
def listenToClick (name listener : String) : PanelM Unit :=
  modify fun s => { s with panel := { s.panel with
    clickListeners := s.panel.clickListeners.insert name
      ((s.panel.clickListeners.get? name).getD [] ++ [listener]) } }

/-! ## Pressing -/

/-- What pressing a field did: whether it is a button, and who was told, in order. -/
structure Press where
  pressed : Bool
  told : List String
  deriving DecidableEq, Repr

/-- Press a field. -/
def press (f : FieldId) : PanelM Press := do
  let field ← field f
  if !field.kind.isButton then return ⟨false, []⟩
  let panel := (← get).panel
  let clicked := (panel.clickListeners.get? field.name).getD []
  match field.kind with
  | .clear =>
    match field.attr? Vocabulary.targetKey with
    | some name => clearField name (field.attributes.flag Vocabulary.childrenKey true)
    | none => clear
    return ⟨true, clicked⟩
  | .submit => return ⟨true, clicked ++ panel.submitListeners⟩
  | .cancel => return ⟨true, clicked ++ panel.cancelListeners⟩
  | _ => return ⟨true, clicked⟩

end Formwork.PanelM
