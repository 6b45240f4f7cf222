import Formwork.Field.Basic
import Formwork.Page.Build

/-!
# Widgets

How the widget of each kind of field is built, and how its value is read, stored, reset and
disabled.  Building makes new nodes only and links them among themselves.
-/

namespace Formwork.Widget

set_option autoImplicit false

open PageM

/-! ## Building -/

/-- An input control of a type. -/
def inputControl (type name : String) : PageM NodeId := do
  let n ← element "input"
  setAttr n "type" type
  setAttr n "name" name
  return n

/-- An input control whose value can be edited as text. -/
def textControl (type : String) (f : Field) : PageM Widget := do
  let root ← inputControl type f.name
  match f.defaultValue? with
  | some value => setAttr root "value" value
  | none => pure ()
  return .input root

/-- A control to check, with its label; without a default value it stands for its label. -/
def checkControl (type : String) (f : Field) (label : Option String) : PageM Widget := do
  let root ← element "span"
  let box ← inputControl type f.name
  let caption ← element "label"
  setMarkupOrText caption (label.getD "")
  append root box
  append root caption
  let initially := f.attributes.flag Vocabulary.checkedKey false
  setFlag box "checked" initially
  return .check root box (f.defaultValue? <|> label) initially

/-- A control that shows its value. -/
def readOnlyControl (f : Field) : PageM Widget := do
  let root ← element "div"
  let hidden ← inputControl "hidden" f.name
  let view ← element "div"
  append root hidden
  append root view
  return .readOnly root hidden view

/-- A header: a styled element around the slot for its content. -/
def headerContainer (f : Field) : PageM Widget := do
  let root ← element "div"
  match f.attr? Vocabulary.switchKey with
  | some style => setAttr root "class" style
  | none => pure ()
  let content ← element "div"
  append root content
  return .container root content

/-- A disclosure whose header shows the label. -/
def disclosureSection (f : Field) (label : Option String) : PageM Widget := do
  let root ← element "details"
  let header ← element "summary"
  let content ← element "div"
  append root header
  append root content
  setFlag root "open" (f.attributes.flag Vocabulary.openKey false)
  let caption ← element "span"
  setText caption (label.getD "")
  append header caption
  return .disclosure root header content none

/-- A tab container without pages. -/
def tabContainer : PageM Widget := do
  let root ← element "div"
  let bar ← element "div"
  let deck ← element "div"
  setAttr bar "class" "tab-bar"
  setAttr deck "class" "tab-deck"
  append root bar
  append root deck
  return .tabs root bar deck [] none

/-- An element that shows the label as text. -/
def textLabel (tag : String) (label : Option String) : PageM Widget := do
  let root ← element tag
  setText root (label.getD "")
  return .plain root

/-- A link, in the line or in a block of its own. -/
def linkElement (f : Field) (label : Option String) : PageM Widget := do
  let link ← element "a"
  setAttr link "href" ("#" ++ (f.attr? Vocabulary.tokenKey).getD "")
  setText link (label.getD "")
  if f.attributes.flag Vocabulary.inlineKey true then return .plain link
  else
    let block ← element "div"
    append block link
    return .plain block

/-- Build the widget of a field with a resolved label. -/
def build (f : Field) (label : Option String) : PageM Widget :=
  match f.kind with
  | .html => return .markup (← element "div")
  | .inlineHtml => return .markup (← element "span")
  | .textInput => textControl "text" f
  | .password => textControl "password" f
  | .hidden => textControl "hidden" f
  | .fileUpload => return .plain (← inputControl "file" f.name)
  | .textArea => do
    let root ← element "textarea"
    setAttr root "name" f.name
    setText root (f.defaultValue?.getD "")
    return .textArea root
  | .checkbox => checkControl "checkbox" f label
  | .radio => checkControl "radio" f label
  | .readOnly => readOnlyControl f
  | .button | .submit | .clear | .cancel => do
    let root ← element "button"
    setText root ((label <|> f.defaultValue?).getD "")
    return .button root
  | .panel | .view => do
    let root ← element "div"
    return .container root root
  | .inlinePanel => do
    let root ← element "span"
    return .container root root
  | .header => headerContainer f
  | .disclosure => disclosureSection f label
  | .tabs => tabContainer
  | .blockLabel => textLabel "div" label
  | .label => textLabel "span" label
  | .htmlLabel => do
    let root ← element "span"
    setMarkupOrText root (label.getD "")
    return .plain root
  | .link => linkElement f label

/-! ## Values -/

/-- The value that a widget shows. -/
def value? (w : Widget) (p : Page) : Option String :=
  match w with
  | .markup root => some (p.innerMarkup root)
  | .input root => some ((p.attr? root "value").getD "")
  | .textArea root => some (p.textContent root)
  | .check _ box value _ => if (p.attr? box "checked").isSome then value else none
  | .readOnly _ hidden _ => some ((p.attr? hidden "value").getD "")
  | _ => none

/-- Store a value and tell whether the widget accepted it.  A control to check accepts only the
value it stands for; a disclosure shows the value as its header, or the label when there is no
value. -/
def setValue (w : Widget) (value label : Option String) : PageM Bool :=
  let content := value.getD ""
  match w with
  | .markup root => do setMarkupOrText root content; return true
  | .input root => do setAttr root "value" content; return true
  | .textArea root => do setText root content; return true
  | .check _ box standsFor _ =>
    if standsFor = value then do setFlag box "checked" true; return true
    else return false
  | .readOnly _ hidden view => do
    setAttr hidden "value" content
    setMarkupOrText view content
    return true
  | .disclosure _ header _ _ => do
    let caption ← element "span"
    setMarkupOrText caption ((value <|> label).getD "")
    PageM.clear header
    append header caption
    return true
  | _ => return false

/-- Reset the value of a widget. -/
def resetValue (w : Widget) (default : Option String) (p : Page) : Page :=
  match w with
  | .markup root => p.clear root
  | .input root => p.setAttr root "value" (default.getD "")
  | .textArea root => p.setText root (default.getD "")
  | .check _ box _ initially => p.setFlag box "checked" initially
  | .readOnly _ hidden view => (p.setAttr hidden "value" "").clear view
  | _ => p

/-! ## State -/

/-- The node that is disabled when a field is. -/
def control : Widget → NodeId
  | .check _ box _ _ => box
  | w => w.root

/-- Enable or disable the control of a widget. -/
def setEnabled (w : Widget) (enabled : Bool) (p : Page) : Page :=
  p.setFlag w.control "disabled" (!enabled)

end Formwork.Widget
