/-!
# Kinds of fields

There is a fixed set of kinds.  A kind decides which widget a field has, whether it takes
content, whether it has a value, and what pressing or disabling it means.
-/

namespace Formwork

set_option autoImplicit false

/-- The kinds of fields. -/
inductive FieldKind where
  /-- A block of markup. -/
  | html
  /-- Markup in the line. -/
  | inlineHtml
  /-- A line of text. -/
  | textInput
  /-- A line of text that is not shown. -/
  | password
  /-- A value without appearance. -/
  | hidden
  /-- A file to choose. -/
  | fileUpload
  /-- Several lines of text. -/
  | textArea
  /-- A box to check, with a label. -/
  | checkbox
  /-- A radio button with a label. -/
  | radio
  /-- A value that is shown as markup. -/
  | readOnly
  /-- A button. -/
  | button
  /-- A button that submits. -/
  | submit
  /-- A button that clears fields. -/
  | clear
  /-- A button that cancels. -/
  | cancel
  /-- A block of fields; also a page of a tab container. -/
  | panel
  /-- Fields in the line. -/
  | inlinePanel
  /-- A place where another template is shown. -/
  | view
  /-- A section that opens and closes. -/
  | disclosure
  /-- The header of a disclosure. -/
  | header
  /-- A tab container. -/
  | tabs
  /-- A text on lines of its own. -/
  | blockLabel
  /-- A text in the line. -/
  | label
  /-- A label given as markup. -/
  | htmlLabel
  /-- A link. -/
  | link
  deriving DecidableEq, Repr, Inhabited

namespace FieldKind

/-- All kinds. -/
def all : List FieldKind :=
  [.html, .inlineHtml, .textInput, .password, .hidden, .fileUpload, .textArea, .checkbox, .radio,
   .readOnly, .button, .submit, .clear, .cancel, .panel, .inlinePanel, .view, .disclosure, .header,
   .tabs, .blockLabel, .label, .htmlLabel, .link]

/-- The elements of the reserved namespace that make fields, with the kinds they make. -/
def builtinTags : List (String × FieldKind) :=
  [("html", .html), ("inlineHTML", .inlineHtml), ("input", .textInput), ("checkbox", .checkbox),
   ("radio", .radio), ("hidden", .hidden), ("readonly", .readOnly), ("password", .password),
   ("button", .button), ("submit", .submit), ("clear", .clear), ("cancel", .cancel),
   ("file", .fileUpload), ("textarea", .textArea), ("panel", .panel),
   ("inlinePanel", .inlinePanel), ("view", .view), ("disclosure", .disclosure),
   ("header", .header), ("tabs", .tabs), ("tab", .panel), ("blockLabel", .blockLabel),
   ("label", .label), ("htmlLabel", .htmlLabel), ("link", .link)]

/-- The elements that make fields of a kind. -/
def tags (k : FieldKind) : List String :=
  (builtinTags.filter fun entry => entry.2 = k).map Prod.fst

/-- Whether a field shows the content of its element. -/
def acceptsPanel : FieldKind → Bool
  | .panel | .inlinePanel | .disclosure | .header => true
  | _ => false

/-- Whether a field can be pressed. -/
def isButton : FieldKind → Bool
  | .button | .submit | .clear | .cancel => true
  | _ => false

/-- Whether a field holds text to be edited. -/
def isText : FieldKind → Bool
  | .textInput | .password | .hidden | .textArea => true
  | _ => false

/-- Whether a field has a value that can be read and cleared. -/
def hasValue : FieldKind → Bool
  | .html | .inlineHtml | .checkbox | .radio | .readOnly => true
  | k => k.isText

/-- Whether disabling a field disables its own control and not its children. -/
def togglesEnabled : FieldKind → Bool
  | .checkbox | .radio => true
  | k => k.isText || k.isButton

/-- The name of a kind. -/
def name : FieldKind → String
  | .html => "html"
  | .inlineHtml => "inline-html"
  | .textInput => "text-input"
  | .password => "password"
  | .hidden => "hidden"
  | .fileUpload => "file-upload"
  | .textArea => "text-area"
  | .checkbox => "checkbox"
  | .radio => "radio"
  | .readOnly => "read-only"
  | .button => "button"
  | .submit => "submit"
  | .clear => "clear"
  | .cancel => "cancel"
  | .panel => "panel"
  | .inlinePanel => "inline-panel"
  | .view => "view"
  | .disclosure => "disclosure"
  | .header => "header"
  | .tabs => "tabs"
  | .blockLabel => "block-label"
  | .label => "label"
  | .htmlLabel => "html-label"
  | .link => "link"

/-- The kind with a name. -/
def ofName? (name : String) : Option FieldKind := all.find? fun k => k.name = name

end FieldKind

end Formwork
