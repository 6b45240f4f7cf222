import Formwork.Proofs.OrderedMap
import Formwork.Proofs.Page.Import

/-!
# What a field looks like

The widget of a field is a tree of markup that is determined by the field, its label and what
was put into it: content into the slot of a panel or a section, a header into a disclosure,
captions and pages into a tab container.  A field that is a page of a tab container is shown or
hidden by it.  `Field.look` is this tree.
-/

namespace Formwork

set_option autoImplicit false

/-! ## What is put into a widget -/

/-- What a widget gets from outside: the header of a disclosure, the content of a slot, and the
captions and pages of a tab container. -/
structure Parts where
  header : Option Html
  slot : List Html
  captions : List Html
  pages : List Html

/-- Nothing was put into a widget. -/
def Parts.none : Parts := ⟨.none, [], [], []⟩

/-- A widget without the attributes that are passed on to it. -/
structure Face where
  tag : String
  attributes : OrderedMap String String
  children : List Html

namespace Face

/-- An element without attributes. -/
def plain (tag : String) (children : List Html) : Face := ⟨tag, .empty, children⟩

/-- The content of an element that shows a text. -/
def shownText (content : Option String) : List Html := Html.ofNodes (Page.textNodes (content.getD ""))

/-- The content of an element that shows markup, or the markup as text when it cannot be read. -/
def shownMarkup (html : Option String) : List Html := Html.ofNodes (Page.nodesOrText (html.getD ""))

/-- The attributes of an input control. -/
def inputAttributes (type name : String) : OrderedMap String String :=
  ((OrderedMap.empty.insert "type" type).insert "name" name)

/-- A control whose value can be edited as text. -/
def textControl (type : String) (f : Field) : Face :=
  ⟨"input", match f.defaultValue? with
    | some value => (inputAttributes type f.name).insert "value" value
    | none => inputAttributes type f.name, []⟩

/-- A control to check, with its label. -/
def checkControl (type : String) (f : Field) (label : Option String) : Face :=
  plain "span"
    [.element "input"
      (if f.attributes.flag Vocabulary.checkedKey false then
        (inputAttributes type f.name).insert "checked" "checked"
      else (inputAttributes type f.name).erase "checked") [],
     .element "label" .empty (shownMarkup label)]

/-- A control that shows its value. -/
def readOnlyControl (f : Field) : Face :=
  plain "div" [.element "input" (inputAttributes "hidden" f.name) [], .element "div" .empty []]

/-- A styled element around a slot. -/
def headerContainer (f : Field) (slot : List Html) : Face :=
  ⟨"div", match f.attr? Vocabulary.switchKey with
    | some style => OrderedMap.empty.insert "class" style
    | none => .empty, [.element "div" .empty slot]⟩

/-- A disclosure, whose header shows the label unless a field took its place. -/
def disclosureSection (f : Field) (label : Option String) (parts : Parts) : Face :=
  ⟨"details",
    if f.attributes.flag Vocabulary.openKey false then OrderedMap.empty.insert "open" "open"
    else OrderedMap.empty.erase "open",
    [.element "summary" .empty
      [parts.header.getD (.element "span" .empty (shownText label))],
     .element "div" .empty parts.slot]⟩

/-- The attributes of the bar of captions. -/
def barAttributes : OrderedMap String String := OrderedMap.empty.insert "class" "tab-bar"

/-- The attributes of the deck of pages. -/
def deckAttributes : OrderedMap String String := OrderedMap.empty.insert "class" "tab-deck"

/-- A tab container. -/
def tabContainer (captions pages : List Html) : Face :=
  plain "div" [.element "div" barAttributes captions, .element "div" deckAttributes pages]

/-- The attributes of a link. -/
def linkAttributes (f : Field) : OrderedMap String String :=
  OrderedMap.empty.insert "href" ("#" ++ (f.attr? Vocabulary.tokenKey).getD "")

/-- A link, in the line or in a block of its own. -/
def linkElement (f : Field) (label : Option String) : Face :=
  if f.attributes.flag Vocabulary.inlineKey true then ⟨"a", linkAttributes f, shownText label⟩
  else plain "div" [.element "a" (linkAttributes f) (shownText label)]

end Face

/-- The widget of a field with a resolved label, before attributes are passed on to it. -/
def Field.face (f : Field) (label : Option String) (parts : Parts) : Face :=
  match f.kind with
  | .html => .plain "div" []
  | .inlineHtml => .plain "span" []
  | .textInput => .textControl "text" f
  | .password => .textControl "password" f
  | .hidden => .textControl "hidden" f
  | .fileUpload => ⟨"input", Face.inputAttributes "file" f.name, []⟩
  | .textArea =>
    ⟨"textarea", OrderedMap.empty.insert "name" f.name, Face.shownText f.defaultValue?⟩
  | .checkbox => .checkControl "checkbox" f label
  | .radio => .checkControl "radio" f label
  | .readOnly => .readOnlyControl f
  | .button | .submit | .clear | .cancel =>
    .plain "button" (Face.shownText (label <|> f.defaultValue?))
  | .panel | .view => .plain "div" parts.slot
  | .inlinePanel => .plain "span" parts.slot
  | .header => .headerContainer f parts.slot
  | .disclosure => .disclosureSection f label parts
  | .tabs => .tabContainer parts.captions parts.pages
  | .blockLabel => .plain "div" (Face.shownText label)
  | .label => .plain "span" (Face.shownText label)
  | .htmlLabel => .plain "span" (Face.shownMarkup label)
  | .link => .linkElement f label

/-! ## The nodes a widget remembers -/

/-- The nodes that a widget of a kind remembers are where they belong: below its topmost node are
the trees `kids`. -/
def Widget.Fits (w : Widget) (kind : FieldKind) (kids : List Dom) : Prop :=
  match kind with
  | .panel | .inlinePanel | .view => w = .container w.root w.root
  | .header => ∃ content slot, w = .container w.root content ∧
      kids = [.element content "div" .empty slot]
  | .disclosure => ∃ header content caption slot headerField,
      w = .disclosure w.root header content headerField ∧
      kids = [.element header "summary" .empty caption, .element content "div" .empty slot]
  | .tabs => ∃ bar deck captions shown pages selected, w = .tabs w.root bar deck pages selected ∧
      kids = [.element bar "div" Face.barAttributes captions,
        .element deck "div" Face.deckAttributes shown]
  | _ => True

/-- Nothing was put into a widget yet. -/
def Widget.IsEmpty : Widget → Prop
  | .disclosure _ _ _ header => header = none
  | .tabs _ _ _ pages selected => pages = [] ∧ selected = none
  | _ => True

/-- A tree is the widget of a field as it is built. -/
structure Widget.IsNew (w : Widget) (f : Field) (label : Option String) (d : Dom) : Prop where
  shape : ∃ kids, d = .element w.root (f.face label .none).tag (f.face label .none).attributes kids ∧
    Dom.htmlOf kids = (f.face label .none).children ∧ w.Fits f.kind kids
  links : d.links = []
  isEmpty : w.IsEmpty

/-! ## Pages of tab containers -/

/-- Whether a page of a tab container was shown. -/
inductive Exposure where
  | never
  | shown
  | formerly
  deriving DecidableEq, Repr

namespace Exposure

/-- What a page becomes when another one is shown. -/
def replaced : Exposure → Exposure
  | .never => .never
  | .shown | .formerly => .formerly

/-- The attributes of a page. -/
def decorate (attributes : OrderedMap String String) : Exposure → OrderedMap String String
  | .never => attributes.insert "hidden" "hidden"
  | .shown => attributes.erase "hidden"
  | .formerly => (attributes.erase "hidden").insert "hidden" "hidden"

/-- The style class of the caption of a page. -/
def captionClass : Exposure → String
  | .shown => "tab tab-selected"
  | .never | .formerly => "tab"

theorem hide_decorate (attributes : OrderedMap String String) (e : Exposure) :
    (e.decorate attributes).insert "hidden" "hidden" = e.replaced.decorate attributes := by
  cases e with
  | never => exact OrderedMap.insert_insert _ _ _ _
  | shown => rfl
  | formerly => exact OrderedMap.insert_insert _ _ _ _

theorem show_decorate (attributes : OrderedMap String String) (e : Exposure) :
    (e.decorate attributes).erase "hidden" = shown.decorate attributes := by
  cases e with
  | never => exact OrderedMap.erase_insert _ _ _
  | shown => exact OrderedMap.erase_erase _ _
  | formerly => exact (OrderedMap.erase_insert _ _ _).trans (OrderedMap.erase_erase _ _)

/-- The attributes of a widget that may be a page. -/
def onto (exposure : Option Exposure) (attributes : OrderedMap String String) :
    OrderedMap String String :=
  match exposure with
  | none => attributes
  | some e => e.decorate attributes

end Exposure

/-- The attributes of the widget of a field. -/
def Field.lookAttributes (f : Field) (own : OrderedMap String String)
    (exposure : Option Exposure) : OrderedMap String String :=
  Exposure.onto exposure (f.attributes.forWidget.foldl (fun m e => m.insert e.1 e.2) own)

/-- **The widget of a field** as markup. -/
def Field.look (f : Field) (messages : Messages) (exposure : Option Exposure) (parts : Parts) :
    Html :=
  let face := f.face (f.label? messages) parts
  .element face.tag (f.lookAttributes face.attributes exposure) face.children

/-- The caption of a field that is a page of a tab container. -/
def Field.captionLook (f : Field) (messages : Messages) (exposure : Exposure) : Html :=
  .element "span" (OrderedMap.empty.insert "class" exposure.captionClass)
    (Face.shownText (f.label? messages))

end Formwork
