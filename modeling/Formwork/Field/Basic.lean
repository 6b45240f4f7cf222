import Formwork.Page.Basic
import Formwork.Field.Kind
import Formwork.Field.Attributes
import Formwork.Field.Messages

/-!
# Fields

A field has a kind, a name and the attributes of its element; it has a place in the tree of
fields of its panel, and, once it was asked for, a widget.  The tree has two lists of
children: those that are content of the field, and those that the field took for a special
part of its own, as a tab container takes its pages and a disclosure its header.

A widget is a small tree of nodes on a page.  `Widget` keeps the nodes that matter
afterwards; the value of the field lives in the page itself.
-/

namespace Formwork

set_option autoImplicit false

/-- A field of a panel, by its number in the order of creation. -/
structure FieldId where
  index : Nat
  deriving DecidableEq, Repr, Inhabited

/-- A field as named in messages. -/
def FieldId.text (f : FieldId) : String := s!"@{f.index}"

/-! ## Widgets -/

/-- A page of a tab container: the field, its caption in the tab bar, and its widget. -/
structure TabPage where
  field : FieldId
  caption : NodeId
  page : NodeId
  deriving DecidableEq, Repr, Inhabited

/-- The nodes of a widget. -/
inductive Widget where
  /-- Text or markup that is no value. -/
  | plain (root : NodeId)
  /-- An element whose content is the value. -/
  | markup (root : NodeId)
  /-- A control whose attribute `value` is the value. -/
  | input (root : NodeId)
  /-- A control whose text is the value. -/
  | textArea (root : NodeId)
  /-- A button. -/
  | button (root : NodeId)
  /-- A control that is checked or not, and the value it has when it is checked. -/
  | check (root box : NodeId) (value : Option String) (initially : Bool)
  /-- A hidden control and the element that shows its value. -/
  | readOnly (root hidden view : NodeId)
  /-- An element that takes content. -/
  | container (root content : NodeId)
  /-- A section with a slot for its header and a slot for its content. -/
  | disclosure (root header content : NodeId) (headerField : Option FieldId)
  /-- A bar of captions and a deck of pages. -/
  | tabs (root bar deck : NodeId) (pages : List TabPage) (selected : Option Nat)
  deriving DecidableEq, Repr

/-- The topmost node of a widget. -/
def Widget.root : Widget → NodeId
  | .plain root | .markup root | .input root | .textArea root | .button root => root
  | .check root _ _ _ | .readOnly root _ _ | .container root _ => root
  | .disclosure root _ _ _ | .tabs root _ _ _ _ => root

/-- The node that takes the content of a field. -/
def Widget.contentSlot? : Widget → Option NodeId
  | .container _ content | .disclosure _ _ content _ => some content
  | _ => none

/-- Where a child of a field is kept. -/
inductive Role where
  /-- Among the content. -/
  | content
  /-- As a special part of its parent. -/
  | part
  deriving DecidableEq, Repr

/-! ## Fields -/

/-- A field with its place in the tree of fields. -/
structure Field where
  id : FieldId
  kind : FieldKind
  name : String
  attributes : Attributes
  parent : Option FieldId
  children : List FieldId
  attached : List FieldId
  widget : Option Widget
  deriving Inhabited

namespace Field

/-- A new field without place and widget. -/
def create (id : FieldId) (kind : FieldKind) (name : String) (attributes : Attributes) : Field :=
  ⟨id, kind, name, attributes, none, [], [], none⟩

/-- The value of an attribute. -/
def attr? (f : Field) (uri : String) : Option String := f.attributes.get? uri

/-- The URI of the element the field was made from. -/
def tagUri? (f : Field) : Option String := f.attr? Vocabulary.tagKey

/-- The default value. -/
def defaultValue? (f : Field) : Option String := f.attr? Vocabulary.valueKey

/-- The label: the message that the attributes name, or else the literal label, or the title. -/
def label? (f : Field) (messages : Messages) : Option String :=
  (f.attr? Vocabulary.labelMessageKey).bind messages.get?
    <|> f.attr? Vocabulary.labelKey
    <|> f.attr? Vocabulary.titleKey

/-- All children, the content in front. -/
def contents (f : Field) : List FieldId := f.children ++ f.attached

/-- The topmost node of the widget, once there is one. -/
def root? (f : Field) : Option NodeId := f.widget.map Widget.root

/-- Keep a child in the list for its role. -/
def addChild (f : Field) (role : Role) (child : FieldId) : Field :=
  match role with
  | .content => { f with children := f.children ++ [child] }
  | .part => { f with attached := f.attached ++ [child] }

/-- Take a child out of both lists. -/
def dropChild (f : Field) (child : FieldId) : Field :=
  { f with children := f.children.filter (· ≠ child), attached := f.attached.filter (· ≠ child) }

end Field

end Formwork
