import Formwork.Field.Table
import Formwork.Field.Counters
import Formwork.Field.Widget

/-!
# Panels

A panel owns the fields of one template that was brought to life on a page.  It knows its
topmost node, the series its generated names are drawn from, the messages its labels are
resolved with, the panels that its views show, and who is to be told when a button is pressed.

An operation on a panel works on a `Scene`: the panel, the page and the counters.  Like a
sequence of changes to a page it keeps what it did before it failed.
-/

namespace Formwork

set_option autoImplicit false

/-- A panel. -/
structure Panel where
  root : NodeId
  table : FieldTable
  series : SeriesId
  messages : Messages
  /-- The panels shown by view fields. -/
  views : List (FieldId × Panel)
  /-- Who listens to submit buttons. -/
  submitListeners : List String
  /-- Who listens to cancel buttons. -/
  cancelListeners : List String
  /-- Who listens to the buttons with a name. -/
  clickListeners : OrderedMap String (List String)

/-- What an operation on a panel works on. -/
structure Scene where
  panel : Panel
  page : Page
  counters : CounterPool

/-- An operation on a panel; a failure ends it but takes nothing back. -/
abbrev PanelM (α : Type) := ExceptT FieldError (StateM Scene) α

namespace Panel

/-! ## Panels as such -/

/-- A panel without fields, whose topmost node is new. -/
def create (page : Page) (series : SeriesId) (messages : Messages) : Panel × Page :=
  let (root, page) := page.createElement "div"
  (⟨root, .empty, series, messages, [], [], [], .empty⟩, page)

/-- A field that was not removed. -/
def field? (p : Panel) (f : FieldId) : Option Field := p.table.field? f

/-- The value of an attribute of the first field with a name. -/
def fieldAttr? (p : Panel) (name uri : String) : Option String :=
  ((p.table.named name).head?.bind p.field?).bind fun field => field.attr? uri

/-- The field whose widget has the given topmost node. -/
def fieldByWidget? (p : Panel) (n : NodeId) : Option FieldId :=
  (p.table.fields.find? fun field => field.root? = some n).map Field.id

/-- The panel that a view shows. -/
def view? (p : Panel) (f : FieldId) : Option Panel :=
  (p.views.find? fun entry => entry.1 = f).map Prod.snd

/-- Change the panel that a view shows. -/
def updateView (p : Panel) (f : FieldId) (change : Panel → Panel) : Panel :=
  { p with views := p.views.map fun entry => if entry.1 = f then (f, change entry.2) else entry }

end Panel

namespace PanelM

/-! ## The parts of a scene -/

/-- The field with a number; it must not have been removed. -/
def field (f : FieldId) : PanelM Field := do
  match (← get).panel.field? f with
  | some field => return field
  | none => throw (.unknownField f)

/-- Change the table of fields. -/
def changeTable (change : FieldTable → FieldTable) : PanelM Unit :=
  modify fun s => { s with panel := { s.panel with table := change s.panel.table } }

/-- Change a field in place. -/
def changeField (f : FieldId) (change : Field → Field) : PanelM Unit :=
  changeTable fun t => t.update f change

/-- Change the page. -/
def changePage (change : Page → Page) : PanelM Unit :=
  modify fun s => { s with page := change s.page }

/-- Make a sequence of changes to the page. -/
def onPage {α : Type} (changes : PageM α) : PanelM α := do
  let s ← get
  let (answer, page) := changes.run.run s.page
  set { s with page := page }
  match answer with
  | .ok a => return a
  | .error e => throw (.page e)

/-- Draw an identifier from the series of the panel. -/
def draw (purpose : Counters.Purpose) : PanelM String := do
  let s ← get
  let (identifier, counters) := s.counters.next s.panel.series purpose
  set { s with counters := counters }
  return identifier

/-! ## Creating fields and their widgets -/

/-- Create a field.  Without a name attribute it gets a generated name: buttons draw from one
running number, all other fields from another. -/
def createField (kind : FieldKind) (attributes : Attributes) : PanelM FieldId := do
  let name ← match attributes.get? Vocabulary.nameKey with
    | some name => pure name
    | none => draw (if kind.isButton then .button else .field)
  let s ← get
  let (f, table) := s.panel.table.create kind name attributes
  set { s with panel := { s.panel with table := table } }
  return f

/-- Build the widget of a field and pass the field's attributes on to it. -/
def realize (field : Field) : PanelM Widget := do
  let label := field.label? (← get).panel.messages
  let w ← onPage (Widget.build field label)
  changePage fun p => field.attributes.forWidget.foldl (fun p (name, value) => p.setAttr w.root name value) p
  changeField field.id fun field => { field with widget := some w }
  return w

/-- The widget of a field, which is built when it is first asked for. -/
def widgetOf (f : FieldId) : PanelM Widget := do
  let field ← field f
  match field.widget with
  | some w => return w
  | none => realize field

/-- The topmost node of the widget of a field, which is built when it is first asked for. -/
def widget (f : FieldId) : PanelM NodeId := return (← widgetOf f).root

/-- The widget of the first field with a name. -/
def fieldWidget? (name : String) : PanelM (Option NodeId) := do
  match ((← get).panel.table.named name).head? with
  | some f => return some (← widget f)
  | none => return none

/-- The widgets of all fields with a name. -/
def fieldWidgets (name : String) : PanelM (List NodeId) := do
  ((← get).panel.table.named name).mapM widget

end PanelM

end Formwork
