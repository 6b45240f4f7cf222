import Formwork.Panel.Hierarchy
import Formwork.Template.Error

/-!
# Putting widgets into markup

The markup of a container is written with markers, elements whose `id` stands for a field.
Splicing makes the markup the content of a node and puts the widget of its field in place of
every marker.  A marker is replaced with all its content, so markers inside it do not count;
elements with other identifiers stay.

Which markers there are can be read off the parsed markup before it is put on the page, for
it is known which number each node will get there.
-/

namespace Formwork

set_option autoImplicit false

/-- An operation that builds on a panel; a failure ends it but takes nothing back. -/
abbrev BuildM (α : Type) := ExceptT BuildError (StateM Scene) α

namespace BuildM

/-- An operation on the panel. -/
def onPanel {α : Type} (operation : PanelM α) : BuildM α :=
  ExceptT.mk (Except.mapError BuildError.field <$> operation.run)

/-- A sequence of changes to the page. -/
def onPage {α : Type} (changes : PageM α) : BuildM α := do
  let s ← get
  let (answer, page) := changes.run.run s.page
  set { s with page := page }
  match answer with
  | .ok a => return a
  | .error e => throw (.page e)

end BuildM

/-- The fields that identifiers in markup stand for. -/
abbrev Placeholders := OrderedMap String FieldId

/-- A node to be replaced, the node it lies in, and the field whose widget takes its place. -/
structure Marker where
  node : NodeId
  parent : NodeId
  field : FieldId
  deriving DecidableEq, Repr

/-! ## Finding markers -/

mutual
/-- How many nodes of a page a node of markup becomes. -/
def Markup.Node.count : Markup.Node → Nat
  | .text _ => 1
  | .element _ children => 1 + countOf children

/-- How many nodes of a page some siblings become. -/
def Markup.countOf : List Markup.Node → Nat
  | [] => 0
  | n :: ns => n.count + countOf ns
end

namespace Placeholders

/-- The field that an element stands for; the last of several identifiers counts. -/
def fieldOf? (placeholders : Placeholders) (tag : Markup.Tag) : Option FieldId :=
  ((OrderedMap.ofList (tag.attributes.map fun a => (a.qname, a.value))).get? "id").bind
    placeholders.get?

mutual
/-- The outermost markers of a node that will have a number and lie in a given node. -/
def markersIn (placeholders : Placeholders) (parent : NodeId) (number : Nat) :
    Markup.Node → List Marker
  | .text _ => []
  | .element tag children =>
    match placeholders.fieldOf? tag with
    | some field => [⟨⟨number⟩, parent, field⟩]
    | none => markersAmong placeholders ⟨number⟩ (number + 1) children

/-- The outermost markers of some siblings, the first of which will have a number. -/
def markersAmong (placeholders : Placeholders) (parent : NodeId) (number : Nat) :
    List Markup.Node → List Marker
  | [] => []
  | n :: ns =>
    markersIn placeholders parent number n ++ markersAmong placeholders parent (number + n.count) ns
end

end Placeholders

/-! ## Replacing them -/

namespace BuildM

/-- Put the widget of its field in place of a marker. -/
def replaceMarker (m : Marker) : BuildM Unit := do
  let root ← onPanel (PanelM.widget m.field)
  onPage (PageM.insertBefore m.parent root m.node)
  onPage (PageM.remove m.parent m.node)

/-- Make markup the content of a node and put widgets in place of its markers. -/
def splice (container : NodeId) (html : String) (placeholders : Placeholders) : BuildM Unit := do
  let page := (← get).page
  match page.readMarkup container html with
  | .error e => throw (.page e)
  | .ok nodes =>
    modify fun s => { s with page := s.page.setNodes container nodes }
    (placeholders.markersAmong container page.size nodes).forM replaceMarker

end BuildM

end Formwork
