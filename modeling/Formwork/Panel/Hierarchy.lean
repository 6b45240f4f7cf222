import Formwork.Panel.Basic

/-!
# The tree of fields of a panel

A field is added below another as content, unless its new parent takes it for a part of its
own: a tab container takes every panel as a page, and a disclosure without a header takes the
first field made from a header element.  The parent takes the field before the field leaves
its former parent, so an addition that fails leaves the tree of fields as it was.
-/

namespace Formwork.PanelM

set_option autoImplicit false

/-! ## Tabs -/

/-- Show one page of a tab container and hide the others. -/
def showPage (pages : List TabPage) (index : Nat) (p : Page) : Page :=
  (pages.zipIdx.foldl fun p (tab, i) =>
    (p.setAttr tab.caption "class" (if i = index then "tab tab-selected" else "tab")).setFlag
      tab.page "hidden" (i ≠ index)) p

/-- Select a page of a tab container; false when the field has no such page. -/
def selectTab (f : FieldId) (index : Nat) : PanelM Bool := do
  match ← widgetOf f with
  | .tabs root bar deck pages _ =>
    if index < pages.length then
      changePage (showPage pages index)
      changeField f fun field => { field with widget := some (.tabs root bar deck pages (some index)) }
      return true
    else return false
  | _ => return false

/-- Take a field as a page of a tab container: a caption joins the bar, and the widget, hidden,
joins the deck. -/
def takePage (container : FieldId) (page : Field) : PanelM Unit := do
  let caption := (page.label? (← get).panel.messages).getD ""
  let _ ← widgetOf container
  let root ← widget page.id
  let captionNode ← onPage (PageM.element "span")
  changePage fun p =>
    ((p.setAttr captionNode "class" "tab").setText captionNode caption).setFlag root "hidden" true
  match ← widgetOf container with
  | .tabs own bar deck pages selected =>
    onPage (PageM.append bar captionNode)
    onPage (PageM.append deck root)
    changeField container fun field =>
      { field with widget := some (.tabs own bar deck (pages ++ [⟨page.id, captionNode, root⟩]) selected) }
    if page.attributes.flag Vocabulary.selectedKey false then
      let _ ← selectTab container pages.length
  | _ => return

/-! ## Disclosures -/

/-- Take a field as the header of a disclosure, unless it has one. -/
def takeHeader (container header : FieldId) : PanelM Role := do
  match ← widgetOf container with
  | .disclosure _ _ _ (some _) => return .content
  | _ =>
    let headerRoot ← widget header
    match ← widgetOf container with
    | .disclosure root slot content _ =>
      onPage (PageM.clear slot)
      onPage (PageM.append slot headerRoot)
      changeField container fun field =>
        { field with widget := some (.disclosure root slot content (some header)) }
      return .part
    | _ => return .part

/-- Open or close a disclosure; false for other fields. -/
def setOpen (f : FieldId) (isOpen : Bool) : PanelM Bool := do
  if (← field f).kind ≠ .disclosure then return false
  let root ← widget f
  changePage fun p => p.setFlag root "open" isOpen
  return true

/-! ## Adding and removing -/

/-- Let a field take another for a part of its own, if it does. -/
def takePart (parent child : FieldId) : PanelM Role := do
  let container ← field parent
  let candidate ← field child
  if container.kind = .tabs ∧ candidate.kind = .panel then
    takePage parent candidate
    return .part
  else if container.kind = .disclosure ∧ candidate.tagUri? = some Vocabulary.headerTag then
    takeHeader parent child
  else return .content

/-- Put a field below another, away from its former parent; true when it became content. -/
def addChild (parent child : FieldId) : PanelM Bool := do
  let role ← takePart parent child
  changeTable fun t => t.link parent child role
  return role = .content

/-- Remove a field and everything below it; their widgets leave the tree they lie in. -/
def removeField (f : FieldId) : PanelM Unit := do
  let _ ← field f
  let s ← get
  let (removed, table) := s.panel.table.remove f
  let gone := removed.map Field.id
  set { s with
    panel := { s.panel with
      table := table
      views := s.panel.views.filter fun entry => entry.1 ∉ gone }
    page := (removed.filterMap Field.root?).foldl Page.detach s.page }

/-! ## Content -/

/-- Put a node into the content slot of a field; false when the field takes no content. -/
def fillContent (f : FieldId) (content : NodeId) : PanelM Bool := do
  if !(← field f).kind.acceptsPanel then return false
  match (← widgetOf f).contentSlot? with
  | some slot =>
    onPage (PageM.append slot content)
    return true
  | none => return false

/-- Show a panel in the widget of a field and keep it as the panel of that field. -/
def setView (f : FieldId) (view : Panel) : PanelM Unit := do
  let root ← widget f
  onPage (PageM.append root view.root)
  modify fun s =>
    { s with panel := { s.panel with
        views := s.panel.views.filter (fun entry => entry.1 ≠ f) ++ [(f, view)] } }

end Formwork.PanelM
