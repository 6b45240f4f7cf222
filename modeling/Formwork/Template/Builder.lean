import Formwork.Template.Assembly
import Formwork.Template.Blueprint

/-!
# Builders

A builder compiles templates once, under their names, and makes panels of them on demand.  A
panel whose template has views gets the panels of the templates that the views name, each of
them built in the same way.  A template that would be shown inside itself is an error; since a
template being built is never built again inside, there are at most as many levels as there
are templates.
-/

namespace Formwork

set_option autoImplicit false

/-- What is shared by everything that is built: the page and the counters. -/
structure Workspace where
  page : Page
  counters : CounterPool

/-- A step of building in a workspace; a failure ends it but takes nothing back. -/
abbrev WorkM (α : Type) := ExceptT BuildError (StateM Workspace) α

/-- Compiled templates and what panels are made with. -/
structure Builder where
  registry : Registry
  messages : Messages
  series : SeriesId
  templates : OrderedMap String Template
  metadata : OrderedMap String Attributes

namespace Builder

/-- A builder without templates and messages. -/
def create (registry : Registry) (series : SeriesId) : Builder :=
  ⟨registry, .empty, series, .empty, .empty⟩

/-! ## Templates -/

/-- Compile a template and keep it under a name, in place of an earlier one; its metadata are
those given, or none. -/
def addTemplate (b : Builder) (name : String) (element : Markup.Element)
    (metadata : Option Attributes) : Builder :=
  { b with
    templates := b.templates.insert name (Template.compile b.registry element.toNode)
    metadata := match metadata with
      | some attributes => b.metadata.insert name attributes
      | none => b.metadata.erase name }

/-- The name of a template element; other elements have none. -/
def templateName? (element : Markup.Element) : Option String :=
  if element.uri = Vocabulary.templateTag then element.attribute? Vocabulary.nameKey else none

/-- Add the named templates directly below the root of a document, and count them. -/
def addTemplates (b : Builder) (root : Markup.Element) : Nat × Builder :=
  root.elements.foldl
    (fun (count, b) element =>
      match templateName? element with
      | some name => (count + 1, b.addTemplate name element (some element.fieldAttributes))
      | none => (count, b))
    (0, b)

/-- Forget a template and its metadata; false when there is none. -/
def removeTemplate (b : Builder) (name : String) : Bool × Builder :=
  (b.templates.contains name,
    { b with templates := b.templates.erase name, metadata := b.metadata.erase name })

/-- The names of the templates, in the order in which they were first added. -/
def templateNames (b : Builder) : List String := b.templates.keys

/-! ## Panels -/

/-- Run an operation on a panel in a workspace. -/
def onPanel {α : Type} (panel : Panel) (operation : PanelM α) : WorkM (α × Panel) := do
  let w ← get
  let (answer, scene) := operation.run.run ⟨panel, w.page, w.counters⟩
  set (⟨scene.page, scene.counters⟩ : Workspace)
  match answer with
  | .ok x => return (x, scene.panel)
  | .error e => throw (.field e)

/-- Assemble a panel from a template, its views still empty. -/
def assemble (b : Builder) (t : Template) : WorkM Panel := do
  let w ← get
  let (panel, page) := Panel.create w.page b.series b.messages
  let steps : AssemblyM Unit := do
    AssemblyM.replay t
    AssemblyM.finish
  let (answer, a) := steps.run.run (.start ⟨panel, page, w.counters⟩)
  set (⟨a.page, a.counters⟩ : Workspace)
  match answer with
  | .ok _ => return a.panel
  | .error e => throw e

/-- The views of a panel, with the templates they name. -/
def viewsOf (p : Panel) : List (FieldId × Option String) :=
  (p.table.fields.filter fun field => field.kind = .view).map fun field =>
    (field.id, field.attr? Vocabulary.templateKey)

/-- Fill views with the panels that `build` makes of the templates they name. -/
def fillViews (build : String → WorkM (Option Panel)) : Panel → List (FieldId × Option String) →
    WorkM Panel
  | p, [] => return p
  | p, (_, none) :: views => fillViews build p views
  | p, (f, some name) :: views => do
    match ← build name with
    | none => fillViews build p views
    | some shown =>
      let (_, p) ← onPanel p (PanelM.setView f shown)
      fillViews build p views

/-- Build a template inside those being built, for at most so many levels. -/
def buildUpTo (b : Builder) : Nat → List String → String → WorkM (Option Panel)
  | 0, _, name => throw (.recursiveTemplate name)
  | levels + 1, building, name => do
    match b.templates.get? name with
    | none => return none
    | some t =>
      if name ∈ building then throw (.recursiveTemplate name)
      let p ← b.assemble t
      return some (← fillViews (buildUpTo b levels (name :: building)) p (viewsOf p))

/-- Build the panel of a template; an unknown name has none. -/
def build (b : Builder) (name : String) : WorkM (Option Panel) :=
  b.buildUpTo (b.templates.size + 1) [] name

end Builder

end Formwork
