import Formwork.Template.Splice
import Formwork.Template.Blueprint

/-!
# Assembling a panel

A template is brought to life by a sequence of events: fields begin and end, and between
them stands text.  Every open field has a frame:

* the frame of a field that shows its content, and that of the template itself, collects the
  markup of the content, with markers in place of the fields in it, and splices the widgets in
  when it ends;
* the frame of any other field drops markup;
* an element whose factory declines has a frame that passes everything on to the frame around
  it.

Every field that begins draws the identifier of its marker, whether a marker is written or not.
-/

namespace Formwork

set_option autoImplicit false

/-! ## Frames -/

/-- What a frame does with the markup of its content. -/
inductive Frame.Kind where
  | collecting (buffer : String) (placeholders : Placeholders)
  | dropping
  | passing

/-- An open field, or an open element without a field. -/
structure Frame where
  field : Option FieldId
  kind : Frame.Kind

/-- A frame that has collected nothing yet. -/
def Frame.Kind.fresh : Frame.Kind := .collecting "" .empty

/-- Whether a frame passes everything on. -/
def Frame.passes (f : Frame) : Bool :=
  match f.kind with
  | .passing => true
  | _ => false

/-- The marker that stands for a field in markup. -/
def markerMarkup (identifier : String) : String := "<span id='" ++ identifier ++ "'></span>"

/-- Add text to the markup a frame collects. -/
def Frame.addText (f : Frame) (text : String) : Frame :=
  match f.kind with
  | .collecting buffer placeholders =>
    { f with kind := .collecting (buffer ++ text) placeholders }
  | _ => f

/-- Add the marker of a field to the markup a frame collects. -/
def Frame.addMarker (f : Frame) (identifier : String) (child : FieldId) : Frame :=
  match f.kind with
  | .collecting buffer placeholders =>
    { f with kind := .collecting (buffer ++ markerMarkup identifier) (placeholders.insert identifier child) }
  | _ => f

namespace Frame

/-- The innermost frame that does not pass everything on. -/
def target? (frames : List Frame) : Option Frame := frames.find? fun f => !f.passes

/-- Change the innermost frame that does not pass everything on. -/
def updateTarget (change : Frame → Frame) : List Frame → List Frame
  | [] => []
  | f :: fs => if f.passes then f :: updateTarget change fs else change f :: fs

end Frame

/-! ## Events -/

/-- A panel being assembled: the open frames, innermost first, and whether the template ended. -/
structure Assembly extends Scene where
  frames : List Frame
  finished : Bool

/-- A step of assembling a panel; a failure ends it but takes nothing back. -/
abbrev AssemblyM (α : Type) := ExceptT BuildError (StateM Assembly) α

/-- Nothing has been assembled. -/
def Assembly.start (s : Scene) : Assembly := { s with frames := [], finished := false }

namespace AssemblyM

/-- An operation that builds on the panel. -/
def build {α : Type} (operation : BuildM α) : AssemblyM α := do
  let a ← get
  let (answer, scene) := operation.run.run a.toScene
  set { a with toScene := scene }
  match answer with
  | .ok x => return x
  | .error e => throw e

/-- An operation on the panel. -/
def onPanel {α : Type} (operation : PanelM α) : AssemblyM α := build (BuildM.onPanel operation)

/-- Change the open frames. -/
def changeFrames (change : List Frame → List Frame) : AssemblyM Unit :=
  modify fun a => { a with frames := change a.frames }

/-- Add a field to the frame it lies in; its marker is written when it became content there. -/
def register (identifier : String) (child : FieldId) : AssemblyM Unit := do
  match Frame.target? (← get).frames with
  | none => return
  | some target =>
    let accepted ← match target.field with
      | some parent => onPanel (PanelM.addChild parent child)
      | none => pure true
    if accepted then changeFrames (Frame.updateTarget fun f => f.addMarker identifier child)

/-- The field that a factory makes, if it makes one. -/
def makeField (factory : Option Factory) (attributes : Attributes) :
    AssemblyM (Option (FieldId × FieldKind)) := do
  match factory.bind Factory.makes with
  | some kind => return some (← onPanel (PanelM.createField kind attributes), kind)
  | none => return none

/-- A field begins.  The first one stands for the template and usually has no factory. -/
def beginField (factory : Option Factory) (attributes : Attributes) : AssemblyM Unit := do
  let a ← get
  if a.frames.isEmpty ∧ a.finished then throw .beginAfterEnd
  let made ← makeField factory attributes
  let identifier ← onPanel (PanelM.draw .placeholder)
  match made with
  | some (field, kind) =>
    register identifier field
    changeFrames fun fs => ⟨some field, if kind.acceptsPanel then .fresh else .dropping⟩ :: fs
  | none => changeFrames fun fs => ⟨none, if fs.isEmpty then .fresh else .passing⟩ :: fs

/-- Text of the innermost content. -/
def addText (text : String) : AssemblyM Unit :=
  changeFrames (Frame.updateTarget fun f => f.addText text)

/-- Put collected markup on the page: that of the template into the panel, that of a field into
a new element in its content slot. -/
def install (frame : Frame) (isRoot : Bool) : AssemblyM Unit := do
  match frame.kind with
  | .collecting buffer placeholders =>
    if buffer = "" then return
    if isRoot then build (BuildM.splice (← get).panel.root buffer placeholders)
    else match frame.field with
      | some field =>
        let container ← build (BuildM.onPage (PageM.element "div"))
        build (BuildM.splice container buffer placeholders)
        let _ ← onPanel (PanelM.fillContent field container)
      | none => return
  | _ => return

/-- The innermost field ends. -/
def endField : AssemblyM Unit := do
  match (← get).frames with
  | [] => throw .endWithoutBegin
  | frame :: rest =>
    modify fun a => { a with frames := rest, finished := a.finished || rest.isEmpty }
    install frame rest.isEmpty

/-- All events have been seen; nothing may be left open. -/
def finish : AssemblyM Unit := do
  let count := (← get).frames.length
  if count ≠ 0 then throw (.leftOpen count)

/-! ## Replaying a template -/

mutual
/-- Send an item of a template as events. -/
def replayItem : Cache.Item Blueprint → AssemblyM Unit
  | .text run => addText run
  | .composite blueprint items => do
    beginField blueprint.factory blueprint.attributes
    replayItems items
    endField

/-- Send some items of a template as events, in order. -/
def replayItems : List (Cache.Item Blueprint) → AssemblyM Unit
  | [] => return
  | item :: items => do
    replayItem item
    replayItems items
end

/-- Send a whole template as events. -/
def replay (t : Template) : AssemblyM Unit := replayItem t.toItem

end AssemblyM

end Formwork
