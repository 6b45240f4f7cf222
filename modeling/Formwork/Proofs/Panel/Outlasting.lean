import Formwork.Proofs.Panel.Request
import Formwork.Proofs.Widget.Cells

/-!
# Invariants of the widgets

Most of what is done to a panel looks fields up, asks for widgets, selects pages, and changes the page.  An
invariant that endures these steps (`Scene.Endures`) is kept by every request that neither creates a field,
changes the tree of fields nor shows a panel (`Scene.Endures.perform`), whether it answers or fails.

A widget that selects a page remembers which, and so does a widget that takes a part.  An invariant that outlasts
any such exchange of a widget (`Scene.Outlasts`) endures, and is kept by taking parts and by showing panels as well
(`Scene.Outlasts.takePart`, `Scene.Outlasts.perform`).
-/

namespace Formwork

set_option autoImplicit false

open Panel (Request)

namespace Panel.Request

/-- Whether a request creates fields, links them or removes them. -/
def changesTree : Request → Bool
  | .create _ _ | .add _ _ | .remove _ => true
  | _ => false

/-- Whether a request is about the panels that views show. -/
def changesViews : Request → Bool
  | .setView _ _ | .changeView _ _ => true
  | _ => false

end Panel.Request

/-- An invariant of the fields and the views that endures asking for a widget and selecting a page. -/
structure Scene.Endures (inv : Scene → Prop) : Prop where
  congr : ∀ {s s' : Scene}, inv s → s'.panel.table = s.panel.table →
    s'.panel.messages = s.panel.messages → s'.panel.views = s.panel.views → inv s'
  asked : ∀ f, Preserves inv (PanelM.widgetOf f)
  selects : ∀ f index, Preserves inv (PanelM.selectTab f index)

/-- An invariant of the fields and their widgets that outlasts asking for a widget, and a widget without a
value being exchanged for another. -/
structure Scene.Outlasts (inv : Scene → Prop) : Prop where
  congr : ∀ {s s' : Scene}, inv s → s'.panel.table = s.panel.table →
    s'.panel.messages = s.panel.messages → inv s'
  asked : ∀ f, Preserves inv (PanelM.widgetOf f)
  remembers : ∀ f (w : Widget), w.cells = [] →
    Preserves inv (PanelM.changeField f fun field => { field with widget := some w })

namespace Scene.Endures

variable {inv : Scene → Prop} {α : Type}

theorem field (f : FieldId) : Preserves inv (PanelM.field f) := by
  refine .get_bind fun s => ?_
  cases s.panel.field? f with
  | some field => exact .pure field
  | none => exact fun _ => id

theorem changePage (h : Endures inv) (change : Page → Page) : Preserves inv (PanelM.changePage change) :=
  fun _ here => h.congr here rfl rfl rfl

theorem onPage (h : Endures inv) (changes : PageM α) : Preserves inv (PanelM.onPage changes) := by
  intro s here
  cases run : exec changes s.page with
  | mk answer p =>
    cases answer with
    | ok a =>
      rw [PanelM.exec_onPage_ok run]
      exact h.congr here rfl rfl rfl
    | error e =>
      rw [PanelM.exec_onPage_error run]
      exact h.congr here rfl rfl rfl

theorem modify (h : Endures inv) {change : Scene → Scene}
    (table : ∀ s, (change s).panel.table = s.panel.table)
    (messages : ∀ s, (change s).panel.messages = s.panel.messages)
    (views : ∀ s, (change s).panel.views = s.panel.views) :
    Preserves inv (modify change : PanelM PUnit) := fun s here =>
  h.congr here (table s) (messages s) (views s)

/-! ### Widgets -/

theorem widget (h : Endures inv) (f : FieldId) : Preserves inv (PanelM.widget f) :=
  .bind (h.asked f) fun _ => .pure _

theorem fieldWidget? (h : Endures inv) (name : String) : Preserves inv (PanelM.fieldWidget? name) := by
  refine .get_bind fun s => ?_
  cases (s.panel.table.named name).head? with
  | some f => exact .bind (h.widget f) fun _ => .pure _
  | none => exact .pure _

theorem fieldWidgets (h : Endures inv) (name : String) : Preserves inv (PanelM.fieldWidgets name) :=
  .get_bind fun _ => .mapM h.widget _

theorem fillContent (h : Endures inv) (f : FieldId) (content : NodeId) :
    Preserves inv (PanelM.fillContent f content) := by
  refine .bind (field f) fun field => ?_
  split
  · exact .pure _
  · refine .bind (h.asked f) fun w => ?_
    split
    · exact .bind (h.onPage _) fun _ => .pure _
    · exact .pure _

/-! ### Values -/

theorem value? (h : Endures inv) (f : FieldId) : Preserves inv (PanelM.value? f) := by
  refine .bind (field f) fun field => ?_
  split
  · exact .pure _
  · exact .bind (h.asked f) fun _ => .get_bind fun _ => .pure _

theorem setValue (h : Endures inv) (f : FieldId) (value : Option String) :
    Preserves inv (PanelM.setValue f value) := by
  refine .bind (field f) fun field => ?_
  split
  · exact .pure _
  · exact .get_bind fun _ => .bind (h.asked f) fun _ => h.onPage _

theorem setValues (h : Endures inv) (f : FieldId) (values : List String) :
    Preserves inv (PanelM.setValues f values) := .bind (h.setValue f _) fun _ => .pure _

theorem clearValue (h : Endures inv) (f : FieldId) : Preserves inv (PanelM.clearValue f) := by
  refine .bind (field f) fun field => ?_
  split
  · exact .pure _
  · exact .bind (h.asked f) fun _ => h.changePage _

theorem firstValue? (h : Endures inv) : ∀ fs : List FieldId, Preserves inv (PanelM.firstValue? fs)
  | [] => .pure _
  | f :: fs => by
    refine .bind (h.value? f) fun value => ?_
    cases value with
    | some value => exact .pure _
    | none => exact h.firstValue? fs

theorem offer (h : Endures inv) (value : Option String) :
    ∀ fs : List FieldId, Preserves inv (PanelM.offer value fs)
  | [] => .pure _
  | f :: fs => by
    refine .bind (h.setValue f value) fun accepted => ?_
    split
    · exact .pure _
    · exact h.offer value fs

theorem handOut (h : Endures inv) : ∀ (fs : List FieldId) (values : List String),
    Preserves inv (PanelM.handOut fs values)
  | [], _ => .pure _
  | f :: fs, values => .bind (h.setValues f values) fun rest => h.handOut fs rest

theorem clear (h : Endures inv) : Preserves inv PanelM.clear := .get_bind fun _ => .forM h.clearValue _

theorem subtree (f : FieldId) : Preserves inv (PanelM.subtree f) := by
  refine .get_bind fun s => ?_
  cases s.panel.table.subtree f with
  | ok fs => exact .pure fs
  | error e => exact fun _ => id

theorem clearField (h : Endures inv) (name : String) (descendants : Bool) :
    Preserves inv (PanelM.clearField name descendants) := by
  refine .get_bind fun s => .forM (fun f => ?_) (s.panel.table.named name)
  split
  · exact .bind (subtree f) fun _ => .forM h.clearValue _
  · exact h.clearValue f

/-! ### State -/

theorem setOpen (h : Endures inv) (f : FieldId) (isOpen : Bool) :
    Preserves inv (PanelM.setOpen f isOpen) := by
  refine .bind (field f) fun field => ?_
  split
  · exact .pure _
  · exact .bind (h.widget f) fun _ => .bind (h.changePage _) fun _ => .pure _

theorem enableUpTo (h : Endures inv) : ∀ (levels : Nat) (f : FieldId) (enabled : Bool),
    Preserves inv (PanelM.enableUpTo levels f enabled)
  | 0, _, _ => .pure _
  | levels + 1, f, enabled => by
    refine .bind (field f) fun field => ?_
    split
    · exact .bind (h.asked f) fun _ => h.changePage _
    · exact .forM (fun child => h.enableUpTo levels child enabled) _

theorem enableTree (h : Endures inv) (f : FieldId) (enabled : Bool) :
    Preserves inv (PanelM.enableTree f enabled) := .get_bind fun _ => h.enableUpTo _ f enabled

theorem setFieldVisible (h : Endures inv) (name : String) (visible : Bool) :
    Preserves inv (PanelM.setFieldVisible name visible) := by
  refine .get_bind fun s => .bind (.forM (fun f => ?_) (s.panel.table.named name)) fun _ => .pure _
  exact .bind (h.widget f) fun _ => h.changePage _

theorem press (h : Endures inv) (f : FieldId) : Preserves inv (PanelM.press f) := by
  refine .bind (field f) fun field => ?_
  split
  · exact .pure _
  · refine .get_bind fun s => ?_
    dsimp only
    split
    · split
      · exact .bind (h.clearField _ _) fun _ => .pure _
      · exact .bind h.clear fun _ => .pure _
    · exact .pure _
    · exact .pure _
    · exact .pure _

/-! ### Requests -/

/-- **A request** that neither creates a field, changes the tree of fields nor shows a panel keeps the
invariant. -/
theorem perform (h : Endures inv) {r : Request} (tree : r.changesTree = false)
    (views : r.changesViews = false) : Preserves inv r.perform := by
  cases r with
  | create | add | remove => cases tree
  | setView | changeView => cases views
  | widget f => exact .bind (h.widget f) fun _ => .pure _
  | namedWidget name => exact .bind (h.fieldWidget? name) fun _ => .pure _
  | namedWidgets name => exact .bind (h.fieldWidgets name) fun _ => .pure _
  | fill f content => exact .bind (h.fillContent f content) fun _ => .pure _
  | select f index => exact .bind (h.selects f index) fun _ => .pure _
  | setOpen f isOpen => exact .bind (h.setOpen f isOpen) fun _ => .pure _
  | read f => exact .bind (.bind (h.value? f) fun _ => .pure _) fun _ => .pure _
  | readNamed name =>
    exact .bind (.get_bind fun s => h.firstValue? (s.panel.table.named name)) fun _ => .pure _
  | readAll name =>
    refine .bind (.get_bind fun s => .bind (.mapM (fun f => ?_) (s.panel.table.named name)) fun _ => .pure _)
      fun _ => .pure _
    exact .bind (h.value? f) fun _ => .pure _
  | store f value => exact .bind (h.setValue f value) fun _ => .pure _
  | storeMany f values => exact .bind (h.setValues f values) fun _ => .pure _
  | storeNamed name value =>
    exact .bind (.get_bind fun s => h.offer value (s.panel.table.named name)) fun _ => .pure _
  | storeAll name values =>
    exact .bind (.get_bind fun s => h.handOut (s.panel.table.named name) values) fun _ => .pure _
  | clearValue f => exact h.clearValue f
  | clearNamed name descendants => exact h.clearField name descendants
  | clear => exact h.clear
  | enable enabled => exact .get_bind fun _ => .forM (fun f => h.enableTree f enabled) _
  | enableNamed name enabled =>
    exact .get_bind fun s => .forM (fun f => h.enableTree f enabled) (s.panel.table.named name)
  | showNamed name visible => exact .bind (h.setFieldVisible name visible) fun _ => .pure _
  | press f => exact .bind (h.press f) fun _ => .pure _
  | _ => exact h.modify (fun _ => rfl) (fun _ => rfl) fun _ => rfl

end Scene.Endures

namespace Scene.Outlasts

open Endures (field)

variable {inv : Scene → Prop}

theorem selectTab (h : Outlasts inv) (f : FieldId) (index : Nat) :
    Preserves inv (PanelM.selectTab f index) := by
  refine .bind (h.asked f) fun w => ?_
  split
  · split
    · exact .bind (fun _ here => h.congr here rfl rfl) fun _ =>
        .bind (h.remembers f _ rfl) fun _ => .pure _
    · exact .pure _
  · exact .pure _

/-- What outlasts the exchange of a widget endures. -/
theorem endures (h : Outlasts inv) : Endures inv where
  congr here table messages _ := h.congr here table messages
  asked := h.asked
  selects := h.selectTab

theorem widget (h : Outlasts inv) (f : FieldId) : Preserves inv (PanelM.widget f) := h.endures.widget f

theorem fillContent (h : Outlasts inv) (f : FieldId) (content : NodeId) :
    Preserves inv (PanelM.fillContent f content) := h.endures.fillContent f content

theorem clearValue (h : Outlasts inv) (f : FieldId) : Preserves inv (PanelM.clearValue f) :=
  h.endures.clearValue f

theorem setView (h : Outlasts inv) (f : FieldId) (view : Panel) : Preserves inv (PanelM.setView f view) :=
  .bind (h.widget f) fun _ => .bind (h.endures.onPage _) fun _ _ here => h.congr here rfl rfl

/-! ### Parts -/

theorem takePage (h : Outlasts inv) (container : FieldId) (page : Field) :
    Preserves inv (PanelM.takePage container page) := by
  refine .get_bind fun _ => .bind (h.asked _) fun _ => .bind (h.widget _) fun _ =>
    .bind (h.endures.onPage _) fun _ => .bind (h.endures.changePage _) fun _ => .bind (h.asked _) fun w => ?_
  split
  · refine .bind (h.endures.onPage _) fun _ => .bind (h.endures.onPage _) fun _ =>
      .bind (h.remembers container _ rfl) fun _ => ?_
    split
    · exact .bind (h.selectTab _ _) fun _ => .pure _
    · exact .pure _
  · exact .pure _

theorem takeHeader (h : Outlasts inv) (container header : FieldId) :
    Preserves inv (PanelM.takeHeader container header) := by
  refine .bind (h.asked _) fun w => ?_
  split
  · exact .pure _
  · refine .bind (h.widget _) fun _ => .bind (h.asked _) fun w => ?_
    split
    · exact .bind (h.endures.onPage _) fun _ => .bind (h.endures.onPage _) fun _ =>
        .bind (h.remembers container _ rfl) fun _ => .pure _
    · exact .pure _

/-- Taking a part, or none, keeps the invariant; linking the two fields may not. -/
theorem takePart (h : Outlasts inv) (parent child : FieldId) :
    Preserves inv (PanelM.takePart parent child) := by
  refine .bind (field _) fun container => .bind (field _) fun candidate => ?_
  split
  · exact .bind (h.takePage _ _) fun _ => .pure _
  · split
    · exact h.takeHeader _ _
    · exact .pure _

/-! ### Requests -/

/-- **A request** that neither creates a field nor changes the tree of fields keeps the invariant. -/
theorem perform (h : Outlasts inv) {r : Request} (keeps : r.changesTree = false) :
    Preserves inv r.perform := by
  cases views : r.changesViews with
  | false => exact h.endures.perform keeps views
  | true =>
    cases r with
    | setView f view => exact h.setView f view
    | changeView f change => exact fun _ here => h.congr here rfl rfl
    | _ => cases views

end Scene.Outlasts

end Formwork
