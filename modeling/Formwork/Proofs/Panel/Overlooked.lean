import Formwork.Panel.Hierarchy
import Formwork.Proofs.Panel.Draft

/-!
# What putting widgets together leaves alone

Widgets are built when they are first asked for, and they are put into each other.  All of this changes
the page, and the widgets of some fields; whatever is seen of a scene without looking at either is left
alone, whether the widget is there in the end or not (`Scene.Overlooks`).
-/

namespace Formwork

set_option autoImplicit false

/-- A view of scenes in which neither the page nor the widgets of fields are seen. -/
structure Scene.Overlooks {τ : Type} (view : Scene → τ) : Prop where
  page : ∀ (s : Scene) (p : Page), view { s with page := p } = view s
  widget : ∀ (s : Scene) (f : FieldId) (w : Option Widget),
    view { s with panel := { s.panel with
      table := s.panel.table.update f fun field => { field with widget := w } } } = view s

namespace Scene.Overlooks

open PanelM (widgetOf)

variable {τ α : Type} {view : Scene → τ}

theorem field (view : Scene → τ) (f : FieldId) : Retains view (PanelM.field f) := by
  refine .get_bind fun s => ?_
  cases s.panel.field? f <;> rfl

theorem changePage (h : Overlooks view) (change : Page → Page) :
    Retains view (PanelM.changePage change) := fun s => h.page s (change s.page)

theorem onPage (h : Overlooks view) (changes : PageM α) : Retains view (PanelM.onPage changes) := by
  rw [PanelM.onPage_eq_within]
  intro s
  cases run : exec changes s.page with
  | mk answer p =>
    cases answer with
    | ok a =>
      rw [exec_within_ok run]
      exact h.page s p
    | error e =>
      rw [exec_within_error run]
      exact h.page s p

theorem setWidget (h : Overlooks view) (f : FieldId) (w : Option Widget) :
    Retains view (PanelM.changeField f fun field => { field with widget := w }) :=
  fun s => h.widget s f w

theorem realize (h : Overlooks view) (f : Field) : Retains view (PanelM.realize f) :=
  .bind .get fun _ => .bind (h.onPage _) fun _ => .bind (h.changePage _) fun _ =>
    .bind (h.setWidget _ _) fun _ => .pure _

theorem asked (h : Overlooks view) (f : FieldId) : Retains view (widgetOf f) := by
  refine .bind (field view f) fun field => ?_
  cases field.widget with
  | some w => exact .pure w
  | none => exact h.realize field

theorem root (h : Overlooks view) (f : FieldId) : Retains view (PanelM.widget f) :=
  .bind (h.asked f) fun _ => .pure _

/-! ### Parts -/

theorem selectTab (h : Overlooks view) (f : FieldId) (index : Nat) :
    Retains view (PanelM.selectTab f index) := by
  refine .bind (h.asked f) fun w => ?_
  split
  · split
    · exact .bind (h.changePage _) fun _ => .bind (h.setWidget _ _) fun _ => .pure _
    · exact .pure _
  · exact .pure _

theorem takePage (h : Overlooks view) (container : FieldId) (page : Field) :
    Retains view (PanelM.takePage container page) := by
  refine .bind .get fun _ => .bind (h.asked _) fun _ => .bind (h.root _) fun _ =>
    .bind (h.onPage _) fun _ => .bind (h.changePage _) fun _ => .bind (h.asked _) fun w => ?_
  split
  · refine .bind (h.onPage _) fun _ => .bind (h.onPage _) fun _ =>
      .bind (h.setWidget _ _) fun _ => ?_
    split
    · exact .bind (h.selectTab _ _) fun _ => .pure _
    · exact .pure _
  · exact .pure _

theorem takeHeader (h : Overlooks view) (container header : FieldId) :
    Retains view (PanelM.takeHeader container header) := by
  refine .bind (h.asked _) fun w => ?_
  split
  · exact .pure _
  · refine .bind (h.root _) fun _ => .bind (h.asked _) fun w => ?_
    split
    · exact .bind (h.onPage _) fun _ => .bind (h.onPage _) fun _ =>
        .bind (h.setWidget _ _) fun _ => .pure _
    · exact .pure _

/-- Taking a part, or none, leaves the view alone. -/
theorem takePart (h : Overlooks view) (parent child : FieldId) :
    Retains view (PanelM.takePart parent child) := by
  refine .bind (field view _) fun container => .bind (field view _) fun candidate => ?_
  split
  · exact .bind (h.takePage _ _) fun _ => .pure _
  · split
    · exact h.takeHeader _ _
    · exact .pure _

theorem fillContent (h : Overlooks view) (f : FieldId) (content : NodeId) :
    Retains view (PanelM.fillContent f content) := by
  refine .bind (field view f) fun field => ?_
  split
  · exact .pure _
  · refine .bind (h.asked f) fun w => ?_
    split
    · exact .bind (h.onPage _) fun _ => .pure _
    · exact .pure _

end Scene.Overlooks

end Formwork
