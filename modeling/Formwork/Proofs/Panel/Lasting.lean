import Formwork.Proofs.Panel.Configured

/-!
# What lasts of a panel

A widget is built once.  Selecting a page and taking a part exchange a widget for another, but for one with the
same topmost node; so whatever is asked of a panel, a field that has a widget keeps its topmost node for as long as
the field is there (`Scene.Keeps`, `Panel.Request.keeps`).

The panels that a panel shows are changed by requests that show panels and by removing fields; every other request
leaves them alone, and removing a field only takes some of them away (`Panel.Request.sublist_views`).
-/

namespace Formwork

set_option autoImplicit false

open Panel (Request)

namespace Scene

variable {s s' : Scene} {f g p c : FieldId} {field : Field} {w w' : Widget} {n : NodeId}

/-! ## The topmost node of a widget -/

/-- For as long as a field is there, its widget has a certain topmost node. -/
structure Keeps (f : FieldId) (n : NodeId) (s : Scene) : Prop where
  booked : s.panel.table.Booked
  /-- The number of the field was given out. -/
  used : f.index < s.panel.table.slots.size
  root : ∀ field, s.panel.field? f = some field → field.root? = some n

namespace Keeps

theorem congr (h : s.Keeps f n) (same : s'.panel.table = s.panel.table) : s'.Keeps f n := by
  refine ⟨same ▸ h.booked, same ▸ h.used, fun field found => h.root field ?_⟩
  unfold Panel.field? at found ⊢
  rwa [same] at found

/-- The tree of fields is changed, but the field keeps its widget. -/
theorem of_table (h : s.Keeps f n) (booked : s'.panel.table.Booked)
    (size : s.panel.table.slots.size ≤ s'.panel.table.slots.size)
    (before : ∀ field', s'.panel.field? f = some field' →
      ∃ field, s.panel.field? f = some field ∧ field'.widget = field.widget) : s'.Keeps f n := by
  refine ⟨booked, Nat.lt_of_lt_of_le h.used size, fun field' found' => ?_⟩
  obtain ⟨field, found, widget⟩ := before field' found'
  unfold Field.root?
  rw [widget]
  exact h.root field found

/-- A field is given a widget; if it is the field, the widget has the same topmost node. -/
theorem withWidget (h : s.Keeps f n) (found : s.panel.field? g = some field) (q : Page)
    (same : g = f → w.root = n) : (s.withWidget g w q).Keeps f n := by
  refine ⟨h.booked.congr (FieldTable.bare_update_widget ..), ?_, fun field' found' => ?_⟩
  · unfold Scene.withWidget
    dsimp only
    rw [FieldTable.size_slots_update]
    exact h.used
  · by_cases is : f = g
    · subst is
      rw [show (s.withWidget f w q).panel.field? f = _ from FieldTable.field?_update_self ..,
        show s.panel.table.field? f = _ from found] at found'
      cases found'
      exact congrArg some (same rfl)
    · rw [field?_withWidget_of_ne is] at found'
      exact h.root field' found'

/-- A field without a widget is given one. -/
theorem realized (h : s.Keeps f n) (found : s.panel.field? g = some field) (unbuilt : field.widget = none)
    (q : Page) : (s.withWidget g w q).Keeps f n := by
  refine h.withWidget found q ?_
  rintro rfl
  have root := h.root field found
  unfold Field.root? at root
  rw [unbuilt] at root
  cases root

/-! ### Steps -/

/-- Asking for a widget. -/
theorem widgetOf (h : s.Keeps f n) (g : FieldId) :
    Goes (fun _ => Keeps f n) s (PanelM.widgetOf g) fun w s' =>
      ∃ field, s'.panel.field? g = some field ∧ field.widget = some w := by
  rcases PanelM.exec_field_cases g s with ⟨field, found, _⟩ | ⟨_, run⟩
  · cases is : field.widget with
    | some w =>
      exact .of_exec (PanelM.exec_widgetOf_built found is) h
        fun _ same => ⟨field, found, is.trans (congrArg some (Except.ok.inj same))⟩
    | none =>
      have asking := PanelM.exec_widgetOf_unbuilt found is
      rcases PanelM.exec_realize_cases field s with ⟨w, _, q, _, built⟩ | ⟨e, q, failed⟩
      · rw [h.booked.ids found] at built
        refine .of_exec (asking.trans built) (h.realized found is q) fun _ same => ?_
        rw [← Except.ok.inj same]
        exact ⟨_, (FieldTable.field?_update_self ..).trans (congrArg _ found), rfl⟩
      · exact .of_exec (asking.trans failed) (h.congr rfl) nofun
  · exact .of_exec (exec_bind_error run) h nofun

theorem widget (h : s.Keeps f n) (g : FieldId) :
    Goes (fun _ => Keeps f n) s (PanelM.widget g) fun _ _ => True :=
  .bind (fun _ => id) (h.widgetOf g) fun _ _ step _ => .pure step trivial

theorem onPage {α : Type} (h : s.Keeps f n) (changes : PageM α) :
    Goes (fun _ => Keeps f n) s (PanelM.onPage changes) fun _ s' => s'.panel = s.panel := by
  cases run : exec changes s.page with
  | mk answer q =>
    cases answer with
    | ok a => exact .of_exec (PanelM.exec_onPage_ok run) (h.congr rfl) fun _ _ => rfl
    | error e => exact .of_exec (PanelM.exec_onPage_error run) (h.congr rfl) nofun

theorem changePage (h : s.Keeps f n) (change : Page → Page) :
    Goes (fun _ => Keeps f n) s (PanelM.changePage change) fun _ s' => s'.panel = s.panel :=
  .modify (h.congr rfl) rfl

/-- A widget is exchanged for another with the same topmost node. -/
theorem remembers (h : s.Keeps f n) (found : s.panel.field? g = some field) (widget : field.widget = some w)
    (same : w'.root = w.root) :
    Goes (fun _ => Keeps f n) s (PanelM.changeField g fun field => { field with widget := some w' })
      fun _ _ => True := by
  refine .modify (h.withWidget found s.page ?_) trivial
  rintro rfl
  have root := h.root field found
  unfold Field.root? at root
  rw [widget] at root
  exact same.trans (Option.some.inj root)

theorem selectTab (h : s.Keeps f n) (g : FieldId) (index : Nat) :
    Goes (fun _ => Keeps f n) s (PanelM.selectTab g index) fun _ _ => True := by
  refine .bind (fun _ => id) (h.widgetOf g) ?_
  rintro w s₁ h₁ ⟨field, found, widget⟩
  cases w with
  | tabs own bar deck pages selected =>
    dsimp only
    split
    · exact .bind (fun _ => id) (h₁.changePage _) fun _ s₂ h₂ same =>
        .bind (fun _ => id) (h₂.remembers (same ▸ found) widget rfl) fun _ _ last _ => .pure last trivial
    · exact .pure h₁ trivial
  | _ => exact .pure h₁ trivial

theorem takePage (h : s.Keeps f n) (container : FieldId) (page : Field) :
    Goes (fun _ => Keeps f n) s (PanelM.takePage container page) fun _ _ => True := by
  refine .get_bind (.bind (fun _ => id) (h.widgetOf container) fun _ s₁ h₁ _ =>
    .bind (fun _ => id) (h₁.widget page.id) fun _ s₂ h₂ _ =>
    .bind (fun _ => id) (h₂.onPage _) fun _ s₃ h₃ _ =>
    .bind (fun _ => id) (h₃.changePage _) fun _ s₄ h₄ _ =>
    .bind (fun _ => id) (h₄.widgetOf container) ?_)
  rintro w s₅ h₅ ⟨field, found, widget⟩
  cases w with
  | tabs own bar deck pages selected =>
    refine .bind (fun _ => id) (h₅.onPage _) fun _ s₆ h₆ same₆ =>
      .bind (fun _ => id) (h₆.onPage _) fun _ s₇ h₇ same₇ => ?_
    have there : s₇.panel.field? container = some field := by rw [same₇, same₆, found]
    refine .bind (fun _ => id) (h₇.remembers there widget rfl) fun _ s₈ h₈ _ => ?_
    split
    · exact .bind (fun _ => id) (h₈.selectTab container _) fun _ _ last _ => .pure last trivial
    · exact .pure h₈ trivial
  | _ => exact .pure h₅ trivial

theorem takeHeader (h : s.Keeps f n) (container header : FieldId) :
    Goes (fun _ => Keeps f n) s (PanelM.takeHeader container header) fun _ _ => True := by
  refine .bind (fun _ => id) (h.widgetOf container) fun _ s₁ h₁ _ => ?_
  split
  · exact .pure h₁ trivial
  · refine .bind (fun _ => id) (h₁.widget header) fun _ s₂ h₂ _ =>
      .bind (fun _ => id) (h₂.widgetOf container) ?_
    rintro w s₃ h₃ ⟨field, found, widget⟩
    cases w with
    | disclosure own slot content taken =>
      refine .bind (fun _ => id) (h₃.onPage _) fun _ s₄ h₄ same₄ =>
        .bind (fun _ => id) (h₄.onPage _) fun _ s₅ h₅ same₅ => ?_
      have there : s₅.panel.field? container = some field := by rw [same₅, same₄, found]
      exact .bind (fun _ => id) (h₅.remembers there widget rfl) fun _ _ last _ => .pure last trivial
    | _ => exact .pure h₃ trivial

theorem takePart (h : s.Keeps f n) (parent child : FieldId) :
    Goes (fun _ => Keeps f n) s (PanelM.takePart parent child) fun _ _ => True := by
  refine .bind (fun _ => id) (PanelM.goes_field h parent) ?_
  rintro container _ _ ⟨rfl, _⟩
  refine .bind (fun _ => id) (PanelM.goes_field h child) ?_
  rintro candidate _ _ ⟨rfl, _⟩
  split
  · exact .bind (fun _ => id) (h.takePage parent candidate) fun _ _ last _ => .pure last trivial
  · split
    · exact h.takeHeader parent child
    · exact .pure h trivial

/-! ### Requests -/

theorem create (kind : FieldKind) (attributes : Attributes) :
    Preserves (Keeps f n) (PanelM.createField kind attributes) := by
  intro s h
  rw [PanelM.exec_createField]
  refine h.of_table (h.booked.add rfl rfl rfl) ?_ fun field' found' => ⟨field', ?_, rfl⟩
  · dsimp only
    rw [FieldTable.size_slots_add]
    exact Nat.le_succ _
  · unfold Panel.field? at found' ⊢
    rwa [FieldTable.field?_add, if_neg] at found'
    rintro rfl
    exact Nat.lt_irrefl _ h.used

theorem add (p c : FieldId) : Preserves (Keeps f n) (PanelM.addChild p c) := by
  refine PanelM.preserves_addChild (fun s h => (h.takePart p c).1) fun role s h parent child => ?_
  refine h.of_table (h.booked.link parent child role) ?_ fun field' found' => ?_
  · exact Nat.le_of_eq (FieldTable.Booked.size_link ..).symm
  · have there : (s.panel.table.link p c role).field? f = some field' := found'
    rw [h.booked.field?_link] at there
    obtain ⟨field, before, rfl⟩ := Option.map_eq_some_iff.1 there
    exact ⟨field, before, field.widget_relinked⟩

theorem remove (g : FieldId) : Preserves (Keeps f n) (PanelM.removeField g) := by
  intro s h
  rcases PanelM.exec_field_cases g s with ⟨_, found, _⟩ | ⟨_, run⟩
  · rw [PanelM.exec_removeField (Option.isSome_of_mem found)]
    refine h.of_table (h.booked.remove g) ?_ fun field' found' => ?_
    · exact Nat.le_of_eq ((h.booked.cleared_remove g).1.size.trans (FieldTable.Booked.size_unlink ..)).symm
    · obtain ⟨field, before, rfl⟩ := h.booked.exists_field?_of_remove found'
      exact ⟨field, before, rfl⟩
  · have failed : exec (PanelM.removeField g) s = _ := exec_bind_error run
    rw [failed]
    exact h

theorem setView (g : FieldId) (view : Panel) : Preserves (Keeps f n) (PanelM.setView g view) := by
  intro s h
  have goes : Goes (fun _ => Keeps f n) s (PanelM.setView g view) fun _ _ => True := by
    refine .bind (fun _ => id) (h.widget g) fun _ s₁ h₁ _ =>
      .bind (fun _ => id) (h₁.onPage _) fun _ s₂ h₂ _ => .modify (h₂.congr ?_) trivial
    rfl
  exact goes.1

theorem endures : Endures (Keeps f n) where
  congr h table _ _ := h.congr table
  asked g _ h := (h.widgetOf g).1
  selects g index _ h := (h.selectTab g index).1

end Keeps

end Scene

namespace Panel.Request

variable {s : Scene} {f : FieldId} {n : NodeId}

/-- **Every request** leaves a widget its topmost node, unless it removes the field. -/
theorem keeps (r : Request) : Preserves (Scene.Keeps f n) r.perform := by
  cases r with
  | create kind attributes => exact .bind (Scene.Keeps.create kind attributes) fun _ => .pure _
  | add p c => exact .bind (Scene.Keeps.add p c) fun _ => .pure _
  | remove g => exact Scene.Keeps.remove g
  | setView g view => exact Scene.Keeps.setView g view
  | changeView g change => exact fun _ h => h.congr rfl
  | _ => exact Scene.Keeps.endures.perform rfl rfl

/-! ## The panels that are shown -/

theorem overlooks_views : Scene.Overlooks fun s => s.panel.views where
  page _ _ := rfl
  widget _ _ _ := rfl

/-- **A request** that shows no panel changes none that is shown; some may be taken away. -/
theorem sublist_views {r : Request} (plain : r.changesViews = false) (s : Scene) :
    (r.after s).panel.views.Sublist s.panel.views := by
  have endures : Scene.Endures fun t => t.panel.views = s.panel.views := {
    congr := fun here _ _ views => views.trans here
    asked := fun f _ here => (overlooks_views.asked f _).trans here
    selects := fun f index _ here => (overlooks_views.selectTab f index _).trans here }
  have kept (still : r.changesTree = false) : (r.after s).panel.views.Sublist s.panel.views := by
    have same : (r.after s).panel.views = s.panel.views := endures.perform still plain s rfl
    rw [same]
  cases r with
  | setView | changeView => cases plain
  | create kind attributes =>
    have run : exec (perform (.create kind attributes)) s = _ :=
      exec_bind_ok (PanelM.exec_createField kind attributes)
    rw [after_eq run]
  | add p c =>
    have retains : Retains (fun s : Scene => s.panel.views) (perform (.add p c)) := by
      refine .bind (.bind (overlooks_views.takePart p c) fun _ => .bind (fun _ => ?_) fun _ => .pure _)
        fun _ => .pure _
      rfl
    rw [show (Request.after (.add p c) s).panel.views = s.panel.views from retains s]
  | remove f =>
    rcases PanelM.exec_field_cases f s with ⟨_, found, _⟩ | ⟨_, fails⟩
    · have run : exec (perform (.remove f)) s = _ := PanelM.exec_removeField (Option.isSome_of_mem found)
      rw [after_eq run]
      exact List.filter_sublist
    · have run : exec (perform (.remove f)) s = _ := exec_bind_error fails
      rw [after_eq run]
  | _ => exact kept rfl

/-- Showing a panel in a view puts it in the place of the one that the view showed, unless it fails. -/
theorem views_setView (f : FieldId) (view : Panel) (s : Scene) :
    (Request.after (.setView f view) s).panel.views = s.panel.views ∨
      (Request.after (.setView f view) s).panel.views =
        s.panel.views.filter (fun entry => entry.1 ≠ f) ++ [(f, view)] := by
  have asked := overlooks_views.root f s
  cases run : exec (PanelM.widget f) s with
  | mk answer s₁ =>
    rw [run] at asked
    cases answer with
    | error e =>
      have failed : exec (perform (.setView f view)) s = _ := exec_bind_error run
      rw [after_eq failed]
      exact .inl asked
    | ok root =>
      have shown := overlooks_views.onPage (PageM.append root view.root) s₁
      cases append : exec (PanelM.onPage (PageM.append root view.root)) s₁ with
      | mk answer s₂ =>
        rw [append] at shown
        cases answer with
        | error e =>
          have failed : exec (perform (.setView f view)) s = _ :=
            (exec_bind_ok run).trans (exec_bind_error append)
          rw [after_eq failed]
          exact .inl (shown.trans asked)
        | ok _ =>
          have done : exec (perform (.setView f view)) s = _ :=
            (exec_bind_ok run).trans (exec_bind_ok append)
          rw [after_eq done]
          refine .inr ?_
          rw [← asked, ← shown]

end Panel.Request

end Formwork
