import Formwork.Proofs.Panel.Values
import Formwork.Proofs.Widget.Storing

/-!
# The last value counts

When values are stored in the fields of a panel, what is read of a field afterwards is told by the panel as it
was and by the value that the field took last (`Scene.Told`).  Which fields take a value is known from the
start: neither the values that were stored nor the widgets that were built change it
(`Scene.Told.takes`).
-/

namespace Formwork

set_option autoImplicit false

open PanelM (Asks)

namespace Scene

variable {s s₀ s' : Scene} {σ σ' : FieldId → Option String} {f g : FieldId} {field : Field} {w : Widget}
  {v : String}

/-- The kind of a field. -/
def kind? (s : Scene) (f : FieldId) : Option FieldKind := (s.panel.field? f).map Field.kind

/-- What is read of a value that a field took. -/
def readBack? (s : Scene) (f : FieldId) (v : String) : Option String :=
  (s.kind? f).bind fun kind => kind.readBack? v

/-- Whether a field takes a value that is stored in it. -/
def takes (s : Scene) (f : FieldId) (v : String) : Bool :=
  (s.panel.field? f).elim false fun field =>
    field.widget.elim (field.takes (field.label? s.panel.messages) v) fun w => w.takes v

theorem kind?_congr (same : s'.panel.table.bare = s.panel.table.bare) (f : FieldId) :
    s'.kind? f = s.kind? f := by
  have bare : ∀ s : Scene, s.kind? f = (s.panel.table.bare.field? f).map Field.kind := by
    intro s
    rw [FieldTable.field?_bare]
    unfold kind? Panel.field?
    cases s.panel.table.field? f <;> rfl
  rw [bare, same, ← bare]

theorem takes_built (built : s.Built f field w) (v : String) : s.takes f v = w.takes v := by
  unfold takes
  rw [built.found, Option.elim_some, built.widget]
  rfl

/-! ## Asking for a widget -/

/-- The widget of a field takes what the field takes. -/
theorem takes_of_widgetOf (run : exec (PanelM.widgetOf f) s = (.ok w, s')) (v : String) :
    w.takes v = s.takes f v := by
  obtain ⟨field, s₁, asked, run⟩ := exec_bind_eq_ok.1 run
  rcases PanelM.exec_field_cases f s with ⟨field', found, there⟩ | ⟨_, missing⟩
  · cases there.symm.trans asked
    unfold takes
    rw [found, Option.elim_some]
    cases is : field.widget with
    | some w' =>
      rw [is] at run
      cases run
      rfl
    | none =>
      rw [is] at run
      obtain ⟨_, s₂, got, run⟩ := exec_bind_eq_ok.1 run
      cases got
      obtain ⟨w', s₃, built, run⟩ := exec_bind_eq_ok.1 run
      rw [PanelM.onPage_eq_within] at built
      obtain ⟨w'', p, build, rfl, -⟩ := exec_within_eq_ok built
      obtain ⟨_, _, _, run⟩ := exec_bind_eq_ok.1 run
      obtain ⟨_, _, _, run⟩ := exec_bind_eq_ok.1 run
      cases run
      exact Widget.takes_build field _ v _ _ _ build
  · cases missing.symm.trans asked

/-- What asking for the widget of a field comes to; the widget takes what the field takes. -/
structure Opens (s : Scene) (f : FieldId) (field : Field) (w : Widget) (s' : Scene) : Prop
    extends Asks .empty False s f field w s' where
  takes : ∀ v, w.takes v = s.takes f v

theorem exec_opens (h : s.Custody .empty False) (found : s.panel.field? f = some field) :
    ∃ w s', exec (PanelM.widgetOf f) s = (.ok w, s') ∧ s.Opens f field w s' := by
  obtain ⟨w, s', run, asks⟩ := PanelM.exec_widgetOf h found
  exact ⟨w, s', run, asks, takes_of_widgetOf run⟩

/-- Asking for a widget, which may be built, does not change what fields take. -/
theorem Opens.takes_eq (opens : s.Opens f field w s') (g : FieldId) (v : String) :
    s'.takes g v = s.takes g v := by
  by_cases same : g = f
  · subst same
    rw [takes_built opens.built, opens.takes]
  · unfold Scene.takes
    rw [opens.others same, opens.messages]

/-- **Storing a value** in a field: its widget is asked for, and takes the value if the field does. -/
theorem exec_setValue_opens (h : s.Custody .empty False) (found : s.panel.field? f = some field)
    (stores : ¬ (!field.kind.hasValue ∧ field.kind ≠ .disclosure)) (v : String) :
    ∃ w s₁, exec (PanelM.widgetOf f) s = (.ok w, s₁) ∧ s.Opens f field w s₁ ∧
      exec (PanelM.setValue f (some v)) s = (.ok (s.takes f v), { s₁ with page := w.stored s₁.page v }) := by
  obtain ⟨w, s₁, asked, opens⟩ := exec_opens h found
  have custody := opens.leads.custody
  have own := custody.own_element opens.built
  have stored := PanelM.exec_onPage_ok (Widget.exec_setValue custody.rests.forest own v
    (field.label? s.panel.messages))
  refine ⟨w, s₁, asked, opens, ?_⟩
  unfold PanelM.setValue
  rw [exec_bind_ok (PanelM.exec_field found), if_neg stores, exec_bind_ok (exec_get s), exec_bind_ok asked,
    stored, opens.takes]

/-- What is read of a field whose widget took a value. -/
theorem Secluded.value_stored (h : s.Secluded) (built : s.Built f field w) (taken : w.takes v = true) :
    ({ s with page := w.stored s.page v } : Scene).value f = .ok (s.readBack? f v) := by
  have forest := h.custody.rests.forest
  have own := h.custody.own_element built
  have stored := Widget.value?_stored forest own taken (h.custody.kind built)
  have reads : s.readBack? f v = field.kind.readBack? v := by
    unfold readBack? kind?
    rw [built.found]
    rfl
  rw [value_eq (Widget.rewrites_stored forest own v).alters.forest, built.found, Option.elim_some, reads,
    ← stored]
  unfold reading
  rw [built.widget, Option.elim_some]
  cases has : field.kind.hasValue with
  | true => rfl
  | false =>
    rw [stored, FieldKind.readBack?_eq_none has]
    rfl

/-! ## What is told of a panel -/

/-- The fields of a panel are what they were, and their values are those that they had, or what is read of the
values that they took last. -/
structure Told (s₀ : Scene) (σ : FieldId → Option String) (s : Scene) : Prop where
  secluded : s.Secluded
  bare : s.panel.table.bare = s₀.panel.table.bare
  root : s.panel.root = s₀.panel.root
  value : ∀ f, s.value f = (σ f).elim (s₀.value f) fun v => .ok (s₀.readBack? f v)
  takes : ∀ f v, s.takes f v = s₀.takes f v

namespace Told

/-- Nothing was stored yet. -/
theorem start (h : s.Secluded) : s.Told (fun _ => none) s :=
  ⟨h, rfl, rfl, fun _ => rfl, fun _ _ => rfl⟩

/-- **Asking for a widget** changes nothing that is told. -/
theorem opens (h : s₀.Told σ s) (opens : s.Opens f field w s') : s₀.Told σ s' where
  secluded := h.secluded.asks opens.toAsks
  bare := opens.bare.trans h.bare
  root := opens.leads.root.trans h.root
  value g := (h.secluded.custody.value_asks opens.toAsks g).trans (h.value g)
  takes g v := (opens.takes_eq g v).trans (h.takes g v)

/-- **Storing a value** in a widget that takes it. -/
theorem stores (h : s₀.Told σ s) (built : s.Built f field w) (taken : w.takes v = true)
    (self : σ' f = some v) (others : ∀ g, g ≠ f → σ' g = σ g) :
    s₀.Told σ' { s with page := w.stored s.page v } := by
  have own := h.secluded.custody.own_element built
  have writes : s.Writes [f] { s with page := w.stored s.page v } :=
    h.secluded.rewrites built (List.mem_singleton.2 rfl)
      (Widget.rewrites_stored h.secluded.custody.rests.forest own v)
  refine ⟨writes.secluded, h.bare, h.root, fun g => ?_, h.takes⟩
  by_cases same : g = f
  · subst same
    rw [h.secluded.value_stored built taken, self, Option.elim_some]
    unfold readBack?
    rw [kind?_congr h.bare]
  · rw [others g same, ← h.value g]
    exact writes.others g fun mem => same (List.mem_singleton.1 mem)

end Told

end Scene

end Formwork
