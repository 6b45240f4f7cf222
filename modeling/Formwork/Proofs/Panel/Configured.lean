import Formwork.Proofs.Panel.Outlasting
import Formwork.Proofs.Panel.Reached
import Formwork.Proofs.Panel.Told

/-!
# Controls to check

A control to check stands for the default value of its field, or else for its label, and its attributes say
whether it is checked from the start.  Both are remembered by the widget and never changed
(`Panel.Request.configured`).  So the control takes one value and no other, and a value that it does not take
leaves it as it is (`Scene.Reached.exec_setValue_check`).
-/

namespace Formwork

set_option autoImplicit false

open Panel (Request)

/-- The value that a control to check stands for: the default value, or else the label. -/
def Field.standsFor? (f : Field) (messages : Messages) : Option String :=
  f.defaultValue? <|> f.label? messages

/-- Whether a control to check is checked from the start. -/
def Field.initially (f : Field) : Bool := f.attributes.flag Vocabulary.checkedKey false

/-- A control to check is what the attributes of its field say. -/
def Widget.Configured (w : Widget) (f : Field) (messages : Messages) : Prop :=
  match w with
  | .check _ _ standsFor initially => standsFor = f.standsFor? messages ∧ initially = f.initially
  | _ => True

namespace Widget

variable {w : Widget} {f f' : Field} {messages : Messages}

theorem configured_congr (same : f'.attributes = f.attributes) :
    w.Configured f' messages ↔ w.Configured f messages := by
  cases f
  cases f'
  cases same
  rfl

theorem configured_of_valueless (valueless : w.cells = []) : w.Configured f messages := by
  cases w with
  | check => cases valueless
  | _ => trivial

theorem configured_checkControl (type : String) :
    Yields (checkControl type f (f.label? messages)) fun w => w.Configured f messages :=
  .bind fun _ => .bind fun _ => .bind fun _ => .bind fun _ => .bind fun _ => .bind fun _ =>
    .bind fun _ => .pure ⟨rfl, rfl⟩

/-- A control to check takes what it stands for. -/
theorem Configured.takes_iff (h : w.Configured f messages) (kind : f.kind ∈ w.kinds)
    (check : f.kind = .checkbox ∨ f.kind = .radio) (v : String) :
    w.takes v = decide (f.standsFor? messages = some v) := by
  cases w with
  | check root box standsFor initially =>
    obtain ⟨rfl, -⟩ := h
    rfl
  | _ =>
    simp only [kinds, List.mem_cons, List.not_mem_nil, or_false] at kind
    rcases check with is | is <;> rw [is] at kind <;> simp at kind

/-- A widget is built as its field says. -/
theorem configured_build (f : Field) (messages : Messages) :
    Yields (Widget.build f (f.label? messages)) fun w => w.Configured f messages := by
  intro p p' w run
  have kind := kinds_build f _ p p' w run
  cases w with
  | check root box standsFor initially =>
    simp only [kinds, List.mem_cons, List.not_mem_nil, or_false] at kind
    unfold Widget.build at run
    rcases kind with kind | kind <;> rw [kind] at run <;> exact configured_checkControl _ p p' _ run
  | _ => trivial

end Widget

/-- A widget is built and remembered, or nothing but the page is changed. -/
theorem PanelM.exec_realize_cases (field : Field) (s : Scene) :
    (∃ w p p', exec (Widget.build field (field.label? s.panel.messages)) s.page = (.ok w, p) ∧
      exec (realize field) s = (.ok w, s.withWidget field.id w p')) ∨
      ∃ e p, exec (realize field) s = (.error e, { s with page := p }) := by
  unfold realize
  rw [exec_bind_ok (exec_get s)]
  cases built : exec (Widget.build field (field.label? s.panel.messages)) s.page with
  | mk answer p =>
    cases answer with
    | ok w =>
      rw [exec_bind_ok (exec_onPage_ok built)]
      exact .inl ⟨w, p, _, rfl, rfl⟩
    | error e =>
      rw [exec_bind_error (exec_onPage_error built)]
      exact .inr ⟨.page e, p, rfl⟩

namespace Scene

variable {s s' : Scene} {f : FieldId} {field : Field} {w : Widget} {p : Page}

/-- Every widget is what the attributes of its field say. -/
structure Configured (s : Scene) : Prop where
  booked : s.panel.table.Booked
  widgets : ∀ {f field w}, s.Built f field w → w.Configured field s.panel.messages

namespace Configured

/-- The tree of fields is changed, but no widget is built. -/
theorem of_table (h : s.Configured) (booked : s'.panel.table.Booked)
    (messages : s'.panel.messages = s.panel.messages)
    (before : ∀ {f field' w}, s'.Built f field' w → ∃ field, s.Built f field w ∧
      field'.attributes = field.attributes) : s'.Configured := by
  refine ⟨booked, fun built' => ?_⟩
  obtain ⟨field, built, same⟩ := before built'
  rw [messages, Widget.configured_congr same]
  exact h.widgets built

/-- A field is given a widget. -/
theorem withWidget (h : s.Configured) (f : FieldId) (p : Page)
    (fits : ∀ field, s.panel.field? f = some field → w.Configured field s.panel.messages) :
    (s.withWidget f w p).Configured := by
  refine ⟨h.booked.congr (FieldTable.bare_update_widget ..), fun {g field' w'} built => ?_⟩
  cases found : s.panel.field? f with
  | some field =>
    rcases (built_withWidget found).1 built with ⟨_, rfl, rfl⟩ | ⟨_, old⟩
    · exact (Widget.configured_congr rfl).2 (fits field found)
    · exact h.widgets old
  | none =>
    have there : (s.panel.table.update f fun field => { field with widget := some w }).field? g =
      some field' := built.found
    have missing : s.panel.table.field? f = none := found
    rw [FieldTable.field?_update] at there
    split at there
    · rw [missing] at there
      cases there
    · exact h.widgets ⟨there, built.widget⟩

/-- Asking for widgets keeps them what the attributes say. -/
theorem asked (f : FieldId) : Preserves Configured (PanelM.widgetOf f) := by
  intro s h
  rcases PanelM.exec_field_cases f s with ⟨field, found, _⟩ | ⟨_, run⟩
  · cases is : field.widget with
    | some w =>
      rw [PanelM.exec_widgetOf_built found is]
      exact h
    | none =>
      rw [PanelM.exec_widgetOf_unbuilt found is]
      rcases PanelM.exec_realize_cases field s with ⟨w, p, p', built, realized⟩ | ⟨e, p, failed⟩
      · rw [realized]
        refine h.withWidget field.id p' fun field' found' => ?_
        rw [h.booked.ids found, found] at found'
        cases found'
        exact Widget.configured_build field s.panel.messages _ _ _ built
      · rw [failed]
        exact h.of_table h.booked rfl fun built => ⟨_, ⟨built.found, built.widget⟩, rfl⟩
  · have failed : exec (PanelM.widgetOf f) s = _ := exec_bind_error run
    rw [failed]
    exact h

theorem outlasts : Outlasts Configured where
  congr h table messages := by
    refine h.of_table (table ▸ h.booked) messages fun built => ⟨_, ⟨?_, built.widget⟩, rfl⟩
    have found := built.found
    unfold Panel.field? at found ⊢
    rwa [table] at found
  asked := asked
  remembers f _ valueless s h := h.withWidget f s.page fun _ _ => Widget.configured_of_valueless valueless

/-! ### The tree of fields -/

theorem create (kind : FieldKind) (attributes : Attributes) :
    Preserves Configured (PanelM.createField kind attributes) := by
  intro s h
  rw [PanelM.exec_createField]
  refine h.of_table (h.booked.add rfl rfl rfl) rfl ?_
  rintro f field' w ⟨found, widget⟩
  unfold Panel.field? at found
  rw [FieldTable.field?_add] at found
  split at found
  · cases found
    cases widget
  · exact ⟨field', ⟨found, widget⟩, rfl⟩

theorem link (h : s.Configured) {p c : FieldId} (parent : (s.panel.field? p).isSome)
    (child : (s.panel.field? c).isSome) (role : Role) : (s.link p c role).Configured := by
  refine h.of_table (h.booked.link parent child role) rfl ?_
  rintro g field' w ⟨found, widget⟩
  have there : (s.panel.table.link p c role).field? g = some field' := found
  rw [h.booked.field?_link] at there
  obtain ⟨field, before, rfl⟩ := Option.map_eq_some_iff.1 there
  exact ⟨field, ⟨before, field.widget_relinked.symm.trans widget⟩, field.attributes_relinked⟩

theorem add (p c : FieldId) : Preserves Configured (PanelM.addChild p c) :=
  PanelM.preserves_addChild (outlasts.takePart p c) fun role _ h parent child => h.link parent child role

theorem remove (f : FieldId) : Preserves Configured (PanelM.removeField f) := by
  intro s h
  rcases PanelM.exec_field_cases f s with ⟨field, found, _⟩ | ⟨_, run⟩
  · rw [PanelM.exec_removeField (Option.isSome_of_mem found)]
    refine h.of_table (h.booked.remove f) rfl ?_
    rintro g field' w ⟨there, widget⟩
    obtain ⟨before, found, rfl⟩ := h.booked.exists_field?_of_remove there
    exact ⟨before, ⟨found, widget⟩, rfl⟩
  · have failed : exec (PanelM.removeField f) s = _ := exec_bind_error run
    rw [failed]
    exact h

end Configured

end Scene

/-- **Every request** keeps the widgets what the attributes of their fields say. -/
theorem Panel.Request.configured (r : Request) : Preserves Scene.Configured r.perform := by
  cases r with
  | create kind attributes => exact .bind (Scene.Configured.create kind attributes) fun _ => .pure _
  | add p c => exact .bind (Scene.Configured.add p c) fun _ => .pure _
  | remove f => exact Scene.Configured.remove f
  | _ => exact Scene.Configured.outlasts.perform rfl

namespace Scene

variable {s : Scene} {f : FieldId} {field : Field}

/-- **In every scene that a panel reaches** the widgets are what the attributes of their fields say. -/
theorem Reached.configured (h : s.Reached) : s.Configured := by
  induction h with
  | opened forest counters series messages =>
    refine ⟨.empty, fun {f field w} built => ?_⟩
    cases built.found
  | step _ _ configured => exact Panel.Request.configured _ _ configured

/-! ## Storing a value -/

/-- The value of a field whose widget was written into. -/
theorem Built.value_page {w : Widget} {p : Page} (built : s.Built f field w)
    (valued : field.kind.hasValue = true) (forest : p.Forest) :
    ({ s with page := p } : Scene).value f = .ok (w.value? p) := by
  rw [value_eq forest, built.found, Option.elim_some]
  unfold reading
  rw [if_pos valued, built.widget, Option.elim_some]

/-- A widget that is asked for is what the attributes of its field say. -/
theorem Opens.configured {w : Widget} {s' : Scene} (opens : s.Opens f field w s')
    (asked : exec (PanelM.widgetOf f) s = (.ok w, s')) (h : s.Configured) :
    w.Configured field s.panel.messages := by
  have next : s'.Configured := by
    have kept := Configured.asked f s h
    rwa [asked] at kept
  have configured := next.widgets opens.built
  rw [opens.messages] at configured
  exact (Widget.configured_congr rfl).1 configured

/-- **Storing a value in a control to check**: it is accepted if the control stands for it, and is the value
then.  A value that is refused leaves the value what it was, so the control is unchecked then exactly if it was
so before. -/
theorem Reached.exec_setValue_check (h : s.Reached) (found : s.panel.field? f = some field)
    (check : field.kind = .checkbox ∨ field.kind = .radio) (v : String) :
    ∃ before s', s.value f = .ok before ∧
      exec (PanelM.setValue f (some v)) s =
        (.ok (decide (field.standsFor? s.panel.messages = some v)), s') ∧
      s'.value f = .ok (if field.standsFor? s.panel.messages = some v then some v else before) ∧
      ((field.standsFor? s.panel.messages ≠ some v → s'.value f = .ok none) ↔
        field.standsFor? s.panel.messages = some v ∨ before = none) := by
  have valued : field.kind.hasValue = true := by rcases check with is | is <;> rw [is] <;> rfl
  have keeps : field.kind.keepsValues = true := by rcases check with is | is <;> rw [is] <;> rfl
  obtain ⟨w, s₁, asked, opens, run⟩ := exec_setValue_opens h.custody found (by simp [valued]) v
  have custody := opens.leads.custody
  have kind := custody.kind opens.built
  have own := custody.own_element opens.built
  have configured := opens.configured asked h.configured
  have takes : s.takes f v = decide (field.standsFor? s.panel.messages = some v) := by
    rw [← opens.takes, configured.takes_iff kind check]
  have before : s.value f = .ok (w.value? s₁.page) := by
    rw [← h.custody.value_asks opens.toAsks f]
    exact opens.built.value_page valued custody.rests.forest
  have after : ({ s₁ with page := w.stored s₁.page v } : Scene).value f =
      .ok (if field.standsFor? s.panel.messages = some v then some v else w.value? s₁.page) := by
    rw [opens.built.value_page valued (Widget.rewrites_stored custody.rests.forest own v).alters.forest]
    by_cases same : field.standsFor? s.panel.messages = some v
    · have taken : w.takes v = true := by rw [opens.takes, takes, decide_eq_true same]
      rw [if_pos same, Widget.value?_stored custody.rests.forest own taken kind]
      exact congrArg _ (FieldKind.readBack?_of_keepsValues keeps v)
    · have refused : w.takes v = false := by rw [opens.takes, takes, decide_eq_false same]
      rw [if_neg same, Widget.stored_of_refused refused]
  refine ⟨_, _, before, by rw [run, takes], after, ?_⟩
  rw [after]
  by_cases same : field.standsFor? s.panel.messages = some v
  · simp [same]
  · simp [same]

/-- A box that stands for `a` and is checked from the start. -/
def ticked : Scene := (opened .empty .empty ⟨0⟩ .empty).after
  [.create .checkbox (.ofList [(Vocabulary.valueKey, "a"), (Vocabulary.checkedKey, "true")])]

/-- The box answers what its attributes say. -/
theorem exec_setValue_check_ticked :
    ∃ s', exec (PanelM.setValue ⟨0⟩ (some "b")) ticked = (.ok false, s') ∧
      s'.value ⟨0⟩ = ticked.value ⟨0⟩ := by
  have reached : ticked.Reached := .step (.opened .empty _ _ _) trivial
  have known : (ticked.panel.field? ⟨0⟩).map (fun field =>
      (field.kind, field.standsFor? ticked.panel.messages)) = some (.checkbox, some "a") := by decide +kernel
  obtain ⟨field, found, is⟩ := Option.map_eq_some_iff.1 known
  obtain ⟨kind, standsFor⟩ := Prod.mk.inj is
  obtain ⟨before, s', was, run, value, -⟩ := reached.exec_setValue_check found (.inl kind) "b"
  rw [standsFor] at run value
  exact ⟨s', run, value.trans was.symm⟩

/-- A refused value leaves the box checked. -/
theorem ticked_stays_checked : ticked.Reached ∧
    (ticked.panel.field? ⟨0⟩).map (fun field => (field.kind, field.standsFor? ticked.panel.messages)) =
      some (.checkbox, some "a") ∧
    (exec (PanelM.setValue ⟨0⟩ (some "b")) ticked).1 = .ok false ∧
    (exec (PanelM.setValue ⟨0⟩ (some "b")) ticked).2.value ⟨0⟩ = .ok (some "a") :=
  ⟨.step (.opened .empty _ _ _) trivial, by decide +kernel⟩

end Scene

end Formwork
