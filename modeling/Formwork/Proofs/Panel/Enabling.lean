import Formwork.Proofs.Panel.Ancestry
import Formwork.Proofs.Panel.Reached

/-!
# What enabling reaches

Enabling a field, or disabling it, sets the flag of its own control if it has one, and is passed on to what the
field lists otherwise.  Which fields it gets to (`FieldTable.Reaches`) depends on their kinds and on the tree of
fields; their controls carry the flag then exactly if they are disabled, whatever they carried before, and the
controls of all other fields what they carried (`Scene.Toggles`).
-/

namespace Formwork

set_option autoImplicit false

open PanelM (Asks Enables)

/-! ## The fields that are reached -/

namespace FieldKind

/-- Whether the widget of a field is a control of a form, or holds one. -/
def isFormControl : FieldKind → Bool
  | .checkbox | .radio | .fileUpload => true
  | k => k.isText || k.isButton

/-- A control to upload a file with is a control of a form, but its field does not toggle it. -/
theorem togglesEnabled_iff {k : FieldKind} :
    k.togglesEnabled = true ↔ k.isFormControl = true ∧ k ≠ .fileUpload := by
  cases k <;> decide

end FieldKind

namespace FieldTable

variable {t u : FieldTable} {f g c : FieldId} {field : Field}

/-- A field is reached from another: it is the other and has a control of its own, or it is reached from a
field that the other, which has none, lists. -/
inductive Reaches (t : FieldTable) : FieldId → FieldId → Prop where
  | control {f : FieldId} {field : Field} : t.field? f = some field → field.kind.togglesEnabled = true →
      Reaches t f f
  | inner {f c g : FieldId} {field : Field} : t.field? f = some field → field.kind.togglesEnabled = false →
      c ∈ field.contents → Reaches t c g → Reaches t f g

theorem Reaches.mono (same : u.bare = t.bare) (h : t.Reaches f g) : u.Reaches f g := by
  induction h with
  | control found toggles =>
    obtain ⟨field', found', bare⟩ := exists_field?_congr same.symm found
    exact .control found' ((congrArg (fun f => f.kind.togglesEnabled) bare.symm :).trans toggles)
  | inner found toggles listed _ ih =>
    obtain ⟨field', found', bare⟩ := exists_field?_congr same.symm found
    have contents := (congrArg Field.contents bare :)
    exact .inner found' ((congrArg (fun f => f.kind.togglesEnabled) bare.symm :).trans toggles)
      (contents ▸ listed) ih

theorem reaches_congr (same : u.bare = t.bare) : u.Reaches f g ↔ t.Reaches f g :=
  ⟨.mono same.symm, .mono same⟩

/-- A field with a control of its own passes nothing on. -/
theorem reaches_control (found : t.field? f = some field) (toggles : field.kind.togglesEnabled = true) :
    t.Reaches f g ↔ g = f := by
  constructor
  · intro h
    cases h with
    | control => rfl
    | inner found' passes =>
      cases found.symm.trans found'
      cases toggles.symm.trans passes
  · rintro rfl
    exact .control found toggles

/-- A field without one passes the request on to what it lists. -/
theorem reaches_inner (found : t.field? f = some field) (passes : field.kind.togglesEnabled = false) :
    t.Reaches f g ↔ ∃ c ∈ field.contents, t.Reaches c g := by
  constructor
  · intro h
    cases h with
    | control found' toggles =>
      cases found.symm.trans found'
      cases toggles.symm.trans passes
    | inner found' _ listed rest =>
      cases found.symm.trans found'
      exact ⟨_, listed, rest⟩
  · rintro ⟨c, listed, rest⟩
    exact .inner found passes listed rest

/-- What is reached has a control of its own. -/
theorem Reaches.toggles (h : t.Reaches f g) :
    ∃ field, t.field? g = some field ∧ field.kind.togglesEnabled = true := by
  induction h with
  | control found toggles => exact ⟨_, found, toggles⟩
  | inner _ _ _ _ ih => exact ih

end FieldTable

/-! ## What is set, and what is not -/

namespace Scene

variable {s s' s'' : Scene} {f g : FieldId} {field : Field} {w : Widget} {enabled : Bool}
  {on on' : FieldId → Prop}

/-- The control of a field carries the flag exactly if it is disabled. -/
def Carries (s : Scene) (enabled : Bool) (g : FieldId) : Prop :=
  ∃ field w, s.Built g field w ∧ ((s.page.attr? w.control "disabled").isSome ↔ enabled = false)

instance (s : Scene) (enabled : Bool) (g : FieldId) : Decidable (s.Carries enabled g) :=
  decidable_of_iff (∃ field ∈ s.panel.field? g, ∃ w ∈ field.widget,
      ((s.page.attr? w.control "disabled").isSome ↔ enabled = false)) <| by
    constructor
    · rintro ⟨field, found, w, widget, carries⟩
      exact ⟨field, w, ⟨found, widget⟩, carries⟩
    · rintro ⟨field, w, built, carries⟩
      exact ⟨field, built.found, w, built.widget, carries⟩

/-- Some fields were enabled or disabled: their controls carry the flag exactly if they are disabled.  The other
fields are what they were, and their controls carry what they carried. -/
structure Toggles (enabled : Bool) (on : FieldId → Prop) (s s' : Scene) : Prop where
  custody : s'.Custody .empty False
  bare : s'.panel.table.bare = s.panel.table.bare
  set : ∀ {g}, on g → s'.Carries enabled g
  kept : ∀ {g field}, ¬ on g → s.panel.field? g = some field → s'.panel.field? g = some field ∧
    ∀ w, field.widget = some w → s'.page.attr? w.control "disabled" = s.page.attr? w.control "disabled"

namespace Toggles

theorem refl (h : s.Custody .empty False) : s.Toggles enabled (fun _ => False) s :=
  ⟨h, rfl, nofun, fun _ found => ⟨found, fun _ _ => rfl⟩⟩

/-- Some fields are enabled or disabled, and then others, or some of them again. -/
theorem trans (h : s.Toggles enabled on s') (h' : s'.Toggles enabled on' s'') :
    s.Toggles enabled (fun g => on g ∨ on' g) s'' where
  custody := h'.custody
  bare := h'.bare.trans h.bare
  set {g} reached := by
    by_cases again : on' g
    · exact h'.set again
    · obtain ⟨field, w, built, carries⟩ := h.set (reached.resolve_right again)
      obtain ⟨found, same⟩ := h'.kept again built.found
      exact ⟨field, w, ⟨found, built.widget⟩, by rw [same w built.widget, carries]⟩
  kept {g field} spared found := by
    obtain ⟨found', same⟩ := h.kept (fun here => spared (.inl here)) found
    obtain ⟨found'', same'⟩ := h'.kept (fun here => spared (.inr here)) found'
    exact ⟨found'', fun w widget => (same' w widget).trans (same w widget)⟩

theorem of_iff (h : s.Toggles enabled on s') (iff : ∀ g, on' g ↔ on g) : s.Toggles enabled on' s' :=
  (funext fun g => propext (iff g) : on' = on) ▸ h

end Toggles

/-- **Enabling or disabling the control of a field.** -/
theorem Custody.exec_enableControl (h : s.Custody .empty False) (found : s.panel.field? f = some field)
    (enabled : Bool) :
    ∃ s', exec (PanelM.enableControl f enabled) s = (.ok (), s') ∧ s.Toggles enabled (· = f) s' := by
  obtain ⟨w, s₁, run, asks⟩ := PanelM.exec_widgetOf h found
  have custody := asks.leads.custody
  have mem := w.control_mem_own
  obtain ⟨new, element⟩ := custody.own asks.built _ mem
  refine ⟨{ s₁ with page := w.setEnabled enabled s₁.page }, (exec_bind_ok run).trans rfl, ?_, asks.bare, ?_, ?_⟩
  · exact (PanelM.goes_flag custody asks.built mem (by decide) (!enabled)).1.custody
  · rintro g rfl
    refine ⟨_, w, asks.built.congr rfl, ?_⟩
    unfold Widget.setEnabled
    rw [Page.attr?_setFlag_self element]
    cases enabled <;> simp
  · intro g field' other found'
    refine ⟨(asks.others other).trans found', fun w' widget => ?_⟩
    have built : s.Built g field' w' := ⟨found', widget⟩
    -- the control of the other field is a node of its own, and was there before
    have apart : w'.control ≠ w.control := fun same =>
      custody.apart (asks.stays built) asks.built other _ w'.control_mem_own (same ▸ mem)
    have old : s₁.page.content? w'.control = s.page.content? w'.control := by
      unfold Page.content?
      rw [asks.grows.old _ (h.own_known built w'.control_mem_own)]
    exact (Page.attr?_setFlag_of_ne (.inl apart)).trans (Page.attr?_congr old _)

/-- **What enabling some fields comes to**: it does not fail, and what is reached from them carries the flag
exactly if it is disabled. -/
theorem Toggles.of_enables {fs : List FieldId} {r : Except FieldError Unit}
    (run : Enables enabled fs s r s') (h : s.Custody .empty False)
    (known : ∀ f ∈ fs, (s.panel.field? f).isSome) :
    r = .ok () ∧ s.Toggles enabled (fun g => ∃ f ∈ fs, s.panel.table.Reaches f g) s' := by
  induction run with
  | done => exact ⟨rfl, (Toggles.refl h).of_iff fun g => by simp⟩
  | missing absent =>
    have there := known _ List.mem_cons_self
    rw [absent] at there
    cases there
  | @control f fs field s s₁ s₂ r found toggles run _ ih =>
    obtain ⟨s₁', run', here⟩ := h.exec_enableControl found enabled
    cases run.symm.trans run'
    obtain ⟨ok, later⟩ := ih here.custody fun g mem =>
      (FieldTable.isSome_field?_congr here.bare g).trans (known g (List.mem_cons_of_mem _ mem))
    refine ⟨ok, (here.trans later).of_iff fun g => ?_⟩
    simp only [List.mem_cons, exists_eq_or_imp, FieldTable.reaches_control found toggles,
      FieldTable.reaches_congr here.bare]
  | @refused f fs field s s₁ e found _ run =>
    obtain ⟨s₁', run', _⟩ := h.exec_enableControl found enabled
    cases run.symm.trans run'
  | @inner f fs field s s₁ s₂ r found passes _ _ ih ih' =>
    obtain ⟨_, here⟩ := ih h fun c listed => by
      obtain ⟨child, there, _⟩ := h.booked.exists_of_mem_contents found listed
      exact Option.isSome_of_mem there
    obtain ⟨ok, later⟩ := ih' here.custody fun g mem =>
      (FieldTable.isSome_field?_congr here.bare g).trans (known g (List.mem_cons_of_mem _ mem))
    refine ⟨ok, (here.trans later).of_iff fun g => ?_⟩
    simp only [List.mem_cons, exists_eq_or_imp, FieldTable.reaches_inner found passes,
      FieldTable.reaches_congr here.bare]
  | @failed f fs field s s₁ e found _ _ ih =>
    obtain ⟨failed, _⟩ := ih h fun c listed => by
      obtain ⟨child, there, _⟩ := h.booked.exists_of_mem_contents found listed
      exact Option.isSome_of_mem there
    cases failed

/-! ## Enabling several fields -/

/-- Enabling the fields of a list that are all there, and what lies below them. -/
theorem Custody.exec_forM_enableTree (enabled : Bool) : ∀ (fs : List FieldId) {s : Scene}, s.Custody .empty False →
    s.panel.table.Acyclic → (∀ f ∈ fs, (s.panel.field? f).isSome) →
    ∃ s', exec (fs.forM fun f => PanelM.enableTree f enabled) s = (.ok (), s') ∧
      s.Toggles enabled (fun g => ∃ f ∈ fs, s.panel.table.Reaches f g) s'
  | [], s, h, _, _ => ⟨s, rfl, (Toggles.refl h).of_iff fun g => by simp⟩
  | f :: fs, s, h, acyclic, known => by
    obtain ⟨field, found⟩ := Option.isSome_iff_exists.1 (known f List.mem_cons_self)
    obtain ⟨ok, here⟩ := Toggles.of_enables (PanelM.enables_enableTree h.booked acyclic found enabled) h
      fun g mem => List.mem_singleton.1 mem ▸ known f List.mem_cons_self
    have run : exec (PanelM.enableTree f enabled) s = (.ok (), (exec (PanelM.enableTree f enabled) s).2) :=
      Prod.ext ok rfl
    obtain ⟨s₂, rest, later⟩ := exec_forM_enableTree enabled fs here.custody
      (acyclic.of_parent? (FieldTable.parent?_congr here.bare)) fun g mem =>
        (FieldTable.isSome_field?_congr here.bare g).trans (known g (List.mem_cons_of_mem _ mem))
    refine ⟨s₂, ?_, (here.trans later).of_iff fun g => ?_⟩
    · rw [exec_forM_cons, exec_bind_ok run, rest]
    · simp only [List.mem_cons, exists_eq_or_imp, List.not_mem_nil, or_false, exists_eq_left,
        FieldTable.reaches_congr here.bare]

/-- **Enabling or disabling all fields** reaches exactly those with a control of their own. -/
theorem Custody.exec_setEnabled (h : s.Custody .empty False) (acyclic : s.panel.table.Acyclic)
    (enabled : Bool) : ∃ s', exec (PanelM.setEnabled enabled) s = (.ok (), s') ∧
      s.Toggles enabled (fun g => ∃ field, s.panel.field? g = some field ∧
        field.kind.isFormControl = true ∧ field.kind ≠ .fileUpload) s' := by
  obtain ⟨s', run, toggles⟩ := exec_forM_enableTree enabled s.panel.table.ids h acyclic
    fun f mem => Option.isSome_iff_exists.2 (h.booked.mem_ids.1 mem)
  refine ⟨s', run, toggles.of_iff fun g => ⟨?_, ?_⟩⟩
  · rintro ⟨field, found, has⟩
    exact ⟨g, h.booked.mem_ids.2 ⟨field, found⟩, .control found (FieldKind.togglesEnabled_iff.2 has)⟩
  · rintro ⟨_, _, reaches⟩
    obtain ⟨field, found, has⟩ := reaches.toggles
    exact ⟨field, found, FieldKind.togglesEnabled_iff.1 has⟩

/-- **Enabling or disabling the fields with a name.** -/
theorem Custody.exec_setFieldEnabled (h : s.Custody .empty False) (acyclic : s.panel.table.Acyclic)
    (name : String) (enabled : Bool) :
    ∃ s', exec (PanelM.setFieldEnabled name enabled) s = (.ok (), s') ∧
      s.Toggles enabled (fun g => ∃ f ∈ s.panel.table.named name, s.panel.table.Reaches f g) s' := by
  refine exec_forM_enableTree enabled (s.panel.table.named name) h acyclic fun f mem => ?_
  obtain ⟨field, found, _⟩ := (h.booked.named name f).1 mem
  exact Option.isSome_of_mem found

end Scene

end Formwork
