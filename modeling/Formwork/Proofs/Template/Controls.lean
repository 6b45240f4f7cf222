import Formwork.Proofs.Panel.Clearing
import Formwork.Proofs.Panel.Enabling
import Formwork.Proofs.Template.Ranked

/-!
# Clear buttons and controls of a panel that was built

In a panel that was built no field lies above itself and the values are cells of their own
(`Builder.sound_of_build`), and requests about values change neither.  So the walks over its fields end, and
two things that are done to many fields at once can be told field by field: pressing a clear button resets the
fields that it is for and no others (`Builder.build_clears`), and enabling or disabling the panel, or the
fields with a name, reaches all controls but those to upload a file with (`Builder.build_enables`).
-/

namespace Formwork

set_option autoImplicit false

open Panel (Request)

theorem Panel.Request.changesTree_of_handlesValues {r : Request} (handles : r.handlesValues = true) :
    r.changesTree = false := by
  cases r <;> first | rfl | cases handles

namespace Builder

variable {b : Builder} {name : String} {w w' : Workspace} {p : Panel} {rs : List Request} {s : Scene}

/-- What requests about values find in a panel that was built, and leave behind. -/
structure Sound (s : Scene) : Prop where
  secluded : s.Secluded
  configured : s.Configured
  acyclic : s.panel.table.Acyclic

theorem sound_of_build (forest : w.page.Forest) (run : exec (b.build name) w = (.ok (some p), w'))
    (handles : ∀ r ∈ rs, r.handlesValues = true) : Sound ((Scene.mk p w'.page w'.counters).after rs) := by
  obtain ⟨n, ranked⟩ := ranked_of_build run
  have later := ranked.after fun r mem => Request.changesTree_of_handlesValues (handles r mem)
  exact ⟨((secluded_of_build forest run).after handles).1, later.configured, later.acyclic⟩

/-! ## Clear buttons -/

/-- **A clear button** of a panel that was built, behind any requests about values: pressing it answers, gives
the fields that it is for and that have values the ones that their attributes say, and leaves the value of every
other field what it was.  A walk from any field answers, and visits the field and what lies below it once. -/
theorem build_clears (forest : w.page.Forest) (run : exec (b.build name) w = (.ok (some p), w'))
    (handles : ∀ r ∈ rs, r.handlesValues = true) (behind : s = (Scene.mk p w'.page w'.counters).after rs)
    {f : FieldId} {button : Field} (found : s.panel.field? f = some button) (kind : button.kind = .clear) :
    (∃ s', exec (PanelM.press f) s =
        (.ok ⟨true, (s.panel.clickListeners.get? button.name).getD []⟩, s') ∧
      s.Clears (s.panel.table.Targets button) s') ∧
    ∀ g field, s.panel.field? g = some field → ∃ visited,
      exec (PanelM.subtree g) s = (.ok visited, s) ∧ s.panel.table.Visits g field visited := by
  obtain ⟨secluded, configured, acyclic⟩ := behind ▸ sound_of_build forest run handles
  refine ⟨secluded.exec_press_clear configured acyclic found kind, fun g field there => ?_⟩
  obtain ⟨visited, walk, _, visits⟩ := Scene.exec_subtree secluded.custody.booked acyclic there
  exact ⟨visited, walk, visits⟩

/-- A box with a line of text in it, another line, and a button that clears what is in the box. -/
def boxTemplate : Template :=
  ⟨⟨none, "", .empty⟩, [
    .composite ⟨some ⟨0, some .panel⟩, "", OrderedMap.empty.insert Vocabulary.nameKey "box"⟩
      [.composite ⟨some ⟨1, some .textInput⟩, "", .empty⟩ []],
    .composite ⟨some ⟨1, some .textInput⟩, "", .empty⟩ [],
    .composite ⟨some ⟨2, some .clear⟩, "", OrderedMap.empty.insert Vocabulary.targetKey "box"⟩ []]⟩

/-- A builder that knows them. -/
def boxBuilder : Builder :=
  ⟨.empty 3, .empty, ⟨0⟩, OrderedMap.empty.insert "box" boxTemplate, .empty⟩

/-- The line in the box is cleared, and the other one is not. -/
theorem build_clears_box : ∃ p w' s s', exec (boxBuilder.build "box") ⟨.empty, ⟨#[.initial]⟩⟩ =
      (.ok (some p), w') ∧
    s = (Scene.mk p w'.page w'.counters).after [.store ⟨1⟩ (some "x"), .store ⟨2⟩ (some "y")] ∧
    exec (PanelM.press ⟨3⟩) s = (.ok ⟨true, []⟩, s') ∧
    s'.value ⟨1⟩ = .ok (some "") ∧ s'.value ⟨2⟩ = .ok (some "y") := by
  have given : givesSuch ((fun s => (∃ button ∈ s.panel.field? ⟨3⟩, button.kind = .clear ∧
        button.attr? Vocabulary.targetKey = some "box" ∧
        button.attributes.flag Vocabulary.childrenKey true = true ∧
        (s.panel.clickListeners.get? button.name).getD [] = []) ∧
      (∃ field ∈ s.panel.field? ⟨1⟩, field.kind.hasValue = true ∧
        field.resetValue? s.panel.messages = some "") ∧
      s.panel.table.named "box" = [⟨0⟩] ∧ s.panel.table.parent? ⟨1⟩ = some ⟨0⟩ ∧
      s.panel.table.parent? ⟨2⟩ = none ∧ s.value ⟨2⟩ = .ok (some "y")) ∘
        (Scene.after · [.store ⟨1⟩ (some "x"), .store ⟨2⟩ (some "y")]))
      (exec (boxBuilder.build "box") ⟨.empty, ⟨#[.initial]⟩⟩) = true := by
    decide +kernel
  obtain ⟨p, w', run, passed⟩ := exists_of_givesSuch given
  obtain ⟨s, behind⟩ : ∃ s, s = (Scene.mk p w'.page w'.counters).after
      [.store ⟨1⟩ (some "x"), .store ⟨2⟩ (some "y")] := ⟨_, rfl⟩
  rw [Function.comp_apply, ← behind] at passed
  obtain ⟨⟨button, found, kind, target, descendants, untold⟩, ⟨field, there, valued, reset⟩, named, inside,
    outside, kept⟩ := of_decide_eq_true passed
  obtain ⟨⟨s', pressed, clears⟩, _⟩ :=
    build_clears .empty run (by simp [Request.handlesValues]) behind found kind
  have targets : ∀ g, s.panel.table.Targets button g ↔ g = ⟨0⟩ ∨ s.panel.table.Above ⟨0⟩ g := by
    intro g
    unfold FieldTable.Targets
    rw [target]
    simp [named, descendants]
  refine ⟨p, w', s, s', run, behind, ?_, ?_, ?_⟩
  · rw [pressed, untold]
  · rw [clears.reset ((targets ⟨1⟩).2 (.inr (.single inside))) there valued, reset]
  · rw [clears.kept fun target => ?_, kept]
    rcases (targets ⟨2⟩).1 target with same | above
    · cases same
    · obtain ⟨q, lies, _⟩ := FieldTable.above_iff_parent.1 above
      cases outside.symm.trans lies

/-! ## Controls -/

/-- **Enabling and disabling** a panel that was built, behind any requests about values: the controls of all
fields carry the flag exactly if they are disabled, but for those to upload a file with, which carry what they
carried.  With the fields of a name it is those of them that have a control that carry it so, and those that are
reached from the others through fields that have none. -/
theorem build_enables (forest : w.page.Forest) (run : exec (b.build name) w = (.ok (some p), w'))
    (handles : ∀ r ∈ rs, r.handlesValues = true) (behind : s = (Scene.mk p w'.page w'.counters).after rs)
    (enabled : Bool) :
    (∃ s', exec (PanelM.setEnabled enabled) s = (.ok (), s') ∧
      s.Toggles enabled (fun g => ∃ field, s.panel.field? g = some field ∧
        field.kind.isFormControl = true ∧ field.kind ≠ .fileUpload) s') ∧
    ∀ called, ∃ s', exec (PanelM.setFieldEnabled called enabled) s = (.ok (), s') ∧
      s.Toggles enabled (fun g => ∃ f ∈ s.panel.table.named called, s.panel.table.Reaches f g) s' := by
  obtain ⟨secluded, _, acyclic⟩ := behind ▸ sound_of_build forest run handles
  exact ⟨secluded.custody.exec_setEnabled acyclic enabled,
    fun called => secluded.custody.exec_setFieldEnabled acyclic called enabled⟩

/-- The line in the box is disabled with the panel. -/
theorem build_enables_box : ∃ p w' s', exec (boxBuilder.build "box") ⟨.empty, ⟨#[.initial]⟩⟩ =
      (.ok (some p), w') ∧
    exec (PanelM.setEnabled false) ⟨p, w'.page, w'.counters⟩ = (.ok (), s') ∧ s'.Carries false ⟨1⟩ := by
  have given : givesSuch (fun s => ∃ field ∈ s.panel.field? ⟨1⟩, field.kind.isFormControl = true ∧
      field.kind ≠ .fileUpload) (exec (boxBuilder.build "box") ⟨.empty, ⟨#[.initial]⟩⟩) = true := by
    decide +kernel
  obtain ⟨p, w', run, passed⟩ := exists_of_givesSuch given
  have handles : ∀ r ∈ ([] : List Request), r.handlesValues = true := nofun
  obtain ⟨s', disabled, toggles⟩ := (build_enables .empty run handles rfl false).1
  exact ⟨p, w', s', run, disabled, toggles.set (of_decide_eq_true passed)⟩

/-- A control to upload a file with. -/
def uploadBuilder : Builder :=
  ⟨.empty 1, .empty, ⟨0⟩, OrderedMap.empty.insert "upload"
    ⟨⟨none, "", .empty⟩, [.composite ⟨some ⟨0, some .fileUpload⟩, "", .empty⟩ []]⟩, .empty⟩

/-- It is not disabled with the panel. -/
theorem build_not_disables_upload : ∃ p w', exec (uploadBuilder.build "upload") ⟨.empty, ⟨#[.initial]⟩⟩ =
      (.ok (some p), w') ∧
    (p.field? ⟨0⟩).map Field.kind = some .fileUpload ∧ FieldKind.fileUpload.isFormControl = true ∧
    (exec (PanelM.setEnabled false) ⟨p, w'.page, w'.counters⟩).1 = .ok () ∧
    ¬ (exec (PanelM.setEnabled false) ⟨p, w'.page, w'.counters⟩).2.Carries false ⟨0⟩ := by
  have given : givesSuch (fun s => (s.panel.field? ⟨0⟩).map Field.kind = some .fileUpload ∧
      FieldKind.fileUpload.isFormControl = true ∧ (exec (PanelM.setEnabled false) s).1 = .ok () ∧
      ¬ (exec (PanelM.setEnabled false) s).2.Carries false ⟨0⟩)
      (exec (uploadBuilder.build "upload") ⟨.empty, ⟨#[.initial]⟩⟩) = true := by
    decide +kernel
  obtain ⟨p, w', run, passed⟩ := exists_of_givesSuch given
  exact ⟨p, w', run, of_decide_eq_true passed⟩

end Builder

end Formwork
