import Formwork.Proofs.Panel.Resetting
import Formwork.Proofs.Panel.Visits

/-!
# Clearing several fields

Clearing some fields, one after the other, gives each of them that has a value the one that its attributes say,
and leaves the values of all others what they were (`Scene.Resets`): it does not matter in which order they are
cleared, nor that a field is cleared more than once, because no two fields share a value.

So a clear button resets the fields that it is for (`FieldTable.Targets`), and no others, and pressing it does
not fail (`Scene.exec_press_clear`).  In a tree of fields with a cycle a walk over what lies below a field would not come
to an end, so the panel is one without.
-/

namespace Formwork

set_option autoImplicit false

open Panel (Request)

namespace Scene

variable {s s' s'' : Scene} {f g : FieldId} {field : Field} {fs gs cs : List FieldId}

/-! ## Resetting some fields -/

/-- Some fields were cleared: those that have a value have the one that their attributes say, and the others the
one that they had. -/
structure Resets (fs : List FieldId) (s s' : Scene) : Prop extends Writes fs s s' where
  configured : s'.Configured
  messages : s'.panel.messages = s.panel.messages
  reset : ∀ g ∈ fs, ∀ field, s.panel.field? g = some field → field.kind.hasValue = true →
    s'.value g = .ok (field.resetValue? s.panel.messages)

namespace Resets

theorem refl (h : s.Secluded) (configured : s.Configured) : s.Resets [] s :=
  ⟨.refl h, configured, rfl, nofun⟩

/-- Some fields are cleared, and then others, or some of them again. -/
theorem trans (h : s.Resets fs s') (h' : s'.Resets gs s'') : s.Resets (fs ++ gs) s'' where
  secluded := h'.secluded
  bare := h'.bare.trans h.bare
  others g spared := by
    rw [h'.others g fun mem => spared (List.mem_append_right _ mem),
      h.others g fun mem => spared (List.mem_append_left _ mem)]
  configured := h'.configured
  messages := h'.messages.trans h.messages
  reset g mem field found valued := by
    obtain ⟨field', found', bare⟩ := FieldTable.exists_field?_congr h.bare.symm found
    have kind : field.kind = field'.kind := (congrArg Field.kind bare :)
    have same : field'.resetValue? s'.panel.messages = field.resetValue? s.panel.messages := by
      rw [h.messages]
      exact (congrArg (fun f => f.resetValue? s.panel.messages) bare.symm :)
    by_cases again : g ∈ gs
    · rw [h'.reset g again field' found' (kind ▸ valued), same]
    · rw [h'.others g again, h.reset g ((List.mem_append.1 mem).resolve_right again) field found valued]

end Resets

/-- Clearing a field. -/
theorem Secluded.exec_clearValue (h : s.Secluded) (configured : s.Configured)
    (found : s.panel.field? f = some field) :
    ∃ s', exec (PanelM.clearValue f) s = (.ok (), s') ∧ s.Resets [f] s' := by
  have writes := (Writes.permits.clearValue h (List.mem_singleton.2 rfl : f ∈ [f])).1
  have kept := Configured.outlasts.clearValue f s configured
  have messages := (Revalues.permits.clearValue h.custody (f := f) trivial).1.messages
  cases valued : field.kind.hasValue with
  | true =>
    obtain ⟨s', run, value⟩ := Scene.exec_clearValue h.custody configured found valued
    rw [run] at writes kept messages
    refine ⟨s', run, writes, kept, messages, fun g mem field' found' _ => ?_⟩
    obtain rfl := List.mem_singleton.1 mem
    cases found.symm.trans found'
    exact value
  | false =>
    have run : exec (PanelM.clearValue f) s = (.ok (), s) := by
      unfold PanelM.clearValue
      rw [exec_bind_ok (PanelM.exec_field found), valued]
      rfl
    rw [run] at writes kept messages
    refine ⟨s, run, writes, kept, messages, fun g mem field' found' has => ?_⟩
    obtain rfl := List.mem_singleton.1 mem
    cases found.symm.trans found'
    cases valued.symm.trans has

/-- **Steps that clear fields**, one for each member of a list, in a tree of fields that they leave alone. -/
theorem exec_forM_resets {t : FieldTable} {m : FieldId → PanelM Unit} (part : FieldId → List FieldId) :
    ∀ (cs : List FieldId) {s : Scene}, s.Secluded → s.Configured → s.panel.table.bare = t.bare →
      (∀ c ∈ cs, ∀ s : Scene, s.Secluded → s.Configured → s.panel.table.bare = t.bare →
        ∃ s', exec (m c) s = (.ok (), s') ∧ s.Resets (part c) s') →
      ∃ s', exec (cs.forM m) s = (.ok (), s') ∧ s.Resets (cs.flatMap part) s'
  | [], s, h, configured, _, _ => ⟨s, rfl, .refl h configured⟩
  | c :: cs, s, h, configured, same, each => by
    obtain ⟨s₁, first, here⟩ := each c List.mem_cons_self s h configured same
    obtain ⟨s₂, rest, later⟩ := exec_forM_resets part cs here.secluded here.configured (here.bare.trans same)
      fun c' mem => each c' (List.mem_cons_of_mem _ mem)
    refine ⟨s₂, ?_, ?_⟩
    · rw [exec_forM_cons, exec_bind_ok first, rest]
    · rw [List.flatMap_cons]
      exact here.trans later

/-- Clearing the fields of a list that are all there. -/
theorem Secluded.exec_forM_clearValue (h : s.Secluded) (configured : s.Configured)
    (known : ∀ c ∈ cs, (s.panel.field? c).isSome) :
    ∃ s', exec (cs.forM PanelM.clearValue) s = (.ok (), s') ∧ s.Resets cs s' := by
  obtain ⟨s', run, resets⟩ := exec_forM_resets (fun c => [c]) cs h configured rfl
    fun c mem s₁ secluded configured same => by
      have there : (s₁.panel.field? c).isSome := (FieldTable.isSome_field?_congr same c).trans (known c mem)
      obtain ⟨field, found⟩ := Option.isSome_iff_exists.1 there
      exact secluded.exec_clearValue configured found
  rw [List.flatMap_singleton'] at resets
  exact ⟨s', run, resets⟩

/-- **Clearing all fields.** -/
theorem Secluded.exec_clear (h : s.Secluded) (configured : s.Configured) :
    ∃ s', exec PanelM.clear s = (.ok (), s') ∧ s.Resets s.panel.table.ids s' := by
  refine h.exec_forM_clearValue configured fun c mem => ?_
  obtain ⟨field, found⟩ := h.custody.booked.mem_ids.1 mem
  exact Option.isSome_of_mem found

/-- A walk from a field does not fail. -/
theorem exec_subtree (booked : s.panel.table.Booked) (acyclic : s.panel.table.Acyclic)
    (found : s.panel.field? f = some field) : ∃ visited, exec (PanelM.subtree f) s = (.ok visited, s) ∧
      s.panel.table.subtree f = .ok visited ∧ s.panel.table.Visits f field visited := by
  obtain ⟨visited, run, visits⟩ := booked.visits_subtree acyclic found
  refine ⟨visited, ?_, run, visits⟩
  unfold PanelM.subtree
  rw [exec_bind_ok (exec_get s), run]
  rfl

/-- **Clearing the fields with a name**, alone or together with those below them. -/
theorem Secluded.exec_clearField (h : s.Secluded) (configured : s.Configured)
    (acyclic : s.panel.table.Acyclic) (name : String) (descendants : Bool) :
    ∃ s', exec (PanelM.clearField name descendants) s = (.ok (), s') ∧
      s.Resets (Request.reached s (.clearNamed name descendants)) s' := by
  have booked := h.custody.booked
  have known : ∀ c ∈ s.panel.table.named name, ∃ field, s.panel.field? c = some field := fun c mem => by
    obtain ⟨field, found, _⟩ := (booked.named name c).1 mem
    exact ⟨field, found⟩
  cases descendants with
  | false =>
    exact h.exec_forM_clearValue configured fun c mem => Option.isSome_of_mem (known c mem).choose_spec
  | true =>
    refine exec_forM_resets _ (s.panel.table.named name) h configured rfl
      fun c mem s₁ secluded configured same => ?_
    obtain ⟨field, found⟩ := known c mem
    obtain ⟨field₁, found₁, _⟩ := FieldTable.exists_field?_congr same.symm found
    -- the tree is the one that it was, so the walk visits what it would have visited at first
    have acyclic₁ := acyclic.of_parent? (FieldTable.parent?_congr same)
    obtain ⟨visited, run, walk, visits⟩ := exec_subtree secluded.custody.booked acyclic₁ found₁
    have there : ∀ g ∈ visited, (s₁.panel.field? g).isSome := fun g mem' => by
      rcases (visits.members g).1 mem' with rfl | above
      · exact Option.isSome_of_mem found₁
      · exact above.isSome
    obtain ⟨s₂, cleared, resets⟩ := secluded.exec_forM_clearValue configured there
    refine ⟨s₂, (exec_bind_ok run).trans cleared, ?_⟩
    rw [← FieldTable.subtree_congr same, walk]
    exact resets

end Scene

/-! ## Clear buttons -/

/-- A field is among those that a clear button is for: those with the name that it names, together with those
below them unless it says otherwise, or else all fields. -/
def FieldTable.Targets (t : FieldTable) (button : Field) (g : FieldId) : Prop :=
  match button.attr? Vocabulary.targetKey with
  | none => (t.field? g).isSome
  | some name => g ∈ t.named name ∨
      button.attributes.flag Vocabulary.childrenKey true = true ∧ ∃ f ∈ t.named name, t.Above f g

namespace Scene

variable {s s' : Scene} {f g : FieldId} {button : Field}

/-- Exactly the fields in a set that have values were cleared. -/
structure Clears (s : Scene) (targets : FieldId → Prop) (s' : Scene) : Prop where
  reset : ∀ {g field}, targets g → s.panel.field? g = some field → field.kind.hasValue = true →
    s'.value g = .ok (field.resetValue? s.panel.messages)
  kept : ∀ {g}, (targets g → ∀ field, s.panel.field? g = some field → field.kind.hasValue = false) →
    s'.value g = s.value g

/-- A field that has no value has none, whatever is done to the panel. -/
theorem Writes.value_valueless {fs : List FieldId} (h : s.Secluded) (writes : s.Writes fs s')
    (valueless : ∀ field, s.panel.field? g = some field → field.kind.hasValue = false) :
    s'.value g = s.value g := by
  rw [value_eq writes.secluded.custody.rests.forest, value_eq h.custody.rests.forest]
  cases found : s.panel.field? g with
  | none =>
    have absent : s'.panel.field? g = none := by
      have same : (s'.panel.field? g).isSome = _ := FieldTable.isSome_field?_congr writes.bare g
      have none : (s.panel.table.field? g).isSome = false := congrArg Option.isSome found
      rwa [none, Option.isSome_eq_false_iff, Option.isNone_iff_eq_none] at same
    rw [absent]
    rfl
  | some field =>
    obtain ⟨field', found', bare⟩ := FieldTable.exists_field?_congr writes.bare.symm found
    have kind : field'.kind = field.kind := (congrArg Field.kind bare.symm :)
    have there : s'.panel.field? g = some field' := found'
    rw [there, Option.elim_some, Option.elim_some]
    unfold reading
    rw [kind, valueless field found]
    rfl

theorem Resets.clears {fs : List FieldId} {targets : FieldId → Prop} (h : s.Secluded) (resets : s.Resets fs s')
    (members : ∀ g, g ∈ fs ↔ targets g) : s.Clears targets s' where
  reset target := resets.reset _ ((members _).2 target) _
  kept {g} spared := by
    by_cases target : targets g
    · exact resets.toWrites.value_valueless h (spared target)
    · exact resets.others g fun mem => target ((members g).1 mem)

/-- The fields that are reached when those with a name are cleared. -/
theorem mem_reached_clearNamed (booked : s.panel.table.Booked) (acyclic : s.panel.table.Acyclic)
    (name : String) (descendants : Bool) (g : FieldId) :
    g ∈ Request.reached s (.clearNamed name descendants) ↔ g ∈ s.panel.table.named name ∨
      descendants = true ∧ ∃ f ∈ s.panel.table.named name, s.panel.table.Above f g := by
  cases descendants with
  | false => simp [Request.reached]
  | true =>
    have below : ∀ f ∈ s.panel.table.named name,
        (g ∈ (s.panel.table.subtree f).toOption.getD [] ↔ g = f ∨ s.panel.table.Above f g) := by
      intro f mem
      obtain ⟨field, found, _⟩ := (booked.named name f).1 mem
      obtain ⟨visited, run, visits⟩ := booked.visits_subtree acyclic found
      rw [run]
      exact visits.members g
    simp only [Request.reached, List.mem_flatMap, true_and]
    constructor
    · rintro ⟨f, mem, visited⟩
      rcases (below f mem).1 visited with rfl | above
      · exact .inl mem
      · exact .inr ⟨f, mem, above⟩
    · rintro (mem | ⟨f, mem, above⟩)
      · exact ⟨g, mem, (below g mem).2 (.inl rfl)⟩
      · exact ⟨f, mem, (below f mem).2 (.inr above)⟩

/-- **Pressing a clear button** resets the fields with values that it is for, and no others. -/
theorem Secluded.exec_press_clear (h : s.Secluded) (configured : s.Configured)
    (acyclic : s.panel.table.Acyclic) (found : s.panel.field? f = some button)
    (kind : button.kind = .clear) :
    ∃ s', exec (PanelM.press f) s =
        (.ok ⟨true, (s.panel.clickListeners.get? button.name).getD []⟩, s') ∧
      s.Clears (s.panel.table.Targets button) s' := by
  have isButton : button.kind.isButton = true := by rw [kind]; rfl
  have booked := h.custody.booked
  unfold PanelM.press FieldTable.Targets
  rw [exec_bind_ok (PanelM.exec_field found), isButton, if_neg (by decide), exec_bind_ok (exec_get s)]
  dsimp only
  rw [kind]
  dsimp only
  cases button.attr? Vocabulary.targetKey with
  | some name =>
    obtain ⟨s', run, resets⟩ := h.exec_clearField configured acyclic name
      (button.attributes.flag Vocabulary.childrenKey true)
    exact ⟨s', exec_bind_ok run, resets.clears h (mem_reached_clearNamed booked acyclic name _)⟩
  | none =>
    obtain ⟨s', run, resets⟩ := h.exec_clear configured
    exact ⟨s', exec_bind_ok run, resets.clears h fun g => booked.mem_ids.trans Option.isSome_iff_exists.symm⟩

end Scene

end Formwork
