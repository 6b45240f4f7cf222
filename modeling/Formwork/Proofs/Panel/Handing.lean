import Formwork.Proofs.Panel.Naming
import Formwork.Proofs.Widget.Holding

/-!
# Handing out values

Values that are handed out get to fields one by one: each field is offered the first of the values that
are left, or none, and that value is gone whether the field accepts it or not.

The state of a field is its value and what its widget holds (`Scene.state`).  What storing does to it is
known from the field as it was (`Scene.Secluded.exec_setValue_state`), and whatever is stored in other
fields leaves it alone (`Scene.Bypasses`).  So it does not matter that values were stored in other fields
before, or are stored in others later: a field ends in the state in which storing its own value alone
leaves it (`PanelM.exec_handOut`).
-/

namespace Formwork

set_option autoImplicit false

open Page (Alters)
open PanelM (Asks setValue widgetOf)

namespace Scene

variable {s s' s'' : Scene} {f g : FieldId} {field field' : Field} {w w' : Widget} {p : Page}

/-! ## The state of a field -/

/-- What the widget of a field holds, if it is there. -/
def holding? (s : Scene) (f : FieldId) : Option (List (Option String)) :=
  (s.panel.field? f).bind fun field => field.widget.map fun w => w.held s.page

/-- The state of a field: what is answered when its value is asked for, and what its widget holds. -/
def state (s : Scene) (f : FieldId) : Except FieldError (Option String) × Option (List (Option String)) :=
  (s.value f, s.holding? f)

theorem holding?_built (built : s.Built f field w) : s.holding? f = some (w.held s.page) := by
  unfold holding?
  rw [built.found, Option.bind_some, built.widget]
  rfl

theorem holding?_congr (same : s'.panel.field? g = s.panel.field? g)
    (held : ∀ field w, s.Built g field w → w.held s'.page = w.held s.page) :
    s'.holding? g = s.holding? g := by
  unfold holding?
  rw [same]
  cases found : s.panel.field? g with
  | none => rfl
  | some field =>
    rw [Option.bind_some, Option.bind_some]
    cases widget : field.widget with
    | none => rfl
    | some w => rw [Option.map_some, Option.map_some, held field w ⟨found, widget⟩]

/-- No widget lies below a node of a field that is filled when a value is stored.  This is so unless a
disclosure has a header. -/
def Calm (s : Scene) (f : FieldId) : Prop :=
  ∀ field w, s.Built f field w → ∀ n ∈ w.filled,
    ∀ g field' w', s.Built g field' w' → ∀ m ∈ w'.own, s.page.Within n m → m = n

theorem Secluded.calm (h : s.Secluded) (panes : ∀ field w, s.Built f field w → w.filled = w.panes) :
    s.Calm f := fun field w built n mem _ _ _ built' m own below =>
  h.sealed built built' n (by rwa [← panes field w built]) m own below

/-! ## What is done to other fields -/

/-- What leaves a field alone: it is what it was and has its value, and if no other widget lies in what it
holds, it holds what it held. -/
structure Bypasses (f : FieldId) (s s' : Scene) : Prop where
  secluded : s'.Secluded
  messages : s'.panel.messages = s.panel.messages
  field : s'.panel.field? f = s.panel.field? f
  value : s'.value f = s.value f
  holding : s.Calm f → s'.Calm f ∧ s'.holding? f = s.holding? f

namespace Bypasses

theorem refl (h : s.Secluded) (f : FieldId) : Bypasses f s s :=
  ⟨h, rfl, rfl, rfl, fun calm => ⟨calm, rfl⟩⟩

theorem trans (h : Bypasses f s s') (h' : Bypasses f s' s'') : Bypasses f s s'' where
  secluded := h'.secluded
  messages := h'.messages.trans h.messages
  field := h'.field.trans h.field
  value := h'.value.trans h.value
  holding calm := by
    obtain ⟨calm', same⟩ := h.holding calm
    obtain ⟨calm'', same'⟩ := h'.holding calm'
    exact ⟨calm'', same'.trans same⟩

theorem state (h : Bypasses f s s') (calm : s.Calm f) : s'.state f = s.state f := by
  unfold Scene.state
  rw [h.value, (h.holding calm).2]

end Bypasses

namespace Secluded

/-- **Asking for the widget** of another field, which may be built. -/
theorem bypasses_asks (h : s.Secluded) (asks : Asks .empty False s f field w s') (other : g ≠ f) :
    Bypasses g s s' := by
  have forest := h.custody.rests.forest
  have forest' := asks.leads.custody.rests.forest
  have same := asks.others other
  refine ⟨h.asks asks, asks.messages, same, h.custody.value_asks asks g, fun calm => ⟨?_, ?_⟩⟩
  · intro field₁ w₁ built n mem g' field₂ w₂ built' m own below
    have there : s.Built g field₁ w₁ := ⟨same ▸ built.found, built.widget⟩
    have known := h.custody.own_known there (Widget.filled_subset_own mem)
    have within := (asks.grows.shares forest known).within below
    rcases asks.built_cases built' with before | ⟨_, _, rfl, born⟩
    · exact calm field₁ w₁ there n mem g' field₂ w₂ before m own within
    · exact absurd (within.known forest known) (Nat.not_lt.2 (born.own m own).1)
  · refine holding?_congr same fun field₁ w₁ built => ?_
    have shares : ∀ n ∈ w₁.own, s.page.Shares s'.page n := fun n mem =>
      asks.grows.shares forest (h.custody.own_known built mem)
    exact Widget.held_congr forest forest' (fun n => h.custody.own_known built)
      (fun n mem => (shares n mem n .self).1) fun n mem => shares n (Widget.filled_subset_own mem)

/-- **Writing into the widget** of another field. -/
theorem bypasses_rewrites (h : s.Secluded) (built : s.Built f field w) (page : w.Rewrites s.page p)
    (other : g ≠ f) : Bypasses g s { s with page := p } := by
  have writes := h.rewrites built (List.mem_singleton.2 rfl : f ∈ [f]) page
  have alters := page.alters
  refine ⟨writes.secluded, rfl, rfl, writes.others g fun mem => other (List.mem_singleton.1 mem),
    fun calm => ⟨?_, ?_⟩⟩
  · intro field₁ w₁ built₁ n mem g' field₂ w₂ built₂ m own below
    have there : s.Built g' field₂ w₂ := built₂.congr rfl
    exact calm field₁ w₁ (built₁.congr rfl) n mem g' field₂ w₂ there m own
      (alters.within (h.custody.own_known there own) below)
  · refine holding?_congr rfl fun field₁ w₁ built₁ => ?_
    have apart : ∀ n ∈ w₁.own, n ∉ w.own := h.custody.apart built₁ built other
    have known : ∀ n ∈ w₁.own, n.index < s.page.size := fun n => h.custody.own_known built₁
    refine Widget.held_congr h.custody.rests.forest alters.forest known
      (fun n mem => alters.content n (known n mem) (apart n mem)) fun n mem => ?_
    have own := Widget.filled_subset_own mem
    refine alters.shares h.custody.rests.forest (known n own) fun m below mem' => ?_
    rw [calm field₁ w₁ built₁ n mem f field w built m mem' below] at mem'
    exact apart n own mem'

end Secluded

/-! ## What is done to the field itself -/

/-- The widget of a field but for its nodes, whether it is there or would be built. -/
def blank (s : Scene) (field : Field) : Widget :=
  field.widget.elim (field.blank (field.label? s.panel.messages)) Widget.blank

/-- What the widget of a field holds when a value, or none, was offered to it. -/
def heldThen (s : Scene) (f : FieldId) (field : Field) (value : Option String) : List (Option String) :=
  if (s.blank field).accepts value then
    (s.blank field).holding ((s.blank field).given value (field.label? s.panel.messages))
  else (s.holding? f).getD field.marks

/-- The state of a field when a value, or none, was stored in it. -/
def stateThen (s : Scene) (f : FieldId) (field : Field) (value : Option String) :
    Except FieldError (Option String) × Option (List (Option String)) :=
  if !field.kind.hasValue ∧ field.kind ≠ .disclosure then s.state f
  else (.ok (if field.kind.hasValue then (s.blank field).told (s.heldThen f field value) else none),
    some (s.heldThen f field value))

/-- Asking for the widget of a field: it is what was to be expected, and holds what was to be expected
unless it accepts everything. -/
theorem Custody.exec_widgetOf_blank (h : s.Custody .empty False) (found : s.panel.field? f = some field) :
    ∃ w s', exec (widgetOf f) s = (.ok w, s') ∧ Asks .empty False s f field w s' ∧
      w.blank = s.blank field ∧
      ∀ value, w.accepts value = false → w.held s'.page = (s.holding? f).getD field.marks := by
  obtain ⟨w, s', run, asks⟩ := PanelM.exec_widgetOf h found
  refine ⟨w, s', run, asks, ?_⟩
  unfold blank holding?
  rw [found, Option.bind_some]
  cases widget : field.widget with
  | some w' =>
    cases (PanelM.exec_widgetOf_built found widget).symm.trans run
    exact ⟨rfl, fun _ _ => rfl⟩
  | none =>
    obtain ⟨w', p, realized, same, marks⟩ := exec_realize_blank h.rests.forest field
    have built : exec (widgetOf f) s = (.ok w', s.withWidget field.id w' p) :=
      (PanelM.exec_widgetOf_unbuilt found widget).trans realized
    cases built.symm.trans run
    exact ⟨same, marks⟩

namespace Secluded

/-- A field that is no disclosure is calm. -/
theorem calm_of_kind (h : s.Secluded) (found : s.panel.field? f = some field)
    (other : field.kind ≠ .disclosure) : s.Calm f := by
  refine h.calm fun field' w built => Widget.filled_eq_panes fun mem => other ?_
  have kind := h.custody.kind built
  cases built.found.symm.trans found
  cases w with
  | disclosure => exact List.mem_singleton.1 kind
  | _ => simp [Widget.kinds] at mem

/-- **Storing a value**, or none: the state of the field follows from the field as it was, and all other
fields are left alone. -/
theorem exec_setValue_state (h : s.Secluded) (found : s.panel.field? f = some field)
    (value : Option String) : ∃ accepted s', exec (setValue f value) s = (.ok accepted, s') ∧
      s'.Secluded ∧ s'.Calm f ∧ s'.state f = s.stateThen f field value ∧
      ∀ g, g ≠ f → Bypasses g s s' := by
  unfold stateThen
  by_cases closed : !field.kind.hasValue ∧ field.kind ≠ .disclosure
  · refine ⟨false, s, ?_, h, h.calm_of_kind found closed.2, (if_pos closed).symm,
      fun g _ => .refl h g⟩
    unfold PanelM.setValue
    rw [exec_bind_ok (PanelM.exec_field found), if_pos closed]
    rfl
  obtain ⟨w, s₁, asked, asks, same, marks⟩ := h.custody.exec_widgetOf_blank found
  have h₁ := h.asks asks
  have custody := h₁.custody
  have own := custody.own_element asks.built
  obtain ⟨p, offered, offer⟩ := Widget.exec_setValue_offered custody.rests.forest own value
    (field.label? s.panel.messages)
  have rewrites := h₁.rewrites asks.built (List.mem_singleton.2 rfl : f ∈ [f]) offer.rewrites
  have built : ({ s₁ with page := p } : Scene).Built f { field with widget := some w } w :=
    asks.built.congr rfl
  obtain ⟨accepts, given, holding, told⟩ := w.offers_blank
  rw [same] at accepts given holding told
  have held : w.held p = s.heldThen f field value := by
    unfold heldThen
    rw [accepts, given, holding]
    split
    · case isTrue accepted => exact (offer.accepted accepted).held
    · case isFalse refused =>
      have refused := Bool.eq_false_of_not_eq_true refused
      rw [offer.refused refused, marks value refused]
  refine ⟨w.accepts value, { s₁ with page := p }, ?_, rewrites.secluded, ?_, ?_, fun g other =>
    (h.bypasses_asks asks other).trans (h₁.bypasses_rewrites asks.built offer.rewrites other)⟩
  · unfold PanelM.setValue
    rw [exec_bind_ok (PanelM.exec_field found), if_neg closed, exec_bind_ok (exec_get s),
      exec_bind_ok asked, PanelM.exec_onPage_ok offered]
  · cases accepted : w.accepts value with
    | true =>
      -- what was filled in is new, and all widgets were there before
      have stored := (offer.accepted accepted).stored
      intro field₁ w₁ built₁ n mem g field₂ w₂ built₂ m mem' below
      obtain ⟨-, rfl⟩ := built₁.unique built
      have there : s₁.Built g field₂ w₂ := built₂.congr rfl
      exact (stored.alters.new_of_within (stored.new n mem) below).resolve_right
        (Nat.not_le.2 (custody.own_known there mem'))
    | false =>
      refine rewrites.secluded.calm fun field₁ w₁ built₁ => ?_
      obtain ⟨-, rfl⟩ := built₁.unique built
      exact Widget.filled_eq_panes (Widget.not_mem_kinds_of_refused accepted)
  · rw [if_neg closed]
    unfold state
    rw [holding?_built built, value_eq rewrites.secluded.custody.rests.forest, built.found,
      Option.elim_some, told, ← held, ← w.value?_eq_told]
    rfl

/-- What storing a value leaves of a field is not changed by what left the field alone before. -/
theorem stateThen_bypassed (h : s.Secluded) (bypassed : Bypasses f s s') (found : s.panel.field? f = some field)
    (value : Option String) : s'.stateThen f field value = s.stateThen f field value := by
  have same : s'.blank field = s.blank field := by
    unfold blank
    rw [bypassed.messages]
  have held : s'.heldThen f field value = s.heldThen f field value := by
    unfold heldThen
    rw [same, bypassed.messages]
    split
    · rfl
    · case isFalse refused =>
      -- a widget that may refuse is no disclosure
      have calm : s.Calm f := h.calm fun field' w built => by
        obtain rfl := Option.some.inj (built.found.symm.trans found)
        have is : s.blank field' = w.blank := by
          unfold blank
          rw [built.widget, Option.elim_some]
        rw [is, w.offers_blank.1] at refused
        exact Widget.filled_eq_panes (Widget.not_mem_kinds_of_refused (Bool.eq_false_of_not_eq_true refused))
      rw [(bypassed.holding calm).2]
  unfold stateThen
  rw [same, held]
  by_cases closed : !field.kind.hasValue ∧ field.kind ≠ .disclosure
  · rw [if_pos closed, if_pos closed, bypassed.state (h.calm_of_kind found closed.2)]
  · rw [if_neg closed, if_neg closed]

/-- **Storing a value behind others**: what left a field alone does not change the state in which storing a
value leaves it. -/
theorem state_setValue_bypassed (h : s.Secluded) (bypassed : Bypasses f s s')
    (known : (s.panel.field? f).isSome) (value : Option String) :
    (exec (setValue f value) s').2.state f = (exec (setValue f value) s).2.state f := by
  obtain ⟨field, found⟩ := Option.isSome_iff_exists.1 known
  obtain ⟨_, _, run, _, _, state, _⟩ := h.exec_setValue_state found value
  obtain ⟨_, _, run', _, _, state', _⟩ :=
    bypassed.secluded.exec_setValue_state (bypassed.field.trans found) value
  rw [run, run', state, state', h.stateThen_bypassed bypassed found]

end Secluded

/-! ## One field after the other -/

/-- What handing out values comes to: each field is in the state in which storing its own value, or none
when there is none left for it, would leave it, and all other fields are left alone. -/
structure Hands (fs : List FieldId) (values : List String) (s s' : Scene) : Prop where
  state : ∀ (i : Nat) (f : FieldId), fs[i]? = some f →
    s'.state f = (exec (setValue f values[i]?) s).2.state f
  others : ∀ g, g ∉ fs → Bypasses g s s'

end Scene

namespace PanelM

open Scene (Bypasses Hands)

/-- **Handing out values** to fields that are distinct. -/
theorem exec_handOut : ∀ (fs : List FieldId) (values : List String) {s : Scene}, s.Secluded → fs.Nodup →
    (∀ f ∈ fs, (s.panel.field? f).isSome) →
    ∃ s', exec (handOut fs values) s = (.ok (values.drop fs.length), s') ∧ Hands fs values s s'
  | [], values, s, h, _, _ => ⟨s, rfl, nofun, fun g _ => .refl h g⟩
  | f :: fs, values, s, h, distinct, known => by
    obtain ⟨apart, distinct⟩ := List.nodup_cons.1 distinct
    obtain ⟨field, found⟩ := Option.isSome_iff_exists.1 (known f List.mem_cons_self)
    obtain ⟨accepted, s₁, first, h₁, calm, _, bypassed⟩ := h.exec_setValue_state found values.head?
    have before : ∀ g ∈ fs, Bypasses g s s₁ := fun g mem => bypassed g fun same => apart (same ▸ mem)
    have known' : ∀ g ∈ fs, (s₁.panel.field? g).isSome := fun g mem => by
      rw [(before g mem).field]
      exact known g (List.mem_cons_of_mem f mem)
    obtain ⟨s', others, hands⟩ := exec_handOut fs values.tail h₁ distinct known'
    refine ⟨s', ?_, ?_, fun g mem => ?_⟩
    · have stored : exec (setValues f values) s = (.ok values.tail, s₁) := exec_bind_ok first
      unfold handOut
      rw [exec_bind_ok stored, others, List.drop_tail, List.length_cons]
    · rintro (_ | i) g at_
      · obtain rfl := Option.some.inj at_
        rw [(hands.others f apart).state calm, ← List.head?_eq_getElem?, first]
      · rw [List.getElem?_cons_succ] at at_
        have mem := List.mem_of_getElem? at_
        rw [hands.state i g at_, List.getElem?_tail,
          h.state_setValue_bypassed (before g mem) (known g (List.mem_cons_of_mem f mem))]
    · obtain ⟨other, apart'⟩ := not_or.1 (mt List.mem_cons.2 mem)
      exact (bypassed g other).trans (hands.others g apart')

/-- **Handing out values by name.** -/
theorem exec_setFieldValues {s : Scene} (h : s.Secluded) (name : String) (values : List String) :
    ∃ s', exec (setFieldValues name values) s =
        (.ok (values.drop (s.panel.table.named name).length), s') ∧
      Hands (s.panel.table.named name) values s s' :=
  exec_handOut (s.panel.table.named name) values h (h.custody.booked.ascending name).nodup
    (known_of_named h name)

/-! ## Reading all values -/

variable {s s₀ : Scene} {σ : FieldId → Option String}

/-- The values of some fields. -/
theorem exec_mapM_values (h₀ : s₀.Secluded) : ∀ (fs : List FieldId) {s : Scene}, s₀.Tracks σ s →
    (∀ f ∈ fs, (s₀.panel.field? f).isSome) →
    ∃ s', exec (fs.mapM values) s = (.ok (fs.map fun f => (s₀.heldBy σ f).toList), s')
  | [], s, h, _ => ⟨s, rfl⟩
  | f :: fs, s, h, known => by
    obtain ⟨s₁, read, h₁⟩ := exec_value?_tracks h₀ h (known f List.mem_cons_self)
    have first : exec (values f) s = (.ok (s₀.heldBy σ f).toList, s₁) := exec_bind_ok read
    obtain ⟨s', others⟩ := exec_mapM_values h₀ fs h₁ fun g mem => known g (List.mem_cons_of_mem _ mem)
    refine ⟨s', ?_⟩
    rw [List.mapM_cons, exec_bind_ok first, exec_bind_ok others]
    rfl

/-- **Reading all values by name.** -/
theorem exec_fieldValues (h : s.Secluded) (name : String) :
    (exec (fieldValues name) s).1 = .ok ((s.panel.table.named name).filterMap s.held?) := by
  obtain ⟨s', read⟩ := exec_mapM_values h (s.panel.table.named name) (.start h) (known_of_named h name)
  have same : exec (fieldValues name) s = exec (((s.panel.table.named name).mapM values >>= fun lists =>
    pure lists.flatten : PanelM (List String))) s := rfl
  rw [same, exec_bind_ok read, exec_pure, ← List.flatMap_def, ← List.filterMap_eq_flatMap_toList]
  rfl

/-- The first value by name is the first of all values by name. -/
theorem exec_fieldValue?_head (h : s.Secluded) (name : String) :
    (exec (fieldValue? name) s).1 =
      .ok ((s.panel.table.named name).filterMap s.held?).head? := by
  obtain ⟨s', read, _⟩ := exec_fieldValue? h (.start h) name
  rw [read, List.head?_filterMap]
  rfl

end PanelM

end Formwork
