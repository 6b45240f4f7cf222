import Formwork.Proofs.Panel.Pictured

/-!
# Storing and reading by name

Fields may share a name.  A value that is stored by name gets to the first of them that takes it
(`Scene.taker?`), and what is read by name is the first value there is.  The two need not be the same field:
a control to check takes one value only, and has it while it is checked.

Whatever is stored or read, what is told of the panel and what its page shows follow from the values that
its fields took last (`Scene.Tracks`).
-/

namespace Formwork

set_option autoImplicit false

/-! ## What a field takes and has -/

theorem Field.takes_eq_false {f : Field} (none : f.kind.hasValue = false) (other : f.kind ≠ .disclosure)
    (label : Option String) (v : String) : f.takes label v = false := by
  unfold Field.takes
  cases is : f.kind <;> rw [is] at none other <;> first | rfl | exact absurd rfl other | cases none

theorem Widget.takes_eq_false {w : Widget} {kind : FieldKind} (is : kind ∈ w.kinds)
    (none : kind.hasValue = false) (other : kind ≠ .disclosure) (v : String) : w.takes v = false := by
  cases w <;> simp only [kinds, List.mem_cons, List.not_mem_nil, or_false] at is <;>
    rcases is with rfl | rfl | rfl | rfl | rfl <;>
    first | rfl | exact absurd rfl other | cases none

namespace Scene

variable {s s₀ : Scene} {σ : FieldId → Option String} {f g : FieldId} {field : Field} {v u : String}

/-- Whether a field accepts a value that is stored in it. -/
def accepts (s : Scene) (f : FieldId) (v : String) : Bool :=
  (exec (PanelM.setValue f (some v)) s).1 = .ok true

/-- The value of a field, if it has one. -/
def held? (s : Scene) (f : FieldId) : Option String := (s.value f).toOption.join

/-- The field that a value gets to which is stored by name. -/
def taker? (s : Scene) (name v : String) : Option FieldId :=
  (s.panel.table.named name).find? fun f => s.accepts f v

/-- What is told of a panel, and what its page shows, is what the values say that its fields took last. -/
structure Tracks (s₀ : Scene) (σ : FieldId → Option String) (s : Scene) : Prop
    extends Told s₀ σ s, Pictured s₀ σ s

/-- The values that fields took last, when one more gets to a field. -/
def keep (σ : FieldId → Option String) (taker : Option FieldId) (v : String) (f : FieldId) : Option String :=
  if taker = some f then some v else σ f

theorem keep_none (σ : FieldId → Option String) (v : String) : keep σ none v = σ :=
  funext fun _ => if_neg nofun

theorem keep_self (σ : FieldId → Option String) (f : FieldId) (v : String) : keep σ (some f) v f = some v :=
  if_pos rfl

theorem keep_of_ne (σ : FieldId → Option String) (v : String) (other : g ≠ f) :
    keep σ (some f) v g = σ g := if_neg fun same => other (Option.some.inj same).symm

/-- The value of a field, when it is told which one it took last. -/
def heldBy (s₀ : Scene) (σ : FieldId → Option String) (f : FieldId) : Option String :=
  (σ f).elim (s₀.held? f) (s₀.readBack? f)

namespace Tracks

theorem start (h : s.Secluded) : s.Tracks (fun _ => none) s := ⟨.start h, .start s⟩

theorem held? (h : s₀.Tracks σ s) (f : FieldId) : s.held? f = s₀.heldBy σ f := by
  unfold Scene.held? heldBy
  rw [h.value]
  cases σ f <;> rfl

theorem exists_field (h : s₀.Tracks σ s) (known : (s₀.panel.field? f).isSome) :
    ∃ field, s.panel.field? f = some field :=
  Option.isSome_iff_exists.1 ((FieldTable.isSome_field?_congr h.bare f).trans known)

theorem names (h : s₀.Tracks σ s) : s.panel.table.names = s₀.panel.table.names :=
  (congrArg FieldTable.names h.bare :)

theorem named (h : s₀.Tracks σ s) (name : String) :
    s.panel.table.named name = s₀.panel.table.named name := by
  unfold FieldTable.named
  rw [h.names]

theorem opens {s' : Scene} {w : Widget} (h₀ : s₀.Secluded) (h : s₀.Tracks σ s)
    (opens : s.Opens f field w s') : s₀.Tracks σ s' :=
  ⟨h.toTold.opens opens, h.toPictured.opens h.secluded.custody h₀.custody opens⟩

end Tracks

end Scene

namespace PanelM

open Scene (keep)

variable {s s₀ : Scene} {σ : FieldId → Option String} {f : FieldId} {field : Field} {v : String}

/-! ## Storing -/

/-- **Storing a value** in a field: it is taken or not, and if it is then it is the last one. -/
theorem exec_setValue_tracks (h₀ : s₀.Secluded) (h : s₀.Tracks σ s) (known : (s₀.panel.field? f).isSome)
    (v : String) : ∃ s', exec (setValue f (some v)) s = (.ok (s₀.takes f v), s') ∧
      s₀.Tracks (keep σ (if s₀.takes f v then some f else none) v) s' := by
  obtain ⟨field, found⟩ := h.exists_field known
  rw [← h.takes]
  by_cases closed : !field.kind.hasValue ∧ field.kind ≠ .disclosure
  · have refused : s.takes f v = false := by
      obtain ⟨none, other⟩ := closed
      rw [Bool.not_eq_true'] at none
      cases widget : field.widget with
      | some w =>
        have built : s.Built f field w := ⟨found, widget⟩
        rw [Scene.takes_built built]
        exact Widget.takes_eq_false (h.secluded.custody.kind built) none other v
      | none =>
        unfold Scene.takes
        rw [found, Option.elim_some, widget]
        exact Field.takes_eq_false none other _ v
    unfold setValue
    rw [exec_bind_ok (exec_field found), if_pos closed, refused]
    exact ⟨s, rfl, by rwa [if_neg Bool.false_ne_true, Scene.keep_none]⟩
  · obtain ⟨w, s₁, _, opens, run⟩ := Scene.exec_setValue_opens h.secluded.custody found closed v
    have h₁ := h.opens h₀ opens
    have custody := h₁.secluded.custody
    rw [run]
    refine ⟨_, rfl, ?_⟩
    cases taken : s.takes f v with
    | false =>
      rw [Widget.stored_of_refused ((opens.takes v).trans taken), if_neg Bool.false_ne_true, Scene.keep_none]
      exact h₁
    | true =>
      have takes := (opens.takes v).trans taken
      rw [if_pos rfl]
      exact ⟨h₁.toTold.stores opens.built takes (Scene.keep_self σ f v) fun g => Scene.keep_of_ne σ v,
        h₁.toPictured.stores custody h₀.custody opens.built takes (Scene.keep_self σ f v) fun g =>
          Scene.keep_of_ne σ v⟩

/-- A field accepts what it takes. -/
theorem accepts_eq_takes (h : s.Secluded) (f : FieldId) (v : String) : s.accepts f v = s.takes f v := by
  unfold Scene.accepts
  cases found : s.panel.field? f with
  | some field =>
    obtain ⟨s', run, _⟩ := exec_setValue_tracks h (.start h) (by rw [found]; rfl) v
    rw [run]
    cases s.takes f v <;> simp
  | none =>
    have missing : exec (setValue f (some v)) s = (.error (.unknownField f), s) := by
      rcases exec_field_cases f s with ⟨_, there, _⟩ | ⟨_, run⟩
      · cases there.symm.trans found
      · exact exec_bind_error run
    unfold Scene.takes
    rw [missing, found]
    simp

/-- **Offering a value** to some fields: it gets to the first that accepts it. -/
theorem exec_offer (h₀ : s₀.Secluded) (v : String) : ∀ (fs : List FieldId) {s : Scene}, s₀.Tracks σ s →
    (∀ f ∈ fs, (s₀.panel.field? f).isSome) →
    ∃ s', exec (offer (some v) fs) s = (.ok (fs.find? fun f => s₀.accepts f v).isSome, s') ∧
      s₀.Tracks (keep σ (fs.find? fun f => s₀.accepts f v) v) s'
  | [], s, h, _ => ⟨s, rfl, by rwa [List.find?_nil, Scene.keep_none]⟩
  | f :: fs, s, h, known => by
    obtain ⟨s₁, run, h₁⟩ := exec_setValue_tracks h₀ h (known f List.mem_cons_self) v
    unfold offer
    rw [exec_bind_ok run, List.find?_cons, accepts_eq_takes h₀]
    cases taken : s₀.takes f v with
    | true =>
      rw [taken, if_pos rfl] at h₁
      exact ⟨s₁, rfl, h₁⟩
    | false =>
      rw [taken, if_neg Bool.false_ne_true, Scene.keep_none] at h₁
      exact exec_offer h₀ v fs h₁ fun g mem => known g (List.mem_cons_of_mem _ mem)

theorem known_of_named (h : s.Secluded) (name : String) :
    ∀ f ∈ s.panel.table.named name, (s.panel.field? f).isSome := fun f mem => by
  obtain ⟨field, found, _⟩ := (h.custody.booked.named name f).1 mem
  exact Option.isSome_iff_exists.2 ⟨field, found⟩

/-- **Storing a value by name.** -/
theorem exec_setFieldValue (h₀ : s₀.Secluded) (h : s₀.Tracks σ s) (name v : String) :
    ∃ s', exec (setFieldValue name (some v)) s = (.ok (s₀.taker? name v).isSome, s') ∧
      s₀.Tracks (keep σ (s₀.taker? name v) v) s' := by
  have same : exec (setFieldValue name (some v)) s = exec (offer (some v) (s.panel.table.named name)) s := rfl
  rw [same, h.named name]
  exact exec_offer h₀ v (s₀.panel.table.named name) h (known_of_named h₀ name)

/-! ## Reading -/

/-- **Reading the value** of a field. -/
theorem exec_value?_tracks (h₀ : s₀.Secluded) (h : s₀.Tracks σ s) (known : (s₀.panel.field? f).isSome) :
    ∃ s', exec (value? f) s = (.ok (s₀.heldBy σ f), s') ∧ s₀.Tracks σ s' := by
  obtain ⟨field, found⟩ := h.exists_field known
  have answer := exec_value? h.secluded.custody.rests.forest f
  rw [found, Option.elim_some] at answer
  have held : s₀.heldBy σ f = s.reading field := by
    rw [← h.held?]
    unfold Scene.held? Scene.value
    rw [answer]
    rfl
  rw [held]
  refine ⟨_, Prod.ext answer rfl, ?_⟩
  unfold value?
  rw [exec_bind_ok (exec_field found)]
  split
  · exact h
  · obtain ⟨w, s', run, opens⟩ := Scene.exec_opens h.secluded.custody found
    rw [exec_bind_ok run]
    exact h.opens h₀ opens

/-- The first value among some fields. -/
theorem exec_firstValue? (h₀ : s₀.Secluded) : ∀ (fs : List FieldId) {s : Scene}, s₀.Tracks σ s →
    (∀ f ∈ fs, (s₀.panel.field? f).isSome) →
    ∃ s', exec (firstValue? fs) s = (.ok (fs.findSome? (s₀.heldBy σ)), s') ∧ s₀.Tracks σ s'
  | [], s, h, _ => ⟨s, rfl, h⟩
  | f :: fs, s, h, known => by
    obtain ⟨s₁, run, h₁⟩ := exec_value?_tracks h₀ h (known f List.mem_cons_self)
    unfold firstValue?
    rw [exec_bind_ok run, List.findSome?_cons]
    cases s₀.heldBy σ f with
    | some value => exact ⟨s₁, rfl, h₁⟩
    | none => exact exec_firstValue? h₀ fs h₁ fun g mem => known g (List.mem_cons_of_mem _ mem)

/-- **Reading by name.** -/
theorem exec_fieldValue? (h₀ : s₀.Secluded) (h : s₀.Tracks σ s) (name : String) :
    ∃ s', exec (fieldValue? name) s = (.ok ((s₀.panel.table.named name).findSome? (s₀.heldBy σ)), s') ∧
      s₀.Tracks σ s' := by
  have same : exec (fieldValue? name) s = exec (firstValue? (s.panel.table.named name)) s := rfl
  rw [same, h.named name]
  exact exec_firstValue? h₀ (s₀.panel.table.named name) h (known_of_named h₀ name)

/-! ## Reading what was stored -/

end PanelM

end Formwork
