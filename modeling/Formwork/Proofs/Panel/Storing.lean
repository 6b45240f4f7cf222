import Formwork.Proofs.Panel.Custody
import Formwork.Proofs.Widget.Writing

/-!
# Requests about values

Values are read, stored and reset by asking for widgets and writing into them, and nothing else is done.  So
what these two steps keep (`Permits`) is kept by every request about values (`Permits.after`).

A request reaches the fields in which it stores a value, or tries to, and those that it resets
(`Panel.Request.reached`).  Which fields a value gets to that is offered to all fields with a name depends
on which of them accepts it.
-/

namespace Formwork

set_option autoImplicit false

open Panel (Request)
open PanelM (Asks goes_field)

/-! ## What requests reach -/

/-- The fields that a value which is offered gets to: all up to the first that accepts it. -/
def PanelM.offered (value : Option String) : List FieldId → Scene → List FieldId
  | [], _ => []
  | f :: fs, s => f :: match exec (setValue f value) s with
    | (.ok false, s') => offered value fs s'
    | _ => []

namespace Panel.Request

/-- Whether a request is about values: they are read, stored or reset. -/
def handlesValues : Request → Bool
  | .read _ | .readNamed _ | .readAll _ | .store _ _ | .storeMany _ _ | .storeNamed _ _
  | .storeAll _ _ | .clearValue _ | .clearNamed _ _ | .clear => true
  | _ => false

/-- The fields in which a request stores a value, or tries to, and those that it resets. -/
def reached (s : Scene) : Request → List FieldId
  | .store f _ | .storeMany f _ | .clearValue f => [f]
  | .storeNamed name value => PanelM.offered value (s.panel.table.named name) s
  | .storeAll name _ | .clearNamed name false => s.panel.table.named name
  | .clearNamed name true =>
    (s.panel.table.named name).flatMap fun f => (s.panel.table.subtree f).toOption.getD []
  | .clear => s.panel.table.ids
  | _ => []

/-- A request that ignores what it is answered. -/
theorem after_of_goes {R : Scene → Scene → Prop} {inv : Scene → Prop} (u : Upholds R inv) {r : Request}
    {s : Scene} {α : Type} {m : PanelM α} {answers : α → Scene → Prop} (h : Goes R s m answers)
    (is : r.perform = do let _ ← m) : R s (r.after s) := by
  unfold after
  rw [is]
  exact (u.map h).1

end Panel.Request

/-! ## What reading and writing keep -/

/-- Building widgets, and writing into those of the fields in `into`, are steps that are related in some way, and
keep an invariant. -/
structure Permits (R : Scene → Scene → Prop) (inv : Scene → Prop) (into : FieldId → Prop) : Prop
    extends Upholds R inv where
  custody : ∀ {s}, inv s → s.Custody .empty False
  asks : ∀ {s s' f field w}, inv s → Asks .empty False s f field w s' → R s s'
  rewrites : ∀ {s f field w p}, inv s → into f → s.Built f field w → w.Rewrites s.page p →
    R s { s with page := p }

namespace Permits

variable {R : Scene → Scene → Prop} {inv : Scene → Prop} {into : FieldId → Prop} {s : Scene}
  {f : FieldId}

theorem widgetOf (h : Permits R inv into) (here : inv s) (f : FieldId) :
    Goes R s (PanelM.widgetOf f) fun w s' =>
      ∃ field, s.panel.field? f = some field ∧ s'.Built f { field with widget := some w } w :=
  PanelM.goes_asks (h.custody here) (h.refl here) f (h.asks here)

theorem value? (h : Permits R inv into) (here : inv s) (f : FieldId) :
    Goes R s (PanelM.value? f) fun _ _ => True := by
  refine .bind h.trans (goes_field (h.refl here) f) ?_
  rintro field s₁ _ ⟨rfl, _⟩
  split
  · exact .pure (h.refl here) trivial
  · exact .bind h.trans (h.widgetOf here f) fun _ _ step _ =>
      .get_bind (.pure (h.refl (h.holds step)) trivial)

/-- **Storing a value**: if it is accepted, and the field is of a kind that keeps values, it is the value of the
widget then. -/
theorem setValue (h : Permits R inv into) (here : inv s) (mem : into f) (value : Option String) :
    Goes R s (PanelM.setValue f value) fun accepted s' => accepted = true →
      ∀ v field, value = some v → s.panel.field? f = some field → field.kind.keepsValues = true →
        ∃ w, s'.Built f { field with widget := some w } w ∧ w.value? s'.page = some v := by
  refine .bind h.trans (goes_field (h.refl here) f) ?_
  rintro field s₁ _ ⟨rfl, found⟩
  split
  · exact .pure (h.refl here) fun accepted => by cases accepted
  · refine .get_bind (.bind h.trans (h.widgetOf here f) ?_)
    rintro w s₂ step ⟨field', found', built⟩
    cases found.symm.trans found'
    have custody := h.custody (h.holds step)
    rw [PanelM.onPage_eq_within]
    refine .within (Widget.goes_setValue custody.rests.forest
      (custody.own_element built) value _)
      (fun p page => h.rewrites (h.holds step) mem built page) ?_
    intro accepted p _ stored is v field' same found' keeps
    cases found.symm.trans found'
    exact ⟨w, ⟨built.found, rfl⟩, stored is v _ same (custody.kind built) keeps⟩

theorem clearValue (h : Permits R inv into) (here : inv s) (mem : into f) :
    Goes R s (PanelM.clearValue f) fun _ _ => True := by
  refine .bind h.trans (goes_field (h.refl here) f) ?_
  rintro field s₁ _ ⟨rfl, _⟩
  split
  · exact .pure (h.refl here) trivial
  · refine .bind h.trans (h.widgetOf here f) ?_
    rintro w s₂ step ⟨_, _, built⟩
    have custody := h.custody (h.holds step)
    exact .modify (h.rewrites (h.holds step) mem built (Widget.rewrites_resetValue custody.rests.forest
      (custody.own_element built) _)) trivial

/-! ### Several fields -/

theorem firstValue? (h : Permits R inv into) : ∀ (fs : List FieldId) {s : Scene}, inv s →
    Goes R s (PanelM.firstValue? fs) fun _ _ => True
  | [], _, here => .pure (h.refl here) trivial
  | f :: fs, _, here => by
    refine .bind h.trans (h.value? here f) fun value s₁ step _ => ?_
    cases value with
    | some value => exact .pure (h.refl (h.holds step)) trivial
    | none => exact h.firstValue? fs (h.holds step)

theorem fieldValues (h : Permits R inv into) (here : inv s) (name : String) :
    Goes R s (PanelM.fieldValues name) fun _ _ => True :=
  .get_bind (h.map (h.mapM here fun f _ _ here => h.map (h.value? here f)))

theorem offer (h : Permits R inv into) (value : Option String) : ∀ (fs : List FieldId) {s : Scene},
    inv s → (∀ f ∈ PanelM.offered value fs s, into f) →
    Goes R s (PanelM.offer value fs) fun _ _ => True
  | [], _, here, _ => .pure (h.refl here) trivial
  | f :: fs, _, here, all => by
    refine .bind h.trans (h.setValue here (all f List.mem_cons_self) value).known ?_
    rintro accepted s₁ step ⟨run, _⟩
    cases accepted with
    | true => exact .pure (h.refl (h.holds step)) trivial
    | false =>
      refine h.offer value fs (h.holds step) fun g mem => all g ?_
      rw [PanelM.offered, run]
      exact List.mem_cons_of_mem _ mem

theorem handOut (h : Permits R inv into) : ∀ (fs : List FieldId) (values : List String) {s : Scene},
    inv s → (∀ f ∈ fs, into f) → Goes R s (PanelM.handOut fs values) fun _ _ => True
  | [], _, _, here, _ => .pure (h.refl here) trivial
  | f :: fs, values, _, here, all =>
    .bind h.trans (h.map (h.setValue here (all f List.mem_cons_self) values.head?)) fun rest _ step _ =>
      h.handOut fs rest (h.holds step) fun g mem => all g (List.mem_cons_of_mem _ mem)

theorem clear (h : Permits R inv into) (here : inv s) (all : ∀ f ∈ s.panel.table.ids, into f) :
    Goes R s PanelM.clear fun _ _ => True :=
  .get_bind (h.forM here fun f mem _ here => h.clearValue here (all f mem))

theorem subtree (h : Permits R inv into) (here : inv s) (f : FieldId) :
    Goes R s (PanelM.subtree f) fun fs s' => s' = s ∧ s.panel.table.subtree f = .ok fs := by
  refine .get_bind ?_
  cases s.panel.table.subtree f with
  | ok fs => exact .pure (h.refl here) ⟨rfl, rfl⟩
  | error e => exact .throw (h.refl here) e

/-- Resetting the fields with a name, and what lies below them.  The walks begin in later scenes, in which the
tree of fields has to be the one that it was. -/
theorem clearField (h : Permits R inv into) (here : inv s) {name : String} {descendants : Bool}
    (all : ∀ f ∈ Request.reached s (.clearNamed name descendants), into f)
    (tree : ∀ s', R s s' → ∀ f, s'.panel.table.subtree f = s.panel.table.subtree f ∨ ∀ g, into g) :
    Goes R s (PanelM.clearField name descendants) fun _ _ => True := by
  refine .get_bind (.forM (fun step => h.refl (h.holds step)) h.trans (h.refl here)
    fun f mem s' step => ?_)
  cases descendants with
  | false => exact h.clearValue (h.holds step) (all f mem)
  | true =>
    refine .bind h.trans (h.subtree (h.holds step) f) ?_
    rintro fs _ _ ⟨rfl, listed⟩
    refine h.forM (h.holds step) fun g below _ here => h.clearValue here ?_
    rcases tree _ step f with same | anywhere
    · refine all g (List.mem_flatMap.2 ⟨f, mem, ?_⟩)
      rw [← same, listed]
      exact below
    · exact anywhere g

/-! ### Requests -/

/-- **Every request about values** is such a step. -/
theorem after (h : Permits R inv into) (here : inv s) {r : Request} (handles : r.handlesValues = true)
    (all : ∀ f ∈ r.reached s, into f)
    (tree : ∀ s', R s s' → ∀ f, s'.panel.table.subtree f = s.panel.table.subtree f ∨ ∀ g, into g) :
    R s (r.after s) := by
  have ignoring {α : Type} {m : PanelM α} {answers : α → Scene → Prop} (goes : Goes R s m answers)
      (is : r.perform = do let _ ← m) : R s (r.after s) := Request.after_of_goes h.toUpholds goes is
  cases r with
  | read f => exact ignoring (h.map (h.value? here f)) rfl
  | readNamed name => exact ignoring (.get_bind (h.firstValue? _ here)) rfl
  | readAll name => exact ignoring (h.fieldValues here name) rfl
  | store f value => exact ignoring (h.setValue here (all f List.mem_cons_self) value) rfl
  | storeMany f values =>
    exact ignoring (h.map (h.setValue here (all f List.mem_cons_self) values.head?)) rfl
  | storeNamed name value => exact ignoring (.get_bind (h.offer value _ here all)) rfl
  | storeAll name values => exact ignoring (.get_bind (h.handOut _ values here all)) rfl
  | clearValue f => exact (h.clearValue here (all f List.mem_cons_self)).1
  | clearNamed name descendants => exact (h.clearField here all tree).1
  | clear => exact (h.clear here all).1
  | _ => cases handles

end Permits

end Formwork
