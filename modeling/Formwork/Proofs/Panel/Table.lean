import Mathlib.Tactic.ByContra
import Formwork.Field.Table

/-!
# Laws of field tables

What a table shows after a field was added, changed in place or linked below another, and what
remains when the widgets are left out (`FieldTable.bare`).  A table without widgets is the list of
its fields in the order of creation, so a table that is assembled can be written down: it grows by
`FieldTable.add`, and changing an older field commutes with adding newer ones.
-/

namespace Formwork

set_option autoImplicit false

/-- A field without its widget. -/
def Field.bare (f : Field) : Field := { f with widget := none }

namespace FieldTable

variable {t : FieldTable} {f g : FieldId}

theorem ext {t u : FieldTable} (slots : t.slots = u.slots) (names : t.names = u.names) : t = u := by
  cases t
  cases u
  cases slots
  cases names
  rfl

/-! ## Changing a field in place -/

theorem field?_update (t : FieldTable) (f g : FieldId) (change : Field → Field) :
    (t.update f change).field? g = if g = f then (t.field? f).map change else t.field? g := by
  unfold field? update
  rw [Array.getElem?_modify]
  by_cases same : f.index = g.index
  · rw [if_pos same, if_pos (by cases f; cases g; exact congrArg _ same.symm), ← same]
    cases t.slots[f.index]? with
    | none => rfl
    | some slot => cases slot <;> rfl
  · rw [if_neg same, if_neg fun h => same (by rw [h])]

theorem field?_update_self (t : FieldTable) (f : FieldId) (change : Field → Field) :
    (t.update f change).field? f = (t.field? f).map change := by rw [field?_update, if_pos rfl]

theorem field?_update_of_ne (t : FieldTable) (change : Field → Field) (h : g ≠ f) :
    (t.update f change).field? g = t.field? g := by rw [field?_update, if_neg h]

@[simp]
theorem size_slots_update (t : FieldTable) (f : FieldId) (change : Field → Field) :
    (t.update f change).slots.size = t.slots.size := Array.size_modify

@[simp]
theorem names_update (t : FieldTable) (f : FieldId) (change : Field → Field) :
    (t.update f change).names = t.names := rfl

theorem lt_size_of_field? {field : Field} (h : t.field? f = some field) :
    f.index < t.slots.size := by
  by_contra large
  unfold field? at h
  rw [Array.getElem?_eq_none (Nat.le_of_not_lt large)] at h
  cases h

theorem update_update (t : FieldTable) (f : FieldId) (first second : Field → Field) :
    (t.update f first).update f second = t.update f (second ∘ first) := by
  refine ext ?_ rfl
  unfold update
  refine Array.ext_getElem? fun i => ?_
  simp only [Array.getElem?_modify]
  split
  · cases t.slots[i]? with
    | none => rfl
    | some slot => cases slot <;> rfl
  · rfl

theorem update_id (t : FieldTable) (f : FieldId) : t.update f id = t := by
  refine ext ?_ rfl
  unfold update
  refine Array.ext_getElem? fun i => ?_
  rw [Array.getElem?_modify]
  split
  · cases t.slots[i]? with
    | none => rfl
    | some slot => cases slot <;> rfl
  · rfl

/-! ## Adding a field -/

/-- Add a field to a table; its number must be the next. -/
def add (t : FieldTable) (field : Field) : FieldTable :=
  ⟨t.slots.push (some field), t.names.insert field.name (t.named field.name ++ [field.id])⟩

@[simp]
theorem size_slots_add (t : FieldTable) (field : Field) :
    (t.add field).slots.size = t.slots.size + 1 := Array.size_push _

theorem field?_add (t : FieldTable) (field : Field) (f : FieldId) :
    (t.add field).field? f = if f = ⟨t.slots.size⟩ then some field else t.field? f := by
  unfold field? add
  by_cases same : f = ⟨t.slots.size⟩
  · subst same
    rw [if_pos rfl, Array.getElem?_push_size]
    rfl
  · rw [if_neg same, Array.getElem?_push, if_neg]
    intro equal
    exact same (by cases f; exact congrArg _ equal)

/-! ## Linking -/

/-- A field without a parent is linked by changing its parent and itself. -/
theorem link_eq {parent child : FieldId} {field : Field} (found : t.field? child = some field)
    (free : field.parent = none) (role : Role) :
    t.link parent child role =
      (t.update parent fun field => field.addChild role child).update child fun field =>
        { field with parent := some parent } := by
  have unlinked : t.unlink child = t := by
    unfold unlink
    rw [found, Option.bind_some, free]
  rw [link, unlinked]

/-- A link changes no names. -/
theorem names_link (t : FieldTable) {parent child : FieldId} {field : Field}
    (found : t.field? child = some field) (free : field.parent = none) (role : Role) :
    (t.link parent child role).names = t.names := by
  rw [link_eq found free, names_update, names_update]

/-! ## Leaving the widgets out -/

/-- A table without widgets. -/
def bare (t : FieldTable) : FieldTable :=
  { t with slots := t.slots.map (Option.map Field.bare) }

theorem field?_bare (t : FieldTable) (f : FieldId) :
    t.bare.field? f = (t.field? f).map Field.bare := by
  unfold field? bare
  rw [Array.getElem?_map]
  cases t.slots[f.index]? with
  | none => rfl
  | some slot => cases slot <;> rfl

@[simp]
theorem size_slots_bare (t : FieldTable) : t.bare.slots.size = t.slots.size := Array.size_map

theorem bare_empty : FieldTable.empty.bare = .empty := ext Array.map_empty rfl

theorem bare_update (t : FieldTable) (f : FieldId) {change change' : Field → Field}
    (commutes : ∀ field, (change field).bare = change' field.bare) :
    (t.update f change).bare = t.bare.update f change' := by
  refine ext ?_ rfl
  unfold update bare
  refine Array.ext_getElem? fun i => ?_
  simp only [Array.getElem?_modify, Array.getElem?_map]
  split
  · cases t.slots[i]? with
    | none => rfl
    | some slot =>
      cases slot with
      | none => rfl
      | some field => exact congrArg (fun x => some (some x)) (commutes field)
  · rfl

/-- Changing the widget of a field is not seen when widgets are left out. -/
theorem bare_update_widget (t : FieldTable) (f : FieldId) (w : Option Widget) :
    (t.update f fun field => { field with widget := w }).bare = t.bare := by
  have same : ∀ field : Field, ({ field with widget := w } : Field).bare = id field.bare :=
    fun _ => rfl
  rw [bare_update t f same, update_id]

/-- Linking is not affected by widgets. -/
theorem bare_link {t : FieldTable} {parent child : FieldId} {field : Field}
    (found : t.field? child = some field) (free : field.parent = none) (role : Role) :
    (t.link parent child role).bare = t.bare.link parent child role := by
  have found' : t.bare.field? child = some field.bare := by rw [field?_bare, found]; rfl
  rw [link_eq found free, link_eq found' free]
  have inner : (t.update parent fun f => f.addChild role child).bare =
      t.bare.update parent fun f => f.addChild role child := by
    refine bare_update t parent fun f => ?_
    cases role <;> rfl
  rw [← inner]
  exact bare_update _ child fun _ => rfl

theorem bare_add (t : FieldTable) (field : Field) : (t.add field).bare = t.bare.add field.bare := by
  refine ext ?_ rfl
  unfold bare add
  exact Array.map_push

end FieldTable

end Formwork
