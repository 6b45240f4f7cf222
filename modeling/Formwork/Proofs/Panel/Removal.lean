import Mathlib.Data.List.Perm.Subperm
import Formwork.Proofs.Panel.Booking

/-!
# Removing a field with everything below it

Removal empties the slot of a field and goes on with what the field listed.  What it has removed so far
(`FieldTable.Cleared`) tells the rest of the table: the fields that are left are what they were, and the
index lists what it listed but for the removed fields.

A walk never empties a slot twice, so it takes at most as many levels as there are slots, whatever the
lists say.  In a table in order nothing is left below a removed field, and the books are kept
(`Booked.remove`).
-/

namespace Formwork

set_option autoImplicit false

namespace FieldTable

variable {t u v : FieldTable} {gone : List Field} {f g c : FieldId} {field : Field}

/-- A table from which some fields were removed. -/
structure Cleared (t : FieldTable) (gone : List Field) (u : FieldTable) : Prop where
  /-- The removed fields were there. -/
  there : ∀ field ∈ gone, t.field? field.id = some field
  /-- No field was removed twice. -/
  distinct : (gone.map Field.id).Nodup
  /-- The other fields are what they were. -/
  field? : ∀ g, u.field? g = if g ∈ gone.map Field.id then none else t.field? g
  /-- The index lists the other fields as it did. -/
  named : ∀ name, u.named name = (t.named name).filter (· ∉ gone.map Field.id)
  /-- A name without fields is not listed. -/
  used : ∀ name, u.names.get? name ≠ some []
  /-- Slots stay. -/
  size : u.slots.size = t.slots.size

/-- There are at most as many fields as slots. -/
theorem length_le_size {fs : List FieldId} (distinct : fs.Nodup)
    (known : ∀ f ∈ fs, (t.field? f).isSome) : fs.length ≤ t.slots.size := by
  have within : fs.map FieldId.index ⊆ List.range t.slots.size := by
    intro i mem
    obtain ⟨f, listed, rfl⟩ := List.mem_map.1 mem
    obtain ⟨_, found⟩ := Option.isSome_iff_exists.1 (known f listed)
    exact List.mem_range.2 (lt_size_of_field? found)
  have injective : Function.Injective FieldId.index := by
    rintro ⟨i⟩ ⟨j⟩ same
    exact congrArg FieldId.mk same
  have few := (List.subperm_of_subset (distinct.map injective) within).length_le
  rwa [List.length_map, List.length_range] at few

/-! ## Emptying one slot -/

theorem field?_drop (u : FieldTable) (field : Field) (g : FieldId) :
    (u.drop field).field? g = if g = field.id then none else u.field? g := by
  unfold drop FieldTable.field?
  rw [Array.getElem?_modify]
  by_cases same : field.id.index = g.index
  · rw [if_pos same, if_pos (by cases g; exact (congrArg FieldId.mk same).symm), ← same]
    cases u.slots[field.id.index]? <;> rfl
  · rw [if_neg same, if_neg fun h => same (by rw [h])]

theorem get?_names_drop (u : FieldTable) (field : Field) (name : String) :
    (u.drop field).names.get? name =
      if field.name = name then
        if (u.named name).filter (· ≠ field.id) = [] then none
        else some ((u.named name).filter (· ≠ field.id))
      else u.names.get? name := by
  unfold drop
  dsimp only
  split
  · case isTrue none =>
    rw [OrderedMap.get?_erase]
    by_cases same : field.name = name
    · subst same
      rw [if_pos rfl, if_pos rfl, if_pos (List.isEmpty_iff.1 none)]
    · rw [if_neg same, if_neg same]
  · case isFalse some =>
    rw [OrderedMap.get?_insert]
    by_cases same : field.name = name
    · subst same
      rw [if_pos rfl, if_pos rfl, if_neg fun empty => some (List.isEmpty_iff.2 empty)]
    · rw [if_neg same, if_neg same]

theorem named_drop (u : FieldTable) (field : Field) (name : String) :
    (u.drop field).named name =
      if field.name = name then (u.named name).filter (· ≠ field.id) else u.named name := by
  unfold named
  rw [get?_names_drop]
  by_cases same : field.name = name
  · rw [if_pos same, if_pos same]
    split
    · case isTrue none => rw [← named, none]; rfl
    · rfl
  · rw [if_neg same, if_neg same]

namespace Cleared

theorem refl (h : t.Booked) : Cleared t [] t where
  there _ mem := absurd mem List.not_mem_nil
  distinct := List.nodup_nil
  field? _ := rfl
  named _ := (List.filter_eq_self.2 fun _ _ => rfl).symm
  used := h.used
  size := rfl

/-- What is there was not removed, and is what it was. -/
theorem found (h : Cleared t gone u) (found : u.field? f = some field) :
    f ∉ gone.map Field.id ∧ t.field? f = some field := by
  rw [h.field?] at found
  split at found
  · cases found
  · case isFalse left => exact ⟨left, found⟩

/-- What is no longer there stays away. -/
theorem absent {more : List Field} (h : Cleared t gone u) (later : Cleared t (gone ++ more) v)
    (absent : u.field? f = none) : v.field? f = none := by
  rw [h.field?] at absent
  rw [later.field?, List.map_append]
  split
  · rfl
  · case isFalse left =>
    rw [List.mem_append, not_or] at left
    rwa [if_neg left.1] at absent

/-- **One more field** is removed. -/
theorem drop (booked : t.Booked) (h : Cleared t gone u) (there : u.field? f = some field) :
    Cleared t (gone ++ [field]) (u.drop field) := by
  obtain ⟨left, known⟩ := h.found there
  obtain rfl := booked.ids known
  refine ⟨fun x mem => ?_, ?_, fun g => ?_, fun name => ?_, fun name => ?_, ?_⟩
  · rcases List.mem_append.1 mem with old | new
    · exact h.there x old
    · rw [List.mem_singleton.1 new]
      exact known
  · rw [List.map_append]
    exact List.nodup_append'.2 ⟨h.distinct, List.nodup_singleton _, by simpa using left⟩
  · rw [field?_drop, h.field?]
    by_cases same : g = field.id
    · simp [same]
    · simp [same]
  · rw [named_drop]
    have names : (t.named name).filter (· ∉ (gone ++ [field]).map Field.id) =
        (u.named name).filter (· ≠ field.id) := by
      rw [h.named, List.filter_filter]
      refine List.filter_congr fun g _ => ?_
      rw [List.map_append, ← Bool.decide_and]
      refine decide_eq_decide.2 ?_
      rw [List.mem_append, not_or, and_comm]
      simp
    rw [names]
    split
    · rfl
    · case isFalse other =>
      refine (List.filter_eq_self.2 fun g mem => decide_eq_true ?_).symm
      rintro rfl
      rw [h.named] at mem
      obtain ⟨x, found, name⟩ := (booked.named name _).1 (List.mem_of_mem_filter mem)
      cases known.symm.trans found
      exact other name
  · rw [get?_names_drop]
    split
    · split
      · simp
      · case isFalse some => simpa using some
    · exact h.used name
  · exact Array.size_modify.trans h.size

/-- Where so many fields were removed, none is left. -/
theorem full (h : Cleared t gone u) (all : t.slots.size ≤ gone.length) (f : FieldId) :
    u.field? f = none := by
  cases there : u.field? f with
  | none => rfl
  | some field =>
    exfalso
    obtain ⟨left, known⟩ := h.found there
    have few := length_le_size (t := t) (List.nodup_cons.2 ⟨left, h.distinct⟩) (by
      intro g mem
      rcases List.mem_cons.1 mem with rfl | mem
      · exact Option.isSome_of_mem known
      · obtain ⟨x, removed, rfl⟩ := List.mem_map.1 mem
        exact Option.isSome_of_mem (h.there x removed))
    rw [List.length_cons, List.length_map] at few
    omega

end Cleared

/-! ## The walk -/

/-- What a walk from some fields removes: the fields are no longer there, nor is anything that a removed
field listed, and every removed field is one of those fields or was listed by a removed field. -/
structure Emptied (u : FieldTable) (starts : List FieldId) (gone : List Field) : Prop where
  roots : ∀ f ∈ starts, u.field? f = none
  below : ∀ x ∈ gone, ∀ c ∈ x.contents, u.field? c = none
  reached : ∀ x ∈ gone, x.id ∈ starts ∨ ∃ y ∈ gone, x.id ∈ y.contents

/-- A walk from fields that are not there removes nothing. -/
theorem Emptied.of_absent {starts : List FieldId} (absent : ∀ f ∈ starts, u.field? f = none) :
    u.Emptied starts [] where
  roots := absent
  below _ mem := absurd mem List.not_mem_nil
  reached _ mem := absurd mem List.not_mem_nil

/-- A walk that does what it should removes what lies below one field of a list after the other. -/
theorem Cleared.removeEach {levels : Nat}
    {walk : FieldTable → FieldId → List Field × FieldTable}
    (step : ∀ {gone : List Field} {u : FieldTable} (f : FieldId),
      Cleared t gone u → t.slots.size ≤ levels + gone.length →
      Cleared t (gone ++ (walk u f).1) (walk u f).2 ∧ (walk u f).2.Emptied [f] (walk u f).1) :
    ∀ (cs : List FieldId) {removed : List Field} {u : FieldTable},
      t.slots.size ≤ levels + (gone ++ removed).length → Cleared t (gone ++ removed) u →
      ∃ more v, cs.foldl (fun (removed, t) child =>
          let (below, t) := walk t child
          (removed ++ below, t)) (removed, u) = (removed ++ more, v) ∧
        Cleared t (gone ++ (removed ++ more)) v ∧ v.Emptied cs more
  | [], removed, u, _, cleared => by
    refine ⟨[], u, by rw [List.append_nil]; rfl, by rwa [List.append_nil], ?_⟩
    exact .of_absent fun _ mem => absurd mem List.not_mem_nil
  | c :: cs, removed, u, enough, cleared => by
    obtain ⟨first, emptied⟩ := step c cleared enough
    rw [List.append_assoc] at first
    obtain ⟨more, v, run, rest, later⟩ := removeEach step cs (by
      rw [List.length_append, List.length_append]
      rw [List.length_append] at enough
      omega) first
    have stays : ∀ g, (walk u c).2.field? g = none → v.field? g = none := by
      intro g away
      have both : Cleared t (gone ++ (removed ++ (walk u c).1) ++ more) v := by
        rwa [List.append_assoc]
      exact first.absent both away
    refine ⟨(walk u c).1 ++ more, v, ?_, ?_, ?_, ?_, ?_⟩
    · rw [← List.append_assoc]
      exact run
    · rwa [← List.append_assoc removed]
    · intro g mem
      rcases List.mem_cons.1 mem with rfl | mem
      · exact stays _ (emptied.roots _ List.mem_cons_self)
      · exact later.roots g mem
    · intro x mem g listed
      rcases List.mem_append.1 mem with mem | mem
      · exact stays _ (emptied.below x mem g listed)
      · exact later.below x mem g listed
    · intro x mem
      rcases List.mem_append.1 mem with mem | mem
      · rcases emptied.reached x mem with start | ⟨y, mem', listed⟩
        · exact .inl (List.mem_cons.2 (.inl (List.mem_singleton.1 start)))
        · exact .inr ⟨y, List.mem_append_left _ mem', listed⟩
      · rcases later.reached x mem with start | ⟨y, mem', listed⟩
        · exact .inl (List.mem_cons_of_mem _ start)
        · exact .inr ⟨y, List.mem_append_right _ mem', listed⟩

/-- **A walk removes** what it starts at and everything below. -/
theorem Cleared.removeUpTo (booked : t.Booked) : ∀ (levels : Nat) {gone : List Field}
    {u : FieldTable} (f : FieldId), Cleared t gone u → t.slots.size ≤ levels + gone.length →
      Cleared t (gone ++ (removeUpTo levels u f).1) (removeUpTo levels u f).2 ∧
        (removeUpTo levels u f).2.Emptied [f] (removeUpTo levels u f).1
  | 0, gone, u, f, h, enough => by
    rw [FieldTable.removeUpTo, List.append_nil]
    exact ⟨h, .of_absent fun g _ => h.full (by omega) g⟩
  | levels + 1, gone, u, f, h, enough => by
    rw [FieldTable.removeUpTo]
    cases there : u.field? f with
    | none =>
      dsimp only
      rw [List.append_nil]
      refine ⟨h, .of_absent fun g mem => ?_⟩
      rw [List.mem_singleton.1 mem]
      exact there
    | some field =>
      obtain ⟨more, v, run, cleared, emptied⟩ := Cleared.removeEach (Cleared.removeUpTo booked levels)
        field.contents (by
          rw [List.length_append, List.length_singleton]
          omega) (h.drop booked there)
      have own : field.id = f := booked.ids (h.found there).2
      dsimp only
      rw [run]
      refine ⟨cleared, ?_, ?_, ?_⟩
      · intro g mem
        rw [List.mem_singleton.1 mem, cleared.field?, if_pos]
        simp [own]
      · intro x mem g listed
        rcases List.mem_append.1 mem with mem | mem
        · rw [List.mem_singleton.1 mem] at listed
          exact emptied.roots g listed
        · exact emptied.below x mem g listed
      · intro x mem
        rcases List.mem_append.1 mem with mem | mem
        · rw [List.mem_singleton.1 mem, own]
          exact .inl List.mem_cons_self
        · rcases emptied.reached x mem with start | ⟨y, mem', listed⟩
          · exact .inr ⟨field, by simp, start⟩
          · exact .inr ⟨y, List.mem_append_right _ mem', listed⟩

namespace Booked

/-- **What removal does** to a table in order. -/
theorem cleared_remove (h : t.Booked) (f : FieldId) :
    Cleared (t.unlink f) (t.remove f).1 (t.remove f).2 ∧
      (t.remove f).2.Emptied [f] (t.remove f).1 := by
  have walk := Cleared.removeUpTo (h.unlink f) t.slots.size f (Cleared.refl (h.unlink f)) (by
    rw [size_unlink]
    exact Nat.le_add_right _ _)
  rwa [List.nil_append] at walk

theorem field?_remove (h : t.Booked) (f g : FieldId) :
    (t.remove f).2.field? g =
      if g ∈ (t.remove f).1.map Field.id then none else (t.unlink f).field? g :=
  (h.cleared_remove f).1.field? g

/-- A field that stays was there, and the removed field was no more than taken away from it. -/
theorem exists_field?_of_remove (h : t.Booked) {f g : FieldId} {field' : Field}
    (found : (t.remove f).2.field? g = some field') : ∃ field, t.field? g = some field ∧
      { field.dropChild f with parent := if g = f then none else field.parent } = field' := by
  rw [h.field?_remove] at found
  split at found
  · cases found
  · rw [h.field?_unlink] at found
    exact Option.map_eq_some_iff.1 found

/-- A removed field other than the first lay below a removed field. -/
theorem parent_removed (h : t.Booked) {x : Field} (mem : x ∈ (t.remove f).1) (other : x.id ≠ f) :
    ∃ y ∈ (t.remove f).1, (t.unlink f).parent? x.id = some y.id := by
  obtain ⟨cleared, emptied⟩ := h.cleared_remove f
  rcases emptied.reached x mem with start | ⟨y, mem', listed⟩
  · exact absurd (List.mem_singleton.1 start) other
  · exact ⟨y, mem', ((h.unlink f).mem_contents (cleared.there y mem')).1 listed⟩

/-- **Removing a field** with everything below it keeps the books. -/
theorem remove (h : t.Booked) (f : FieldId) : (t.remove f).2.Booked := by
  have before := h.unlink f
  obtain ⟨cleared, emptied⟩ := h.cleared_remove f
  have parent : ∀ c, (t.remove f).2.parent? c =
      if c ∈ (t.remove f).1.map Field.id then none else (t.unlink f).parent? c := by
    intro c
    unfold parent?
    rw [cleared.field?]
    split <;> rfl
  refine ⟨fun found => before.ids (cleared.found found).2, fun {g field} found c => ?_,
    fun {c q} lies => ?_, fun name g => ?_, fun name => ?_, cleared.used⟩
  · obtain ⟨left, there⟩ := cleared.found found
    rw [before.listed there c, parent]
    by_cases removed : c ∈ (t.remove f).1.map Field.id
    · rw [if_pos removed, if_neg]
      · rfl
      · -- the parent of a removed field is removed, or the field is the first
        intro lies
        obtain ⟨x, mem, rfl⟩ := List.mem_map.1 removed
        by_cases first : x.id = f
        · rw [first, h.parent?_unlink, if_pos rfl] at lies
          cases lies
        · obtain ⟨y, mem', lies'⟩ := h.parent_removed mem first
          cases lies.symm.trans lies'
          exact left (List.mem_map_of_mem mem')
    · rw [if_neg removed]
  · rw [parent] at lies
    split at lies
    · cases lies
    · case isFalse stays =>
      rw [cleared.field?]
      split
      · case isTrue removed =>
        exfalso
        obtain ⟨y, mem, rfl⟩ := List.mem_map.1 removed
        have listed := (before.mem_contents (cleared.there y mem)).2 lies
        have away := emptied.below y mem c listed
        rw [cleared.field?, if_neg stays] at away
        unfold parent? at lies
        rw [away] at lies
        cases lies
      · exact before.parents lies
  · rw [cleared.named, List.mem_filter, before.named, decide_eq_true_iff, cleared.field?]
    constructor
    · rintro ⟨there, left⟩
      rwa [if_neg left]
    · rintro ⟨field, found, name⟩
      split at found
      · cases found
      · case isFalse left => exact ⟨⟨field, found, name⟩, left⟩
  · rw [cleared.named]
    exact (before.ascending name).filter _

end Booked

end FieldTable

end Formwork
