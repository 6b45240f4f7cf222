import Mathlib.Data.List.Nodup
import Formwork.Proofs.OrderedMap
import Formwork.Proofs.Panel.Table

/-!
# The books of a panel

A panel keeps the place of a field twice, in the lists of its parent and as the parent of the field
itself, and the fields once more by their names.  A table is in order when these agree
(`FieldTable.Booked`): a field lists another exactly once when it is its parent and not at all
otherwise, parents are there, and the index lists every field once, under its name and in the order of
creation.

Taking a field from under its parent keeps the books, and so does putting it below another, whatever
lies below it and wherever it lay before (`Booked.unlink`, `Booked.link`).
-/

namespace Formwork

set_option autoImplicit false

/-! ## The children of a field -/

namespace Field

variable {field : Field} {c g p : FieldId} {role : Role}

theorem contents_dropChild (field : Field) (c : FieldId) :
    (field.dropChild c).contents = field.contents.filter (· ≠ c) := by
  simp [contents, dropChild]

theorem dropChild_eq_self (absent : c ∉ field.contents) : field.dropChild c = field := by
  unfold contents at absent
  rw [List.mem_append, not_or] at absent
  have kept : ∀ {cs : List FieldId}, c ∉ cs → cs.filter (· ≠ c) = cs := by
    intro cs out
    refine List.filter_eq_self.2 fun g mem => decide_eq_true ?_
    rintro rfl
    exact out mem
  unfold dropChild
  rw [kept absent.1, kept absent.2]

theorem count_dropChild (field : Field) (c g : FieldId) :
    (field.dropChild c).contents.count g = if g = c then 0 else field.contents.count g := by
  rw [contents_dropChild]
  split
  · case isTrue same =>
    subst same
    exact List.count_eq_zero.2 (by simp)
  · case isFalse other => exact List.count_filter (by simpa using other)

theorem count_addChild (field : Field) (role : Role) (c g : FieldId) :
    (field.addChild role c).contents.count g = field.contents.count g + if g = c then 1 else 0 := by
  have one : [c].count g = if g = c then 1 else 0 := by
    rw [List.count_singleton]
    by_cases same : g = c
    · simp [same]
    · simp [same, Ne.symm same]
  cases role with
  | content =>
    unfold addChild contents
    dsimp only
    rw [List.count_append, List.count_append, List.count_append, one]
    omega
  | part =>
    unfold addChild contents
    dsimp only
    rw [List.count_append, List.count_append, List.count_append, one]
    omega

/-- A field as it is when a field was put below another. -/
def relinked (field : Field) (p c : FieldId) (role : Role) : Field :=
  { (if field.id = p then (field.dropChild c).addChild role c else field.dropChild c) with
    parent := if field.id = c then some p else field.parent }

@[simp]
theorem id_relinked : (field.relinked p c role).id = field.id := by
  unfold relinked
  split <;> cases role <;> rfl

@[simp]
theorem kind_relinked : (field.relinked p c role).kind = field.kind := by
  unfold relinked
  split <;> cases role <;> rfl

@[simp]
theorem name_relinked : (field.relinked p c role).name = field.name := by
  unfold relinked
  split <;> cases role <;> rfl

@[simp]
theorem attributes_relinked : (field.relinked p c role).attributes = field.attributes := by
  unfold relinked
  split <;> cases role <;> rfl

@[simp]
theorem widget_relinked : (field.relinked p c role).widget = field.widget := by
  unfold relinked
  split <;> cases role <;> rfl

theorem parent_relinked :
    (field.relinked p c role).parent = if field.id = c then some p else field.parent := rfl

theorem attached_relinked : (field.relinked p c role).attached =
    field.attached.filter (· ≠ c) ++ if field.id = p ∧ role = .part then [c] else [] := by
  unfold relinked
  by_cases here : field.id = p
  · cases role <;> simp [here, dropChild, addChild]
  · simp [here, dropChild]

theorem count_relinked (field : Field) (p c : FieldId) (role : Role) (g : FieldId) :
    (field.relinked p c role).contents.count g =
      if g = c then (if field.id = p then 1 else 0) else field.contents.count g := by
  have lists : (field.relinked p c role).contents =
      (if field.id = p then (field.dropChild c).addChild role c else field.dropChild c).contents :=
    rfl
  rw [lists]
  by_cases here : field.id = p
  · rw [if_pos here, count_addChild, count_dropChild]
    by_cases same : g = c <;> simp [same, here]
  · rw [if_neg here, count_dropChild]
    by_cases same : g = c <;> simp [same, here]

end Field

/-! ## Tables in order -/

namespace FieldTable

variable {t u : FieldTable} {c f g p q : FieldId} {field : Field} {role : Role}

/-- The parent of a field. -/
def parent? (t : FieldTable) (f : FieldId) : Option FieldId := (t.field? f).bind Field.parent

theorem parent?_eq (found : t.field? f = some field) : t.parent? f = field.parent := by
  unfold parent?
  rw [found]
  rfl

/-- A table in which the lists of children, the parents and the index of names agree. -/
structure Booked (t : FieldTable) : Prop where
  /-- Fields are kept under their numbers. -/
  ids : ∀ {f field}, t.field? f = some field → field.id = f
  /-- A field lists its children, each of them once, and nothing else. -/
  listed : ∀ {f field}, t.field? f = some field → ∀ c,
    field.contents.count c = if t.parent? c = some f then 1 else 0
  /-- Parents are there. -/
  parents : ∀ {f q}, t.parent? f = some q → (t.field? q).isSome
  /-- The index lists the fields under their names. -/
  named : ∀ name f, f ∈ t.named name ↔ ∃ field, t.field? f = some field ∧ field.name = name
  /-- The index lists fields in the order of creation. -/
  ascending : ∀ name, (t.named name).Pairwise fun f g => f.index < g.index
  /-- A name without fields is not listed. -/
  used : ∀ name, t.names.get? name ≠ some []

namespace Booked

theorem empty : FieldTable.empty.Booked where
  ids found := by cases found
  listed found := by cases found
  parents lies := by cases lies
  named _ _ := ⟨nofun, fun ⟨_, found, _⟩ => nomatch found⟩
  ascending _ := List.Pairwise.nil
  used _ := nofun

theorem mem_contents (h : t.Booked) (found : t.field? f = some field) :
    c ∈ field.contents ↔ t.parent? c = some f := by
  rw [← List.one_le_count_iff, h.listed found c]
  split <;> simp [*]

theorem nodup_contents (h : t.Booked) (found : t.field? f = some field) :
    field.contents.Nodup := by
  rw [List.nodup_iff_count_le_one]
  intro c
  rw [h.listed found c]
  split <;> omega

/-- What a field lists is there. -/
theorem exists_of_mem_contents (h : t.Booked) (found : t.field? f = some field)
    (mem : c ∈ field.contents) : ∃ child, t.field? c = some child ∧ child.parent = some f := by
  have lies := (h.mem_contents found).1 mem
  unfold parent? at lies
  exact Option.bind_eq_some_iff.1 lies

/-- Whether a table is in order can be seen without its widgets. -/
theorem congr (h : t.Booked) (same : u.bare = t.bare) : u.Booked := by
  have fields : ∀ f, (u.field? f).map Field.bare = (t.field? f).map Field.bare := by
    intro f
    rw [← field?_bare, ← field?_bare, same]
  have names : u.names = t.names := by
    change u.bare.names = t.bare.names
    rw [same]
  have named : ∀ name, u.named name = t.named name := by
    intro name
    unfold FieldTable.named
    rw [names]
  -- a field of the one table is a field of the other, but for its widget
  have other : ∀ {a b : FieldTable}, (∀ f, (a.field? f).map Field.bare = (b.field? f).map Field.bare) →
      ∀ {f field}, a.field? f = some field → ∃ w, b.field? f = some { field with widget := w } := by
    intro a b fields f field found
    have there := fields f
    rw [found, Option.map_some] at there
    obtain ⟨field', found', bare⟩ := Option.map_eq_some_iff.1 there.symm
    refine ⟨field'.widget, found'.trans (congrArg some ?_)⟩
    cases field
    cases field'
    cases bare
    rfl
  have parents : ∀ f, u.parent? f = t.parent? f := by
    intro f
    have there := congrArg (Option.bind · Field.parent) (fields f)
    have bare : ∀ o : Option Field, (o.map Field.bare).bind Field.parent = o.bind Field.parent := by
      rintro (_ | _) <;> rfl
    rwa [bare, bare] at there
  refine ⟨fun found => ?_, fun found c => ?_, fun lies => ?_, fun name f => ?_, fun name => ?_,
    fun name => ?_⟩
  · obtain ⟨w, there⟩ := other fields found
    exact (h.ids there :)
  · obtain ⟨w, there⟩ := other fields found
    rw [parents]
    exact (h.listed there c :)
  · rw [parents] at lies
    obtain ⟨field, there⟩ := Option.isSome_iff_exists.1 (h.parents lies)
    obtain ⟨w, found⟩ := other (fun f => (fields f).symm) there
    rw [found]
    rfl
  · rw [named, h.named]
    constructor
    · rintro ⟨field, there, rfl⟩
      obtain ⟨w, found⟩ := other (fun f => (fields f).symm) there
      exact ⟨_, found, rfl⟩
    · rintro ⟨field, found, rfl⟩
      obtain ⟨w, there⟩ := other fields found
      exact ⟨_, there, rfl⟩
  · rw [named]
    exact h.ascending name
  · rw [names]
    exact h.used name

/-! ## Adding a field -/

theorem parent?_add (t : FieldTable) (free : field.parent = none) (g : FieldId) :
    (t.add field).parent? g = t.parent? g := by
  unfold parent?
  rw [field?_add]
  split
  · case isTrue new =>
    subst new
    have unknown : t.field? ⟨t.slots.size⟩ = none := by
      cases found : t.field? ⟨t.slots.size⟩ with
      | none => rfl
      | some _ => exact absurd (lt_size_of_field? found) (Nat.lt_irrefl _)
    rw [unknown]
    exact free
  · rfl

theorem named_add (t : FieldTable) (field : Field) (name : String) :
    (t.add field).named name =
      if field.name = name then t.named name ++ [field.id] else t.named name := by
  unfold add
  rw [FieldTable.named, OrderedMap.get?_insert]
  split
  · case isTrue same =>
    subst same
    rfl
  · rfl

/-- **A new field** joins the books. -/
theorem add (h : t.Booked) (id : field.id = ⟨t.slots.size⟩) (free : field.parent = none)
    (childless : field.contents = []) : (t.add field).Booked where
  ids {f _} found := by
    rw [field?_add] at found
    split at found
    · case isTrue new =>
      cases found
      rw [new, id]
    · exact h.ids found
  listed {f _} found c := by
    rw [parent?_add t free]
    rw [field?_add] at found
    split at found
    · case isTrue new =>
      cases found
      subst new
      rw [childless, if_neg, List.count_nil]
      intro lies
      obtain ⟨_, found⟩ := Option.isSome_iff_exists.1 (h.parents lies)
      exact absurd (lt_size_of_field? found) (Nat.lt_irrefl _)
    · exact h.listed found c
  parents {f q} lies := by
    rw [parent?_add t free] at lies
    rw [field?_add]
    split
    · rfl
    · exact h.parents lies
  named name f := by
    rw [named_add, field?_add]
    by_cases new : f = ⟨t.slots.size⟩
    · subst new
      have old : (⟨t.slots.size⟩ : FieldId) ∉ t.named name := by
        rw [h.named]
        rintro ⟨_, found, _⟩
        exact absurd (lt_size_of_field? found) (Nat.lt_irrefl _)
      split <;> simp_all
    · rw [if_neg new, ← h.named]
      split <;> simp [id, new]
  ascending name := by
    rw [named_add]
    split
    · refine List.pairwise_append.2 ⟨h.ascending name, List.pairwise_singleton _ _, ?_⟩
      intro f mem g last
      obtain ⟨_, found, _⟩ := (h.named name f).1 mem
      rw [List.mem_singleton.1 last, id]
      exact lt_size_of_field? found
    · exact h.ascending name
  used name := by
    unfold FieldTable.add
    dsimp only
    rw [OrderedMap.get?_insert]
    split
    · simp
    · exact h.used name

/-! ## Taking a field from under its parent -/

theorem names_unlink (t : FieldTable) (c : FieldId) : (t.unlink c).names = t.names := by
  unfold unlink
  split <;> rfl

theorem size_unlink (t : FieldTable) (c : FieldId) : (t.unlink c).slots.size = t.slots.size := by
  unfold unlink
  split
  · rfl
  · rw [size_slots_update, size_slots_update]

/-- Only its parent lists a field, so every field may be taken to drop it. -/
theorem field?_unlink (h : t.Booked) (c g : FieldId) : (t.unlink c).field? g =
    (t.field? g).map fun field =>
      { field.dropChild c with parent := if g = c then none else field.parent } := by
  -- a field that is no parent of it does not list it
  have kept : ∀ {g field}, t.field? g = some field → t.parent? c ≠ some g →
      field.dropChild c = field := fun found elsewhere =>
    Field.dropChild_eq_self fun mem => elsewhere ((h.mem_contents found).1 mem)
  have parent : ∀ {field}, t.field? c = some field → t.parent? c = field.parent := parent?_eq
  have asked : (t.field? c).bind Field.parent = t.parent? c := rfl
  unfold unlink
  rw [asked]
  cases lies : t.parent? c with
  | none =>
    dsimp only
    cases found : t.field? g with
    | none => rfl
    | some field =>
      rw [Option.map_some, kept found (by rw [lies]; exact nofun)]
      split
      · case isTrue same =>
        subst same
        rw [parent found] at lies
        rw [← lies]
      · rfl
  | some q =>
    dsimp only
    rw [field?_update]
    by_cases atParent : g = q
    · subst atParent
      rw [if_pos rfl, field?_update]
      by_cases same : g = c
      · subst same
        rw [if_pos rfl, Option.map_map]
        cases t.field? g with
        | none => rfl
        | some field => simp [Field.dropChild]
      · rw [if_neg same]
        cases t.field? g with
        | none => rfl
        | some field => simp [Field.dropChild, same]
    · rw [if_neg atParent, field?_update]
      by_cases same : g = c
      · subst same
        rw [if_pos rfl]
        cases found : t.field? g with
        | none => rfl
        | some field =>
          rw [Option.map_some, Option.map_some, kept found (by simpa [lies] using Ne.symm atParent),
            if_pos rfl]
      · rw [if_neg same]
        cases found : t.field? g with
        | none => rfl
        | some field =>
          rw [Option.map_some, kept found (by simpa [lies] using Ne.symm atParent), if_neg same]

theorem parent?_unlink (h : t.Booked) (c g : FieldId) :
    (t.unlink c).parent? g = if g = c then none else t.parent? g := by
  unfold parent?
  rw [h.field?_unlink]
  cases t.field? g with
  | none => simp
  | some field => rfl

theorem isSome_field?_unlink (h : t.Booked) (c g : FieldId) :
    ((t.unlink c).field? g).isSome = (t.field? g).isSome := by
  rw [h.field?_unlink, Option.isSome_map]

/-- **Taking a field** from under its parent keeps the books. -/
theorem unlink (h : t.Booked) (c : FieldId) : (t.unlink c).Booked where
  ids {g _} found := by
    rw [h.field?_unlink] at found
    obtain ⟨field, there, rfl⟩ := Option.map_eq_some_iff.1 found
    exact (h.ids there :)
  listed {g _} found b := by
    rw [h.field?_unlink] at found
    obtain ⟨field, there, rfl⟩ := Option.map_eq_some_iff.1 found
    rw [h.parent?_unlink]
    refine (field.count_dropChild c b).trans ?_
    rw [h.listed there b]
    by_cases same : b = c <;> simp [same]
  parents {g q} lies := by
    rw [h.parent?_unlink] at lies
    rw [h.isSome_field?_unlink]
    split at lies
    · cases lies
    · exact h.parents lies
  named name g := by
    unfold FieldTable.named
    rw [names_unlink, h.field?_unlink]
    refine (h.named name g).trans ?_
    simp [Option.map_eq_some_iff, Field.dropChild]
  ascending name := by
    unfold FieldTable.named
    rw [names_unlink]
    exact h.ascending name
  used name := by
    rw [names_unlink]
    exact h.used name

/-! ## Putting a field below another -/

theorem names_link (t : FieldTable) (p c : FieldId) (role : Role) :
    (t.link p c role).names = t.names := by
  unfold FieldTable.link
  rw [names_update, names_update, names_unlink]

theorem size_link (t : FieldTable) (p c : FieldId) (role : Role) :
    (t.link p c role).slots.size = t.slots.size := by
  unfold FieldTable.link
  rw [size_slots_update, size_slots_update, size_unlink]

theorem field?_link (h : t.Booked) (p c : FieldId) (role : Role) (g : FieldId) :
    (t.link p c role).field? g = (t.field? g).map fun field => field.relinked p c role := by
  unfold FieldTable.link
  rw [field?_update]
  by_cases atChild : g = c
  · subst atChild
    rw [if_pos rfl, field?_update]
    by_cases atParent : g = p
    · subst atParent
      rw [if_pos rfl, h.field?_unlink]
      cases found : t.field? g with
      | none => rfl
      | some field => cases role <;> simp [Field.relinked, Field.addChild, h.ids found]
    · rw [if_neg atParent, h.field?_unlink]
      cases found : t.field? g with
      | none => rfl
      | some field => simp [Field.relinked, h.ids found, atParent]
  · rw [if_neg atChild, field?_update]
    by_cases atParent : g = p
    · subst atParent
      rw [if_pos rfl, h.field?_unlink]
      cases found : t.field? g with
      | none => rfl
      | some field =>
        cases role <;> simp [Field.relinked, Field.addChild, Field.dropChild, h.ids found, atChild]
    · rw [if_neg atParent, h.field?_unlink]
      cases found : t.field? g with
      | none => rfl
      | some field => simp [Field.relinked, Field.dropChild, h.ids found, atChild, atParent]

theorem parent?_link (h : t.Booked) (known : (t.field? c).isSome) (p : FieldId) (role : Role)
    (g : FieldId) : (t.link p c role).parent? g = if g = c then some p else t.parent? g := by
  unfold parent?
  rw [h.field?_link]
  cases found : t.field? g with
  | none =>
    rw [if_neg]
    · rfl
    · rintro rfl
      rw [found] at known
      cases known
  | some field =>
    rw [Option.map_some, Option.bind_some, Option.bind_some, Field.parent_relinked, h.ids found]

/-- **Putting a field below another** keeps the books. -/
theorem link (h : t.Booked) (parent : (t.field? p).isSome) (known : (t.field? c).isSome)
    (role : Role) : (t.link p c role).Booked where
  ids {g _} found := by
    rw [h.field?_link] at found
    obtain ⟨field, there, rfl⟩ := Option.map_eq_some_iff.1 found
    rw [Field.id_relinked, h.ids there]
  listed {g _} found b := by
    rw [h.field?_link] at found
    obtain ⟨field, there, rfl⟩ := Option.map_eq_some_iff.1 found
    rw [h.parent?_link known, field.count_relinked, h.listed there b, h.ids there]
    by_cases same : b = c <;> simp [same, eq_comm]
  parents {g q} lies := by
    rw [h.parent?_link known] at lies
    rw [h.field?_link, Option.isSome_map]
    split at lies
    · cases lies
      exact parent
    · exact h.parents lies
  named name g := by
    unfold FieldTable.named
    rw [names_link, h.field?_link]
    refine (h.named name g).trans ?_
    simp [Option.map_eq_some_iff]
  ascending name := by
    unfold FieldTable.named
    rw [names_link]
    exact h.ascending name
  used name := by
    rw [names_link]
    exact h.used name

end Booked

end FieldTable

end Formwork
