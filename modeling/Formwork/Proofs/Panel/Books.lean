import Mathlib.Data.List.Perm.Subperm
import Formwork.Proofs.Panel.Removal
import Formwork.Proofs.Panel.Request

/-!
# The books of a panel stay in order

A panel tells where a field lies in four places: in its slots, in the parents, in the lists of
children and in the index of names; its views are kept under the fields that show them.  Whatever is
asked of a panel, and whether it answers or fails, these agree afterwards (`Panel.InOrder`,
`Scene.inOrder_after`).

A request that fails midway keeps what it did to widgets and to the page, and nothing of that is in
the books; the parent of a field changes only when nothing can fail any more.
-/

namespace Formwork

set_option autoImplicit false

/-! ## The index of a table in order -/

namespace FieldTable

variable {t u : FieldTable} {f g : FieldId} {field : Field}

/-- Leaving out the widgets changes no place in the tree of fields. -/
theorem parent?_congr (same : u.bare = t.bare) (f : FieldId) : u.parent? f = t.parent? f := by
  have bare : ∀ t : FieldTable, t.parent? f = t.bare.parent? f := by
    intro t
    unfold parent?
    rw [field?_bare]
    cases t.field? f <;> rfl
  rw [bare u, same, ← bare t]

theorem isSome_field?_congr (same : u.bare = t.bare) (f : FieldId) :
    (u.field? f).isSome = (t.field? f).isSome := by
  have bare : ∀ t : FieldTable, (t.field? f).isSome = (t.bare.field? f).isSome := by
    intro t
    rw [field?_bare, Option.isSome_map]
  rw [bare u, same, ← bare t]

/-- Tables alike but for their widgets have fields that are alike but for theirs. -/
theorem exists_field?_congr (same : u.bare = t.bare) (found : u.field? f = some field) :
    ∃ field', t.field? f = some field' ∧ field.bare = field'.bare := by
  have there : (t.field? f).map Field.bare = some field.bare := by
    rw [← field?_bare, ← same, field?_bare, found]
    rfl
  obtain ⟨field', found', is⟩ := Option.map_eq_some_iff.1 there
  exact ⟨field', found', is.symm⟩

theorem mem_named {name : String} :
    f ∈ t.named name ↔ ∃ fs, (name, fs) ∈ t.names.toList ∧ f ∈ fs := by
  unfold named
  constructor
  · intro mem
    cases listed : t.names.get? name with
    | none =>
      rw [listed] at mem
      cases mem
    | some fs =>
      rw [listed] at mem
      exact ⟨fs, OrderedMap.mem_of_get? listed, mem⟩
  · rintro ⟨fs, entry, mem⟩
    rw [OrderedMap.get?_eq_some.2 entry]
    exact mem

theorem mem_ids : f ∈ t.ids ↔ ∃ name, f ∈ t.named name := by
  unfold ids OrderedMap.values
  rw [List.mem_flatten]
  constructor
  · rintro ⟨fs, listed, mem⟩
    obtain ⟨entry, entryMem, rfl⟩ := List.mem_map.1 listed
    exact ⟨entry.1, mem_named.2 ⟨entry.2, entryMem, mem⟩⟩
  · rintro ⟨name, mem⟩
    obtain ⟨fs, entry, mem⟩ := mem_named.1 mem
    exact ⟨fs, List.mem_map_of_mem entry, mem⟩

namespace Booked

/-- The index lists the fields that are there. -/
theorem mem_ids (h : t.Booked) : f ∈ t.ids ↔ ∃ field, t.field? f = some field := by
  rw [FieldTable.mem_ids]
  constructor
  · rintro ⟨name, mem⟩
    obtain ⟨field, found, _⟩ := (h.named name f).1 mem
    exact ⟨field, found⟩
  · rintro ⟨field, found⟩
    exact ⟨field.name, (h.named _ f).2 ⟨field, found, rfl⟩⟩

/-- A field is listed under its own name only, and there once. -/
theorem nodup_ids (h : t.Booked) : t.ids.Nodup := by
  have fields : ∀ entry ∈ t.names.toList, ∀ f ∈ entry.2,
      ∃ field, t.field? f = some field ∧ field.name = entry.1 := by
    rintro ⟨name, fs⟩ listed f mem
    exact (h.named name f).1 (mem_named.2 ⟨fs, listed, mem⟩)
  unfold FieldTable.ids OrderedMap.values
  refine List.nodup_flatten.2 ⟨fun fs mem => ?_, ?_⟩
  · obtain ⟨⟨name, fs⟩, entry, rfl⟩ := List.mem_map.1 mem
    have ascending := h.ascending name
    unfold FieldTable.named at ascending
    rw [OrderedMap.get?_eq_some.2 entry] at ascending
    refine ascending.imp ?_
    rintro f g less rfl
    exact Nat.lt_irrefl _ less
  · rw [List.pairwise_map]
    refine (List.pairwise_map.1 t.names.distinct).imp_of_mem ?_
    intro entry entry' mem mem' differ f first second
    obtain ⟨field, found, name⟩ := fields entry mem f first
    obtain ⟨field', found', name'⟩ := fields entry' mem' f second
    cases found.symm.trans found'
    exact differ (name.symm.trans name')

/-! ### All fields -/

/-- The fields that are there, in the order of creation. -/
theorem ascending_slots (h : t.Booked) :
    (t.slots.toList.filterMap id).Pairwise fun x y : Field => x.id.index < y.id.index := by
  have numbered : ∀ i (x : Field), t.slots.toList[i]? = some (some x) → x.id.index = i := by
    intro i x there
    have found : t.field? ⟨i⟩ = some x := by
      unfold FieldTable.field?
      rw [← Array.getElem?_toList, there]
      rfl
    rw [h.ids found]
  rw [List.pairwise_filterMap, List.pairwise_iff_getElem]
  intro i j hi hj less x first y second
  rw [numbered i x (by rw [List.getElem?_eq_getElem hi]; exact congrArg some first),
    numbered j y (by rw [List.getElem?_eq_getElem hj]; exact congrArg some second)]
  exact less

theorem mem_slots (h : t.Booked) :
    field ∈ t.slots.toList.filterMap id ↔ t.field? field.id = some field := by
  rw [List.mem_filterMap]
  constructor
  · rintro ⟨slot, mem, rfl⟩
    obtain ⟨i, there⟩ := List.mem_iff_getElem?.1 mem
    have found : t.field? ⟨i⟩ = some field := by
      unfold FieldTable.field?
      rw [← Array.getElem?_toList, there]
      rfl
    rw [h.ids found]
    exact found
  · intro found
    refine ⟨some field, ?_, rfl⟩
    unfold FieldTable.field? at found
    rw [← Array.getElem?_toList] at found
    exact List.mem_iff_getElem?.2 ⟨_, Option.join_eq_some_iff.1 found⟩

theorem map_id_fields (h : t.Booked) : t.fields.map Field.id = t.ids := by
  unfold fields
  rw [List.map_filterMap]
  refine (List.filterMap_congr fun f mem => ?_).trans List.filterMap_some
  obtain ⟨field, found⟩ := h.mem_ids.1 mem
  rw [found, Option.map_some, h.ids found]

/-- Going through the index visits every field once. -/
theorem perm_fields (h : t.Booked) : t.fields.Perm (t.slots.toList.filterMap id) := by
  have distinct : t.fields.Nodup := by
    refine List.Nodup.of_map Field.id ?_
    rw [h.map_id_fields]
    exact h.nodup_ids
  have distinct' : (t.slots.toList.filterMap id).Nodup := by
    refine h.ascending_slots.imp ?_
    rintro x y less rfl
    exact Nat.lt_irrefl _ less
  refine (List.perm_ext_iff_of_nodup distinct distinct').2 fun field => ?_
  rw [h.mem_slots]
  unfold fields
  rw [List.mem_filterMap]
  constructor
  · rintro ⟨f, _, found⟩
    rw [h.ids found]
    exact found
  · intro found
    exact ⟨field.id, h.mem_ids.2 ⟨field, found⟩, found⟩

/-- As many fields are listed as there are. -/
theorem size_eq (h : t.Booked) : t.size = t.slots.toList.countP Option.isSome := by
  unfold size
  rw [← h.map_id_fields, List.length_map, h.perm_fields.length_eq, List.length_filterMap_eq_countP]
  rfl

end Booked

end FieldTable

/-! ## Adding a field below another -/

namespace PanelM

variable {s s' : Scene} {p c : FieldId}

/-- The parent takes a field in without a change to the table of fields, their widgets apart. -/
theorem bare_takePart {answer : Except FieldError Role} (run : exec (takePart p c) s = (answer, s')) :
    s'.panel.table.bare = s.panel.table.bare :=
  congrArg Prod.fst ((congrArg (fun r => r.2.books) run).symm.trans (spares_takePart p c s))

/-- **What putting a field below another keeps**: a property that is kept when the parent takes the field
in, and when two fields that are there are linked. -/
theorem preserves_addChild {inv : Scene → Prop} (takes : Preserves inv (takePart p c))
    (links : ∀ role s, inv s → (s.panel.field? p).isSome → (s.panel.field? c).isSome →
      inv (s.link p c role)) : Preserves inv (addChild p c) := by
  intro s h
  have next := takes s h
  cases run : exec (takePart p c) s with
  | mk answer s' =>
    rw [run] at next
    cases answer with
    | error e =>
      have failed : exec (addChild p c) s = _ := exec_bind_error run
      rw [failed]
      exact next
    | ok role =>
      have known (f : FieldId) (there : (s.panel.field? f).isSome) : (s'.panel.field? f).isSome :=
        (FieldTable.isSome_field?_congr (bare_takePart run) f).trans there
      obtain ⟨parent, child⟩ := field?_of_takePart run
      rw [exec_addChild_ok run]
      exact links role s' next (known p parent) (known c child)

end PanelM

/-! ## Panels in order -/

namespace Panel

variable {p p' : Panel}

/-- A panel whose slots, lists of children, parents, index of names and views agree. -/
structure InOrder (p : Panel) : Prop where
  /-- Fields are kept under their numbers. -/
  ids : ∀ {f field}, p.field? f = some field → field.id = f
  /-- A field lists another once, as content or as a part, when it is its parent, and not at all
  otherwise. -/
  listed : ∀ {f field c child}, p.field? f = some field → p.field? c = some child →
    (field.children ++ field.attached).count c = if child.parent = some f then 1 else 0
  /-- No list refers to a removed field. -/
  lists : ∀ {f field}, p.field? f = some field →
    ∀ c ∈ field.children ++ field.attached, (p.field? c).isSome
  /-- No parent is a removed field. -/
  parents : ∀ {f field q}, p.field? f = some field → field.parent = some q → (p.field? q).isSome
  /-- The index lists every field once, under its name. -/
  indexed : ∀ {f field}, p.field? f = some field →
    p.table.ids.count f = 1 ∧ f ∈ p.table.named field.name
  /-- The index lists no removed field. -/
  known : ∀ f ∈ p.table.ids, (p.field? f).isSome
  /-- The fields of a name are listed in the order of creation. -/
  ascending : ∀ name, (p.table.named name).Pairwise fun f g => f.index < g.index
  /-- A name without fields is not listed. -/
  used : ∀ entry ∈ p.table.names.toList, entry.2 ≠ []
  /-- The size of the panel is the number of its fields. -/
  size : p.table.size = p.table.slots.toList.countP Option.isSome
  /-- Going through the panel visits every field once. -/
  visited : p.table.fields.Perm (p.table.slots.toList.filterMap id)
  /-- Views are kept under fields that are there. -/
  views : ∀ entry ∈ p.views, (p.field? entry.1).isSome

/-- What every request keeps. -/
structure Booked (p : Panel) : Prop where
  table : p.table.Booked
  views : ∀ f ∈ p.views.map Prod.fst, (p.field? f).isSome

namespace Booked

theorem inOrder (h : p.Booked) : p.InOrder where
  ids found := h.table.ids found
  listed {f field c child} found found' := by
    refine (h.table.listed found c).trans ?_
    rw [FieldTable.parent?_eq found']
  lists found c mem := by
    obtain ⟨child, there, _⟩ := h.table.exists_of_mem_contents found mem
    exact Option.isSome_of_mem there
  parents {f field q} found lies := h.table.parents ((FieldTable.parent?_eq found).trans lies)
  indexed {f field} found := by
    refine ⟨?_, (h.table.named _ f).2 ⟨field, found, rfl⟩⟩
    exact List.count_eq_one_of_mem h.table.nodup_ids (h.table.mem_ids.2 ⟨field, found⟩)
  known f mem := by
    obtain ⟨field, found⟩ := h.table.mem_ids.1 mem
    exact Option.isSome_of_mem found
  ascending := h.table.ascending
  used := by
    rintro ⟨name, fs⟩ mem rfl
    exact h.table.used name (OrderedMap.get?_eq_some.2 mem)
  size := h.table.size_eq
  visited := h.table.perm_fields
  views entry mem := h.views _ (List.mem_map_of_mem mem)

theorem create (page : Page) (series : SeriesId) (messages : Messages) :
    (Panel.create page series messages).1.Booked where
  table := FieldTable.Booked.empty
  views := nofun

/-- The books are in order or not whatever the widgets are. -/
theorem congr {s s' : Scene} (h : s.panel.Booked) (same : s'.books = s.books) :
    s'.panel.Booked := by
  have bare : s'.panel.table.bare = s.panel.table.bare := congrArg Prod.fst same
  refine ⟨h.table.congr bare, fun f mem => ?_⟩
  have keys : s'.panel.views.map Prod.fst = s.panel.views.map Prod.fst := congrArg Prod.snd same
  rw [keys] at mem
  exact (FieldTable.isSome_field?_congr bare f).trans (h.views f mem)

/-- **One request** keeps the books in order. -/
theorem turn {r : Request} {s s' : Scene} (h : s.panel.Booked) (turn : r.Turn s s') :
    s'.panel.Booked := by
  cases turn with
  | kept same _ => exact h.congr same
  | created name table views =>
    refine ⟨by rw [table]; exact h.table.add rfl rfl rfl, fun f mem => ?_⟩
    rw [views] at mem
    unfold field?
    rw [table, FieldTable.field?_add]
    split
    · rfl
    · exact h.views f mem
  | linked same parent child table views _ =>
    have before := h.congr same
    have bare := congrArg Prod.fst same
    have linked := before.table.link ((FieldTable.isSome_field?_congr bare _).trans parent)
      ((FieldTable.isSome_field?_congr bare _).trans child)
    refine ⟨by rw [table]; exact linked _, fun f mem => ?_⟩
    rw [views] at mem
    unfold field?
    rw [table, before.table.field?_link, Option.isSome_map]
    exact before.views f mem
  | removed _ table views =>
    refine ⟨by rw [table]; exact h.table.remove _, fun f mem => ?_⟩
    rw [views, List.mem_map] at mem
    obtain ⟨entry, mem, rfl⟩ := mem
    obtain ⟨mem, left⟩ := List.mem_filter.1 mem
    unfold field?
    rw [table, h.table.field?_remove, if_neg (of_decide_eq_true left), h.table.isSome_field?_unlink]
    exact h.views _ (List.mem_map_of_mem mem)
  | viewed same known table views =>
    have before := h.congr same
    refine ⟨by rw [table]; exact before.table, fun f mem => ?_⟩
    unfold field?
    rw [table]
    rw [views, List.map_append, List.mem_append] at mem
    rcases mem with old | new
    · obtain ⟨entry, mem, rfl⟩ := List.mem_map.1 old
      exact before.views _ (List.mem_map_of_mem (List.mem_of_mem_filter mem))
    · rw [List.map_singleton, List.mem_singleton] at new
      subst new
      exact (FieldTable.isSome_field?_congr (congrArg Prod.fst same) _).trans known

end Booked

end Panel

namespace Scene

/-- Requests keep the books in order. -/
theorem booked_after {s : Scene} (h : s.panel.Booked) (rs : List Panel.Request) :
    (s.after rs).panel.Booked :=
  after_induction (P := fun s => s.panel.Booked) (fun s r booked => booked.turn (r.turn s)) rs h

/-- **The books of a panel are in order** whatever was asked of it since it was made. -/
theorem inOrder_after (page : Page) (counters : CounterPool) (series : SeriesId) (messages : Messages)
    (rs : List Panel.Request) :
    ((opened page counters series messages).after rs).panel.InOrder :=
  (booked_after (.create page series messages) rs).inOrder

end Scene

end Formwork
