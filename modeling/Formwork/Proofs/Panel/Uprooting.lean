import Mathlib.Logic.Relation
import Formwork.Proofs.Panel.Reached

/-!
# What removing a field takes with it

The fields below a field are those that are reached from it through what fields list, as content or as
parts (`FieldTable.Under`).  Whatever the lists say, a walk removes nothing else
(`FieldTable.Within.removeUpTo`); in a table in order it removes all of them, and each of the other fields
is what it was, but that the parent of the field no longer lists it (`FieldTable.Booked.field?_remove_under`,
`FieldTable.Booked.field?_remove_apart`).

A slot that was emptied stays empty (`Scene.Vacated.after`), and new fields take new slots.  So removing a
field takes exactly the fields below it out of the panel, their widgets out of the page and their views out
of the panel, for good (`Scene.Uproots`, `Scene.removeField_uproots`).
-/

namespace Formwork

set_option autoImplicit false

open Panel (Request)

namespace Page.Forest

/-- Of nodes that are taken out one after the other none has a parent; the others keep theirs. -/
theorem parent?_detachAll : ∀ (ns : List NodeId) {p : Page} (_ : p.Forest) (m : NodeId),
    (ns.foldl Page.detach p).parent? m = if m ∈ ns then none else p.parent? m
  | [], _, _, _ => rfl
  | n :: ns, p, h, m => by
    rw [List.foldl_cons, parent?_detachAll ns (h.detach n), h.parent?_detach]
    by_cases first : m = n <;> by_cases rest : m ∈ ns <;> simp [first, rest]

end Page.Forest

namespace FieldTable

variable {t u v : FieldTable} {f g : FieldId} {field : Field}

/-! ## The fields below a field -/

/-- A field lists another, as content or as a part. -/
def Lists (t : FieldTable) (f g : FieldId) : Prop := ∃ field, t.field? f = some field ∧ g ∈ field.contents

/-- A field is another, or it is reached from the other through what fields list. -/
def Under (t : FieldTable) (f g : FieldId) : Prop := Relation.ReflTransGen t.Lists f g

/-- The fields of a table are those of another, but some may be missing. -/
def Within (u t : FieldTable) : Prop := ∀ g field, u.field? g = some field → t.field? g = some field

theorem Within.refl (t : FieldTable) : t.Within t := fun _ _ => id

theorem Within.trans (h : v.Within u) (h' : u.Within t) : v.Within t :=
  fun g field found => h' g field (h g field found)

theorem within_drop (u : FieldTable) (field : Field) : (u.drop field).Within u := by
  intro g x found
  rw [field?_drop] at found
  split at found
  · cases found
  · exact found

/-! ## A walk removes nothing else -/

/-- A walk that removes nothing but what it should removes only what lies below the fields of a list. -/
theorem Within.removeEach {walk : FieldTable → FieldId → List Field × FieldTable}
    (step : ∀ {u : FieldTable} (c : FieldId), u.Within t →
      (walk u c).2.Within u ∧ ∀ x ∈ (walk u c).1, t.Under c x.id)
    (cs : List FieldId) (removed : List Field) {u : FieldTable} (within : u.Within t) :
    ∃ more v, cs.foldl (fun (removed, t) child =>
        let (below, t) := walk t child
        (removed ++ below, t)) (removed, u) = (removed ++ more, v) ∧
      v.Within u ∧ ∀ x ∈ more, ∃ c ∈ cs, t.Under c x.id := by
  induction cs generalizing removed u with
  | nil => exact ⟨[], u, by rw [List.append_nil]; rfl, .refl u, fun _ mem => absurd mem List.not_mem_nil⟩
  | cons c cs ih =>
    obtain ⟨fewer, below⟩ := step c within
    obtain ⟨more, v, run, fewer', below'⟩ := ih (removed ++ (walk u c).1) (fewer.trans within)
    refine ⟨(walk u c).1 ++ more, v, ?_, fewer'.trans fewer, fun x mem => ?_⟩
    · rw [← List.append_assoc]
      exact run
    · rcases List.mem_append.1 mem with first | later
      · exact ⟨c, List.mem_cons_self, below x first⟩
      · obtain ⟨c', listed, under⟩ := below' x later
        exact ⟨c', List.mem_cons_of_mem _ listed, under⟩

/-- **A walk removes** only what lies below the field it starts at. -/
theorem Within.removeUpTo (ids : ∀ {g field}, t.field? g = some field → field.id = g) (levels : Nat)
    {u : FieldTable} (f : FieldId) (within : u.Within t) :
    (removeUpTo levels u f).2.Within u ∧ ∀ x ∈ (removeUpTo levels u f).1, t.Under f x.id := by
  induction levels generalizing u f with
  | zero => exact ⟨.refl u, fun _ mem => absurd mem List.not_mem_nil⟩
  | succ levels ih =>
    rw [FieldTable.removeUpTo]
    cases there : u.field? f with
    | none => exact ⟨.refl u, fun _ mem => absurd mem List.not_mem_nil⟩
    | some field =>
      have found := within f field there
      have dropped := within_drop u field
      obtain ⟨more, v, run, fewer, below⟩ := Within.removeEach ih field.contents [field]
        (dropped.trans within)
      dsimp only
      rw [run]
      refine ⟨fewer.trans dropped, fun x mem => ?_⟩
      rcases List.mem_append.1 mem with first | later
      · rw [List.mem_singleton.1 first, ids found]
        exact .refl
      · obtain ⟨c, listed, under⟩ := below x later
        exact .head ⟨field, found, listed⟩ under

/-! ## Removal from a table in order -/

namespace Booked

/-- What lies below a field that is there is there. -/
theorem exists_of_under (h : t.Booked) (under : t.Under f g) (there : (t.field? f).isSome) :
    (t.field? g).isSome := by
  induction under with
  | refl => exact there
  | tail _ lists _ =>
    obtain ⟨_, found, listed⟩ := lists
    obtain ⟨_, found', _⟩ := h.exists_of_mem_contents found listed
    exact Option.isSome_of_mem found'

/-- Taking a field from under its parent changes nothing below the field. -/
theorem under_unlink (h : t.Booked) : (t.unlink f).Under f g ↔ t.Under f g := by
  have lists : ∀ {x y}, (t.unlink f).Lists x y ↔ t.Lists x y ∧ y ≠ f := by
    intro x y
    constructor
    · rintro ⟨_, found, listed⟩
      rw [h.field?_unlink] at found
      obtain ⟨field, there, rfl⟩ := Option.map_eq_some_iff.1 found
      obtain ⟨listed, other⟩ := List.mem_filter.1 ((field.contents_dropChild f) ▸ listed)
      exact ⟨⟨field, there, listed⟩, of_decide_eq_true other⟩
    · rintro ⟨⟨field, there, listed⟩, other⟩
      refine ⟨_, (h.field?_unlink f x).trans (congrArg _ there), ?_⟩
      exact (field.contents_dropChild f).symm ▸ List.mem_filter.2 ⟨listed, decide_eq_true other⟩
  constructor
  · exact fun under => Relation.ReflTransGen.mono (fun _ _ edge => (lists.1 edge).1) _ _ under
  · intro under
    induction under with
    | refl => exact .refl
    | @tail x y _ edge ih =>
      -- a chain that comes back to the field may start there
      by_cases back : y = f
      · exact back ▸ .refl
      · exact ih.tail (lists.2 ⟨edge, back⟩)

theorem under_of_mem_removed (h : t.Booked) {x : Field} (mem : x ∈ (t.remove f).1) :
    t.Under f x.id :=
  h.under_unlink.1 ((Within.removeUpTo (h.unlink f).ids t.slots.size f (.refl _)).2 x mem)

/-- **Everything below** a field goes with it. -/
theorem field?_remove_under (h : t.Booked) (under : t.Under f g) : (t.remove f).2.field? g = none := by
  obtain ⟨cleared, emptied⟩ := h.cleared_remove f
  replace under := h.under_unlink.2 under
  induction under with
  | refl => exact emptied.roots f List.mem_cons_self
  | tail _ lists gone =>
    obtain ⟨field, found, listed⟩ := lists
    rw [cleared.field?] at gone
    split at gone
    · case isTrue removed =>
      obtain ⟨y, mem, same⟩ := List.mem_map.1 removed
      have there := cleared.there y mem
      rw [same, found] at there
      cases there
      exact emptied.below _ mem _ listed
    · cases found.symm.trans gone

/-- **Every other field** is what it was, but that the parent of the field lists it no longer. -/
theorem field?_remove_apart (h : t.Booked) (apart : ¬ t.Under f g) :
    (t.remove f).2.field? g =
      (t.field? g).map fun field => if t.parent? f = some g then field.dropChild f else field := by
  have other : g ≠ f := by
    rintro rfl
    exact apart .refl
  have left : g ∉ (t.remove f).1.map Field.id := by
    intro removed
    obtain ⟨x, mem, rfl⟩ := List.mem_map.1 removed
    exact apart (h.under_of_mem_removed mem)
  rw [h.field?_remove, if_neg left, h.field?_unlink]
  cases found : t.field? g with
  | none => rfl
  | some field =>
    rw [Option.map_some, Option.map_some, if_neg other]
    split
    · rfl
    · case isFalse elsewhere =>
      rw [Field.dropChild_eq_self fun mem => elsewhere ((h.mem_contents found).1 mem)]

/-- The removed fields are those below the field, as they were but for the parent of the first. -/
theorem mem_removed (h : t.Booked) (there : (t.field? f).isSome) :
    (∃ x ∈ (t.remove f).1, x.id = g) ↔ t.Under f g := by
  constructor
  · rintro ⟨x, mem, rfl⟩
    exact h.under_of_mem_removed mem
  · intro under
    have gone := h.field?_remove_under under
    rw [h.field?_remove] at gone
    split at gone
    · case isTrue removed => exact List.mem_map.1 removed
    · have known := h.exists_of_under under there
      rw [← h.isSome_field?_unlink f, gone] at known
      cases known

end Booked

end FieldTable

namespace Scene

variable {s s' : Scene} {f g : FieldId} {n : NodeId}

/-! ## Slots that stay empty -/

/-- There was a field with a number, and there is none any more. -/
structure Vacated (s : Scene) (g : FieldId) : Prop where
  used : g.index < s.panel.table.slots.size
  gone : s.panel.field? g = none

theorem Vacated.congr (h : s.Vacated g) (same : s'.panel.table.bare = s.panel.table.bare) :
    s'.Vacated g := by
  refine ⟨?_, ?_⟩
  · rw [← FieldTable.size_slots_bare, same, FieldTable.size_slots_bare]
    exact h.used
  · have there := FieldTable.isSome_field?_congr same g
    rw [show s.panel.table.field? g = none from h.gone] at there
    exact Option.isNone_iff_eq_none.1 (Option.isSome_eq_false_iff.1 there)

/-- No request fills a slot that was emptied. -/
theorem Vacated.turn {r : Request} (booked : s.panel.Booked) (h : s.Vacated g) (turn : r.Turn s s') :
    s'.Vacated g := by
  cases turn with
  | kept same _ => exact h.congr (congrArg Prod.fst same)
  | created name table _ =>
    refine ⟨?_, ?_⟩
    · rw [table, FieldTable.size_slots_add]
      exact Nat.lt_succ_of_lt h.used
    · unfold Panel.field?
      rw [table, FieldTable.field?_add, if_neg]
      · exact h.gone
      · rintro rfl
        exact Nat.lt_irrefl _ h.used
  | linked same _ _ table _ _ =>
    have before := h.congr (congrArg Prod.fst same)
    refine ⟨?_, ?_⟩
    · rw [table, FieldTable.Booked.size_link]
      exact before.used
    · unfold Panel.field?
      rw [table, (booked.congr same).table.field?_link]
      exact Option.map_eq_none_iff.2 before.gone
  | @removed f _ _ _ table _ =>
    obtain ⟨cleared, _⟩ := booked.table.cleared_remove f
    refine ⟨?_, ?_⟩
    · rw [table, cleared.size, FieldTable.Booked.size_unlink]
      exact h.used
    · unfold Panel.field?
      rw [table, cleared.field?, booked.table.field?_unlink, show s.panel.table.field? g = none from h.gone]
      split <;> rfl
  | viewed same _ table _ =>
    exact h.congr ((congrArg FieldTable.bare table).trans (congrArg Prod.fst same))

/-- **A field that is gone** stays so. -/
theorem Vacated.after (booked : s.panel.Booked) (h : s.Vacated g) (rs : List Request) :
    (s.after rs).Vacated g :=
  (after_induction (P := fun s => s.panel.Booked ∧ s.Vacated g)
    (fun s r here => ⟨here.1.turn (r.turn s), here.2.turn here.1 (r.turn s)⟩) rs ⟨booked, h⟩).2

/-- No new field gets the number of a field that is gone. -/
theorem Vacated.not_issued (h : s.Vacated g) (kind : FieldKind) (attributes : Attributes) :
    (exec (PanelM.createField kind attributes) s).1 ≠ .ok g := by
  rw [PanelM.exec_createField]
  rintro ⟨⟩
  exact Nat.lt_irrefl _ h.used

/-! ## Removing a field -/

/-- A field is taken out of its panel with everything below it, and nothing else is changed. -/
structure Uproots (s : Scene) (f : FieldId) (s' : Scene) : Prop where
  /-- Nothing but the fields, the views and the page is changed. -/
  rest : s' = ⟨{ s.panel with table := s'.panel.table, views := s'.panel.views }, s'.page, s.counters⟩
  /-- The fields below the field are gone, the others stay, and only the parent of the field is changed:
  it lists the field no longer. -/
  fields : ∀ g, (s.panel.table.Under f g → s'.panel.field? g = none) ∧
    (¬ s.panel.table.Under f g → s'.panel.field? g = (s.panel.field? g).map fun field =>
      if s.panel.table.parent? f = some g then field.dropChild f else field)
  /-- The index lists the fields that stay, as before. -/
  named : ∀ name, (s'.panel.table.named name).Sublist (s.panel.table.named name) ∧
    ∀ g, g ∈ s'.panel.table.named name ↔ g ∈ s.panel.table.named name ∧ ¬ s.panel.table.Under f g
  /-- The panels that removed fields showed are gone, the others stay. -/
  views : ∀ g, (s.panel.table.Under f g → s'.panel.view? g = none) ∧
    (¬ s.panel.table.Under f g → s'.panel.view? g = s.panel.view? g)
  /-- The nodes of the page are what they were. -/
  contents : ∀ n, s'.page.content? n = s.page.content? n
  /-- The widgets of removed fields are taken out of the tree they lay in. -/
  detached : ∀ g field w, s.Built g field w → s.panel.table.Under f g → s'.page.parent? w.root = none
  /-- Every other node stays where it is. -/
  placed : ∀ n, (∀ g field w, s.Built g field w → s.panel.table.Under f g → n ≠ w.root) →
    s'.page.parent? n = s.page.parent? n
  /-- The children of a node that stay are in their order. -/
  children : ∀ n, (s'.page.children n).Sublist (s.page.children n)
  /-- The removed fields never come back, and no new field gets the number of one. -/
  later : ∀ g, s.panel.table.Under f g → ∀ rs : List Request, (s'.after rs).panel.field? g = none ∧
    ∀ kind attributes, (exec (PanelM.createField kind attributes) (s'.after rs)).1 ≠ .ok g

/-- A widget of a removed field is the widget of a field below the first. -/
theorem mem_roots_removed (booked : s.panel.table.Booked) (there : (s.panel.field? f).isSome) :
    n ∈ (s.panel.table.remove f).1.filterMap Field.root? ↔
      ∃ g field w, s.Built g field w ∧ s.panel.table.Under f g ∧ n = w.root := by
  obtain ⟨cleared, _⟩ := booked.cleared_remove f
  have record : ∀ {x}, x ∈ (s.panel.table.remove f).1 →
      ∃ field, s.panel.field? x.id = some field ∧ x.widget = field.widget := by
    intro x mem
    have found := cleared.there x mem
    rw [booked.field?_unlink] at found
    obtain ⟨field, there, is⟩ := Option.map_eq_some_iff.1 found
    exact ⟨field, there, is ▸ rfl⟩
  rw [List.mem_filterMap]
  constructor
  · rintro ⟨x, mem, root⟩
    obtain ⟨w, widget, rfl⟩ := Option.map_eq_some_iff.1 root
    obtain ⟨field, found, same⟩ := record mem
    exact ⟨x.id, field, w, ⟨found, same ▸ widget⟩, booked.under_of_mem_removed mem, rfl⟩
  · rintro ⟨g, field, w, built, under, rfl⟩
    obtain ⟨x, mem, rfl⟩ := (booked.mem_removed there).2 under
    obtain ⟨field', found, same⟩ := record mem
    cases built.found.symm.trans found
    refine ⟨x, mem, ?_⟩
    unfold Field.root?
    rw [same, built.widget]
    rfl

/-- A field that is there is removed with everything below it. -/
theorem Custody.exec_removeField (h : s.Custody .empty False) (views : s.panel.Booked)
    (there : (s.panel.field? f).isSome) :
    ∃ s', exec (PanelM.removeField f) s = (.ok (), s') ∧ s.Uproots f s' := by
  have booked := h.booked
  obtain ⟨cleared, _⟩ := booked.cleared_remove f
  obtain ⟨_, children, contents⟩ :=
    h.rests.forest.detachAll ((s.panel.table.remove f).1.filterMap Field.root?)
  have parents := Page.Forest.parent?_detachAll
    ((s.panel.table.remove f).1.filterMap Field.root?) h.rests.forest
  have removed : ∀ g, g ∈ (s.panel.table.remove f).1.map Field.id ↔ s.panel.table.Under f g :=
    fun g => List.mem_map.trans (booked.mem_removed there)
  refine ⟨_, PanelM.exec_removeField there, ?_⟩
  refine ⟨rfl, fun g => ⟨booked.field?_remove_under, booked.field?_remove_apart⟩, fun name => ⟨?_, fun g => ?_⟩,
    fun g => ⟨fun under => ?_, fun apart => ?_⟩, contents, ?_, fun n outside => ?_, fun n => ?_,
    fun g under rs => ?_⟩
  · dsimp only
    rw [cleared.named, FieldTable.named, FieldTable.Booked.names_unlink]
    exact List.filter_sublist
  · dsimp only
    rw [cleared.named, FieldTable.named, FieldTable.Booked.names_unlink, List.mem_filter, ← removed]
    exact and_congr Iff.rfl decide_eq_true_iff
  · unfold Panel.view?
    rw [List.find?_eq_none.2]
    · rfl
    · intro entry mem
      obtain ⟨_, left⟩ := List.mem_filter.1 mem
      have stays := of_decide_eq_true left
      simp only [decide_eq_true_eq]
      rintro rfl
      exact stays ((removed _).2 under)
  · unfold Panel.view?
    rw [List.find?_filter]
    congr 2
    funext entry
    by_cases same : entry.1 = g
    · subst same
      simp [mt (removed entry.1).1 apart]
    · simp [same]
  · intro g field w built under
    dsimp only
    rw [parents, if_pos ((mem_roots_removed booked there).2 ⟨g, field, w, built, under, rfl⟩)]
  · dsimp only
    rw [parents, if_neg]
    intro mem
    obtain ⟨g, field, w, built, under, rfl⟩ := (mem_roots_removed booked there).1 mem
    exact outside g field w built under rfl
  · dsimp only
    rw [children]
    exact List.filter_sublist
  · obtain ⟨_, found⟩ := Option.isSome_iff_exists.1 (booked.exists_of_under under there)
    have after : (Request.after (.remove f) s).panel.Booked := views.turn (Request.turn _ s)
    rw [Request.after_eq (r := .remove f) (PanelM.exec_removeField there)] at after
    have vacated := Vacated.after (g := g) after ⟨?_, booked.field?_remove_under under⟩ rs
    · exact ⟨vacated.gone, vacated.not_issued⟩
    · dsimp only
      rw [cleared.size, FieldTable.Booked.size_unlink]
      exact FieldTable.lt_size_of_field? found

theorem Reached.booked (h : s.Reached) : s.panel.Booked := by
  induction h with
  | opened _ counters series messages => exact .create _ series messages
  | step _ _ booked => exact booked.turn (Request.turn _ _)

/-- **A field is removed** with exactly the fields below it; where there is no field, nothing is done. -/
theorem Reached.removeField_uproots (h : s.Reached) (f : FieldId) :
    ((s.panel.field? f).isSome →
      ∃ s', exec (PanelM.removeField f) s = (.ok (), s') ∧ s.Uproots f s') ∧
    (s.panel.field? f = none → exec (PanelM.removeField f) s = (.error (.unknownField f), s)) := by
  refine ⟨h.custody.exec_removeField h.booked, fun absent => ?_⟩
  rcases PanelM.exec_field_cases f s with ⟨_, found, _⟩ | ⟨_, fails⟩
  · cases absent.symm.trans found
  · exact exec_bind_error fails

/-- A label in a field, with its widget, and a label beside it. -/
def planted : Scene :=
  (opened .empty .empty ⟨0⟩ .empty).after
    [.create .panel .empty, .create .label .empty, .create .label .empty, .add ⟨0⟩ ⟨1⟩, .widget ⟨1⟩]

theorem Reached.removeField_uproots_planted : planted.Reached ∧ planted.panel.table.Under ⟨0⟩ ⟨1⟩ ∧
    ¬ planted.panel.table.Under ⟨0⟩ ⟨2⟩ ∧
    ∃ s', exec (PanelM.removeField ⟨0⟩) planted = (.ok (), s') ∧ s'.panel.field? ⟨1⟩ = none ∧
      s'.panel.field? ⟨2⟩ = planted.panel.field? ⟨2⟩ := by
  have reached : planted.Reached := by
    refine .step (.step (.step (.step (.step (.opened .empty _ _ _) ?_) ?_) ?_) ?_) ?_ <;> trivial
  have outer : (planted.panel.field? ⟨0⟩).map Field.contents = some [⟨1⟩] := by decide +kernel
  have beside : (planted.panel.table.parent? ⟨2⟩) = none := by decide +kernel
  obtain ⟨field, found, listed⟩ := Option.map_eq_some_iff.1 outer
  have below : planted.panel.table.Under ⟨0⟩ ⟨1⟩ := .single ⟨field, found, by rw [listed]; decide⟩
  have apart : ¬ planted.panel.table.Under ⟨0⟩ ⟨2⟩ := by
    intro under
    rcases Relation.ReflTransGen.cases_tail under with same | ⟨q, _, q_field, there, mem⟩
    · cases same
    · cases beside.symm.trans ((reached.custody.booked.mem_contents there).1 mem)
  obtain ⟨s', run, uproots⟩ := (reached.removeField_uproots ⟨0⟩).1 (Option.isSome_of_mem found)
  have aside : planted.panel.table.parent? ⟨0⟩ = none := by decide +kernel
  have stays := (uproots.fields ⟨2⟩).2 apart
  rw [aside] at stays
  exact ⟨reached, below, apart, s', run, (uproots.fields ⟨1⟩).1 below, stays.trans (by simp)⟩

end Scene

end Formwork
