import Mathlib.Data.List.Perm.Subperm
import Formwork.Proofs.Panel.Reached
import Formwork.Proofs.Panel.Lasting

/-!
# Panels in panels

A panel may show others in its views, which show others (`Panel.all`).  While no field shows two panels
(`Panel.Tidy`), a panel that is shown can be changed in its place, and the panels around it are the same then, but
for what they show (`Panel.Reworks`, `Panel.Reworks.all`).

Panels that stand on one page keep to themselves: no node belongs to two of them (`Page.Lodges`).  Whatever is asked
of one of them (`Page.Lodges.leads`), this is kept; and it does not depend on what the panels show
(`Page.Lodges.of_cores`).
-/

namespace Formwork

set_option autoImplicit false

open Panel (Request)

namespace Panel

/-! ## Panels in panels -/

mutual

/-- A panel and the panels that are shown in it, at any depth. -/
def all : Panel → List Panel
  | ⟨root, table, series, messages, views, submit, cancel, click⟩ =>
    ⟨root, table, series, messages, views, submit, cancel, click⟩ :: allIn views

/-- The panels that views show, and those that are shown in them. -/
def allIn : List (FieldId × Panel) → List Panel
  | [] => []
  | (_, view) :: views => view.all ++ allIn views

end

variable {p p' q q' view : Panel} {f : FieldId} {n : NodeId}

theorem all_eq (p : Panel) : p.all = p :: allIn p.views := by
  cases p
  rw [all]

theorem allIn_append : ∀ views views' : List (FieldId × Panel),
    allIn (views ++ views') = allIn views ++ allIn views'
  | [], _ => rfl
  | (_, view) :: views, views' => by
    rw [List.cons_append, allIn, allIn, allIn_append views views', List.append_assoc]

theorem mem_allIn : ∀ {views : List (FieldId × Panel)},
    q ∈ allIn views ↔ ∃ entry ∈ views, q ∈ entry.2.all
  | [] => by simp [allIn]
  | (_, view) :: views => by
    rw [allIn, List.mem_append, mem_allIn]
    simp

theorem sublist_allIn {views views' : List (FieldId × Panel)} (fewer : views'.Sublist views) :
    (allIn views').Sublist (allIn views) := by
  induction fewer with
  | slnil => exact .refl _
  | cons entry _ ih =>
    rw [allIn]
    exact ih.trans (List.sublist_append_right ..)
  | cons_cons entry _ ih =>
    rw [allIn, allIn]
    exact List.Sublist.append_left ih _

/-- A panel without the panels that it shows. -/
def core (p : Panel) : Panel := { p with views := [] }

theorem subperm_map_core {ps qs : List Panel} (fewer : qs.Subperm ps) :
    (qs.map core).Subperm (ps.map core) := by
  obtain ⟨mid, perm, sub⟩ := fewer
  exact ⟨mid.map core, perm.map core, sub.map core⟩

/-- No field of a panel shows two panels, and so it is with the panels that are shown. -/
def Tidy (p : Panel) : Prop := ∀ q ∈ p.all, (q.views.map Prod.fst).Nodup

theorem tidy_iff : p.Tidy ↔ (p.views.map Prod.fst).Nodup ∧ ∀ entry ∈ p.views, entry.2.Tidy := by
  unfold Tidy
  rw [all_eq, List.forall_mem_cons]
  refine and_congr Iff.rfl ⟨fun h entry mem q below => h q (mem_allIn.2 ⟨entry, mem, below⟩), ?_⟩
  intro h q below
  obtain ⟨entry, mem, below⟩ := mem_allIn.1 below
  exact h entry mem q below

/-- Panels are taken away. -/
theorem Tidy.sublist (tidy : q.Tidy) (fewer : p.views.Sublist q.views) : p.Tidy := by
  obtain ⟨distinct, below⟩ := tidy_iff.1 tidy
  exact tidy_iff.2 ⟨distinct.sublist (fewer.map _), fun entry mem => below entry (fewer.subset mem)⟩

/-- A panel is shown in the place of another. -/
theorem Tidy.shows (tidy : q.Tidy) (tidy' : view.Tidy)
    (views : p.views = q.views.filter (fun entry => entry.1 ≠ f) ++ [(f, view)]) : p.Tidy := by
  obtain ⟨distinct, below⟩ := tidy_iff.1 tidy
  rw [tidy_iff, views, List.map_append, List.nodup_append']
  refine ⟨⟨distinct.sublist (List.filter_sublist.map _), List.nodup_singleton _, ?_⟩, fun entry mem => ?_⟩
  · intro g mem mem'
    obtain ⟨entry, left, rfl⟩ := List.mem_map.1 mem
    exact of_decide_eq_true (List.mem_filter.1 left).2 (List.mem_singleton.1 mem')
  · rcases List.mem_append.1 mem with old | new
    · exact below entry (List.mem_of_mem_filter old)
    · rw [List.mem_singleton.1 new]
      exact tidy'

/-- The panel that a field shows is changed in its place. -/
theorem views_updateView (tidy : p.Tidy) (shown : p.view? f = some view) :
    ∃ front back, p.views = front ++ (f, view) :: back ∧
      ∀ view', (p.updateView f fun _ => view').views = front ++ (f, view') :: back := by
  unfold view? at shown
  obtain ⟨⟨g, v⟩, found, rfl⟩ := Option.map_eq_some_iff.1 shown
  obtain ⟨same, front, back, views, before⟩ := List.find?_eq_some_iff_append.1 found
  obtain rfl := of_decide_eq_true same
  refine ⟨front, back, views, fun view' => ?_⟩
  have distinct := (tidy_iff.1 tidy).1
  rw [views, List.map_append, List.map_cons, List.nodup_append', List.nodup_cons] at distinct
  have stays : ∀ entries : List (FieldId × Panel), (∀ entry ∈ entries, entry.1 ≠ g) →
      entries.map (fun entry => if entry.1 = g then (g, view') else entry) = entries := by
    intro entries others
    refine (List.map_congr_left fun entry mem => ?_).trans (List.map_id _)
    rw [if_neg (others entry mem)]
    rfl
  have inFront : ∀ entry ∈ front, entry.1 ≠ g := fun entry mem => by simpa using before entry mem
  have inBack : ∀ entry ∈ back, entry.1 ≠ g := by
    rintro entry mem rfl
    exact distinct.2.1.1 (List.mem_map.2 ⟨entry, mem, rfl⟩)
  unfold updateView
  dsimp only
  rw [views, List.map_append, List.map_cons, if_pos rfl, stays front inFront, stays back inBack]

theorem view?_of_mem (tidy : p.Tidy) (mem : (f, view) ∈ p.views) : p.view? f = some view := by
  have distinct := (tidy_iff.1 tidy).1
  cases found : p.views.find? fun entry => entry.1 = f with
  | none => exact absurd rfl (of_decide_eq_false (Bool.eq_false_iff.2 (List.find?_eq_none.1 found _ mem)))
  | some entry =>
    have same : entry.1 = f := by simpa using List.find?_some found
    have is := List.inj_on_of_nodup_map distinct (List.mem_of_find?_eq_some found) mem same
    unfold view?
    rw [found, is]
    rfl

/-- A panel is changed in one place of another: it is the other, or it is changed in a panel that the other
shows. -/
inductive Reworks (q q' : Panel) : Panel → Panel → Prop where
  | here : Reworks q q' q q'
  | inView {p view view' : Panel} {f : FieldId} : p.view? f = some view → Reworks q q' view view' →
      Reworks q q' p (p.updateView f fun _ => view')

mutual

/-- In a tidy panel every panel that is shown can be changed. -/
theorem exists_reworks (q' : Panel) : ∀ {p : Panel}, p.Tidy → q ∈ p.all → ∃ p', Reworks q q' p p'
  | ⟨root, table, series, messages, views, submit, cancel, click⟩, tidy, mem => by
    rw [all, List.mem_cons] at mem
    rcases mem with rfl | below
    · exact ⟨q', .here⟩
    · obtain ⟨⟨f, view⟩, listed, view', changed⟩ := exists_reworksIn q' (tidy_iff.1 tidy).2 below
      exact ⟨_, .inView (view?_of_mem tidy listed) changed⟩

theorem exists_reworksIn (q' : Panel) : ∀ {views : List (FieldId × Panel)},
    (∀ entry ∈ views, entry.2.Tidy) → q ∈ allIn views → ∃ entry ∈ views, ∃ view', Reworks q q' entry.2 view'
  | (f, view) :: views, tidy, mem => by
    rw [allIn, List.mem_append] at mem
    rcases mem with here | later
    · obtain ⟨view', changed⟩ := exists_reworks q' (tidy _ List.mem_cons_self) here
      exact ⟨(f, view), List.mem_cons_self, view', changed⟩
    · obtain ⟨entry, listed, rest⟩ :=
        exists_reworksIn q' (fun entry mem => tidy entry (List.mem_cons_of_mem _ mem)) later
      exact ⟨entry, List.mem_cons_of_mem _ listed, rest⟩

end

namespace Reworks

theorem tidy_old (h : Reworks q q' p p') (tidy : p.Tidy) : q.Tidy := by
  induction h with
  | here => exact tidy
  | @inView p view view' f shown _ ih =>
    obtain ⟨front, back, views, _⟩ := views_updateView tidy shown
    refine ih ((tidy_iff.1 tidy).2 (f, view) ?_)
    rw [views]
    exact List.mem_append_right _ List.mem_cons_self

theorem tidy (h : Reworks q q' p p') (tidy : p.Tidy) (tidy' : q'.Tidy) : p'.Tidy := by
  induction h with
  | here => exact tidy'
  | @inView p view view' f shown _ ih =>
    obtain ⟨front, back, views, views'⟩ := views_updateView tidy shown
    obtain ⟨distinct, below⟩ := tidy_iff.1 tidy
    rw [views] at distinct below
    refine tidy_iff.2 ⟨?_, fun entry mem => ?_⟩
    · rw [views']
      simpa using distinct
    · rw [views', List.mem_append, List.mem_cons] at mem
      rcases mem with before | rfl | behind
      · exact below entry (List.mem_append_left _ before)
      · exact ih (below (f, view) (List.mem_append_right _ List.mem_cons_self))
      · exact below entry (List.mem_append_right _ (List.mem_cons_of_mem _ behind))

/-- The panels around the one that is changed are the same, but for what they show. -/
theorem all (h : Reworks q q' p p') (tidy : p.Tidy) : ∃ before behind : List Panel,
    p.all.map core = (before ++ q.all ++ behind).map core ∧
      p'.all.map core = (before ++ q'.all ++ behind).map core := by
  induction h with
  | here => exact ⟨[], [], by simp, by simp⟩
  | @inView p view view' f shown _ ih =>
    obtain ⟨front, back, views, views'⟩ := views_updateView tidy shown
    obtain ⟨before, behind, same, same'⟩ := ih ((tidy_iff.1 tidy).2 (f, view) (by
      rw [views]
      exact List.mem_append_right _ List.mem_cons_self))
    refine ⟨p :: allIn front ++ before, behind ++ allIn back, ?_, ?_⟩
    · rw [all_eq, views, allIn_append, allIn]
      simp only [List.map_cons, List.map_append, List.cons_append, List.append_assoc] at same ⊢
      rw [same]
      simp only [List.append_assoc]
    · rw [all_eq, views', allIn_append, allIn]
      simp only [List.map_cons, List.map_append, List.cons_append, List.append_assoc] at same' ⊢
      rw [same']
      simp only [List.append_assoc]
      rfl

end Reworks

/-! ## The nodes of a panel -/

/-- A node belongs to a panel: it is its topmost node, or a widget of the panel has it for its own. -/
def Owns (p : Panel) (n : NodeId) : Prop :=
  n = p.root ∨ ∃ f field w, p.field? f = some field ∧ field.widget = some w ∧ n ∈ w.own

/-- No node belongs to both of two panels. -/
def Apart (p q : Panel) : Prop := ∀ n, p.Owns n → ¬ q.Owns n

theorem Apart.symm (h : p.Apart q) : q.Apart p := fun n owns owns' => h n owns' owns

/-- The topmost nodes of the widgets of a panel. -/
def widgetRoots (p : Panel) : List NodeId := p.table.fields.filterMap Field.root?

end Panel

open Panel (core)

namespace Scene.Custody

variable {s s' : Scene} {f : FieldId} {field : Field} {w : Widget} {n : NodeId}

/-- Others change the page, and leave elements elements. -/
theorem elsewhere (h : s.Custody .empty False) (table : s'.panel.table = s.panel.table)
    (root : s'.panel.root = s.panel.root) (forest : s'.page.Forest) (size : s.page.size ≤ s'.page.size)
    (tags : ∀ n : NodeId, n.index < s.page.size → s'.page.tag? n = s.page.tag? n) :
    s'.Custody .empty False := by
  have moved : Page.Confined .empty (fun _ => True) s.page s'.page :=
    ⟨⟨.empty, forest, Nat.zero_le _, nofun⟩, size, tags, fun _ _ outside => (outside trivial).elim,
      fun _ _ outside => (outside trivial).elim⟩
  refine (h.leads_table moved nofun (table ▸ h.booked) root fun built => ⟨_, ?_, rfl, rfl⟩).custody
  have found := built.found
  unfold Panel.field? at found ⊢
  rwa [table] at found

theorem known_of_owns (h : s.Custody .empty False) (owns : s.panel.Owns n) : n.index < s.page.size := by
  rcases owns with rfl | ⟨f, field, w, found, widget, mem⟩
  · exact Page.lt_size_of_tag? h.root.2
  · exact h.own_known ⟨found, widget⟩ mem

/-- The topmost node of a widget tells its field. -/
theorem fieldByWidget?_root (h : s.Custody .empty False) (built : s.Built f field w) :
    s.panel.fieldByWidget? w.root = some f := by
  have owner : ∀ x ∈ s.panel.table.fields, x.root? = some w.root → x.id = f := by
    intro x mem root
    obtain ⟨g, _, found⟩ := List.mem_filterMap.1 mem
    obtain ⟨w', widget, same⟩ := Option.map_eq_some_iff.1 root
    rw [h.booked.ids found]
    by_contra other
    exact h.apart ⟨found, widget⟩ built other _ w'.root_mem_own (same ▸ w.root_mem_own)
  have listed : field ∈ s.panel.table.fields :=
    List.mem_filterMap.2 ⟨f, h.booked.mem_ids.2 ⟨field, built.found⟩, built.found⟩
  have root : field.root? = some w.root := by
    unfold Field.root?
    rw [built.widget]
    rfl
  unfold Panel.fieldByWidget?
  cases found : s.panel.table.fields.find? fun field => field.root? = some w.root with
  | none => exact absurd (decide_eq_true root) (List.find?_eq_none.1 found field listed)
  | some x =>
    have root' : x.root? = some w.root := by simpa using List.find?_some found
    exact congrArg some (owner x (List.mem_of_find?_eq_some found) root')

theorem nodup_widgetRoots (h : s.Custody .empty False) : s.panel.widgetRoots.Nodup := by
  unfold Panel.widgetRoots FieldTable.fields
  rw [List.filterMap_filterMap]
  refine List.Nodup.filterMap ?_ h.booked.nodup_ids
  intro f g n root root'
  obtain ⟨field, found, is⟩ := Option.bind_eq_some_iff.1 root
  obtain ⟨field', found', is'⟩ := Option.bind_eq_some_iff.1 root'
  obtain ⟨w, widget, rfl⟩ := Option.map_eq_some_iff.1 is
  obtain ⟨w', widget', same⟩ := Option.map_eq_some_iff.1 is'
  by_contra other
  exact h.apart ⟨found, widget⟩ ⟨found', widget'⟩ other _ w.root_mem_own (same ▸ w'.root_mem_own)

end Scene.Custody

/-! ## Panels that keep to themselves -/

/-- Panels stand on a page: each of them keeps its widgets apart, and no node belongs to two of them. -/
structure Page.Lodges (page : Page) (ps : List Panel) : Prop where
  forest : page.Forest
  custody : ∀ p ∈ ps, ∀ counters, (Scene.mk p page counters).Custody .empty False
  apart : ps.Pairwise Panel.Apart

namespace Page.Lodges

variable {page page' : Page} {ps qs : List Panel} {p : Panel}

/-- Whether panels keep to themselves does not depend on what they show. -/
theorem of_cores (h : page.Lodges ps) (fewer : (qs.map core).Subperm (ps.map core)) : page.Lodges qs := by
  refine ⟨h.forest, fun q mem counters => ?_, ?_⟩
  · obtain ⟨p, listed, same⟩ := List.mem_map.1 (fewer.subset (List.mem_map_of_mem mem))
    refine (h.custody p listed counters).elsewhere ?_ ?_ h.forest (Nat.le_refl _) fun _ _ => rfl
    · exact (congrArg Panel.table same).symm
    · exact (congrArg Panel.root same).symm
  · obtain ⟨mid, perm, sub⟩ := fewer
    have apart : (ps.map core).Pairwise Panel.Apart := List.pairwise_map.2 h.apart
    have left : (qs.map core).Pairwise Panel.Apart :=
      (perm.pairwise_iff fun h => h.symm).1 (apart.sublist sub)
    exact (List.pairwise_map.1 left :)

/-- Others change the page, and leave elements elements. -/
theorem elsewhere (h : page.Lodges ps) (forest : page'.Forest) (size : page.size ≤ page'.size)
    (tags : ∀ n : NodeId, n.index < page.size → page'.tag? n = page.tag? n) : page'.Lodges ps :=
  ⟨forest, fun p mem counters => (h.custody p mem counters).elsewhere rfl rfl forest size tags, h.apart⟩

/-- **Whatever is asked of a panel**, the panels keep to themselves. -/
theorem leads (h : page.Lodges (p :: ps)) {counters : CounterPool} {s' : Scene}
    (leads : (Scene.mk p page counters).Leads .empty False s') : s'.page.Lodges (s'.panel :: ps) := by
  obtain ⟨away, apart⟩ := List.pairwise_cons.1 h.apart
  have forest := leads.custody.rests.forest
  have rest : page.Lodges ps := ⟨h.forest, fun q mem => h.custody q (List.mem_cons_of_mem _ mem), apart⟩
  refine ⟨forest, fun q mem counters' => ?_, List.pairwise_cons.2 ⟨fun q mem n owns owns' => ?_, apart⟩⟩
  · rcases List.mem_cons.1 mem with rfl | mem
    · exact leads.custody.elsewhere rfl rfl forest (Nat.le_refl _) fun _ _ => rfl
    · exact (rest.elsewhere forest leads.size leads.tag).custody q mem counters'
  · -- a node of another panel was there before and belonged to no widget of this one
    have old : n.index < page.size := (rest.custody q mem counters).known_of_owns owns'
    have free : ¬ p.Owns n := fun owns => away q mem n owns owns'
    have foreign : (Scene.mk p page counters).Foreign n :=
      fun f field w built mem => free (.inr ⟨f, field, w, built.found, built.widget, mem⟩)
    rcases owns with rfl | ⟨f, field, w, found, widget, mem⟩
    · exact free (.inl leads.root)
    · exact leads.foreign n old foreign f field w ⟨found, widget⟩ mem

/-- A panel is opened. -/
theorem opened (h : page.Lodges ps) (series : SeriesId) (messages : Messages) :
    (Panel.create page series messages).2.Lodges ((Panel.create page series messages).1 :: ps) := by
  have made : Page.Confined .empty Page.nowhere page (page.createElement "div").2 :=
    .create ⟨.empty, h.forest, Nat.zero_le _, nofun⟩ _
  have others := h.elsewhere made.rests.forest made.size made.tag
  refine ⟨made.rests.forest, fun q mem counters => ?_, List.pairwise_cons.2 ⟨fun q mem n owns owns' => ?_, h.apart⟩⟩
  · rcases List.mem_cons.1 mem with rfl | mem
    · exact (@Scene.custody_opened False page h.forest counters series messages).forget
    · exact others.custody q mem counters
  · rcases owns with rfl | ⟨f, field, w, found, _⟩
    · exact Nat.lt_irrefl _ ((h.custody q mem .empty).known_of_owns owns')
    · cases found

end Page.Lodges

end Formwork
