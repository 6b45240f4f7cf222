import Formwork.Proofs.Panel.Reached
import Formwork.Proofs.Panel.Lasting

/-!
# Showing one panel after another

A panel is put into a view in two places: the table of views keeps it in the place of the one that the view showed,
and its topmost node joins the children of the widget.  The topmost node of the panel that was shown before is not
taken out.

So behind any installations (`Scene.Installs`) a view keeps the panel that was installed there last, and it shows every
panel that was installed there and nowhere else since.  It shows only the panel that it keeps exactly if the other
panels were installed elsewhere afterwards; when no panel is installed twice, exactly if the view was given one panel
only (`Scene.Reached.views_show`).
-/

namespace Formwork

set_option autoImplicit false

open Panel (Request)

/-- Panels that are to be installed, one after the other, and the fields that are to show them. -/
abbrev Installations := List (FieldId × Panel)

namespace Installations

variable {us : Installations} {f g : FieldId} {u v : Panel} {n : NodeId}

/-- The panel that was installed in a field last. -/
def lastIn (us : Installations) (f : FieldId) : Option Panel :=
  (us.reverse.find? fun entry => entry.1 = f).map Prod.snd

/-- The field in which a panel with a topmost node was installed last. -/
def placeOf (us : Installations) (n : NodeId) : Option FieldId :=
  (us.reverse.find? fun entry => entry.2.root = n).map Prod.fst

/-- No panel is installed twice. -/
def Once (us : Installations) : Prop := (us.map fun entry => entry.2.root).Nodup

theorem lastIn_concat (us : Installations) (f g : FieldId) (u : Panel) :
    lastIn (us ++ [(f, u)]) g = if f = g then some u else us.lastIn g := by
  unfold lastIn
  rw [List.reverse_append, List.reverse_singleton, List.singleton_append, List.find?_cons]
  by_cases same : f = g <;> simp [same]

theorem placeOf_concat (us : Installations) (f : FieldId) (u : Panel) (n : NodeId) :
    placeOf (us ++ [(f, u)]) n = if u.root = n then some f else us.placeOf n := by
  unfold placeOf
  rw [List.reverse_append, List.reverse_singleton, List.singleton_append, List.find?_cons]
  by_cases same : u.root = n <;> simp [same]

theorem mem_of_lastIn (last : us.lastIn f = some v) : (f, v) ∈ us := by
  obtain ⟨⟨g, u⟩, found, rfl⟩ := Option.map_eq_some_iff.1 last
  have same : g = f := by simpa using List.find?_some found
  rw [← same]
  exact List.mem_reverse.1 (List.mem_of_find?_eq_some found)

theorem exists_lastIn (mem : (f, u) ∈ us) : ∃ v, us.lastIn f = some v := by
  cases found : us.reverse.find? fun entry => entry.1 = f with
  | none => exact absurd (decide_eq_true rfl) (List.find?_eq_none.1 found (f, u) (List.mem_reverse.2 mem))
  | some entry => exact ⟨entry.2, by unfold lastIn; rw [found]; rfl⟩

theorem exists_placeOf (mem : (f, u) ∈ us) : ∃ g, us.placeOf u.root = some g := by
  cases found : us.reverse.find? fun entry => entry.2.root = u.root with
  | none => exact absurd (decide_eq_true rfl) (List.find?_eq_none.1 found (f, u) (List.mem_reverse.2 mem))
  | some entry => exact ⟨entry.1, by unfold placeOf; rw [found]; rfl⟩

/-- A panel that is installed once stays where it was put. -/
theorem Once.placeOf (once : us.Once) (mem : (f, u) ∈ us) : us.placeOf u.root = some f := by
  obtain ⟨g, place⟩ := exists_placeOf mem
  obtain ⟨entry, found, rfl⟩ := Option.map_eq_some_iff.1 place
  have root : entry.2.root = u.root := by simpa using List.find?_some found
  have is := List.inj_on_of_nodup_map once (List.mem_reverse.1 (List.mem_of_find?_eq_some found)) mem root
  rw [place, is]

/-- If no panel is installed twice, a field is given panels with one topmost node only exactly if it is given one
panel. -/
theorem Once.length_filter (once : us.Once) (last : us.lastIn f = some v) :
    (∀ u, (f, u) ∈ us → u.root = v.root) ↔ (us.filter fun entry => entry.1 = f).length = 1 := by
  have listed : (f, v) ∈ us.filter fun entry => entry.1 = f :=
    List.mem_filter.2 ⟨mem_of_lastIn last, decide_eq_true rfl⟩
  constructor
  · intro same
    have roots : (us.filter fun entry => entry.1 = f).map (fun entry => entry.2.root) =
        List.replicate (us.filter fun entry => entry.1 = f).length v.root := by
      refine List.eq_replicate_iff.2 ⟨List.length_map _, fun n mem => ?_⟩
      obtain ⟨⟨g, u⟩, kept, rfl⟩ := List.mem_map.1 mem
      obtain ⟨member, is⟩ := List.mem_filter.1 kept
      obtain rfl : g = f := of_decide_eq_true is
      exact same u member
    have distinct : ((us.filter fun entry => entry.1 = f).map fun entry => entry.2.root).Nodup :=
      List.Nodup.sublist (List.filter_sublist.map _) once
    rw [roots, List.nodup_replicate] at distinct
    exact Nat.le_antisymm distinct (List.length_pos_of_mem listed)
  · intro one u mem
    obtain ⟨entry, only⟩ := List.length_eq_one_iff.1 one
    have mem' : (f, u) ∈ us.filter fun entry => entry.1 = f :=
      List.mem_filter.2 ⟨mem, decide_eq_true rfl⟩
    rw [only, List.mem_singleton] at listed mem'
    exact congrArg (fun entry => entry.2.root) (mem'.trans listed.symm)

end Installations

namespace Scene

variable {s s' s₁ : Scene} {us : Installations} {f g : FieldId} {field : Field} {w : Widget} {u v : Panel}
  {n : NodeId}

/-- Panels are installed one after the other, and every installation succeeds. -/
inductive Installs (s : Scene) : Installations → Scene → Prop where
  | none : Installs s [] s
  | install {us : Installations} {s₁ s' : Scene} {f : FieldId} {u : Panel} : Installs s us s₁ →
      u.root.index < s₁.page.size → exec (PanelM.setView f u) s₁ = (.ok (), s') →
      Installs s (us ++ [(f, u)]) s'

/-- A view shows the panel that it keeps, and no other that was installed there. -/
def ShowsOnly (s : Scene) (us : Installations) (f : FieldId) : Prop :=
  ∃ field w v, s.Built f field w ∧ s.panel.view? f = some v ∧ v.root ∈ s.page.children w.root ∧
    ∀ u, (f, u) ∈ us → u.root ≠ v.root → u.root ∉ s.page.children w.root

/-! ## One installation -/

/-- **Installing a panel**: the widget is asked for, the topmost node of the panel joins its children, and the panel
is kept in the place of the one that was kept. -/
theorem Custody.exec_setView_ok (h : s.Custody .empty False) (run : exec (PanelM.setView f u) s = (.ok (), s')) :
    ∃ field w s₁ p, PanelM.Asks .empty False s f field w s₁ ∧ s₁.panel.views = s.panel.views ∧
      s₁.page.append w.root u.root = .ok p ∧ s' = ⟨{ s₁.panel with
        views := s₁.panel.views.filter (fun entry => entry.1 ≠ f) ++ [(f, u)] }, p, s₁.counters⟩ := by
  unfold PanelM.setView at run
  obtain ⟨n, s₁, asked, run⟩ := exec_bind_eq_ok.1 run
  obtain ⟨_, s₂, appended, run⟩ := exec_bind_eq_ok.1 run
  obtain ⟨field, found⟩ := Option.isSome_iff_exists.1 (PanelM.field?_of_widget asked)
  obtain ⟨w, s₁', asked', asks⟩ := PanelM.exec_widget h found
  have views := Panel.Request.overlooks_views.root f s
  rw [asked] at asked' views
  cases asked'
  cases place : s₁.page.append w.root u.root with
  | error e =>
    rw [PanelM.exec_onPage_error (by rw [PageM.exec_append, place]; rfl)] at appended
    cases appended
  | ok p =>
    rw [PanelM.exec_append place] at appended
    cases appended
    cases run
    exact ⟨field, w, s₁, p, asks, views, place, rfl⟩

/-- What is so behind some installations: a panel is among the children of the view in which it was installed last,
and a view keeps the panel that was installed there last. -/
structure Installed (us : Installations) (s : Scene) : Prop where
  custody : s.Custody .empty False
  built : ∀ f u, (f, u) ∈ us → ∃ field w, s.Built f field w
  placed : ∀ n f, us.placeOf n = some f → ∃ field w, s.Built f field w ∧ n ∈ s.page.children w.root
  kept : ∀ f v, us.lastIn f = some v → s.panel.view? f = some v

theorem Installed.install (h : s.Installed us) (known : u.root.index < s.page.size)
    (run : exec (PanelM.setView f u) s = (.ok (), s')) : s'.Installed (us ++ [(f, u)]) := by
  have custody : s'.Custody .empty False := by
    have after : Request.after (.setView f u) s = s' := Request.after_eq (r := .setView f u) run
    exact after ▸ (Request.leads (r := .setView f u) h.custody known).custody
  obtain ⟨field, w, s₁, p, asks, views, place, rfl⟩ := h.custody.exec_setView_ok run
  have forest := asks.leads.custody.rests.forest
  refine ⟨custody, fun g x mem => ?_, fun n g placed => ?_, fun g v last => ?_⟩
  · rcases List.mem_append.1 mem with old | new
    · obtain ⟨field', w', built⟩ := h.built g x old
      have stays := asks.stays built
      exact ⟨field', w', stays.found, stays.widget⟩
    · cases List.mem_singleton.1 new
      exact ⟨_, w, asks.built.found, asks.built.widget⟩
  · rw [Installations.placeOf_concat] at placed
    split at placed
    · case isTrue here =>
      cases placed
      refine ⟨_, w, ⟨asks.built.found, asks.built.widget⟩, ?_⟩
      rw [show Page.children p w.root = _ from forest.children_append place w.root, if_pos rfl, here]
      exact List.mem_append_right _ List.mem_cons_self
    · case isFalse other =>
      obtain ⟨field', w', built, mem⟩ := h.placed n g placed
      have stays := asks.stays built
      refine ⟨field', w', ⟨stays.found, stays.widget⟩, ?_⟩
      have same : s₁.page.children w'.root = s.page.children w'.root := by
        unfold Page.children
        rw [asks.grows.old _ (h.custody.own_known built w'.root_mem_own)]
      rw [show Page.children p w'.root = _ from forest.children_append place w'.root, same]
      exact List.mem_append_left _ (List.mem_filter.2 ⟨mem, decide_eq_true (Ne.symm other)⟩)
  · rw [Installations.lastIn_concat] at last
    unfold Panel.view?
    dsimp only
    rw [List.find?_append]
    split at last
    · case isTrue here =>
      subst here
      cases last
      rw [List.find?_eq_none.2 fun entry mem => ?_]
      · simp
      · simpa using of_decide_eq_true (List.mem_filter.1 mem).2
    · case isFalse other =>
      have before := h.kept g v last
      unfold Panel.view? at before
      obtain ⟨entry, found, rfl⟩ := Option.map_eq_some_iff.1 before
      have agree : (s₁.panel.views.filter fun entry => entry.1 ≠ f).find? (fun entry => entry.1 = g) =
          some entry := by
        rw [List.find?_filter, views, ← found]
        congr 1
        funext entry
        by_cases same : entry.1 = g
        · simp [same, Ne.symm other]
        · simp [same]
      rw [agree]
      rfl

theorem Installs.installed (h : s.Custody .empty False) (installs : s.Installs us s') : s'.Installed us := by
  induction installs with
  | none => exact ⟨h, nofun, nofun, nofun⟩
  | install _ known run ih => exact ih.install known run

/-! ## What views show -/

/-- A view shows the panels that were installed there last. -/
theorem Installed.mem_children_iff (h : s.Installed us) (built : s.Built f field w) (mem : (g, u) ∈ us) :
    u.root ∈ s.page.children w.root ↔ us.placeOf u.root = some f := by
  obtain ⟨f', place⟩ := Installations.exists_placeOf mem
  obtain ⟨field', w', built', child⟩ := h.placed _ _ place
  rw [place]
  constructor
  · intro child'
    have same := h.custody.rests.forest.eq_of_mem_children child' child
    refine congrArg some ?_
    by_contra other
    exact h.custody.apart built' built other _ w'.root_mem_own (same ▸ w.root_mem_own)
  · intro same
    cases same
    obtain ⟨_, rfl⟩ := built.unique built'
    exact child

/-- **What the views of a panel show** behind installations that succeed.  A view keeps the panel that was installed
there last, and shows those that were installed there last.  So it shows only the panel that it keeps exactly if the
others were installed elsewhere afterwards; if no panel is installed twice, exactly if it was given one panel only. -/
theorem Reached.views_show (h : s.Reached) (installs : s.Installs us s') (mem : (f, u) ∈ us) :
    ∃ field w v, s'.Built f field w ∧ us.lastIn f = some v ∧ s'.panel.view? f = some v ∧
      (∀ g x, (g, x) ∈ us → (x.root ∈ s'.page.children w.root ↔ us.placeOf x.root = some f)) ∧
      (s'.ShowsOnly us f ↔ ∀ x, (f, x) ∈ us → (us.placeOf x.root = some f ↔ x.root = v.root)) ∧
      (us.Once → (s'.ShowsOnly us f ↔ (us.filter fun entry => entry.1 = f).length = 1)) := by
  have installed := installs.installed h.custody
  obtain ⟨v, last⟩ := Installations.exists_lastIn mem
  have kept := installed.kept f v last
  obtain ⟨field, w, built⟩ := installed.built f u mem
  have child : ∀ g x, (g, x) ∈ us → (x.root ∈ s'.page.children w.root ↔ us.placeOf x.root = some f) :=
    fun g x mem => installed.mem_children_iff built mem
  have only : s'.ShowsOnly us f ↔ ∀ x, (f, x) ∈ us → (us.placeOf x.root = some f ↔ x.root = v.root) := by
    constructor
    · rintro ⟨_, w', v', built', kept', here, others⟩ x listed
      obtain ⟨_, rfl⟩ := built.unique built'
      cases kept.symm.trans kept'
      rw [← child f x listed]
      constructor
      · intro there
        by_contra other
        exact others x listed other there
      · intro same
        rwa [same]
    · intro places
      have listed := Installations.mem_of_lastIn last
      refine ⟨field, w, v, built, kept, (child f v listed).2 ((places v listed).2 rfl), fun x mem other there => ?_⟩
      exact other ((places x mem).1 ((child f x mem).1 there))
  refine ⟨field, w, v, built, last, kept, child, only, fun once => only.trans ?_⟩
  rw [← once.length_filter last]
  refine forall₂_congr fun x listed => ?_
  rw [once.placeOf listed, eq_self_iff_true, true_iff]

/-- Two panels that nothing shows yet. -/
def portrait : Panel := (Panel.create .empty ⟨0⟩ .empty).1

def landscape : Panel := (Panel.create (Panel.create .empty ⟨0⟩ .empty).2 ⟨0⟩ .empty).1

/-- A panel beside them, with a field for a view. -/
def wall : Scene :=
  (opened (Panel.create (Panel.create .empty ⟨0⟩ .empty).2 ⟨0⟩ .empty).2 .empty ⟨0⟩ .empty).after
    [.create .view .empty]

theorem reached_wall : wall.Reached :=
  .step (.opened ((Page.Forest.empty.create _).create _) _ _ _) trivial

theorem Installs.after (installs : s.Installs us s₁) (known : u.root.index < s₁.page.size)
    (answers : Request.Answers (.setView f u) s₁) :
    s.Installs (us ++ [(f, u)]) (Request.after (.setView f u) s₁) :=
  .install installs known (Prod.ext answers rfl)

theorem Reached.views_show_portrait : wall.Reached ∧ ∃ s', wall.Installs [(⟨0⟩, portrait)] s' ∧
    s'.ShowsOnly [(⟨0⟩, portrait)] ⟨0⟩ := by
  have installs : wall.Installs [(⟨0⟩, portrait)] (Request.after (.setView ⟨0⟩ portrait) wall) :=
    .after .none (by decide +kernel) (by decide +kernel)
  obtain ⟨_, _, _, _, _, _, _, _, one⟩ := reached_wall.views_show installs List.mem_cons_self
  exact ⟨reached_wall, _, installs, (one (List.nodup_singleton _)).2 (by decide)⟩

/-- The view is given one panel, and then the other. -/
def replaced : Scene := Request.after (.setView ⟨0⟩ landscape) (Request.after (.setView ⟨0⟩ portrait) wall)

/-- The panel that was replaced is shown still. -/
theorem not_showsOnly_replaced : wall.Reached ∧
    wall.Installs [(⟨0⟩, portrait), (⟨0⟩, landscape)] replaced ∧
    (replaced.panel.view? ⟨0⟩).map Panel.root = some landscape.root ∧
    replaced.page.outerMarkup ⟨3⟩ = "<div><div></div><div></div></div>" ∧
    ¬ replaced.ShowsOnly [(⟨0⟩, portrait), (⟨0⟩, landscape)] ⟨0⟩ := by
  have installs : wall.Installs [(⟨0⟩, portrait), (⟨0⟩, landscape)] replaced :=
    .after (.after .none (by decide +kernel) (by decide +kernel)) (by decide +kernel) (by decide +kernel)
  have kept : (replaced.panel.view? ⟨0⟩).map Panel.root = some landscape.root := by decide +kernel
  have root : (replaced.panel.field? ⟨0⟩).bind Field.root? = some ⟨3⟩ := by decide +kernel
  have children : replaced.page.children ⟨3⟩ = [portrait.root, landscape.root] := by decide +kernel
  refine ⟨reached_wall, installs, kept, by decide +kernel, ?_⟩
  rintro ⟨field, w, v, built, view, _, others⟩
  rw [view] at kept
  obtain same : v.root = landscape.root := Option.some.inj kept
  rw [show replaced.panel.field? ⟨0⟩ = _ from built.found, Option.bind_some, Field.root?, built.widget] at root
  obtain is : w.root = ⟨3⟩ := Option.some.inj root
  refine others portrait List.mem_cons_self ?_ ?_
  · rw [same]
    decide
  · rw [is, children]
    exact List.mem_cons_self

end Scene

end Formwork
