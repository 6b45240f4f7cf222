import Mathlib.Data.List.Flatten
import Formwork.Proofs.Panel.Lodging

/-!
# Panels on one page

A gallery is a page on which any number of panels stand, and a panel may show others in its views.  Panels are
opened; requests are made to a panel wherever it is shown; a panel that nothing shows is put into a view; panels are
given up; and others change the page (`Gallery.Step`).

Whatever is done, no node belongs to two panels (`Gallery.Reached.sound`).  So no two widgets have the same topmost
node, and the topmost node of a widget tells its field.  A widget is built when it is first asked for, of new nodes,
and from then on asking for it answers the same node and does nothing (`Gallery.Reached.widgets_identify`).
-/

namespace Formwork

set_option autoImplicit false

open Panel (Request core allIn)
open Relation (ReflTransGen)

/-- A page, the counters, and the panels that no other panel shows. -/
structure Gallery where
  page : Page
  counters : CounterPool
  panels : List Panel

namespace Gallery

variable {g g' : Gallery} {p q top : Panel} {rest : List Panel} {s' : Scene} {f : FieldId} {n : NodeId}

/-- The panels of a gallery, and those that are shown in them. -/
def all (g : Gallery) : List Panel := g.panels.flatMap Panel.all

/-- What an operation on a panel of a gallery works on. -/
def scene (g : Gallery) (p : Panel) : Scene := ⟨p, g.page, g.counters⟩

/-- The topmost nodes of the widgets of all panels. -/
def widgetRoots (g : Gallery) : List NodeId := g.all.flatMap Panel.widgetRoots

/-! ## What is done to a gallery -/

/-- What an operation made of a panel is kept in the place of the panel. -/
def Stores (g : Gallery) (q : Panel) (s' : Scene) (g' : Gallery) : Prop :=
  ∃ top top' rest, g.panels.Perm (top :: rest) ∧ q.Reworks s'.panel top top' ∧
    g' = ⟨s'.page, s'.counters, top' :: rest⟩

/-- One step of the history of a gallery. -/
inductive Step (g : Gallery) : Gallery → Prop where
  /-- A panel is opened. -/
  | opens (series : SeriesId) (messages : Messages) :
      Step g ⟨(Panel.create g.page series messages).2, g.counters,
        (Panel.create g.page series messages).1 :: g.panels⟩
  /-- A request is made to a panel. -/
  | asks {q : Panel} {r : Request} {g' : Gallery} : r.changesViews = false → (g.scene q).Allows r →
      g.Stores q (r.after (g.scene q)) g' → Step g g'
  /-- A panel that no other panel shows is given to a panel, to be shown by a field. -/
  | shows {q view : Panel} {rest : List Panel} {f : FieldId} {g' : Gallery} : g.panels.Perm (view :: rest) →
      Stores ⟨g.page, g.counters, rest⟩ q (Request.after (.setView f view) (g.scene q)) g' → Step g g'
  /-- Panels are given up, or taken up in another order. -/
  | drops {panels : List Panel} : panels.Subperm g.panels → Step g ⟨g.page, g.counters, panels⟩
  /-- Others change the page and draw from the counters. -/
  | elsewhere {page : Page} {counters : CounterPool} : page.Forest → g.page.size ≤ page.size →
      (∀ n : NodeId, n.index < g.page.size → page.tag? n = g.page.tag? n) →
      Step g ⟨page, counters, g.panels⟩

/-- The galleries that come about on a forest. -/
inductive Reached : Gallery → Prop where
  | start {page : Page} (forest : page.Forest) (counters : CounterPool) : Reached ⟨page, counters, []⟩
  | step {g g' : Gallery} : Reached g → g.Step g' → Reached g'

/-! ## What a step does to the panels -/

/-- The panels of a gallery keep to themselves, and no field of one shows two panels. -/
structure Sound (g : Gallery) : Prop where
  lodges : g.page.Lodges g.all
  tidy : ∀ p ∈ g.panels, p.Tidy

theorem Sound.custody (h : g.Sound) (mem : p ∈ g.all) : (g.scene p).Custody .empty False :=
  h.lodges.custody p mem g.counters

/-- What a step does to the panels, wherever they are shown. -/
inductive Turns (g : Gallery) : Page → List Panel → Prop where
  | opened (series : SeriesId) (messages : Messages) :
      Turns g (Panel.create g.page series messages).2 ((Panel.create g.page series messages).1 :: g.all)
  | asked {q : Panel} {others : List Panel} {r : Request} :
      ((q :: others).map core).Perm (g.all.map core) → (g.scene q).Allows r →
      Turns g (r.after (g.scene q)).page ((r.after (g.scene q)).panel :: others)
  | kept {page : Page} : page.Forest → g.page.size ≤ page.size →
      (∀ n : NodeId, n.index < g.page.size → page.tag? n = g.page.tag? n) → Turns g page g.all

/-- Keeping what was made of a panel leaves the panels around it the same, but for what they show. -/
theorem Stores.all (h : g.Stores q s' g') (tidy : ∀ p ∈ g.panels, p.Tidy) :
    q.Tidy ∧ ∃ around, (g.all.map core).Perm ((q.all ++ around).map core) ∧
      (g'.all.map core).Perm ((s'.panel.all ++ around).map core) := by
  obtain ⟨top, top', rest, perm, reworks, rfl⟩ := h
  have tidyTop := tidy top (perm.mem_iff.2 List.mem_cons_self)
  obtain ⟨before, behind, same, same'⟩ := reworks.all tidyTop
  have moved : ∀ p : Panel, ((before ++ p.all ++ behind ++ rest.flatMap Panel.all).map core).Perm
      ((p.all ++ (before ++ behind ++ rest.flatMap Panel.all)).map core) := by
    intro p
    refine List.Perm.map core ?_
    rw [← List.append_assoc, ← List.append_assoc]
    exact ((@List.perm_append_comm _ before p.all).append_right _).append_right _
  refine ⟨reworks.tidy_old tidyTop, before ++ behind ++ rest.flatMap Panel.all, ?_, ?_⟩
  · refine ((perm.flatMap_right Panel.all).map core).trans (.trans ?_ (moved q))
    rw [List.flatMap_cons, List.map_append, same, ← List.map_append]
  · refine .trans ?_ (moved s'.panel)
    rw [Gallery.all, List.flatMap_cons, List.map_append, same', ← List.map_append]

/-- Of a panel that was changed in its place the gallery is tidy if the panel is. -/
theorem Stores.tidy (h : g.Stores q s' g') (tidy : ∀ p ∈ g.panels, p.Tidy) (tidy' : s'.panel.Tidy) :
    ∀ p ∈ g'.panels, p.Tidy := by
  obtain ⟨top, top', rest, perm, reworks, rfl⟩ := h
  intro p mem
  rcases List.mem_cons.1 mem with rfl | mem
  · exact reworks.tidy (tidy top (perm.mem_iff.2 List.mem_cons_self)) tidy'
  · exact tidy p (perm.mem_iff.2 (List.mem_cons_of_mem _ mem))

theorem Stores.page (h : g.Stores q s' g') : g'.page = s'.page := by
  obtain ⟨_, _, _, _, _, rfl⟩ := h
  rfl

/-- **What a step does** to the panels, wherever they are shown; some may be lost. -/
theorem Step.turns (h : g.Sound) (step : g.Step g') :
    ∃ ps, g.Turns g'.page ps ∧ (g'.all.map core).Subperm (ps.map core) := by
  cases step with
  | opens series messages =>
    refine ⟨_, .opened series messages, ?_⟩
    rw [all, List.flatMap_cons, Panel.all_eq]
    exact .refl _
  | @asks q r _ plain allowed stores =>
    obtain ⟨tidy, around, perm, perm'⟩ := stores.all h.tidy
    rw [Panel.all_eq] at perm perm'
    rw [stores.page]
    refine ⟨_, .asked perm.symm allowed, perm'.subperm.trans (List.Sublist.subperm ?_)⟩
    have fewer := Panel.sublist_allIn (Request.sublist_views plain (g.scene q))
    exact ((fewer.append_right around).cons_cons _).map core
  | @shows q view rest f _ perm stores =>
    have fewer : ∀ p ∈ rest, p ∈ g.panels := fun p mem => perm.mem_iff.2 (List.mem_cons_of_mem _ mem)
    obtain ⟨tidy, around, perm₁, perm'⟩ := stores.all fun p mem => h.tidy p (fewer p mem)
    rw [Panel.all_eq] at perm₁ perm'
    have perm₂ : (g.all.map core).Perm ((q :: (view.all ++ (allIn q.views ++ around))).map core) := by
      refine ((perm.flatMap_right Panel.all).map core).trans ?_
      rw [List.flatMap_cons, List.map_append]
      refine (perm₁.append_left (view.all.map core)).trans ?_
      rw [← List.map_append]
      exact (@List.perm_middle _ q view.all _).map core
    have allowed : (g.scene q).Allows (.setView f view) := by
      have mem : view ∈ g.all := List.mem_flatMap.2 ⟨view, perm.mem_iff.2 List.mem_cons_self,
        view.all_eq ▸ List.mem_cons_self⟩
      exact Page.lt_size_of_tag? (h.custody mem).root.2
    rw [stores.page]
    refine ⟨_, .asked perm₂.symm allowed, perm'.subperm.trans ?_⟩
    refine Panel.subperm_map_core ((List.subperm_cons _).2 ?_)
    rcases Request.views_setView f view (g.scene q) with same | replaced
    · rw [same]
      exact (List.sublist_append_right ..).subperm
    · rw [replaced, Panel.allIn_append, allIn, allIn, List.append_nil]
      refine List.Perm.subperm (List.perm_append_comm.append_right _) |>.trans (List.Sublist.subperm ?_)
      rw [List.append_assoc]
      exact List.Sublist.append_left ((Panel.sublist_allIn List.filter_sublist).append_right _) _
  | drops fewer =>
    refine ⟨g.all, .kept h.lodges.forest (Nat.le_refl _) fun _ _ => rfl, Panel.subperm_map_core ?_⟩
    obtain ⟨mid, perm, sub⟩ := fewer
    exact ⟨mid.flatMap Panel.all, perm.flatMap_right _, sub.flatMap _⟩
  | elsewhere forest size tags => exact ⟨g.all, .kept forest size tags, .refl _⟩

theorem Turns.lodges {page : Page} {ps : List Panel} (h : g.Sound) (turns : g.Turns page ps) :
    page.Lodges ps := by
  cases turns with
  | opened series messages => exact h.lodges.opened series messages
  | @asked q others _ perm allowed =>
    have before : g.page.Lodges (q :: others) := h.lodges.of_cores perm.subperm
    exact before.leads (Request.leads (before.custody q List.mem_cons_self g.counters) allowed)
  | kept forest size tags => exact h.lodges.elsewhere forest size tags

theorem Step.tidy (h : g.Sound) (step : g.Step g') : ∀ p ∈ g'.panels, p.Tidy := by
  cases step with
  | opens series messages =>
    intro p mem
    rcases List.mem_cons.1 mem with rfl | mem
    · exact Panel.tidy_iff.2 ⟨List.nodup_nil, nofun⟩
    · exact h.tidy p mem
  | @asks q _ _ plain _ stores =>
    obtain ⟨tidy, _⟩ := stores.all h.tidy
    exact stores.tidy h.tidy (tidy.sublist (Request.sublist_views plain (g.scene q)))
  | @shows q view rest f _ perm stores =>
    have others : ∀ p ∈ rest, p.Tidy := fun p mem => h.tidy p (perm.mem_iff.2 (List.mem_cons_of_mem _ mem))
    obtain ⟨tidy, _⟩ := stores.all others
    refine stores.tidy others ?_
    rcases Request.views_setView f view (g.scene q) with same | replaced
    · exact tidy.sublist (same ▸ .refl _)
    · exact tidy.shows (h.tidy view (perm.mem_iff.2 List.mem_cons_self)) replaced
  | drops fewer => exact fun p mem => h.tidy p (fewer.subset mem)
  | elsewhere => exact h.tidy

/-- **One step** leaves the panels of a gallery to themselves. -/
theorem Sound.step (h : g.Sound) (step : g.Step g') : g'.Sound := by
  obtain ⟨ps, turns, fewer⟩ := step.turns h
  exact ⟨(turns.lodges h).of_cores fewer, step.tidy h⟩

/-- **The panels of a gallery** keep to themselves, whatever was done. -/
theorem Reached.sound (h : g.Reached) : g.Sound := by
  induction h with
  | start forest counters => exact ⟨⟨forest, nofun, .nil⟩, nofun⟩
  | step _ step ih => exact ih.step step

/-! ## Widgets last -/

/-- A panel, known by its topmost node, keeps the topmost node of the widget of a field. -/
structure Fixes (r : NodeId) (f : FieldId) (n : NodeId) (g : Gallery) : Prop where
  known : r.index < g.page.size
  keeps : ∀ p ∈ g.all, p.root = r → (g.scene p).Keeps f n

variable {r : NodeId}

theorem Turns.fixes {page : Page} {ps : List Panel} (h : g.Fixes r f n) (sound : g.Sound)
    (turns : g.Turns page ps) :
    r.index < page.size ∧ ∀ p ∈ ps, p.root = r → ∀ counters, (Scene.mk p page counters).Keeps f n := by
  cases turns with
  | opened series messages =>
    have size : (Panel.create g.page series messages).2.size = g.page.size + 1 := Page.size_create ..
    refine ⟨size ▸ Nat.lt_succ_of_lt h.known, fun p mem is counters => ?_⟩
    rcases List.mem_cons.1 mem with rfl | mem
    · exact absurd h.known (by rw [← is]; exact Nat.lt_irrefl _)
    · exact (h.keeps p mem is).congr rfl
  | @asked q others request perm allowed =>
    have before : g.page.Lodges (q :: others) := sound.lodges.of_cores perm.subperm
    have leads := Request.leads (before.custody q List.mem_cons_self g.counters) allowed
    -- but for what it shows, a panel among them is one of the gallery
    have keeps : ∀ p ∈ q :: others, p.root = r → ∀ page counters, (Scene.mk p page counters).Keeps f n := by
      intro p mem is page counters
      obtain ⟨p₀, listed, same⟩ := List.mem_map.1 (perm.mem_iff.1 (List.mem_map_of_mem mem))
      refine (h.keeps p₀ listed ((congrArg Panel.root same).trans is)).congr ?_
      exact (congrArg Panel.table same).symm
    refine ⟨Nat.lt_of_lt_of_le h.known leads.size, fun p mem is counters => ?_⟩
    rcases List.mem_cons.1 mem with rfl | mem
    · have asked := keeps q List.mem_cons_self (leads.root.symm.trans is) g.page g.counters
      exact (Request.keeps request _ asked).congr rfl
    · exact keeps p (List.mem_cons_of_mem _ mem) is _ counters
  | kept _ size _ =>
    exact ⟨Nat.lt_of_lt_of_le h.known size, fun p mem is _ => (h.keeps p mem is).congr rfl⟩

/-- One step leaves every widget its topmost node. -/
theorem Fixes.step (h : g.Fixes r f n) (sound : g.Sound) (step : g.Step g') : g'.Fixes r f n := by
  obtain ⟨ps, turns, fewer⟩ := step.turns sound
  obtain ⟨known, keeps⟩ := turns.fixes h sound
  refine ⟨known, fun p mem is => ?_⟩
  obtain ⟨p₀, listed, same⟩ := List.mem_map.1 (fewer.subset (List.mem_map_of_mem mem))
  refine (keeps p₀ listed ((congrArg Panel.root same).trans is) g'.counters).congr ?_
  exact (congrArg Panel.table same).symm

theorem Fixes.steps (h : g.Fixes r f n) (sound : g.Sound) (steps : ReflTransGen Step g g') :
    g'.Sound ∧ g'.Fixes r f n := by
  induction steps with
  | refl => exact ⟨sound, h⟩
  | tail _ step ih => exact ⟨ih.1.step step, ih.2.step ih.1 step⟩

end Gallery

/-! ## Asking for a widget -/

/-- What asking for the widget of a field comes to: a widget that is there is answered, and nothing is done;
otherwise it is built of new nodes, and given the attributes that are passed on. -/
inductive Scene.Supplies (s : Scene) (f : FieldId) (field : Field) (w : Widget) : Scene → Prop where
  | there : field.widget = some w → Supplies s f field w s
  | builds {p : Page} {s' : Scene} : field.widget = none →
      exec (Widget.build field (field.label? s.panel.messages)) s.page = (.ok w, p) →
      s' = s.withWidget f w
        (field.attributes.forWidget.foldl (fun p (name, value) => p.setAttr w.root name value) p) →
      s.page.Grows s'.page → (∀ n ∈ w.own, s.page.size ≤ n.index) → Supplies s f field w s'

theorem PanelM.exec_realize_ok {s : Scene} {field : Field} {w : Widget} {p : Page}
    (built : exec (Widget.build field (field.label? s.panel.messages)) s.page = (.ok w, p)) :
    exec (realize field) s = (.ok w, s.withWidget field.id w
      (field.attributes.forWidget.foldl (fun p (name, value) => p.setAttr w.root name value) p)) := by
  unfold realize
  rw [exec_bind_ok (exec_get s), exec_bind_ok (exec_onPage_ok built)]
  rfl

/-- **Asking for a widget** succeeds. -/
theorem Scene.Custody.exec_widget_supplies {s : Scene} {f : FieldId} {field : Field}
    (h : s.Custody .empty False) (found : s.panel.field? f = some field) :
    ∃ w s', exec (PanelM.widget f) s = (.ok w.root, s') ∧ PanelM.Asks .empty False s f field w s' ∧
      s.Supplies f field w s' := by
  obtain ⟨w, s', run, asks⟩ := PanelM.exec_widgetOf h found
  refine ⟨w, s', ?_, asks, ?_⟩
  · unfold PanelM.widget
    rw [exec_bind_ok run, exec_pure]
  · cases is : field.widget with
    | some w' =>
      rw [PanelM.exec_widgetOf_built found is] at run
      cases run
      exact .there is
    | none =>
      obtain ⟨w', p, _, _, build, _⟩ := exec_realize_tree h.rests.forest field
      have built := (PanelM.exec_widgetOf_unbuilt found is).trans (PanelM.exec_realize_ok build)
      obtain ⟨same, left⟩ := Prod.mk.inj (built.symm.trans run)
      obtain rfl := Except.ok.inj same
      rw [h.booked.ids found] at left
      subst left
      refine .builds is build rfl asks.grows fun n mem => ?_
      rcases asks.fresh with there | ⟨_, born⟩
      · cases is.symm.trans there
      · exact (born.own n mem).1

namespace Gallery

variable {g g' : Gallery} {p q : Panel} {s' : Scene} {f : FieldId} {field : Field} {w : Widget} {n : NodeId}

theorem Sound.nodup_widgetRoots (h : g.Sound) : g.widgetRoots.Nodup := by
  refine List.nodup_flatMap.2 ⟨fun p mem => (h.custody mem).nodup_widgetRoots, ?_⟩
  refine h.lodges.apart.imp fun {p q} apart n root root' => ?_
  have owns : ∀ {p : Panel}, n ∈ p.widgetRoots → p.Owns n := by
    intro p root
    obtain ⟨field, mem, is⟩ := List.mem_filterMap.1 root
    obtain ⟨f, _, found⟩ := List.mem_filterMap.1 mem
    obtain ⟨w, widget, rfl⟩ := Option.map_eq_some_iff.1 is
    exact .inr ⟨f, field, w, found, widget, w.root_mem_own⟩
  exact apart n (owns root) (owns root')

/-- A panel of a gallery has a place in it. -/
theorem Sound.exists_stores (h : g.Sound) (mem : p ∈ g.all) (s' : Scene) : ∃ g', g.Stores p s' g' := by
  obtain ⟨top, listed, below⟩ := List.mem_flatMap.1 mem
  obtain ⟨front, back, split⟩ := List.append_of_mem listed
  obtain ⟨top', reworks⟩ := Panel.exists_reworks s'.panel (h.tidy top listed) below
  exact ⟨_, top, top', front ++ back, split ▸ List.perm_middle, reworks, rfl⟩

/-- When the widget of a field was asked for, the gallery keeps its topmost node. -/
theorem Stores.fixes (h : g.Sound) (h' : g'.Sound) (stores : g.Stores p s' g')
    (asks : PanelM.Asks .empty False (g.scene p) f field w s') : g'.Fixes p.root f w.root := by
  obtain ⟨_, around, perm, perm'⟩ := stores.all h.tidy
  have lodges : g'.page.Lodges (s'.panel.all ++ around) := h'.lodges.of_cores perm'.symm.subperm
  rw [Panel.all_eq] at lodges perm'
  obtain ⟨apart, _⟩ := List.pairwise_cons.1 lodges.apart
  have root : s'.panel.root = p.root := asks.leads.root
  have kept : s'.Keeps f w.root := by
    refine ⟨asks.leads.custody.booked, FieldTable.lt_size_of_field? asks.built.found, fun x found => ?_⟩
    cases asks.built.found.symm.trans found
    rfl
  refine ⟨?_, fun q mem is => ?_⟩
  · rw [stores.page, ← root]
    exact Page.lt_size_of_tag? asks.leads.custody.root.2
  · obtain ⟨x, listed, same⟩ := List.mem_map.1 (perm'.mem_iff.1 (List.mem_map_of_mem mem))
    have xRoot : x.root = s'.panel.root := ((congrArg Panel.root same).trans is).trans root.symm
    rcases List.mem_cons.1 listed with rfl | other
    · exact kept.congr (congrArg Panel.table same).symm
    · exact absurd (.inl xRoot.symm) (apart x other _ (.inl rfl))

/-- **Widgets tell their fields.**  No two widgets have the same topmost node.  The widget of a field that is there can
be asked for; it is built when it is not there yet, of new nodes and with nothing else changed, and from then on asking
for it answers the same node and does nothing.  The field is found by that node. -/
theorem Reached.widgets_identify (h : g.Reached) :
    g.widgetRoots.Nodup ∧ ∀ p ∈ g.all, ∀ f field, p.field? f = some field →
      ∃ w s', exec (PanelM.widget f) (g.scene p) = (.ok w.root, s') ∧ (g.scene p).Supplies f field w s' ∧
        s'.panel.fieldByWidget? w.root = some f ∧ (∃ g₁, g.Stores p s' g₁) ∧
        ∀ g₁ g', g.Stores p s' g₁ → ReflTransGen Step g₁ g' →
          ∀ p' ∈ g'.all, p'.root = p.root → (p'.field? f).isSome →
            exec (PanelM.widget f) (g'.scene p') = (.ok w.root, g'.scene p') ∧
              p'.fieldByWidget? w.root = some f := by
  have sound := h.sound
  refine ⟨sound.nodup_widgetRoots, fun p mem f field found => ?_⟩
  obtain ⟨w, s', run, asks, supplies⟩ := (sound.custody mem).exec_widget_supplies found
  refine ⟨w, s', run, supplies, asks.leads.custody.fieldByWidget?_root asks.built, sound.exists_stores mem s',
    fun g₁ g' stores steps p' mem' same there => ?_⟩
  have asked : Request.after (.widget f) (g.scene p) = s' :=
    Request.after_eq (r := .widget f) (exec_bind_ok run)
  have sound₁ : g₁.Sound := sound.step (.asks (r := .widget f) rfl trivial (asked.symm ▸ stores))
  obtain ⟨sound', fixes⟩ := (stores.fixes sound sound₁ asks).steps sound₁ steps
  obtain ⟨field', found'⟩ := Option.isSome_iff_exists.1 there
  obtain ⟨w', widget, root⟩ := Option.map_eq_some_iff.1 ((fixes.keeps p' mem' same).root field' found')
  have built : (g'.scene p').Built f field' w' := ⟨found', widget⟩
  rw [← root]
  refine ⟨?_, (sound'.custody mem').fieldByWidget?_root built⟩
  unfold PanelM.widget
  rw [exec_bind_ok (PanelM.exec_widgetOf_built built.found widget), exec_pure]

/-- A panel with a field for a view. -/
def frame : Scene := (Scene.opened .empty .empty ⟨0⟩ .empty).after [.create .view .empty]

/-- A panel with a label beside it. -/
def picture : Scene := (Scene.opened frame.page frame.counters ⟨0⟩ .empty).after [.create .label .empty]

/-- The one is shown in the view of the other. -/
def hung : Scene := Request.after (.setView ⟨0⟩ picture.panel) ⟨frame.panel, picture.page, picture.counters⟩

/-- The gallery with the two panels. -/
def exhibition : Gallery := ⟨hung.page, hung.counters, [hung.panel]⟩

theorem Reached.widgets_identify_exhibition : exhibition.Reached ∧ exhibition.widgetRoots.Nodup ∧
    ∃ p ∈ exhibition.all, p.root = ⟨1⟩ ∧ ∃ n s', exec (PanelM.widget ⟨0⟩) (exhibition.scene p) = (.ok n, s') ∧
      s'.panel.fieldByWidget? n = some ⟨0⟩ := by
  have reached : exhibition.Reached := by
    have opened : Reached _ := .step (.start .empty .empty) (.opens ⟨0⟩ .empty)
    have framed : Reached ⟨frame.page, frame.counters, [frame.panel]⟩ :=
      opened.step (.asks (r := .create .view .empty) rfl trivial ⟨_, _, [], .refl _, .here, rfl⟩)
    have beside : Reached ⟨picture.page, picture.counters, [picture.panel, frame.panel]⟩ :=
      (framed.step (.opens ⟨0⟩ .empty)).step
        (.asks (r := .create .label .empty) rfl trivial ⟨_, _, [frame.panel], .refl _, .here, rfl⟩)
    exact beside.step (.shows (.refl _) ⟨_, _, [], .refl _, .here, rfl⟩)
  have shown : exhibition.all.map (fun p => (p.root, (p.field? ⟨0⟩).map Field.kind)) =
      [(⟨0⟩, some .view), (⟨1⟩, some .label)] := by decide +kernel
  have listed : (⟨1⟩, some .label) ∈ exhibition.all.map (fun p => (p.root, (p.field? ⟨0⟩).map Field.kind)) := by
    rw [shown]
    decide
  obtain ⟨p, mem, is⟩ := List.mem_map.1 listed
  obtain ⟨root, kind⟩ := Prod.mk.inj is
  obtain ⟨field, found, _⟩ := Option.map_eq_some_iff.1 kind
  obtain ⟨distinct, identify⟩ := reached.widgets_identify
  obtain ⟨w, s', run, _, known, _⟩ := identify p mem ⟨0⟩ field found
  exact ⟨reached, distinct, p, mem, root, w.root, s', run, known⟩

end Gallery

end Formwork
