import Formwork.Proofs.Panel.Custody
import Formwork.Proofs.Template.Mirror

/-!
# Building a panel leaves the page alone

A panel is built on a page that others use as well.  Whatever a template is, and whether the build
answers, has nothing to answer or fails at some depth, every node that was there stays as it was
(`Builder.build_frame`): the build has custody of its own widgets, and every other node it touches
is one that it made.

The panels of views are built on the page of the panel that shows them.  Each of these builds rests on
all that was there when it began, so the panel around it is among what it leaves alone.
-/

namespace Formwork

set_option autoImplicit false

open Page (Confined nowhere)
open Scene (Leads)

namespace Page

variable {p p' base : Page}

theorem Rests.trans (h : base.Rests p) (h' : p.Rests p') : base.Rests p' :=
  ⟨h.ground, h'.forest, h.grows.trans h'.grows⟩

end Page

/-! ## Markers -/

namespace Placeholders

mutual
/-- The parent of a marker is the node that the markup is put into, or a node that it becomes. -/
theorem parent_of_mem_markersIn {placeholders : Placeholders} {m : Marker} : ∀ {q : NodeId}
    {number : Nat} {n : Markup.Node}, m ∈ placeholders.markersIn q number n →
      m.parent = q ∨ number ≤ m.parent.index ∧ m.parent.index < number + n.count
  | _, _, .text _, mem => by cases mem
  | q, number, .element tag children, mem => by
    rw [markersIn] at mem
    rw [Markup.Node.count]
    split at mem
    · rw [List.mem_singleton] at mem
      subst mem
      exact .inl rfl
    · rcases parent_of_mem_markersAmong mem with is | below
      · rw [is]
        exact .inr ⟨Nat.le_refl _, by dsimp only; omega⟩
      · exact .inr (by omega)

theorem parent_of_mem_markersAmong {placeholders : Placeholders} {m : Marker} : ∀ {q : NodeId}
    {number : Nat} {ns : List Markup.Node}, m ∈ placeholders.markersAmong q number ns →
      m.parent = q ∨ number ≤ m.parent.index ∧ m.parent.index < number + Markup.countOf ns
  | _, _, [], mem => by cases mem
  | q, number, n :: ns, mem => by
    rw [markersAmong, List.mem_append] at mem
    rw [Markup.countOf]
    rcases mem with here | later
    · exact (parent_of_mem_markersIn here).imp id fun range => by omega
    · exact (parent_of_mem_markersAmong later).imp id fun range => by omega
end

end Placeholders

/-! ## Splicing -/

namespace BuildM

variable {α : Type} {s : Scene} {base : Page} {into : NodeId → Prop} {container : NodeId}

theorem goes_onPanel {blank : Prop} {operation : PanelM α} {answers : α → Scene → Prop}
    (h : Goes (Leads base blank) s operation answers) :
    Goes (Leads base blank) s (onPanel operation) answers := by
  obtain ⟨step, done⟩ := h
  refine ⟨step, fun a is => done a ?_⟩
  have answer : (exec (onPanel operation) s).1 =
      Except.mapError BuildError.field (exec operation s).1 := rfl
  rw [answer] at is
  cases run : (exec operation s).1 with
  | ok b =>
    rw [run] at is
    exact congrArg Except.ok (Except.ok.inj is)
  | error e =>
    rw [run] at is
    cases is

/-- Changes of the page that may be refused. -/
theorem goes_onPage {blank : Prop} (h : s.Custody base blank) {changes : PageM α}
    (page : Confined base into s.page (exec changes s.page).2) (missed : blank → s.Misses into) :
    Goes (Leads base blank) s (onPage changes) fun a s' =>
      exec changes s.page = (.ok a, s'.page) ∧ s'.panel = s.panel := by
  rw [onPage_eq_within]
  have run : Goes (Confined base into) s.page changes fun a p => exec changes s.page = (.ok a, p) :=
    ⟨page, fun _ asked => Prod.ext asked rfl⟩
  exact .within run (fun _ page => h.leads_page page missed) fun _ _ _ asked => ⟨asked, rfl⟩

/-- A widget takes the place of a marker. -/
theorem goes_replaceMarker (h : s.Custody base True) (m : Marker) (newNode : base.size ≤ m.node.index)
    (newParent : base.size ≤ m.parent.index) (known : m.parent.index < s.page.size)
    (foreign : s.Foreign m.parent) :
    Goes (Leads base True) s (replaceMarker m) fun _ _ => True := by
  refine .bind .trans (goes_onPanel (PanelM.goes_widget h m.field)) ?_
  rintro _ s₁ step₁ ⟨_, w, rfl, _, built⟩
  have mem := w.root_mem_own
  have missed : s₁.Misses (· = m.parent) := (step₁.foreign m.parent known foreign).misses
  refine .bind .trans (goes_onPage step₁.custody (.exec_insertBefore step₁.custody.rests newParent
    (step₁.custody.own built _ mem).1 (step₁.custody.own_known built mem) m.node) fun _ => missed)
    fun _ s₂ step₂ _ => ?_
  exact (goes_onPage step₂.custody (.exec_remove step₂.custody.rests newNode) fun _ =>
    Scene.misses_nowhere).mono fun _ _ _ _ => trivial

/-- Markup becomes the content of a node that belongs to no widget. -/
theorem goes_splice (h : s.Custody base True) (new : base.size ≤ container.index)
    (element : s.page.tag? container ≠ none) (foreign : s.Foreign container) (html : String)
    (placeholders : Placeholders) :
    Goes (Leads base True) s (splice container html placeholders) fun _ _ => True := by
  refine .get_bind ?_
  dsimp only
  cases s.page.readMarkup container html with
  | error e => exact .throw (.refl h) _
  | ok nodes =>
    have step : s.Leads base True { s with page := s.page.setNodes container nodes } :=
      h.leads_page (.setNodes h.rests new element nodes) fun _ => foreign.misses
    have size : (s.page.setNodes container nodes).size = s.page.size + Markup.countOf nodes := by
      obtain ⟨_, cleared, tags⟩ := h.rests.forest.clear container
      have imported := Page.imported_nodes nodes (n := container) (p := s.page.clear container)
        (by rw [cleared]; exact Page.lt_size_of_tag? element)
      rw [← cleared]
      exact imported.size
    have known : ∀ {n : NodeId}, n = container ∨ s.page.size ≤ n.index ∧
        n.index < s.page.size + Markup.countOf nodes → base.size ≤ n.index ∧
          n.index < (s.page.setNodes container nodes).size ∧ s.Foreign n := by
      rintro n (rfl | ⟨fresh, range⟩)
      · exact ⟨new, step.known (Page.lt_size_of_tag? element), foreign⟩
      · refine ⟨Nat.le_trans h.rests.grows.size fresh, size ▸ range, fun _ _ _ built mem => ?_⟩
        exact Nat.not_le.2 (h.own_known built mem) fresh
    refine .bind .trans (.modify step rfl : Goes _ _ _ fun _ s' =>
      s' = { s with page := s.page.setNodes container nodes }) ?_
    rintro _ s₁ _ rfl
    refine .forM .of_leads .trans step.of_leads fun m mem s₂ later => ?_
    obtain ⟨newParent, there, foreign⟩ := known (Placeholders.parent_of_mem_markersAmong mem)
    have fresh := (Placeholders.mem_markersAmong mem).1
    exact goes_replaceMarker later.custody m (Nat.le_trans h.rests.grows.size fresh) newParent
      (later.known there) (later.foreign _ there (foreign.congr rfl))

end BuildM

/-! ## Assembling -/

namespace AssemblyM

variable {α : Type} {a a' : Assembly} {base : Page}

/-- A step of assembling a panel keeps the custody of its widgets, and gives none of them a value. -/
abbrev Advances (base : Page) (a a' : Assembly) : Prop := a.toScene.Leads base True a'.toScene

theorem goes_build {operation : BuildM α} {answers : α → Scene → Prop}
    (h : Goes (Leads base True) a.toScene operation answers) :
    Goes (Advances base) a (build operation) fun x a' => answers x a'.toScene := by
  rw [build_eq_within]
  exact .within h (fun _ step => step) fun _ _ _ done => done

theorem goes_onPanel {operation : PanelM α} {answers : α → Scene → Prop}
    (h : Goes (Leads base True) a.toScene operation answers) :
    Goes (Advances base) a (onPanel operation) fun x a' => answers x a'.toScene :=
  goes_build (BuildM.goes_onPanel h)

theorem goes_changeFrames (h : a.Custody base True) (change : List Frame → List Frame) :
    Goes (Advances base) a (changeFrames change) fun _ _ => True := .modify (.refl h) trivial

theorem advances_refl (h : a.Custody base True) : Advances base a a := Leads.refl h

theorem goes_pure (h : a.Custody base True) (x : α) :
    Goes (Advances base) a (pure x : AssemblyM α) fun _ _ => True := .pure (advances_refl h) trivial

theorem goes_register (h : a.Custody base True) (identifier : String) (child : FieldId) :
    Goes (Advances base) a (register identifier child) fun _ _ => True := by
  refine .get_bind ?_
  dsimp only
  cases Frame.target? a.frames with
  | none => exact goes_pure h _
  | some target =>
    have marked : ∀ (accepted : Bool) {a₁ : Assembly}, a₁.Custody base True →
        Goes (Advances base) a₁ (if accepted then changeFrames (Frame.updateTarget fun f =>
          f.addMarker identifier child) else pure ()) fun _ _ => True := by
      intro accepted a₁ h₁
      split
      · exact goes_changeFrames h₁ _
      · exact goes_pure h₁ _
    dsimp only
    cases target.field with
    | some parent =>
      exact .bind .trans (goes_onPanel (PanelM.goes_addChild h parent child))
        fun accepted _ step _ => marked accepted step.custody
    | none => exact marked true h

theorem goes_makeField (h : a.Custody base True) (factory : Option Factory) (attributes : Attributes) :
    Goes (Advances base) a (makeField factory attributes) fun _ _ => True := by
  unfold makeField
  split
  · exact .bind .trans (goes_onPanel (PanelM.goes_createField h _ attributes)) fun _ _ step _ =>
      goes_pure step.custody _
  · exact goes_pure h _

theorem goes_beginField (h : a.Custody base True) (factory : Option Factory) (attributes : Attributes) :
    Goes (Advances base) a (beginField factory attributes) fun _ _ => True := by
  refine .get_bind ?_
  dsimp only
  split
  · exact .throw (.refl h) _
  · refine .bind .trans (goes_makeField h factory attributes) fun made a₁ step₁ _ => ?_
    refine .bind .trans (goes_onPanel (PanelM.goes_draw step₁.custody _)) fun identifier a₂ step₂ _ => ?_
    cases made with
    | some made =>
      exact .bind .trans (goes_register step₂.custody identifier made.1) fun _ _ step _ =>
        goes_changeFrames step.custody _
    | none => exact goes_changeFrames step₂.custody _

/-- Collected markup is put into the panel, or into a new element in the content slot of a field. -/
theorem goes_install (h : a.Custody base True) (frame : Frame) (isRoot : Bool) :
    Goes (Advances base) a (install frame isRoot) fun _ _ => True := by
  unfold install
  split
  · split
    · exact goes_pure h _
    · split
      · exact .get_bind (goes_build (BuildM.goes_splice h h.root.1 h.root.2 h.top _ _))
      · split
        · case h_1 buffer placeholders _ _ _ _ field _ =>
          have made := Confined.create h.rests (.element "div" .empty)
          refine .bind .trans (goes_build (BuildM.goes_onPage h made fun _ => Scene.misses_nowhere)) ?_
          rintro container a₁ step₁ ⟨created, same⟩
          obtain ⟨named, page⟩ := Prod.mk.inj created
          obtain rfl := Except.ok.inj named
          have new : base.size ≤ a.page.size := h.rests.grows.size
          have element : a₁.page.tag? ⟨a.page.size⟩ ≠ none := by
            rw [← page]
            exact Page.tag?_createElement _ _
          have foreign : a₁.Foreign ⟨a.page.size⟩ := fun _ _ _ built mem =>
            Nat.lt_irrefl _ (h.own_known (built.congr same.symm) mem)
          refine .bind .trans (goes_build (BuildM.goes_splice step₁.custody new element foreign _ _))
            fun _ a₂ step₂ _ => ?_
          exact .bind .trans (goes_onPanel (PanelM.goes_fillContent step₂.custody field new
            (step₂.known (Page.lt_size_of_tag? element)))) fun _ _ step _ =>
              goes_pure step.custody _
        · exact goes_pure h _
  · exact goes_pure h _

theorem goes_endField (h : a.Custody base True) :
    Goes (Advances base) a endField fun _ _ => True := by
  refine .get_bind ?_
  cases a.frames with
  | nil => exact .throw (.refl h) _
  | cons frame rest =>
    exact .bind .trans (.modify (.refl h) trivial : Goes _ _ _ fun _ _ => True) fun _ _ step _ =>
      goes_install step.custody frame _

mutual
/-- An item of a template is brought to life. -/
theorem goes_replayItem : ∀ (item : Cache.Item Blueprint) {a : Assembly}, a.Custody base True →
    Goes (Advances base) a (replayItem item) fun _ _ => True
  | .text run, _, h => goes_changeFrames h _
  | .composite blueprint items, _, h => by
    rw [replayItem]
    refine .bind .trans (goes_beginField h blueprint.factory blueprint.attributes)
      fun _ _ step₁ _ => ?_
    exact .bind .trans (goes_replayItems items step₁.custody) fun _ _ step₂ _ =>
      goes_endField step₂.custody

theorem goes_replayItems : ∀ (items : List (Cache.Item Blueprint)) {a : Assembly},
    a.Custody base True → Goes (Advances base) a (replayItems items) fun _ _ => True
  | [], _, h => goes_pure h _
  | item :: items, _, h => by
    rw [replayItems]
    exact .bind .trans (goes_replayItem item h) fun _ _ step _ => goes_replayItems items step.custody
end

theorem goes_finish (h : a.Custody base True) : Goes (Advances base) a finish fun _ _ => True := by
  refine .get_bind ?_
  dsimp only
  split
  · exact .throw (.refl h) _
  · exact goes_pure h _

end AssemblyM

/-! ## Building -/

namespace Builder

variable {b : Builder} {base : Page} {w : Workspace} {p : Panel}

/-- What others made before stays below what is there. -/
abbrev Above (base : Page) (_ w' : Workspace) : Prop := base.Rests w'.page

/-- A panel whose widgets were made behind an older page and hold no values, in a workspace. -/
abbrev Lodges (base : Page) (p : Panel) (w : Workspace) : Prop :=
  Scene.Custody base True ⟨p, w.page, w.counters⟩

theorem Lodges.rests (h : Lodges base p w) : base.Rests w.page := Scene.Custody.rests h

/-- What is built on top of all that is there leaves a panel its widgets. -/
theorem Lodges.above (h : Lodges base p w) {w' : Workspace} (step : w.page.Rests w'.page) :
    Lodges base p w' := by
  have led : Leads base True ⟨p, w.page, w.counters⟩ ⟨p, w'.page, w'.counters⟩ :=
    Scene.Custody.leads_table h (Confined.of_grows h.rests step.forest step.grows)
      (fun _ => Scene.misses_nowhere) h.booked rfl fun built => ⟨_, built.found, rfl, rfl⟩
  exact led.custody

theorem goes_assemble (forest : w.page.Forest) (t : Template) :
    Goes (Above w.page) w (b.assemble t) (Lodges w.page) := by
  rw [assemble_eq_within]
  have start : (b.start w).Custody w.page True :=
    Scene.custody_opened forest w.counters b.series b.messages
  have run : Goes (AssemblyM.Advances w.page) (b.start w) (steps t) fun _ _ => True :=
    .bind .trans (AssemblyM.goes_replayItem t.toItem start) fun _ _ step _ =>
      AssemblyM.goes_finish step.custody
  exact .within run (fun _ step => step.custody.rests) fun _ _ step _ => step.custody

/-- The fields that show panels are views. -/
theorem kind_of_viewsOf (booked : p.table.Booked) : ∀ e ∈ viewsOf p, ∀ field,
    p.field? e.1 = some field → field.kind = .view := by
  intro e mem field found
  obtain ⟨view, listed, rfl⟩ := List.mem_map.1 mem
  obtain ⟨listed, kind⟩ := List.mem_filter.1 listed
  obtain ⟨f, _, there⟩ := List.mem_filterMap.1 listed
  rw [booked.ids there] at found
  cases there.symm.trans found
  exact of_decide_eq_true kind

/-- Showing a panel in a view changes no field but for its widget. -/
theorem goes_showView (h : Lodges base p w) (f : FieldId) {view : Panel}
    (new : base.size ≤ view.root.index) (known : view.root.index < w.page.size)
    (kind : ∀ field, p.field? f = some field → field.kind = .view) :
    Goes (Above base) w (onPanel p (PanelM.setView f view)) fun answer w' =>
      Lodges base answer.2 w' ∧ answer.2.table.bare = p.table.bare := by
  rw [onPanel_eq_within]
  have run : Goes (Leads base True) ⟨p, w.page, w.counters⟩ (PanelM.setView f view)
      fun _ s' => s'.panel.table.bare = p.table.bare :=
    ⟨(PanelM.goes_setView h f new known fun _ => kind).1,
      fun _ asked => PanelM.bare_of_setView (Prod.ext asked rfl)⟩
  exact .within run (fun _ step => step.custody.rests) fun _ _ step bare => ⟨step.custody, bare⟩

/-- Filling views with panels that are built on top of all that is there. -/
theorem goes_fillViews {build : String → WorkM (Option Panel)}
    (builds : ∀ (name : String) {w : Workspace}, w.page.Forest →
      Goes (Above w.page) w (build name) fun shown? w' => ∀ shown, shown? = some shown →
        Lodges w.page shown w') :
    ∀ (views : List (FieldId × Option String)) {p : Panel} {w : Workspace}, Lodges base p w →
      (∀ e ∈ views, ∀ field, p.field? e.1 = some field → field.kind = .view) →
      Goes (Above base) w (fillViews build p views) (Lodges base)
  | [], _, _, h, _ => .pure h.rests h
  | (_, none) :: views, _, _, h, kinds => by
    rw [fillViews]
    exact goes_fillViews builds views h fun e mem => kinds e (List.mem_cons_of_mem _ mem)
  | (f, some name) :: views, p, w, h, kinds => by
    rw [fillViews]
    have nested := (builds name h.rests.forest).mono fun _ _ step shown => And.intro step shown
    refine .bind (fun _ step => step) (nested.relax fun _ step => h.rests.trans step) ?_
    -- what was there before the nested build includes the panel around it
    rintro shown? w₁ _ ⟨step, shown⟩
    have around : Lodges base p w₁ := h.above step
    have later : ∀ e ∈ views, ∀ field, p.field? e.1 = some field → field.kind = .view :=
      fun e mem => kinds e (List.mem_cons_of_mem _ mem)
    cases shown? with
    | none => exact goes_fillViews builds views around later
    | some shown' =>
      have inner := shown shown' rfl
      refine .bind (fun _ step => step) (goes_showView around f
        (Nat.le_trans h.rests.grows.size inner.root.1) (Page.lt_size_of_tag? inner.root.2)
        (kinds _ List.mem_cons_self)) ?_
      rintro ⟨_, p₁⟩ w₂ _ ⟨filled, bare⟩
      refine goes_fillViews builds views filled fun e mem field found => ?_
      obtain ⟨field', there, same⟩ := FieldTable.exists_field?_congr bare found
      exact (congrArg Field.kind same).trans (later e mem field' there)

/-- **Building a template**, at any level: what was there stays below, and the widgets of a panel that
comes of it are new and hold no values. -/
theorem goes_buildUpTo : ∀ (levels : Nat) (building : List String) (name : String) {w : Workspace},
    w.page.Forest → Goes (Above w.page) w (b.buildUpTo levels building name) fun shown? w' =>
      ∀ shown, shown? = some shown → Lodges w.page shown w'
  | 0, _, _, _, forest => .throw (.refl forest) _
  | levels + 1, building, name, w, forest => by
    rw [buildUpTo]
    split
    · exact .pure (.refl forest) fun _ is => by cases is
    · split
      · exact .throw (.refl forest) _
      · refine .bind (fun _ step => step) (goes_assemble forest _) fun p w₁ _ assembled => ?_
        refine .bind (fun _ step => step) (goes_fillViews (goes_buildUpTo levels (name :: building))
          (viewsOf p) assembled (kind_of_viewsOf assembled.booked)) fun p' w₂ _ filled => ?_
        refine .pure filled.rests fun shown is => ?_
        cases is
        exact filled

/-- The widgets of a panel that were built lie on a page. -/
def Placed (p : Panel) (page : Page) : Prop :=
  ∀ f field x, p.field? f = some field → field.widget = some x → ∀ n ∈ x.own, n.index < page.size

/-- What was on a page is as it was: the nodes, what they are written out as, and the values of the
panels that have their widgets there. -/
structure LeavesAlone (w w' : Workspace) : Prop where
  forest : w'.page.Forest
  nodes : ∀ n : NodeId, n.index < w.page.size → w'.page.node? n = w.page.node? n
  markup : ∀ n : NodeId, n.index < w.page.size → w'.page.outerMarkup n = w.page.outerMarkup n ∧
    w'.page.innerMarkup n = w.page.innerMarkup n ∧ w'.page.textContent n = w.page.textContent n
  values : ∀ p : Panel, Placed p w.page → ∀ f,
    (exec (PanelM.value? f) ⟨p, w'.page, w'.counters⟩).1 =
      (exec (PanelM.value? f) ⟨p, w.page, w.counters⟩).1

theorem leavesAlone_of_rests {w' : Workspace} (h : w.page.Rests w'.page) : LeavesAlone w w' where
  forest := h.forest
  nodes := h.grows.old
  markup n known := by
    have same := h.grows.shares h.ground known
    exact ⟨h.ground.outerMarkup_congr h.forest known same, h.ground.innerMarkup_congr h.forest known same,
      h.ground.textContent_congr h.forest known same⟩
  values p placed f := by
    rw [PanelM.exec_value? h.forest, PanelM.exec_value? h.ground]
    dsimp only
    cases found : p.field? f with
    | none => rfl
    | some field =>
      refine congrArg Except.ok ?_
      unfold Scene.reading
      cases widget : field.widget with
      | none => rfl
      | some x =>
        rw [Option.elim_some, Option.elim_some,
          Widget.value?_grows h.ground h.forest h.grows (placed f field x found widget)]

/-- **Building a panel does not disturb the page**: whether the build gives a panel, none, or an error
found at any depth, every node that was there is as it was, and so are the markup and the values of
the panels that were built before. -/
theorem build_frame (b : Builder) (name : String) {w : Workspace} (forest : w.page.Forest) :
    LeavesAlone w (exec (b.build name) w).2 :=
  leavesAlone_of_rests (goes_buildUpTo (b.templates.size + 1) [] name forest).1

/-- A page with a line of text. -/
def greeting : Page := (Page.empty.createElement "p").2.setText ⟨0⟩ "Hi"

theorem build_frame_greeting : greeting.Forest ∧
    greeting.size < (exec (tabsBuilder.build "tabs") ⟨greeting, ⟨#[.initial]⟩⟩).2.page.size ∧
    (exec (tabsBuilder.build "tabs") ⟨greeting, ⟨#[.initial]⟩⟩).2.page.outerMarkup ⟨0⟩ =
      "<p>Hi</p>" := by
  have forest : greeting.Forest := (Page.Forest.empty.create _).setText _ _
  have kept := (build_frame tabsBuilder "tabs" (w := ⟨greeting, ⟨#[.initial]⟩⟩) forest).markup ⟨0⟩
    (by decide +kernel)
  exact ⟨forest, by decide +kernel, kept.1.trans (by decide +kernel)⟩

end Builder

end Formwork
