import Formwork.Proofs.Panel.AddChild
import Formwork.Proofs.Panel.Books
import Formwork.Proofs.Widget.Forest

/-!
# Widgets on the page of a panel

The nodes of a widget that others are put into, its bar, its deck or its slot for a header, and its
topmost node hold it to the page (`Widget.anchors`).  In a scene that is grounded
(`Scene.Grounded`) the page is a forest, these nodes are elements, and no two widgets share one; nothing
was put into the widget of a panel, and no widget lies in a bar.

Building a widget that is asked for leaves a scene grounded and the rest of the page as it was
(`Scene.Grounded.exec_widgetOf`).  Any other step that moves no widget into a panel or a bar leaves it
grounded as well (`Scene.Grounded.transfer`).
-/

namespace Formwork

set_option autoImplicit false

/-! ## Widgets that stand on a page -/

/-- The topmost node of an element that a page has. -/
theorem Page.Has.tag? {p : Page} {q : Option NodeId} {n : NodeId} {tag : String}
    {attributes : OrderedMap String String} {kids : List Dom}
    (h : p.Has q (.element n tag attributes kids)) : p.tag? n ≠ none := by
  rw [Page.tag?_eq h.1]
  exact Option.some_ne_none _

namespace Widget

variable {w w' : Widget} {kind : FieldKind} {p : Page}

/-- The topmost node of a widget, and the nodes that parts are put into. -/
def anchors : Widget → List NodeId
  | .disclosure root header _ _ => [root, header]
  | .tabs root bar deck _ _ => [root, bar, deck]
  | w => [w.root]

@[simp]
theorem anchors_disclosure (root header content : NodeId) (headerField : Option FieldId) :
    (disclosure root header content headerField).anchors = [root, header] := rfl

@[simp]
theorem anchors_tabs (root bar deck : NodeId) (pages : List TabPage) (selected : Option Nat) :
    (tabs root bar deck pages selected).anchors = [root, bar, deck] := rfl

/-- A widget without the parts that were put into it. -/
def frame : Widget → Widget
  | .disclosure root header content _ => .disclosure root header content none
  | .tabs root bar deck _ _ => .tabs root bar deck [] none
  | w => w

theorem root_mem_anchors (w : Widget) : w.root ∈ w.anchors := by
  cases w <;> exact List.mem_cons_self

/-- Parts change neither the topmost node of a widget nor its anchors. -/
theorem eq_of_frame (same : w'.frame = w.frame) : w'.root = w.root ∧ w'.anchors = w.anchors := by
  have root : ∀ w : Widget, w.frame.root = w.root := by
    intro w
    cases w <;> rfl
  have anchors : ∀ w : Widget, w.frame.anchors = w.anchors := by
    intro w
    cases w <;> rfl
  exact ⟨by rw [← root, same, root], by rw [← anchors, same, anchors]⟩

theorem Suits.of_frame (h : w.Suits kind) (same : w'.frame = w.frame) : w'.Suits kind := by
  have suits : ∀ w : Widget, w.frame.Suits kind ↔ w.Suits kind := by
    intro w
    cases w <;> exact Iff.rfl
  rwa [← suits, same, suits]

/-- A widget of a field of some kind stands on a page. -/
structure Stands (w : Widget) (kind : FieldKind) (p : Page) : Prop where
  suits : w.Suits kind
  element : ∀ n ∈ w.anchors, p.tag? n ≠ none
  distinct : w.anchors.Nodup
  blank : kind = .panel → p.children w.root = []

/-- A widget into which no parts were put. -/
def Hollow (p : Page) : Widget → Prop
  | .disclosure _ _ _ header => header = none
  | .tabs _ bar deck pages selected =>
    pages = [] ∧ selected = none ∧ p.children bar = [] ∧ p.children deck = []
  | _ => True

section IsNew

/-! The tree on the page is that of the widget as it is built, but for attributes of its topmost
element. -/

variable {f : Field} {label : Option String} {tag tag' : String} {q : Option NodeId}
  {attributes attributes' : OrderedMap String String} {kids : List Dom} {root : NodeId}

/-- A new widget that no part can be put into. -/
theorem IsNew.stands_single (new : w.IsNew f label (.element w.root tag attributes kids))
    (suits : w.Suits f.kind) (has : p.Has q (.element w.root tag' attributes' kids))
    (only : w.anchors = [w.root]) :
    w.Stands f.kind p ∧ ∀ n ∈ w.anchors, n ∈ w.root :: Dom.nodesOf kids := by
  obtain ⟨⟨_, shape, looks, _⟩, _, _⟩ := new
  cases shape
  refine ⟨⟨suits, ?_, ?_, fun kind => ?_⟩, ?_⟩
  · rw [only]
    intro n mem
    rw [List.mem_singleton.1 mem]
    exact has.tag?
  · rw [only]
    exact List.nodup_singleton _
  · unfold Field.face at looks
    rw [kind] at looks
    obtain rfl := Dom.eq_nil_of_htmlOf looks
    exact Page.children_eq has.1
  · rw [only]
    intro n mem
    rw [List.mem_singleton.1 mem]
    exact List.mem_cons_self

/-- A new tab container. -/
theorem IsNew.stands_tabs {bar deck : NodeId} {pages : List TabPage} {selected : Option Nat}
    (new : (tabs root bar deck pages selected).IsNew f label (.element root tag attributes kids))
    (kind : f.kind = .tabs) (has : p.Has q (.element root tag' attributes' kids))
    (distinct : (root :: Dom.nodesOf kids).Nodup) :
    (tabs root bar deck pages selected).Stands f.kind p ∧
      (tabs root bar deck pages selected).Hollow p ∧
      ∀ n ∈ (tabs root bar deck pages selected).anchors, n ∈ root :: Dom.nodesOf kids := by
  obtain ⟨⟨_, shape, looks, fits⟩, _, empty⟩ := new
  cases shape
  rw [kind] at fits
  obtain ⟨bar', deck', captions, shown, pages', selected', same, rfl⟩ := fits
  cases same
  unfold Field.face at looks
  rw [kind] at looks
  simp only [Face.tabContainer, Face.plain, Parts.none, Dom.htmlOf, Dom.html, List.cons.injEq,
    Html.element.injEq, true_and, and_true] at looks
  obtain rfl := Dom.eq_nil_of_htmlOf looks.1
  obtain rfl := Dom.eq_nil_of_htmlOf looks.2
  obtain ⟨hasBar, hasDeck, _⟩ := has.2
  refine ⟨⟨kind, ?_, ?_, fun panel => ?_⟩, ⟨empty.1, empty.2, ?_, ?_⟩, ?_⟩
  · intro n mem
    simp only [anchors_tabs, List.mem_cons, List.not_mem_nil, or_false] at mem
    rcases mem with rfl | rfl | rfl
    · exact has.tag?
    · exact hasBar.tag?
    · exact hasDeck.tag?
  · simpa [Dom.nodesOf, Dom.nodes] using distinct
  · cases kind.symm.trans panel
  · exact Page.children_eq hasBar.1
  · exact Page.children_eq hasDeck.1
  · intro n mem
    simpa [Dom.nodesOf, Dom.nodes] using mem

/-- A new disclosure. -/
theorem IsNew.stands_disclosure {slot content : NodeId} {header : Option FieldId}
    (new : (disclosure root slot content header).IsNew f label (.element root tag attributes kids))
    (kind : f.kind = .disclosure) (has : p.Has q (.element root tag' attributes' kids))
    (distinct : (root :: Dom.nodesOf kids).Nodup) :
    (disclosure root slot content header).Stands f.kind p ∧
      (disclosure root slot content header).Hollow p ∧
      ∀ n ∈ (disclosure root slot content header).anchors, n ∈ root :: Dom.nodesOf kids := by
  obtain ⟨⟨_, shape, _, fits⟩, _, empty⟩ := new
  cases shape
  rw [kind] at fits
  obtain ⟨slot', content', caption, place, header', same, rfl⟩ := fits
  cases same
  obtain ⟨hasSlot, _⟩ := has.2
  refine ⟨⟨kind, ?_, ?_, fun panel => ?_⟩, empty, ?_⟩
  · intro n mem
    simp only [anchors_disclosure, List.mem_cons, List.not_mem_nil, or_false] at mem
    rcases mem with rfl | rfl
    · exact has.tag?
    · exact hasSlot.tag?
  · simp only [Dom.nodesOf, Dom.nodes, List.cons_append, List.nodup_cons, List.mem_cons,
      not_or] at distinct
    simp only [anchors_disclosure, List.nodup_cons, List.mem_singleton, List.not_mem_nil,
      not_false_eq_true, List.nodup_nil, and_true]
    exact distinct.1.1
  · cases kind.symm.trans panel
  · intro n mem
    simp only [anchors_disclosure, List.mem_cons, List.not_mem_nil, or_false] at mem
    simp only [Dom.nodesOf, Dom.nodes, List.cons_append, List.mem_cons]
    exact mem.imp id .inl

/-- **A new widget** stands on the page, and nothing was put into it. -/
theorem IsNew.stands (new : w.IsNew f label (.element w.root tag attributes kids))
    (suits : w.Suits f.kind) (has : p.Has q (.element w.root tag' attributes' kids))
    (distinct : (w.root :: Dom.nodesOf kids).Nodup) :
    w.Stands f.kind p ∧ w.Hollow p ∧ ∀ n ∈ w.anchors, n ∈ w.root :: Dom.nodesOf kids := by
  cases w with
  | tabs root bar deck pages selected => exact new.stands_tabs suits has distinct
  | disclosure root slot content header => exact new.stands_disclosure suits has distinct
  | _ =>
    obtain ⟨stands, among⟩ := new.stands_single suits has rfl
    exact ⟨stands, trivial, among⟩

end IsNew

end Widget

namespace Page.Grows

variable {p p' : Page} {n : NodeId}

theorem children (h : p.Grows p') (known : n.index < p.size) : p'.children n = p.children n := by
  unfold Page.children
  rw [h.old n known]

theorem content? (h : p.Grows p') (known : n.index < p.size) : p'.content? n = p.content? n := by
  unfold Page.content?
  rw [h.old n known]

theorem tag? (h : p.Grows p') (element : p.tag? n ≠ none) : p'.tag? n ≠ none := by
  rwa [tag?_congr (h.content? (lt_size_of_tag? element))]

end Page.Grows

/-! ## Building a widget -/

/-- Setting attributes keeps a forest. -/
theorem Page.Forest.setAttrs {n : NodeId} : ∀ (given : List (String × String)) {p : Page}, p.Forest →
    (given.foldl (fun p e => p.setAttr n e.1 e.2) p).Forest
  | [], _, h => h
  | (_, _) :: given, _, h => Page.Forest.setAttrs given (h.updateAttrs n _)

namespace Scene

variable {s s' : Scene} {f g : FieldId} {field field' : Field} {w w' : Widget}

/-- The tree of the widget of a field, when it was built on a forest and the attributes of the field were
passed on to it. -/
theorem exec_realize_tree (forest : s.page.Forest) (field : Field) :
    ∃ w p₀ p kids, exec (Widget.build field (field.label? s.panel.messages)) s.page = (.ok w, p₀) ∧
      exec (PanelM.realize field) s = (.ok w, s.withWidget field.id w p) ∧ p.Forest ∧ s.page.Grows p ∧
      w.IsNew field (field.label? s.panel.messages) (.element w.root
        (field.face (field.label? s.panel.messages) .none).tag
        (field.face (field.label? s.panel.messages) .none).attributes kids) ∧
      p.Has none (.element w.root (field.face (field.label? s.panel.messages) .none).tag
        (field.attributes.forWidget.foldl (fun m e => m.insert e.1 e.2)
          (field.face (field.label? s.panel.messages) .none).attributes) kids) ∧
      p₀.children w.root = kids.map Dom.root ∧ (w.root :: Dom.nodesOf kids).Nodup ∧
      ∀ n ∈ w.root :: Dom.nodesOf kids, s.page.size ≤ n.index := by
  obtain ⟨w, p, ds, build, built, i, dom, tree, new⟩ :=
    Widget.builds_build (p := s.page) field (field.label? s.panel.messages) s.page (by
      rw [Layout.ofList_nil]
      exact Page.Holds.empty s.page)
  obtain ⟨_, _, knows⟩ := @Widget.tends_build [] field (field.label? s.panel.messages) _ _ _
    build ⟨forest, nofun⟩
  obtain ⟨kids, shape, _⟩ := new.shape
  subst shape
  have before := built.has (Layout.ofList_loose tree)
  have passed := built.setAttrs field.attributes.forWidget (Layout.ofList_loose tree)
  refine ⟨w, p, _, kids, build, ?_, knows.forest.setAttrs field.attributes.forWidget, passed.grows, new,
    passed.has (Function.update_self ..), Page.children_eq before.1,
    passed.distinct (Function.update_self ..), passed.fresh (Function.update_self ..)⟩
  unfold PanelM.realize
  rw [exec_bind_ok (exec_get s)]
  refine (exec_bind_ok (PanelM.exec_onPage_ok build)).trans ?_
  rw [exec_bind_ok (PanelM.exec_changePage _), exec_bind_ok (PanelM.exec_changeField _ _), exec_pure]
  rfl

/-- **Building the widget of a field** on a forest. -/
theorem exec_realize (forest : s.page.Forest) (field : Field) :
    ∃ w p, exec (PanelM.realize field) s = (.ok w, s.withWidget field.id w p) ∧ p.Forest ∧
      s.page.Grows p ∧ w.Stands field.kind p ∧ w.Hollow p ∧
      ∀ n ∈ w.anchors, s.page.size ≤ n.index := by
  obtain ⟨w, p₀, p, kids, build, run, forest', grows, new, there, _, distinct, fresh⟩ :=
    exec_realize_tree forest field
  obtain ⟨_, suits, _⟩ := @Widget.tends_build [] field (field.label? s.panel.messages) _ _ _
    build ⟨forest, nofun⟩
  obtain ⟨stands, hollow, among⟩ := new.stands suits there distinct
  exact ⟨w, p, run, forest', grows, stands, hollow, fun n mem => fresh n (among n mem)⟩

/-! ## Grounded scenes -/

/-- A field has a widget. -/
structure Built (s : Scene) (f : FieldId) (field : Field) (w : Widget) : Prop where
  found : s.panel.field? f = some field
  widget : field.widget = some w

theorem Built.unique (h : s.Built f field w) (h' : s.Built f field' w') :
    field = field' ∧ w = w' := by
  cases h.found.symm.trans h'.found
  cases h.widget.symm.trans h'.widget
  exact ⟨rfl, rfl⟩

theorem field?_withWidget (found : s.panel.field? f = some field) (w : Widget) (p : Page) (g : FieldId) :
    (s.withWidget f w p).panel.field? g =
      if g = f then some { field with widget := some w } else s.panel.field? g := by
  refine (FieldTable.field?_update ..).trans ?_
  split
  · exact congrArg (Option.map _) found
  · rfl

/-- A widget of a scene that has a new one is the new one, or belongs to another field. -/
theorem built_withWidget {p : Page} (found : s.panel.field? f = some field) :
    (s.withWidget f w p).Built g field' w' ↔
      (g = f ∧ field' = { field with widget := some w } ∧ w' = w) ∨ g ≠ f ∧ s.Built g field' w' := by
  by_cases same : g = f
  · subst same
    constructor
    · rintro ⟨there, widget⟩
      rw [field?_withWidget found, if_pos rfl] at there
      cases there
      cases widget
      exact .inl ⟨rfl, rfl, rfl⟩
    · rintro (⟨_, rfl, rfl⟩ | ⟨other, _⟩)
      · exact ⟨by rw [field?_withWidget found, if_pos rfl], rfl⟩
      · exact absurd rfl other
  · constructor
    · rintro ⟨there, widget⟩
      rw [field?_withWidget found, if_neg same] at there
      exact .inr ⟨same, there, widget⟩
    · rintro (⟨is, _⟩ | ⟨_, there, widget⟩)
      · exact absurd is same
      · exact ⟨by rw [field?_withWidget found, if_neg same]; exact there, widget⟩

/-- A scene whose widgets stand on its page. -/
structure Grounded (s : Scene) : Prop where
  forest : s.page.Forest
  booked : s.panel.table.Booked
  stands : ∀ {f field w}, s.Built f field w → w.Stands field.kind s.page
  /-- No two widgets share an anchor. -/
  apart : ∀ {f g field field' w w'}, s.Built f field w → s.Built g field' w' → f ≠ g →
    ∀ n ∈ w.anchors, n ∉ w'.anchors
  /-- No widget lies in a bar. -/
  captions : ∀ {f g field field' w root bar deck pages selected},
    s.Built f field (.tabs root bar deck pages selected) → s.Built g field' w →
      w.root ∉ s.page.children bar
  /-- A field that took a part has a widget. -/
  realized : ∀ {f field}, s.panel.field? f = some field → field.attached ≠ [] →
    field.widget ≠ none

namespace Grounded

/-- Two anchors are one node only if they belong to one widget. -/
theorem eq_of_mem_anchors (h : s.Grounded) (built : s.Built f field w) (built' : s.Built g field' w')
    {n : NodeId} (mem : n ∈ w.anchors) (mem' : n ∈ w'.anchors) : f = g := by
  by_contra other
  exact h.apart built built' other n mem mem'

/-- **A step that moves no widget** into a panel or a bar, and builds none, leaves a scene grounded. -/
theorem transfer (h : s.Grounded) (gained : NodeId → NodeId → Prop) (forest : s'.page.Forest)
    (booked : s'.panel.table.Booked)
    (before : ∀ {f field' w'}, s'.Built f field' w' →
      ∃ field w, s.Built f field w ∧ field'.kind = field.kind ∧ w'.frame = w.frame)
    (tags : ∀ n, s.page.tag? n ≠ none → s'.page.tag? n ≠ none)
    (gains : ∀ n, s.page.tag? n ≠ none → ∀ c ∈ s'.page.children n,
      c ∈ s.page.children n ∨ gained n c)
    (panels : ∀ {f field w c}, s.Built f field w → field.kind = .panel → ¬ gained w.root c)
    (bars : ∀ {f g field field' w root bar deck pages selected},
      s.Built f field (.tabs root bar deck pages selected) → s.Built g field' w →
        ¬ gained bar w.root)
    (realized : ∀ {f field}, s'.panel.field? f = some field → field.attached ≠ [] →
      field.widget ≠ none) : s'.Grounded where
  forest := forest
  booked := booked
  stands {f field' w'} built' := by
    obtain ⟨field, w, built, kind, frame⟩ := before built'
    have stands := h.stands built
    obtain ⟨root, anchors⟩ := Widget.eq_of_frame frame
    rw [kind]
    refine ⟨stands.suits.of_frame frame, ?_, ?_, fun panel => ?_⟩
    · rw [anchors]
      exact fun n mem => tags n (stands.element n mem)
    · rw [anchors]
      exact stands.distinct
    · rw [root, List.eq_nil_iff_forall_not_mem]
      intro c mem
      rcases gains _ (stands.element _ w.root_mem_anchors) c mem with old | new
      · rw [stands.blank panel] at old
        cases old
      · exact panels built panel new
  apart built' built₁' other := by
    obtain ⟨_, w, built, _, frame⟩ := before built'
    obtain ⟨_, w₁, built₁, _, frame₁⟩ := before built₁'
    rw [(Widget.eq_of_frame frame).2, (Widget.eq_of_frame frame₁).2]
    exact h.apart built built₁ other
  captions {f g field' field₁' w₁' root bar deck pages selected} built' built₁' := by
    obtain ⟨field, w, built, _, frame⟩ := before built'
    obtain ⟨_, w₁, built₁, _, frame₁⟩ := before built₁'
    cases w with
    | tabs root' bar' deck' pages' selected' =>
      cases frame
      rw [(Widget.eq_of_frame frame₁).1]
      intro mem
      have isBar := (h.stands built).element bar (by simp)
      rcases gains bar isBar _ mem with old | new
      · exact h.captions built built₁ old
      · exact bars built built₁ new
    | _ => cases frame
  realized := realized

end Grounded

/-! ## Asking for a widget -/

/-- What asking for the widget of a field leaves: the widget was there, or it is new and hollow, and
everything else is as it was. -/
structure Realizes (s : Scene) (f : FieldId) (w : Widget) (s' : Scene) : Prop where
  grounded : s'.Grounded
  grows : s.page.Grows s'.page
  field? : ∀ g, s'.panel.field? g = (s.panel.field? g).map fun field =>
    if g = f then { field with widget := some w } else field
  old_or_new : ∀ {field}, s.panel.field? f = some field →
    field.widget = some w ∨ field.widget = none ∧ w.Hollow s'.page

namespace Realizes

theorem built (h : s.Realizes f w s') (found : s.panel.field? f = some field) :
    s'.Built f { field with widget := some w } w := by
  refine ⟨?_, rfl⟩
  rw [h.field?, found, Option.map_some, if_pos rfl]

theorem built_of_ne (h : s.Realizes f w s') (other : g ≠ f) :
    s'.Built g field w' ↔ s.Built g field w' := by
  have same : s'.panel.field? g = s.panel.field? g := by
    rw [h.field?]
    simp [other]
  exact ⟨fun ⟨found, widget⟩ => ⟨same.symm.trans found, widget⟩,
    fun ⟨found, widget⟩ => ⟨same.trans found, widget⟩⟩

/-- A widget that was there stays. -/
theorem built_of_built (h : s.Realizes f w s') (built : s.Built g field w') :
    s'.Built g field w' := by
  by_cases same : g = f
  · subst same
    rcases h.old_or_new built.found with old | ⟨none, _⟩
    · cases built.widget.symm.trans old
      have there := h.built built.found
      have kept : { field with widget := some w } = field := by
        rw [← built.widget]
      rwa [kept] at there
    · cases built.widget.symm.trans none
  · exact (h.built_of_ne same).2 built

/-- A widget was there before, or it is the new one. -/
theorem built_cases (h : s.Realizes f w s') (built : s'.Built g field' w') :
    (∃ field, s.panel.field? g = some field ∧ field' = { field with widget := some w' } ∧
      (s.Built g field w' ∨ g = f ∧ w' = w ∧ field.widget = none ∧ w.Hollow s'.page)) := by
  by_cases same : g = f
  · subst same
    have found := built.found
    rw [h.field?] at found
    obtain ⟨field, there, is⟩ := Option.map_eq_some_iff.1 found
    rw [if_pos rfl] at is
    subst is
    cases built.widget
    refine ⟨field, there, rfl, ?_⟩
    rcases h.old_or_new there with old | ⟨none, hollow⟩
    · exact .inl ⟨there, old⟩
    · exact .inr ⟨rfl, rfl, none, hollow⟩
  · have old := (h.built_of_ne same).1 built
    refine ⟨field', old.found, ?_, .inl old⟩
    rw [← old.widget]

end Realizes

namespace Grounded

theorem realizes_self (h : s.Grounded) (built : s.Built f field w) : s.Realizes f w s where
  grounded := h
  grows := .refl s.page
  field? g := by
    by_cases same : g = f
    · subst same
      rw [built.found, Option.map_some, if_pos rfl, ← built.widget]
    · simp [same]
  old_or_new found := by
    cases built.found.symm.trans found
    exact .inl built.widget

/-- A scene whose page has grown by a hollow widget is grounded. -/
theorem withWidget (h : s.Grounded) (found : s.panel.field? f = some field) {p : Page}
    (forest : p.Forest) (grows : s.page.Grows p)
    (stands : w.Stands field.kind p) (hollow : w.Hollow p)
    (fresh : ∀ n ∈ w.anchors, s.page.size ≤ n.index) : (s.withWidget f w p).Grounded := by
  have known : ∀ {g field' w'}, s.Built g field' w' → ∀ n ∈ w'.anchors, n.index < s.page.size :=
    fun built n mem => Page.lt_size_of_tag? ((h.stands built).element n mem)
  refine ⟨forest, ?_, ?_, ?_, ?_, ?_⟩
  · exact h.booked.congr (FieldTable.bare_update_widget _ _ _)
  · intro g field' w' built
    rcases (built_withWidget found).1 built with ⟨_, rfl, rfl⟩ | ⟨_, old⟩
    · exact stands
    · have before := h.stands old
      refine ⟨before.suits, fun n mem => grows.tag? (before.element n mem), before.distinct,
        fun panel => ?_⟩
      exact (grows.children (known old _ w'.root_mem_anchors)).trans (before.blank panel)
  · intro g g' field' field'' w' w'' built built' other n mem mem'
    rcases (built_withWidget found).1 built with ⟨rfl, _, rfl⟩ | ⟨_, old⟩ <;>
      rcases (built_withWidget found).1 built' with ⟨rfl, _, rfl⟩ | ⟨_, old'⟩
    · exact other rfl
    · exact absurd (known old' n mem') (Nat.not_lt.2 (fresh n mem))
    · exact absurd (known old n mem) (Nat.not_lt.2 (fresh n mem'))
    · exact h.apart old old' other n mem mem'
  · intro g g' field' field'' w' root bar deck pages selected built built' mem
    change w'.root ∈ p.children bar at mem
    rcases (built_withWidget found).1 built with ⟨rfl, _, rfl⟩ | ⟨_, old⟩
    · have bare : p.children bar = [] := hollow.2.2.1
      rw [bare] at mem
      cases mem
    · have old_bar : bar.index < s.page.size := known old bar (by simp)
      rw [grows.children old_bar] at mem
      rcases (built_withWidget found).1 built' with ⟨rfl, _, rfl⟩ | ⟨_, old'⟩
      · have there := Page.lt_size_of_parent? ((h.forest.agree _ _).1 mem)
        exact absurd there (Nat.not_lt.2 (fresh _ w'.root_mem_anchors))
      · exact h.captions old old' mem
  · intro g field' there attached
    rw [field?_withWidget found] at there
    split at there
    · cases there
      exact nofun
    · exact h.realized there attached

/-- **Asking for the widget** of a field. -/
theorem exec_widgetOf (h : s.Grounded) (found : s.panel.field? f = some field) :
    ∃ w s', exec (PanelM.widgetOf f) s = (.ok w, s') ∧ s.Realizes f w s' := by
  unfold PanelM.widgetOf
  rw [exec_bind_ok (PanelM.exec_field found)]
  cases widget : field.widget with
  | some w => exact ⟨w, s, rfl, h.realizes_self ⟨found, widget⟩⟩
  | none =>
    obtain ⟨w, p, run, forest, grows, stands, hollow, fresh⟩ := exec_realize h.forest field
    have own : field.id = f := h.booked.ids found
    rw [own] at run
    refine ⟨w, _, run, h.withWidget found forest grows stands hollow fresh, grows, ?_, ?_⟩
    · intro g
      refine (FieldTable.field?_update ..).trans ?_
      by_cases same : g = f
      · subst same
        simp [Panel.field?]
      · simp [same, Panel.field?]
    · intro field' found'
      cases found.symm.trans found'
      exact .inr ⟨widget, hollow⟩

/-- Asking for the topmost node of the widget of a field. -/
theorem exec_widget (h : s.Grounded) (found : s.panel.field? f = some field) :
    ∃ w s', exec (PanelM.widget f) s = (.ok w.root, s') ∧ s.Realizes f w s' := by
  obtain ⟨w, s', run, realizes⟩ := h.exec_widgetOf found
  refine ⟨w, s', ?_, realizes⟩
  unfold PanelM.widget
  rw [exec_bind_ok run, exec_pure]

end Grounded

end Scene

end Formwork
