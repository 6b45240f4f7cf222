import Formwork.Proofs.Panel.Draft

/-!
# Building widgets on demand

A widget is built when it is first asked for.  The draft does not change by that: a widget that
was not built is one that nothing was put into, and that is how it looks when it is built.
-/

namespace Formwork

set_option autoImplicit false

/-- A layout with at most one more tree, which is new on the page, lies nowhere and links to
nothing; the rest of the page is as it was. -/
structure Layout.Gains (L : Layout) (p p' : Page) (L' : Layout) (k : Owner) : Prop where
  grows : p.Grows p'
  kept : ∀ {i r}, L i = some r → L' i = some r
  others : ∀ {i}, i ≠ k → L' i = L i
  free : ∀ {r}, L k = none → L' k = some r → r.place = none
  unlinked : ∀ {r}, L k = none → L' k = some r → r.dom.links = []
  new : ∀ {r}, L k = none → L' k = some r → ∀ n ∈ r.dom.nodes, p.size ≤ n.index

namespace Layout.Gains

variable {L L' : Layout} {p p' : Page} {k : Owner}

theorem refl (L : Layout) (p : Page) (k : Owner) : Gains L p p L k where
  grows := .refl p
  kept h := h
  others _ := rfl
  free absent there := nomatch absent.symm.trans there
  unlinked absent there := nomatch absent.symm.trans there
  new absent there := nomatch absent.symm.trans there

theorem add (absent : L k = none) {d : Dom} (unlinked : d.links = []) (grows : p.Grows p')
    (new : ∀ n ∈ d.nodes, p.size ≤ n.index) :
    Gains L p p' (Function.update L k (some ⟨none, d⟩)) k where
  grows := grows
  kept {i r} h := by
    rw [Function.update_of_ne, h]
    rintro rfl
    rw [absent] at h
    cases h
  others ne := Function.update_of_ne ne ..
  free _ there := by
    rw [Function.update_self] at there
    cases there
    rfl
  unlinked _ there := by
    rw [Function.update_self] at there
    cases there
    exact unlinked
  new _ there := by
    rw [Function.update_self] at there
    cases there
    exact new

theorem rootAt (h : Gains L p p' L' k) (target : Link) (n : NodeId) :
    L.RootAt target n → L'.RootAt target n := fun ⟨r, there, root⟩ => ⟨r, h.kept there, root⟩

/-- A tree was there before, or it is the new one. -/
theorem old_or_new (h : Gains L p p' L' k) {i : Owner} {r : Region} (there : L' i = some r) :
    L i = some r ∨
      r.place = none ∧ r.dom.links = [] ∧ ∀ n ∈ r.dom.nodes, p.size ≤ n.index := by
  cases before : L i with
  | some s => exact .inl ((h.kept before).symm.trans there)
  | none =>
    by_cases same : i = k
    · subst same
      exact .inr ⟨h.free before there, h.unlinked before there, h.new before there⟩
    · rw [h.others same, before] at there
      cases there

end Layout.Gains

namespace Scene

/-- A scene whose widget of a field is known. -/
def withWidget (s : Scene) (f : FieldId) (w : Widget) (p : Page) : Scene :=
  { s with
    page := p
    panel := { s.panel with
      table := s.panel.table.update f fun field => { field with widget := some w } } }

variable {s : Scene} {f g : FieldId} {w : Widget} {p : Page}

theorem bare_withWidget : (s.withWidget f w p).panel.bare = s.panel.bare := by
  unfold withWidget Panel.bare
  rw [FieldTable.bare_update_widget]

theorem field?_withWidget_of_ne (ne : g ≠ f) :
    (s.withWidget f w p).panel.field? g = s.panel.field? g :=
  FieldTable.field?_update_of_ne _ _ ne

theorem widget?_withWidget_of_ne (ne : g ≠ f) :
    (s.withWidget f w p).widget? g = s.widget? g := by
  unfold widget?
  rw [field?_withWidget_of_ne ne]

theorem widget?_withWidget_self {field : Field} (found : s.panel.field? f = some field) :
    (s.withWidget f w p).widget? f = some w := by
  unfold Panel.field? at found
  unfold widget? Panel.field? withWidget
  rw [FieldTable.field?_update_self, found]
  rfl

end Scene

namespace Scene.Depicts

variable {base : Page} {L L' : Layout} {s : Scene} {d : Draft} {f : FieldId} {field : Field}
  {w : Widget} {q p : Page}

/-- A scene that got the tree of one more widget depicts the same draft. -/
theorem gain (h : s.Depicts base L d) (found : d.field? f = some field)
    (holds : Page.Holds base p L') (ordered : L'.Ordered)
    (gains : L.Gains q p L' (.tree (.widget f))) {r : Region} (there : L' (.tree (.widget f)) = some r)
    (draws : d.Draws L' field w r.dom) : (s.withWidget f w p).Depicts base L' d where
  holds := holds
  ordered := ordered
  bare := Scene.bare_withWidget.trans h.bare
  root := by
    obtain ⟨kids, there, looks⟩ := h.root
    exact ⟨kids, gains.kept there, looks⟩
  built {g field' w'} found' hasWidget := by
    by_cases same : g = f
    · subst same
      rw [found] at found'
      cases found'
      rw [Scene.widget?_withWidget_self (h.field_of found)] at hasWidget
      cases hasWidget
      exact ⟨r, there, draws⟩
    · rw [Scene.widget?_withWidget_of_ne same] at hasWidget
      obtain ⟨s, hs, kids, eq, looks, fits, keeps⟩ := h.built found' hasWidget
      exact ⟨s, gains.kept hs, kids, eq, looks, fits, keeps.mono gains.rootAt⟩
  unbuilt {g field'} found' noWidget := by
    have ne : g ≠ f := by
      rintro rfl
      rw [Scene.widget?_withWidget_self (h.field_of found)] at noWidget
      cases noWidget
    rw [Scene.widget?_withWidget_of_ne ne] at noWidget
    obtain ⟨absent, blank⟩ := h.unbuilt found' noWidget
    exact ⟨by rw [gains.others (by simpa using ne), absent], blank⟩
  captioned found' exposed := by
    obtain ⟨r, hr, draws⟩ := h.captioned found' exposed
    exact ⟨r, gains.kept hr, draws⟩
  uncaptioned found' hidden := by rw [gains.others (by simp), h.uncaptioned found' hidden]
  unknown {g} absent := by
    have ne : g ≠ f := by
      rintro rfl
      rw [found] at absent
      cases absent
    rw [gains.others (by simpa using ne), gains.others (by simp)]
    exact h.unknown absent
  hidden g := by rw [gains.others (by simp), h.hidden g]

/-- **A widget that is built** looks as the draft says. -/
theorem exec_realize (h : s.Depicts base L d) (found : d.field? f = some field) (id : field.id = f)
    (noWidget : s.widget? f = none) :
    ∃ w p dom, exec (PanelM.realize { field with widget := none }) s = (.ok w, s.withWidget f w p) ∧
      L (.tree (.widget f)) = none ∧
      Page.Holds base p (Function.update L (.tree (.widget f)) (some ⟨none, dom⟩)) ∧
      dom.links = [] ∧ s.page.Grows p ∧ (∀ n ∈ dom.nodes, s.page.size ≤ n.index) ∧
      ∀ L', d.Draws L' field w dom := by
  obtain ⟨absent, blank⟩ := h.unbuilt found noWidget
  obtain ⟨w, p, ds, build, built, i, dom, tree, new⟩ :=
    Widget.builds_build (p := s.page) { field with widget := none }
      (field.label? s.panel.messages) s.page (by
        rw [Layout.ofList_nil]
        exact Page.Holds.empty s.page)
  obtain ⟨kids, shape, looks, fits⟩ := new.shape
  subst shape
  have adopted := h.holds.adopt built tree (.tree (.widget f))
  have passed := adopted.setAttrs field.attributes.forWidget (Function.update_self ..)
  rw [Function.update_idem] at passed
  have apart := built.setAttrs field.attributes.forWidget (Layout.ofList_loose tree)
  refine ⟨w, _, _, ?_, absent, passed, new.links, apart.grows,
    apart.fresh (Function.update_self ..), fun L' => ⟨kids, ?_, ?_, fits, ?_⟩⟩
  · unfold PanelM.realize
    rw [exec_bind_ok (exec_get s)]
    refine (exec_bind_ok (PanelM.exec_onPage_ok build)).trans ?_
    rw [exec_bind_ok (PanelM.exec_changePage _), exec_bind_ok (PanelM.exec_changeField _ _),
      exec_pure]
    subst id
    rfl
  · unfold Draft.attributes Draft.face Field.lookAttributes
    rw [blank.parts, blank.exposure, h.messages]
    rfl
  · unfold Draft.face
    rw [blank.parts, looks, h.messages]
    rfl
  · exact new.isEmpty.keeps blank.attached

/-- **Asking for a widget** changes nothing that a draft describes. -/
theorem exec_widgetOf (h : s.Depicts base L d) (found : d.field? f = some field)
    (id : field.id = f) :
    ∃ w s' L', exec (PanelM.widgetOf f) s = (.ok w, s') ∧ s'.Depicts base L' d ∧
      s'.widget? f = some w ∧ s'.counters = s.counters ∧
      (∀ g, g ≠ f → s'.widget? g = s.widget? g) ∧
      L.Gains s.page s'.page L' (.tree (.widget f)) := by
  unfold PanelM.widgetOf
  rw [exec_bind_ok (PanelM.exec_field (h.field_of found))]
  cases there : s.widget? f with
  | some w =>
    exact ⟨w, s, L, rfl, h, there, rfl, fun _ _ => rfl, Layout.Gains.refl L _ _⟩
  | none =>
    obtain ⟨w, p, dom, run, absent, holds, unlinked, grows, new, draws⟩ :=
      h.exec_realize found id there
    have gains := Layout.Gains.add absent unlinked grows new
    refine ⟨w, _, _, run, ?_, ?_, rfl, ?_, gains⟩
    · exact h.gain found holds (h.ordered.add absent unlinked) gains (Function.update_self ..)
        (draws _)
    · exact Scene.widget?_withWidget_self (h.field_of found)
    · exact fun g ne => Scene.widget?_withWidget_of_ne ne

/-- Asking for the topmost node of a widget. -/
theorem exec_widget (h : s.Depicts base L d) (found : d.field? f = some field)
    (id : field.id = f) :
    ∃ w s' L' r, exec (PanelM.widget f) s = (.ok w.root, s') ∧ s'.Depicts base L' d ∧
      s'.widget? f = some w ∧ s'.counters = s.counters ∧
      (∀ g, g ≠ f → s'.widget? g = s.widget? g) ∧
      L.Gains s.page s'.page L' (.tree (.widget f)) ∧
      L' (.tree (.widget f)) = some r ∧ d.Draws L' field w r.dom := by
  obtain ⟨w, s', L', run, depicts, hasWidget, counters, others, gains⟩ := h.exec_widgetOf found id
  obtain ⟨r, there, draws⟩ := depicts.built found hasWidget
  refine ⟨w, s', L', r, ?_, depicts, hasWidget, counters, others, gains, there, draws⟩
  unfold PanelM.widget
  rw [exec_bind_ok run, exec_pure]

end Scene.Depicts

end Formwork
