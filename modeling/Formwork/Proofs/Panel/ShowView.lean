import Formwork.Proofs.Panel.Resolve

/-!
# Panels in views

A panel that was built on the same page is put into the widget of a view.  The page has grown by
then; what was on it is untouched (`Page.Bears`).  The draft of the outer panel gets one link, which
stands for the panel that is shown, whatever that panel looks like.

The topmost node of the shown panel is the only one of its nodes that changes.  The layout of the
outer panel takes it in while it is moved and forgets it again: it lists the trees of one panel.
-/

namespace Formwork

set_option autoImplicit false

/-- A page on which a panel was built on top of an older page. -/
structure Page.Bears (p p' : Page) (root : NodeId) (kids : List Dom) : Prop where
  grows : p.Grows p'
  has : p'.Has none (.element root "div" .empty kids)
  unlinked : Dom.linksOf kids = []
  apart : (Dom.element root "div" .empty kids).Apart []
  fresh : ∀ n ∈ (Dom.element root "div" .empty kids).nodes, p.size ≤ n.index

/-- The topmost node of a panel, with its children as parts of a shown panel. -/
def Dom.frame (f : FieldId) (root : NodeId) (kids : List Dom) : Dom :=
  .element root "div" .empty (kids.map fun kid => .link (.shown f) kid.root)

namespace Dom

variable {f : FieldId} {root : NodeId}

theorem linksOf_map_link (f : FieldId) (kids : List Dom) :
    linksOf (kids.map fun kid => .link (.shown f) kid.root) =
      kids.map fun kid => (.shown f, kid.root) := by
  induction kids with
  | nil => rfl
  | cons kid kids ih =>
    rw [List.map_cons, linksOf, ih]
    rfl

theorem nodesOf_map_link (f : FieldId) (kids : List Dom) :
    nodesOf (kids.map fun kid => .link (.shown f) kid.root) = [] := by
  induction kids with
  | nil => rfl
  | cons kid kids ih =>
    rw [List.map_cons, nodesOf, ih]
    rfl

theorem nodes_frame (f : FieldId) (root : NodeId) (kids : List Dom) :
    (frame f root kids).nodes = [root] := by
  rw [frame, nodes, nodesOf_map_link]

theorem fst_of_mem_links_frame {kids : List Dom} {l : Link × NodeId}
    (mem : l ∈ (frame f root kids).links) : l.1 = .shown f := by
  rw [frame, links, linksOf_map_link, List.mem_map] at mem
  obtain ⟨kid, _, rfl⟩ := mem
  rfl

/-- Without links, a tree does not hold its topmost node twice. -/
theorem Apart.root_notMem : ∀ {ds : List Dom} {above : List NodeId} {n : NodeId}, linksOf ds = [] →
    ApartAll above ds → n ∈ above → n ∉ nodesOf ds
  | [], _, _, _, _, _ => by simp [nodesOf]
  | .text m _ :: ds, above, n, unlinked, apart, mem => by
    rw [nodesOf, nodes, List.singleton_append, List.mem_cons, not_or]
    refine ⟨?_, root_notMem unlinked apart.2 mem⟩
    rintro rfl
    exact apart.1 mem
  | .element m _ _ children :: ds, above, n, unlinked, apart, mem => by
    rw [linksOf, links, List.append_eq_nil_iff] at unlinked
    rw [nodesOf, nodes, List.cons_append, List.mem_cons, List.mem_append, not_or, not_or]
    refine ⟨?_, root_notMem unlinked.1 apart.1.2 (List.mem_cons_of_mem _ mem),
      root_notMem unlinked.2 apart.2 mem⟩
    rintro rfl
    exact apart.1.1 mem
  | .link _ _ :: _, _, _, unlinked, _, _ => by cases unlinked

end Dom

namespace Page

theorem hasAll_map_link (f : FieldId) {p : Page} {q : Option NodeId} : ∀ {kids : List Dom},
    Dom.linksOf kids = [] → p.HasAll q kids →
      p.HasAll q (kids.map fun kid => .link (.shown f) kid.root)
  | [], _, _ => trivial
  | kid :: kids, unlinked, has => by
    rw [Dom.linksOf, List.append_eq_nil_iff] at unlinked
    rw [HasAll] at has
    exact ⟨has.1.root_parent, hasAll_map_link f unlinked.2 has.2⟩

theorem Has.frame {p : Page} {q : Option NodeId} {root : NodeId} {kids : List Dom}
    (has : p.Has q (.element root "div" .empty kids)) (unlinked : Dom.linksOf kids = [])
    (f : FieldId) : p.Has q (Dom.frame f root kids) := by
  rw [Has] at has
  refine ⟨?_, hasAll_map_link f unlinked has.2⟩
  rw [has.1, List.map_map]
  rfl

/-- A panel that was hung below a node outside of it lies there. -/
theorem Has.hung {p : Page} {root n : NodeId} {kids : List Dom}
    (has : p.Has none (.element root "div" .empty kids)) (unlinked : Dom.linksOf kids = [])
    (apart : (Dom.element root "div" .empty kids).Apart [])
    (outside : n ∉ (Dom.element root "div" .empty kids).nodes) :
    (p.link n root).Has (some n) (.element root "div" .empty kids) := by
  rw [Dom.nodes, List.mem_cons, not_or] at outside
  have ne : root ≠ n := Ne.symm outside.1
  have below : root ∉ Dom.nodesOf kids :=
    Dom.Apart.root_notMem unlinked apart.2 List.mem_cons_self
  rw [Has] at has
  refine ⟨?_, has.2.congr (fun m => node?_link_of_notMem ne outside.2 below) fun l hl => ?_⟩
  · rw [node?_link_child ne, has.1]
    rfl
  · rw [unlinked] at hl
    cases hl

/-- **A panel outside of a layout is hung below a widget that is empty**: the tree of the widget gets
a link, and no other tree changes. -/
theorem Holds.hangPanel {base p : Page} {L : Layout} {f : FieldId} {place : Option NodeId}
    {n root : NodeId} {tag : String} {attributes : OrderedMap String String} {kids : List Dom}
    (h : Holds base p L) (order : L.Ordered) (hidden : L (.tree (.shown f)) = none)
    (hk : L (.tree (.widget f)) = some ⟨place, .element n tag attributes []⟩)
    (has : p.Has none (.element root "div" .empty kids)) (unlinked : Dom.linksOf kids = [])
    (fresh : base.size ≤ root.index) (apart : ∀ k r, L k = some r → root ∉ r.dom.nodes) :
    p.append n root = .ok (p.link n root) ∧
      Holds base (p.link n root) (Function.update L (.tree (.widget f))
        (some ⟨place, .element n tag attributes [.link (.shown f) root]⟩)) ∧
      Layout.Ordered (Function.update L (.tree (.widget f))
        (some ⟨place, .element n tag attributes [.link (.shown f) root]⟩)) := by
  -- the layout takes in the topmost node of the panel and forgets it when it was hung
  have enlisted := h.enlist (d := Dom.frame f root kids) hidden (has.frame unlinked f)
    (by rw [Dom.nodes_frame]; exact List.nodup_singleton _)
    (by rw [Dom.nodes_frame]; exact List.mem_singleton_self _)
    (fun m hm => by
      rw [Dom.nodes_frame, List.mem_singleton] at hm
      exact hm ▸ fresh)
    (fun k r hk m hm mem => by
      rw [Dom.nodes_frame, List.mem_singleton] at mem
      exact apart k r hk (mem ▸ hm))
  have ordered := order.addShowing hidden (d := Dom.frame f root kids) fun l hl => by
    rw [Dom.fst_of_mem_links_frame hl]
    rfl
  have later : (Owner.tree (.widget f)).rank < (Owner.tree (.shown f)).rank := by
    show 2 * f.index + 2 < 2 * f.index + 3
    omega
  have atWidget := (Function.update_of_ne (v := some ⟨none, Dom.frame f root kids⟩)
    (show Owner.tree (.widget f) ≠ .tree (.shown f) by simp) L).trans hk
  have own : n ∈ (Dom.element n tag attributes []).nodes := by
    rw [Dom.nodes]
    exact List.mem_cons_self
  obtain ⟨p', L', run, holds, ordered', atShown, after, others⟩ := enlisted.hang ordered atWidget
    (Dom.find?_root ..) (Function.update_self ..) later
  rw [Dom.edit_root, List.nil_append] at after
  obtain ⟨_, _, q, element⟩ := (h.has hk).find (Dom.find?_root ..)
  have linked := append_eq_ok element
    (enlisted.outside ordered atWidget (Function.update_self ..) later own) has.root_parent
  obtain rfl : p' = p.link n root := Except.ok.inj (run.symm.trans linked)
  have same : Function.update L' (.tree (.shown f)) none = Function.update L (.tree (.widget f))
      (some ⟨place, .element n tag attributes [.link (.shown f) root]⟩) := by
    funext k
    by_cases shown : k = .tree (.shown f)
    · subst shown
      rw [Function.update_self, Function.update_of_ne (by simp), hidden]
    · rw [Function.update_of_ne shown]
      by_cases widget : k = .tree (.widget f)
      · subst widget
        rw [Function.update_self, after]
        rfl
      · rw [Function.update_of_ne widget, others k shown widget, Function.update_of_ne shown]
  rw [← same]
  refine ⟨linked, holds.forget _, ordered'.forget fun r hr l hl => ?_⟩
  cases hr.symm.trans atShown
  exact Dom.fst_of_mem_links_frame hl

end Page

/-- When a panel is hung below a widget, a tree is an old one but for what the widget links to. -/
theorem Layout.exists_of_hung {L : Layout} {f : FieldId} {place : Option NodeId}
    {n root : NodeId} {tag : String} {attributes : OrderedMap String String} {k : Owner} {r : Region}
    (hk : L (.tree (.widget f)) = some ⟨place, .element n tag attributes []⟩)
    (hr : Function.update L (.tree (.widget f))
      (some ⟨place, .element n tag attributes [.link (.shown f) root]⟩) k = some r) :
    ∃ r', L k = some r' ∧ r.dom.nodes = r'.dom.nodes ∧
      ∀ l ∈ r.dom.links, l ∈ r'.dom.links ∨ l = (.shown f, root) := by
  by_cases same : k = .tree (.widget f)
  · subst same
    rw [Function.update_self] at hr
    cases hr
    exact ⟨_, hk, rfl, fun l hl => .inr (List.mem_singleton.1 hl)⟩
  · rw [Function.update_of_ne same] at hr
    exact ⟨r, hr, rfl, fun l hl => .inl hl⟩

namespace Scene

variable {base p : Page} {L L' : Layout} {s s' : Scene} {d : Draft} {f : FieldId} {field : Field}
  {doms : FieldId → Option Dom}

/-! ## A page that has grown -/

theorem Depicts.grow (h : s.Depicts base L d) (grows : s.page.Grows p) (c : CounterPool) :
    ({ s with page := p, counters := c } : Scene).Depicts base L d :=
  ⟨h.holds.grow grows, h.ordered, h.bare, h.root, h.built, h.unbuilt, h.captioned, h.uncaptioned,
    h.unknown, h.hidden⟩

theorem Shows.grow (h : s.Shows base L doms) (grows : s.page.Grows p) (c : CounterPool) :
    ({ s with page := p, counters := c } : Scene).Shows base L doms where
  linked := h.linked
  has there :=
    let ⟨q, has⟩ := h.has there
    ⟨q, grows.has has (h.unlinked there)⟩
  unlinked := h.unlinked
  apart := h.apart
  fresh := h.fresh
  outside := h.outside

/-- A widget that is built meanwhile has nothing to do with the panels that are shown. -/
theorem Shows.gain (h : s.Shows base L doms)
    (gains : L.Gains s.page s'.page L' (.tree (.widget f))) : s'.Shows base L' doms where
  linked {k r g n} hk plain mem := by
    rcases gains.old_or_new hk with old | ⟨_, unlinked, _⟩
    · exact h.linked old plain mem
    · rw [unlinked] at mem
      cases mem
  has there :=
    let ⟨q, has⟩ := h.has there
    ⟨q, gains.grows.has has (h.unlinked there)⟩
  unlinked := h.unlinked
  apart := h.apart
  fresh := h.fresh
  outside {g dom k r} there hk plain n hn := by
    rcases gains.old_or_new hk with old | ⟨_, _, new⟩
    · exact h.outside there old plain n hn
    · obtain ⟨q, has⟩ := h.has there
      exact fun mem => absurd (has.lt_size mem) (Nat.not_lt_of_le (new n hn))

/-! ## Putting a panel into a view -/

/-- Which panels a panel shows is not part of what it looks like. -/
theorem Depicts.withViews (h : s.Depicts base L d) (views : List (FieldId × Panel)) :
    ({ s with panel := { s.panel with views := views } } : Scene).Depicts base L d :=
  ⟨h.holds, h.ordered, h.bare, h.root, h.built, h.unbuilt, h.captioned, h.uncaptioned, h.unknown,
    h.hidden⟩

theorem Shows.withViews (h : s.Shows base L doms) (views : List (FieldId × Panel)) :
    ({ s with panel := { s.panel with views := views } } : Scene).Shows base L doms :=
  ⟨h.linked, h.has, h.unlinked, h.apart, h.fresh, h.outside⟩

/-- The trees of the outer panel have no node of the panel that is shown. -/
theorem Depicts.outside_view {view : NodeId} {kids : List Dom} (h : s.Depicts base L d)
    (bears : s.page.Bears p view kids) {p' : Page}
    (gains : L.Gains p p' L' (.tree (.widget f))) {k : Owner} {r : Region} (hk : L' k = some r) :
    ∀ n ∈ r.dom.nodes, n ∉ (Dom.element view "div" .empty kids).nodes := by
  intro n hn mem
  rcases gains.old_or_new hk with old | ⟨_, _, new⟩
  · exact absurd (h.holds.lt_size old hn) (Nat.not_lt_of_le (bears.fresh n mem))
  · exact absurd (bears.has.lt_size mem) (Nat.not_lt_of_le (new n hn))

/-- The panels that are shown, with one more that was hung below a widget. -/
theorem Shows.hang {place : Option NodeId} {n root : NodeId} {tag : String}
    {attributes : OrderedMap String String} {kids : List Dom} (h : s.Shows base L doms)
    (hk : L (.tree (.widget f)) = some ⟨place, .element n tag attributes []⟩)
    (unshown : doms f = none) (has : s.page.Has none (.element root "div" .empty kids))
    (unlinked : Dom.linksOf kids = []) (alone : (Dom.element root "div" .empty kids).Apart [])
    (fresh : ∀ m ∈ (Dom.element root "div" .empty kids).nodes, base.size ≤ m.index)
    (apart : ∀ k r, L k = some r →
      ∀ m ∈ r.dom.nodes, m ∉ (Dom.element root "div" .empty kids).nodes)
    (others : ∀ {g dom}, doms g = some dom → root ∉ dom.nodes) :
    ({ s with page := s.page.link n root } : Scene).Shows base
      (Function.update L (.tree (.widget f))
        (some ⟨place, .element n tag attributes [.link (.shown f) root]⟩))
      (Function.update doms f (some (.element root "div" .empty kids))) := by
  have own : n ∈ (Dom.element n tag attributes []).nodes := by
    rw [Dom.nodes]
    exact List.mem_cons_self
  have top : root ∈ (Dom.element root "div" .empty kids).nodes := by
    rw [Dom.nodes]
    exact List.mem_cons_self
  have outside := apart _ _ hk n own
  have ne : root ≠ n := fun same => outside (same ▸ top)
  have panel : ∀ {g dom}, Function.update doms f (some (.element root "div" .empty kids)) g =
      some dom → g = f ∧ dom = .element root "div" .empty kids ∨ doms g = some dom := by
    intro g dom there
    by_cases same : g = f
    · subst same
      rw [Function.update_self] at there
      cases there
      exact .inl ⟨rfl, rfl⟩
    · rw [Function.update_of_ne same] at there
      exact .inr there
  constructor
  case linked =>
    intro k r g m hr plain mem
    obtain ⟨r', hr', _, links⟩ := Layout.exists_of_hung hk hr
    rcases links _ mem with old | new
    · obtain ⟨dom, there, top⟩ := h.linked hr' plain old
      refine ⟨dom, (Function.update_of_ne ?_ ..).trans there, top⟩
      rintro rfl
      cases unshown.symm.trans there
    · cases new
      exact ⟨_, Function.update_self .., rfl⟩
  case has =>
    intro g dom there
    rcases panel there with ⟨rfl, rfl⟩ | old
    · exact ⟨some n, has.hung unlinked alone outside⟩
    · obtain ⟨q, there'⟩ := h.has old
      refine ⟨q, there'.congr (fun m => Page.node?_link_of_notMem ne
        (h.outside old hk rfl _ own) (others old)) fun l hl => ?_⟩
      rw [h.unlinked old] at hl
      cases hl
  case unlinked =>
    intro g dom there
    rcases panel there with ⟨rfl, rfl⟩ | old
    · exact unlinked
    · exact h.unlinked old
  case apart =>
    intro g dom there
    rcases panel there with ⟨rfl, rfl⟩ | old
    · exact alone
    · exact h.apart old
  case fresh =>
    intro g dom there
    rcases panel there with ⟨rfl, rfl⟩ | old
    · exact fresh
    · exact h.fresh old
  case outside =>
    intro g dom k r there hr plain
    obtain ⟨r', hr', nodes, _⟩ := Layout.exists_of_hung hk hr
    rw [nodes]
    rcases panel there with ⟨rfl, rfl⟩ | old
    · exact apart k r' hr'
    · exact h.outside old hr' plain

/-- **Showing a panel in a view** that showed none yet. -/
theorem Depicts.exec_setView (h : s.Depicts base L d) (sound : d.Sound)
    (shows : s.Shows base L doms) (hf : d.field? f = some field) (kind : field.kind = .view)
    (unfilled : d.filled (some f) = []) (unshown : doms f = none) (view : Panel) {kids : List Dom}
    (bears : s.page.Bears p view.root kids) (c : CounterPool) :
    ∃ s' L', exec (PanelM.setView f view) { s with page := p, counters := c } = (.ok (), s') ∧
      s'.Depicts base L' (d.fill (some f) [.link (.shown f)]) ∧
      s'.Shows base L'
        (Function.update doms f (some (.element view.root "div" .empty kids))) ∧
      s'.counters = c := by
  obtain rfl := sound.ids hf
  obtain ⟨w, s₁, L₁, ⟨place, dom⟩, run₁, h₁, has₁, counters₁, _, gains₁, there₁, draws₁⟩ :=
    (h.grow bears.grows c).exec_widget hf rfl
  have top : view.root ∈ (Dom.element view.root "div" .empty kids).nodes := by
    rw [Dom.nodes]
    exact List.mem_cons_self
  have apart : ∀ k r, L₁ k = some r →
      ∀ n ∈ r.dom.nodes, n ∉ (Dom.element view.root "div" .empty kids).nodes :=
    fun k r hk => h.outside_view bears gains₁ hk
  have fresh : ∀ n ∈ (Dom.element view.root "div" .empty kids).nodes, base.size ≤ n.index :=
    fun n hn => Nat.le_trans h.holds.grown (bears.fresh n hn)
  have lies := gains₁.grows.has bears.has bears.unlinked
  -- the widget is still empty
  have face : ∀ d' : Draft, d'.face field = .plain "div" (d'.filled (some field.id)) := by
    intro d'
    unfold Draft.face Field.face
    rw [kind]
    rfl
  obtain ⟨kidsW, shape, looks, fits, keeps⟩ := draws₁
  rw [face, unfilled] at looks
  obtain rfl := Dom.eq_nil_of_htmlOf looks
  dsimp only at shape
  subst shape
  rw [kind] at fits
  obtain ⟨run₂, holds, ordered⟩ := h₁.holds.hangPanel h₁.ordered (h₁.hidden field.id) there₁ lies
    bears.unlinked (fresh _ top) fun k r hk mem => apart k r hk _ mem top
  have roots : ∀ target n, L₁.RootAt target n → Layout.RootAt (Function.update L₁
      (.tree (.widget field.id)) (some ⟨place, .element w.root (d.face field).tag
        (d.attributes field) [.link (.shown field.id) view.root]⟩)) target n := by
    rintro target n ⟨r, hr, rfl⟩
    by_cases same : target = .widget field.id
    · subst same
      cases hr.symm.trans there₁
      exact ⟨_, Function.update_self .., rfl⟩
    · exact ⟨r, (Function.update_of_ne (by simpa using same) ..).trans hr, rfl⟩
  have draws : (d.fill (some field.id) [.link (.shown field.id)]).Draws (Function.update L₁
      (.tree (.widget field.id)) (some ⟨place, .element w.root (d.face field).tag
        (d.attributes field) [.link (.shown field.id) view.root]⟩)) field w
      (.element w.root (d.face field).tag (d.attributes field)
        [.link (.shown field.id) view.root]) := by
    refine ⟨[.link (.shown field.id) view.root], ?_, ?_, ?_, keeps.mono roots⟩
    · unfold Draft.attributes
      rw [face, face]
      rfl
    · rw [face, Draft.filled_fill_self]
      rfl
    · rw [kind]
      exact fits
  have filled := h₁.filling (p := s₁.page.link w.root view.root) sound hf has₁ holds ordered
    (fun k _ other => Function.update_of_ne other ..) (Function.update_self ..) draws roots
  have shows₁ := ((shows.grow bears.grows c).gain gains₁).hang there₁ unshown lies bears.unlinked
    bears.apart fresh apart fun {g dom} there mem => by
      obtain ⟨q, has⟩ := shows.has there
      exact absurd (has.lt_size mem) (Nat.not_lt_of_le (bears.fresh _ top))
  refine ⟨_, _, ?_, filled.withViews (s₁.panel.views.filter (fun entry => entry.1 ≠ field.id) ++
    [(field.id, view)]), shows₁.withViews _, counters₁⟩
  unfold PanelM.setView
  exact (exec_bind_ok run₁).trans ((exec_bind_ok (PanelM.exec_append run₂)).trans rfl)

end Scene

end Formwork
