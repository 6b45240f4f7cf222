import Formwork.Proofs.Page.Swap
import Formwork.Proofs.Panel.TakePage

/-!
# Adding a field below another

What `PanelM.addChild` does to a scene is what putting a field below another does to the draft
that the scene depicts.  A new field has no widget yet; when it becomes a part of its parent its
widget is built and put in its place, otherwise nothing on the page changes.
-/

namespace Formwork

set_option autoImplicit false

/-- The widget of a field, if it was built, lies nowhere. -/
def Layout.Free (L : Layout) (f : FieldId) : Prop :=
  ∀ r, L (.tree (.widget f)) = some r → r.place = none

theorem Layout.Gains.keepsFree {p p' : Page} {L L' : Layout} {f g : FieldId}
    (gains : L.Gains p p' L' (.tree (.widget f))) (free : L.Free g) : L'.Free g := by
  intro r there
  rcases gains.old_or_new there with old | ⟨lies, _⟩
  · exact free r old
  · exact lies

/-- A layout in which no widgets were moved but some, and trees without owners are what they were. -/
structure Layout.Spares (L L' : Layout) (moved : FieldId → Prop) : Prop where
  free : ∀ {g}, ¬ moved g → L.Free g → L'.Free g
  loose : ∀ i, L' (.loose i) = L (.loose i)

namespace Layout.Spares

variable {L L' L'' : Layout} {moved moved' : FieldId → Prop}

theorem refl (L : Layout) : Spares L L moved := ⟨fun _ free => free, fun _ => rfl⟩

theorem trans (first : Spares L L' moved) (second : Spares L' L'' moved) : Spares L L'' moved where
  free other free := second.free other (first.free other free)
  loose i := (second.loose i).trans (first.loose i)

theorem mono (h : Spares L L' moved) (more : ∀ g, moved g → moved' g) : Spares L L' moved' where
  free other free := h.free (fun m => other (more _ m)) free
  loose := h.loose

/-- Building a widget moves none. -/
theorem of_gains {p p' : Page} {f : FieldId} (gains : L.Gains p p' L' (.tree (.widget f))) :
    Spares L L' moved where
  free _ free := gains.keepsFree free
  loose _ := gains.others (by simp)

/-- Putting a widget into another one moves no third one. -/
theorem of_hung {p c : FieldId} {place : Option NodeId} {dom dom' : Dom}
    (before : L (.tree (.widget p)) = some ⟨place, dom⟩)
    (after : L' (.tree (.widget p)) = some ⟨place, dom'⟩)
    (others : ∀ k, k ≠ .tree (.widget c) → k ≠ .tree (.widget p) → L' k = L k) :
    Spares L L' (· = c) where
  free {g} notChild isFree r hr := by
    by_cases same : g = p
    · subst same
      cases after.symm.trans hr
      have lies : place = none := isFree _ before
      exact lies
    · exact isFree r ((others _ (by simpa using notChild) (by simpa using same)).symm.trans hr)
  loose i := others _ (by simp) (by simp)

end Layout.Spares

namespace PanelM

variable {s : Scene} {f : FieldId} {w : Widget}

/-- A widget that was built is answered as it is. -/
theorem exec_widgetOf_built {field : Field} (found : s.panel.field? f = some field)
    (built : field.widget = some w) : exec (widgetOf f) s = (.ok w, s) := by
  unfold widgetOf
  rw [exec_bind_ok (exec_field found), built]
  rfl

/-- A widget that was not built yet is built. -/
theorem exec_widgetOf_unbuilt {field : Field} (found : s.panel.field? f = some field)
    (unbuilt : field.widget = none) : exec (widgetOf f) s = exec (realize field) s := by
  unfold widgetOf
  rw [exec_bind_ok (exec_field found), unbuilt]

theorem exec_element (tag : String) :
    exec (PanelM.onPage (PageM.element tag)) s =
      (.ok (s.page.createElement tag).1, { s with page := (s.page.createElement tag).2 }) :=
  exec_onPage_ok rfl

theorem exec_clear (n : NodeId) :
    exec (PanelM.onPage (PageM.clear n)) s = (.ok (), { s with page := s.page.clear n }) :=
  exec_onPage_ok (exec_modify _ _)

theorem exec_append {p' : Page} {parent child : NodeId}
    (run : s.page.append parent child = .ok p') :
    exec (PanelM.onPage (PageM.append parent child)) s = (.ok (), { s with page := p' }) :=
  exec_onPage_ok (PageM.exec_append_of_ok run)

end PanelM

namespace Dom

theorem eq_nil_of_htmlOf : ∀ {ds : List Dom}, htmlOf ds = [] → ds = []
  | [], _ => rfl

/-- A tree that looks like an element is one. -/
theorem eq_of_htmlOf_element {tag : String} {attributes : OrderedMap String String}
    {children : List Html} : ∀ {ds : List Dom}, htmlOf ds = [.element tag attributes children] →
      ∃ n kids, ds = [.element n tag attributes kids] ∧ htmlOf kids = children
  | [.element n _ _ kids], looks => by
    simp only [htmlOf, html, List.cons.injEq, Html.element.injEq, and_true] at looks
    obtain ⟨rfl, rfl, below⟩ := looks
    exact ⟨n, kids, rfl, below⟩
  | [.text _ _], looks => by cases looks
  | [.link _ _], looks => by cases looks
  | _ :: _ :: _, looks => by
    simp only [htmlOf, List.cons.injEq, reduceCtorEq, and_false] at looks

mutual
/-- Trees that look like markup without links have none. -/
theorem links_eq_nil : ∀ {d : Dom} {n : Markup.Node}, d.html = Html.ofNode n → d.links = []
  | .text _ _, _, _ => rfl
  | .element _ _ _ children, .element _ _, looks => by
    rw [html, Html.ofNode] at looks
    injection looks with _ _ below
    rw [links, linksOf_eq_nil below]
  | .link _ _, .text _, looks => by cases looks
  | .link _ _, .element _ _, looks => by cases looks

theorem linksOf_eq_nil : ∀ {ds : List Dom} {ns : List Markup.Node},
    htmlOf ds = Html.ofNodes ns → linksOf ds = []
  | [], _, _ => rfl
  | d :: ds, n :: ns, looks => by
    rw [htmlOf, Html.ofNodes] at looks
    injection looks with here later
    rw [linksOf, links_eq_nil here, linksOf_eq_nil later]
    rfl
end

end Dom

/-- **A header takes the place of the label** of a disclosure. -/
theorem Page.Holds.hangHeader {base p : Page} {L : Layout} {container c : FieldId}
    {place : Option NodeId} {own header content n : NodeId} {tag : String}
    {attributes : OrderedMap String String} {inner : List Dom} {dom : Dom}
    (h : Page.Holds base p L) (order : L.Ordered) (younger : container.index < c.index)
    (before : L (.tree (.widget container)) = some ⟨place, .element own tag attributes
      [.element header "summary" .empty [.element n "span" .empty inner],
        .element content "div" .empty []]⟩)
    (unlinked : Dom.linksOf inner = []) (free : L (.tree (.widget c)) = some ⟨none, dom⟩) :
    ∃ p' L', (p.clear header).append header dom.root = .ok p' ∧ Page.Holds base p' L' ∧
      L'.Ordered ∧ L' (.tree (.widget c)) = some ⟨some header, dom⟩ ∧
      L' (.tree (.widget container)) = some ⟨place, .element own tag attributes
        [.element header "summary" .empty [.link (.widget c) dom.root],
          .element content "div" .empty []]⟩ ∧
      ∀ k, k ≠ .tree (.widget c) → k ≠ .tree (.widget container) → L' k = L k := by
  have noLinks : Dom.linksOf [.element header "summary" .empty [.element n "span" .empty inner],
      .element content "div" .empty []] = [] := by
    simp only [Dom.linksOf, Dom.links, unlinked, List.append_nil]
  have distinct := h.distinct before
  have inside : ∀ l ∈ Dom.linksOf [.element header "summary" .empty [.element n "span" .empty inner],
      .element content "div" .empty []], l.1.isShown = false := by
    rw [noLinks]
    exact nofun
  have other : ∀ l ∈ Dom.linksOf [.element header "summary" .empty [.element n "span" .empty inner],
      .element content "div" .empty []], l.1 ≠ .widget c := by
    rw [noLinks]
    exact nofun
  have cleared := h.clear order before inside other (Dom.find?_child [] distinct)
  have swapped : Dom.swapAll n (.widget c) []
      [.element header "summary" .empty [.element n "span" .empty inner],
        .element content "div" .empty []] =
      [.element header "summary" .empty [], .element content "div" .empty []] := by
    obtain ⟨_, distinctKids⟩ := List.nodup_cons.1 distinct
    simp only [Dom.nodesOf, Dom.nodes, List.append_nil, List.cons_append, List.nodup_cons,
      List.mem_cons, List.mem_append, not_or] at distinctKids
    obtain ⟨⟨notHeader, _⟩, ⟨_, notContent⟩, _⟩ := distinctKids
    simp only [Dom.swapAll, Dom.swap, if_neg notHeader, if_neg (Ne.symm notContent.1), if_true,
      List.append_nil, List.cons_append, List.nil_append]
  rw [swapped] at cleared
  have order' := order.change before (d := .element own tag attributes
    [.element header "summary" .empty [], .element content "div" .empty []]) rfl (by
      intro l
      simp only [Dom.links, Dom.linksOf, unlinked, List.append_nil])
  have widgetNe : (Owner.tree (.widget c)) ≠ .tree (.widget container) := by
    rintro same
    cases same
    exact Nat.lt_irrefl _ younger
  have later : (Owner.tree (.widget container)).rank < (Owner.tree (.widget c)).rank := by
    show 2 * container.index + 2 < 2 * c.index + 2
    omega
  have distinct' := cleared.distinct (Function.update_self ..)
  obtain ⟨p', L', run, holds, ordered, atChild, atParent, elsewhere⟩ := cleared.hang order'
    (Function.update_self ..) (Dom.find?_child [] distinct')
    (by rw [Function.update_of_ne widgetNe, free]) later
  refine ⟨p', L', run, holds, ordered, atChild, ?_, ?_⟩
  · exact atParent.trans (congrArg (fun d => some (⟨place, d⟩ : Region))
      (Dom.edit_child [] distinct' _))
  · intro k notChild notParent
    rw [elsewhere k notChild notParent, Function.update_of_ne notParent]

namespace Draft

variable {d : Draft} {L : Layout} {field : Field} {w : Widget} {dom : Dom}

/-- The face of a disclosure. -/
theorem face_disclosure (d : Draft) (kind : field.kind = .disclosure) :
    d.face field = .disclosureSection field (field.label? d.panel.messages) (d.parts field) := by
  unfold face Field.face
  rw [kind]

/-- What the widget of a disclosure is. -/
theorem Draws.disclosure (h : d.Draws L field w dom) (kind : field.kind = .disclosure) :
    ∃ own header content headerField caption slot, w = .disclosure own header content headerField ∧
      dom = .element own "details" (d.attributes field)
        [.element header "summary" .empty caption, .element content "div" .empty slot] ∧
      Dom.htmlOf caption = [(d.parts field).header.getD
        (.element "span" .empty (Face.shownText (field.label? d.panel.messages)))] ∧
      Dom.htmlOf slot = d.filled (some field.id) ∧ headerField = field.attached.head? := by
  obtain ⟨kids, shape, looks, fits, keeps⟩ := h
  rw [kind] at fits
  obtain ⟨header, content, caption, slot, headerField, eq, rfl⟩ := fits
  rw [eq] at keeps
  rw [d.face_disclosure kind] at shape looks
  simp only [Face.disclosureSection, Dom.htmlOf, Dom.html, List.cons.injEq,
    Html.element.injEq, true_and, and_true] at looks
  exact ⟨w.root, header, content, headerField, caption, slot, eq, shape, looks.1, looks.2, keeps⟩

/-- When a tree is the widget of a disclosure. -/
theorem Draws.of_disclosure {own header content : NodeId} {headerField : Option FieldId}
    {caption slot : List Dom} (kind : field.kind = .disclosure)
    (captionLooks : Dom.htmlOf caption = [(d.parts field).header.getD
      (.element "span" .empty (Face.shownText (field.label? d.panel.messages)))])
    (slotLooks : Dom.htmlOf slot = d.filled (some field.id))
    (kept : headerField = field.attached.head?) :
    d.Draws L field (.disclosure own header content headerField)
      (.element own "details" (d.attributes field)
        [.element header "summary" .empty caption, .element content "div" .empty slot]) := by
  refine ⟨[.element header "summary" .empty caption, .element content "div" .empty slot],
    ?_, ?_, ?_, kept⟩
  · rw [d.face_disclosure kind]
    rfl
  · rw [d.face_disclosure kind]
    simp only [Dom.htmlOf, Dom.html, captionLooks, slotLooks]
    rfl
  · rw [kind]
    exact ⟨header, content, caption, slot, headerField, rfl, rfl⟩

end Draft

namespace Scene.Depicts

open Draft

variable {base : Page} {L : Layout} {s : Scene} {d : Draft} {p c : FieldId}
  {container child : Field}

/-- A tab container that remembers one more page. -/
theorem exec_showNew {own bar deck n root : NodeId} {pages : List TabPage} {selected : Option Nat}
    {field : Field} (found : s.panel.field? p = some field) :
    let w : Widget := .tabs own bar deck (pages ++ [⟨c, n, root⟩]) selected
    exec (PanelM.selectTab p pages.length) (s.withWidget p w s.page) =
      (.ok true, s.withWidget p (.tabs own bar deck (pages ++ [⟨c, n, root⟩]) (some pages.length))
        (PanelM.showPage (pages ++ [⟨c, n, root⟩]) pages.length s.page)) := by
  intro w
  have found' : (s.withWidget p w s.page).panel.field? p = some { field with widget := some w } := by
    unfold Scene.withWidget Panel.field?
    unfold Panel.field? at found
    rw [FieldTable.field?_update_self, found]
    rfl
  unfold PanelM.selectTab
  refine (exec_bind_ok (PanelM.exec_widgetOf_built found' rfl)).trans ?_
  have bound : pages.length < (pages ++ [(⟨c, n, root⟩ : TabPage)]).length := by
    rw [List.length_append]
    exact Nat.lt_succ_self _
  dsimp only [w]
  rw [if_pos bound]
  refine (exec_bind_ok (PanelM.exec_changePage _)).trans ?_
  refine (exec_bind_ok (PanelM.exec_changeField _ _)).trans ?_
  unfold Scene.withWidget
  dsimp only
  rw [FieldTable.update_update]
  rfl

/-- Taking a page puts a caption and the widget of the page in their places, when both widgets are
there; at the end it is asked whether the page is to be shown. -/
theorem exec_takePage_of {s₁ s₂ : Scene} (page : Field) {field : Field} {w : Widget}
    {p' p'' : Page} {own bar deck root : NodeId} {pages : List TabPage} {selected : Option Nat}
    (run₁ : exec (PanelM.widgetOf p) s = (.ok w, s₁))
    (run₂ : exec (PanelM.widget page.id) s₁ = (.ok root, s₂))
    (found : s₂.panel.field? p = some field)
    (built : field.widget = some (.tabs own bar deck pages selected))
    (run₃ : ((((s₂.page.createElement "span").2.setAttr (s₂.page.createElement "span").1 "class"
      "tab").setText (s₂.page.createElement "span").1
        ((page.label? s.panel.messages).getD "")).setFlag root "hidden" true).append bar
          (s₂.page.createElement "span").1 = .ok p')
    (run₄ : p'.append deck root = .ok p'') :
    exec (PanelM.takePage p page) s =
      exec (if page.attributes.flag Vocabulary.selectedKey false then do
          let _ ← PanelM.selectTab p pages.length
        else pure () : PanelM PUnit) (s₂.withWidget p (.tabs own bar deck
          (pages ++ [⟨page.id, (s₂.page.createElement "span").1, root⟩]) selected) p'') := by
  have foundOn : ∀ q, (⟨s₂.panel, q, s₂.counters⟩ : Scene).panel.field? p = some field :=
    fun _ => found
  unfold PanelM.takePage
  rw [exec_bind_ok (exec_get s)]
  dsimp only
  rw [exec_bind_ok run₁, exec_bind_ok run₂, exec_bind_ok (PanelM.exec_element "span"),
    exec_bind_ok (PanelM.exec_changePage _)]
  refine (exec_bind_ok (PanelM.exec_widgetOf_built (foundOn _) built)).trans ?_
  dsimp only
  refine (exec_bind_ok (PanelM.exec_append (s := ⟨s₂.panel, _, s₂.counters⟩) run₃)).trans ?_
  refine (exec_bind_ok (PanelM.exec_append (s := ⟨s₂.panel, p', s₂.counters⟩) run₄)).trans ?_
  exact exec_bind_ok (PanelM.exec_changeField _ _)

/-- Taking a page moves its widget and no other. -/
theorem PageTaken.spares {L' : Layout} {place : Option NodeId} {dom dom' : Dom}
    (taken : PageTaken L L' d p c container child)
    (before : L (.tree (.widget p)) = some ⟨place, dom⟩)
    (after : L' (.tree (.widget p)) = some ⟨place, dom'⟩)
    (loose : ∀ i, L' (.loose i) = L (.loose i)) : L.Spares L' (· = c) where
  free {g} notPage isFree r hr := by
    by_cases same : g = p
    · subst same
      cases after.symm.trans hr
      have lies : place = none := isFree _ before
      exact lies
    · rw [taken.widgets g notPage same] at hr
      obtain ⟨r', hr', rfl⟩ := Option.map_eq_some_iff.1 hr
      exact isFree r' hr'
  loose := loose

/-- **Taking a page** puts it below its tab container as a part. -/
theorem exec_takePage (h : s.Depicts base L d) (sound : d.Sound) (younger : p.index < c.index)
    (hp : d.field? p = some container) (hc : d.field? c = some child)
    (free : child.parent = none) (kind : container.kind = .tabs) (noWidget : s.widget? c = none) :
    ∃ s' L', exec (PanelM.takePage p { child with widget := none }) s = (.ok (), s') ∧
      (s'.link p c .part).Depicts base L' (d.link p c .part) ∧ s'.counters = s.counters ∧
      L.Spares L' (· = c) := by
  have ne := ne_of_younger younger
  obtain rfl := sound.ids hc
  -- both widgets are built
  obtain ⟨w, s₁, L₁, run₁, h₁, has₁, counters₁, others₁, gains₁⟩ := h.exec_widgetOf hp (sound.ids hp)
  obtain ⟨wc, s₂, L₂, ⟨place', dom⟩, run₂, h₂, has₂, counters₂, others₂, gains₂, there₂, draws₂⟩ :=
    h₁.exec_widget hc rfl
  have hasTabs : s₂.widget? p = some w := (others₂ p ne).trans has₁
  obtain rfl : place' = none := by
    refine gains₂.free (h₁.unbuilt hc ?_).1 there₂
    rw [others₁ child.id ne.symm, noWidget]
  obtain ⟨⟨place, tabsDom⟩, before, drawsTabs⟩ := h₂.built hp hasTabs
  obtain ⟨own, bar, deck, pages, selected, captions, shown, rfl, rfl, _, _, _, _⟩ :=
    drawsTabs.tabs kind
  have absent : L₂ (.tree (.caption child.id)) = none := by
    refine h₂.uncaptioned hc ?_
    rw [exposure?_eq, free]
    rfl
  obtain ⟨domKids, rfl, _⟩ := draws₂
  have top : (Dom.element wc.root (d.face child).tag (d.attributes child) domKids).IsElement
      wc.root := ⟨_, _, _, rfl⟩
  -- the caption and the widget are put in their places
  obtain ⟨n, kids, p', p'', L₃, rfl, run₃, run₄, holds, ordered, looks, caption, widget, after,
    elsewhere⟩ := h₂.holds.hangPage h₂.ordered younger before there₂ top absent
      ((child.label? s.panel.messages).getD "")
  have foundTabs := h₂.field_of hp
  rw [hasTabs] at foundTabs
  have hung : Hung L₂ L₃ p child.id place own bar deck _ wc.root (d.attributes container) captions
    shown kids _ := ⟨before, there₂, absent, caption, widget, after, elsewhere⟩
  rw [h.messages] at looks
  have run := exec_takePage_of { child with widget := none } run₁ run₂ foundTabs rfl run₃ run₄
  have asked : d.isSelected child.id = child.attributes.flag Vocabulary.selectedKey false := by
    unfold Draft.isSelected
    rw [hc]
    rfl
  have built : L.Spares L₂ (· = child.id) :=
    (Layout.Spares.of_gains gains₁).trans (Layout.Spares.of_gains gains₂)
  have loose : ∀ i, L₃ (.loose i) = L₂ (.loose i) := fun i =>
    elsewhere _ (by simp) (by simp) (by simp)
  dsimp only at run
  rw [← asked] at run
  cases wanted : d.isSelected child.id with
  | false =>
    have taken : PageTaken L₂ L₃ d p child.id container child := hung.taken looks wanted
    rw [wanted] at run
    exact ⟨_, L₃, run, hung.depicts h₂ sound younger hp hc free kind hasTabs has₂ holds ordered looks
      top wanted, counters₂.trans counters₁, built.trans (taken.spares before after loose)⟩
  | true =>
    obtain ⟨taken, others, depicts⟩ := hung.depicts_showing h₂ sound younger hp hc free kind hasTabs
      has₂ holds ordered looks top wanted
    have atTabs := others (.tree (.widget p)) (by simp) fun g other => by simpa using other.symm
    rw [wanted, if_pos rfl] at run
    refine ⟨_, _, run.trans ((exec_bind_ok (exec_showNew (s := ⟨s₂.panel, p'', s₂.counters⟩)
      foundTabs)).trans rfl), depicts, counters₂.trans counters₁,
      built.trans (taken.spares before (atTabs.trans after) fun i => ?_)⟩
    exact (others _ (by simp) (by simp)).trans (loose i)

/-! ## Headers -/

/-- The widget of a field in a scene with another page, layout and widget of one field, when the
field has become a part of another that is no tab container. -/
theorem link_part {L' : Layout} {w : Widget} {page : Page} (h : s.Depicts base L d)
    (sound : d.Sound) (ne : p ≠ c) (hp : d.field? p = some container)
    (hc : d.field? c = some child) (free : child.parent = none) (kind : container.kind ≠ .tabs)
    (holds : Page.Holds base page L') (ordered : L'.Ordered)
    (others : ∀ k, k ≠ .tree (.widget p) →
      (L' k).map Region.dom = (L k).map Region.dom ∧ (k = .panel → L' k = L k))
    (roots : ∀ target n, L.RootAt target n → L'.RootAt target n) {r : Region}
    (there : L' (.tree (.widget p)) = some r)
    (draws : (d.link p c .part).Draws L' (relinked p c .part container) w r.dom) :
    ((s.withWidget p w page).link p c .part).Depicts base L' (d.link p c .part) := by
  have same : ∀ {k r}, k ≠ .tree (.widget p) → L k = some r →
      ∃ r', L' k = some r' ∧ r'.dom = r.dom := by
    intro k r other hr
    have map := (others k other).1
    rw [hr, Option.map_some] at map
    exact Option.map_eq_some_iff.1 map
  have none : ∀ {k}, k ≠ .tree (.widget p) → L k = none → L' k = none := by
    intro k other hr
    have map := (others k other).1
    rw [hr] at map
    exact Option.map_eq_none_iff.1 map
  have exposure : ∀ {g field}, d.field? g = some field →
      (d.link p c .part).exposure? (relinked p c .part field) = d.exposure? field :=
    exposure?_link sound ne hp hc free .part (.inr kind)
  have attached : ∀ {g field}, d.field? g = some field → g ≠ p →
      (relinked p c .part field).attached = field.attached := fun found other =>
    attached_relinked_of_ne (by rw [sound.ids found]; exact other)
  refine of_link sound ne hc free (Scene.bare_withWidget.trans h.bare)
    ((Scene.field?_withWidget_of_ne ne.symm).trans (h.field_of hc)) free holds ordered ?_ ?_ ?_ ?_ ?_ ?_
    fun g => none (by simp) (h.hidden g)
  · obtain ⟨kids, hr, looks⟩ := h.root
    exact ⟨kids, ((others _ (by simp)).2 rfl).trans hr, looks⟩
  · intro g field w' found hasWidget'
    by_cases atParent : g = p
    · subst atParent
      cases hp.symm.trans found
      cases (Scene.widget?_withWidget_self (h.field_of hp)).symm.trans hasWidget'
      exact ⟨r, there, draws⟩
    · rw [Scene.widget?_withWidget_of_ne atParent] at hasWidget'
      obtain ⟨s', hs, draws'⟩ := h.built found hasWidget'
      obtain ⟨t, ht, eq⟩ := same (by simpa using atParent) hs
      refine ⟨t, ht, ?_⟩
      rw [eq]
      exact draws'.congr (alike_relinked ..) (attached found atParent) rfl rfl (exposure found) roots
  · intro g field found noWidget
    have notParent : g ≠ p := by
      rintro rfl
      cases (Scene.widget?_withWidget_self (h.field_of hp)).symm.trans noWidget
    rw [Scene.widget?_withWidget_of_ne notParent] at noWidget
    obtain ⟨absent, blank⟩ := h.unbuilt found noWidget
    exact ⟨none (by simpa using notParent) absent,
      blank.relinked (attached found notParent) ((exposure found).trans blank.exposure)⟩
  · intro g field e found exposed
    obtain ⟨r', hr, n, kids, shape, looks⟩ :=
      h.captioned found ((exposure found).symm.trans exposed)
    obtain ⟨t, ht, eq⟩ := same (by simp) hr
    exact ⟨t, ht, n, kids, eq.trans shape, looks⟩
  · exact fun found hidden =>
      none (by simp) (h.uncaptioned found ((exposure found).symm.trans hidden))
  · intro g absent
    have notParent : g ≠ p := by
      rintro rfl
      cases hp.symm.trans absent
    exact ⟨none (by simpa using notParent) (h.unknown absent).1, none (by simp) (h.unknown absent).2⟩

/-- The widget of a disclosure that took its header. -/
theorem draws_header {own header content n : NodeId} (sound : d.Sound) (ne : p ≠ c)
    (hp : d.field? p = some container) (hc : d.field? c = some child)
    (free : child.parent = none) (kind : container.kind = .disclosure)
    (none : container.attached = []) (unfilled : d.filled (some p) = []) :
    (d.link p c .part).Draws L (relinked p c .part container)
      (.disclosure own header content (some c)) (.element own "details" (d.attributes container)
        [.element header "summary" .empty [.link (.widget c) n],
          .element content "div" .empty []]) := by
  have alike := alike_relinked p c .part container
  have kind' := alike.kind.symm.trans kind
  have attached := attached_relinked_part (sound.ids hp) ne
  rw [none, List.nil_append] at attached
  have notTabs : container.kind ≠ .tabs := by
    rw [kind]
    exact nofun
  have exposure := exposure?_link sound ne hp hc free .part (.inr notTabs) hp
  have attributes : (d.link p c .part).attributes (relinked p c .part container) =
      d.attributes container := by
    unfold Draft.attributes Field.lookAttributes
    rw [face_disclosure _ kind', face_disclosure _ kind, exposure, alike.attributes]
    unfold Face.disclosureSection
    rw [alike.attributes]
  rw [← attributes]
  refine Draws.of_disclosure kind' ?_ ?_ (by rw [attached]; rfl)
  · unfold parts
    rw [attached]
    rfl
  · rw [← alike.id, sound.ids hp]
    exact unfilled.symm

/-- Taking the first header puts its widget in the place of the label, when both widgets are there. -/
theorem exec_takeHeader_of {s₁ s₂ : Scene} {field : Field} {p' : Page}
    {own header content root : NodeId}
    (run₁ : exec (PanelM.widgetOf p) s = (.ok (.disclosure own header content none), s₁))
    (run₂ : exec (PanelM.widget c) s₁ = (.ok root, s₂)) (found : s₂.panel.field? p = some field)
    (built : field.widget = some (.disclosure own header content none))
    (run₃ : (s₂.page.clear header).append header root = .ok p') :
    exec (PanelM.takeHeader p c) s =
      (.ok .part, s₂.withWidget p (.disclosure own header content (some c)) p') := by
  unfold PanelM.takeHeader
  rw [exec_bind_ok run₁]
  refine (exec_bind_ok run₂).trans ?_
  refine (exec_bind_ok (PanelM.exec_widgetOf_built found built)).trans ?_
  refine (exec_bind_ok (PanelM.exec_clear header)).trans ?_
  refine (exec_bind_ok (PanelM.exec_append
    (s := ⟨s₂.panel, s₂.page.clear header, s₂.counters⟩) run₃)).trans ?_
  exact exec_bind_ok (PanelM.exec_changeField _ _)

/-- A disclosure without a header takes the new one. -/
theorem exec_takeFirstHeader (h : s.Depicts base L d) (sound : d.Sound) (younger : p.index < c.index)
    (hp : d.field? p = some container) (hc : d.field? c = some child)
    (free : child.parent = none) (kind : container.kind = .disclosure)
    (unfilled : d.filled (some p) = []) (noWidget : s.widget? c = none)
    (taken : container.attached = []) :
    ∃ s' L', exec (PanelM.takeHeader p c) s = (.ok .part, s') ∧
      (s'.link p c .part).Depicts base L' (d.link p c .part) ∧ s'.counters = s.counters ∧
      L.Spares L' (· = c) := by
  have ne := ne_of_younger younger
  -- both widgets are built
  obtain ⟨w, s₁, L₁, run₁, h₁, has₁, counters₁, others₁, gains₁⟩ := h.exec_widgetOf hp (sound.ids hp)
  obtain ⟨wc, s₂, L₂, ⟨place', dom⟩, run₂, h₂, has₂, counters₂, others₂, gains₂, there₂, draws₂⟩ :=
    h₁.exec_widget hc (sound.ids hc)
  have hasSection : s₂.widget? p = some w := (others₂ p ne).trans has₁
  obtain rfl : place' = none := by
    refine gains₂.free (h₁.unbuilt hc ?_).1 there₂
    rw [others₁ c ne.symm, noWidget]
  obtain ⟨⟨place, section_⟩, before, draws⟩ := h₂.built hp hasSection
  obtain ⟨own, header, content, headerField, caption, slot, rfl, rfl, captionLooks, slotLooks, kept⟩ :=
    draws.disclosure kind
  rw [taken] at kept
  cases kept
  -- nothing is in it but its label
  have noHeader : (d.parts container).header = none := by
    unfold parts
    rw [taken]
    rfl
  rw [noHeader] at captionLooks
  obtain ⟨n, inner, rfl, innerLooks⟩ := Dom.eq_of_htmlOf_element captionLooks
  rw [sound.ids hp, unfilled] at slotLooks
  obtain rfl := Dom.eq_nil_of_htmlOf slotLooks
  -- the widget of the header takes the place of the label
  obtain ⟨p', L', run₃, holds, ordered, atChild, atParent, elsewhere⟩ :=
    h₂.holds.hangHeader h₂.ordered younger before (Dom.linksOf_eq_nil innerLooks) there₂
  rw [draws₂.root] at run₃ atParent
  have foundSection := h₂.field_of hp
  rw [hasSection] at foundSection
  have notTabs : container.kind ≠ .tabs := by
    rw [kind]
    exact nofun
  have roots : ∀ target n, L₂.RootAt target n → L'.RootAt target n := by
    rintro target m ⟨r, hr, rfl⟩
    by_cases atC : target = .widget c
    · subst atC
      cases there₂.symm.trans hr
      exact ⟨_, atChild, rfl⟩
    · by_cases atP : target = .widget p
      · subst atP
        cases before.symm.trans hr
        exact ⟨_, atParent, rfl⟩
      · exact ⟨r, (elsewhere _ (by simpa using atC) (by simpa using atP)).trans hr, rfl⟩
  refine ⟨_, L', exec_takeHeader_of run₁ run₂ foundSection rfl run₃,
    h₂.link_part sound ne hp hc free notTabs holds ordered ?_ roots atParent
      (draws_header sound ne hp hc free kind taken unfilled), counters₂.trans counters₁,
    (Layout.Spares.of_gains gains₁).trans ((Layout.Spares.of_gains gains₂).trans
      (.of_hung before atParent elsewhere))⟩
  intro k notParent
  by_cases atC : k = .tree (.widget c)
  · subst atC
    rw [atChild, there₂]
    exact ⟨rfl, nofun⟩
  · rw [elsewhere k atC notParent]
    exact ⟨rfl, fun _ => rfl⟩

/-- **Taking a header** puts it below its disclosure as a part, unless there is one. -/
theorem exec_takeHeader (h : s.Depicts base L d) (sound : d.Sound) (younger : p.index < c.index)
    (hp : d.field? p = some container) (hc : d.field? c = some child)
    (free : child.parent = none) (kind : container.kind = .disclosure)
    (unfilled : d.filled (some p) = []) (noWidget : s.widget? c = none) :
    ∃ s' L', exec (PanelM.takeHeader p c) s =
        (.ok (if container.attached = [] then .part else .content), s') ∧
      (s'.link p c (if container.attached = [] then .part else .content)).Depicts base L'
        (d.link p c (if container.attached = [] then .part else .content)) ∧
      s'.counters = s.counters ∧ L.Spares L' fun g => g = c ∧ container.attached = [] := by
  by_cases taken : container.attached = []
  · rw [if_pos taken]
    obtain ⟨s', L', run, depicts, counters, spares⟩ :=
      h.exec_takeFirstHeader sound younger hp hc free kind unfilled noWidget taken
    exact ⟨s', L', run, depicts, counters, spares.mono fun g same => ⟨same, taken⟩⟩
  · rw [if_neg taken]
    obtain ⟨w, s', L', run, h', has, counters, _, gains⟩ := h.exec_widgetOf hp (sound.ids hp)
    obtain ⟨_, _, draws⟩ := h'.built hp has
    obtain ⟨own, header, content, headerField, _, _, rfl, _, _, _, kept⟩ := draws.disclosure kind
    obtain ⟨f, fs, eq⟩ := List.exists_cons_of_ne_nil taken
    rw [eq] at kept
    cases kept
    refine ⟨s', L', ?_, h'.link_content sound (ne_of_younger younger) hp hc free, counters,
      .of_gains gains⟩
    unfold PanelM.takeHeader
    rw [exec_bind_ok run]
    rfl

/-- **Putting a new field below another** does to the draft what it does to the scene: the field is
taken for a part, or else it becomes content. -/
theorem exec_addChild (h : s.Depicts base L d) (sound : d.Sound) (younger : p.index < c.index)
    (hp : d.field? p = some container) (hc : d.field? c = some child)
    (free : child.parent = none) (unfilled : d.filled (some p) = []) (noWidget : s.widget? c = none) :
    ∃ s' L', exec (PanelM.addChild p c) s = (.ok (decide (roleIn container child = .content)), s') ∧
      s'.Depicts base L' (d.link p c (roleIn container child)) ∧ s'.counters = s.counters ∧
      L.Spares L' fun g => g = c ∧ roleIn container child ≠ .content := by
  have ne := ne_of_younger younger
  have taken : ∃ s' L', exec (PanelM.takePart p c) s = (.ok (roleIn container child), s') ∧
      (s'.link p c (roleIn container child)).Depicts base L' (d.link p c (roleIn container child)) ∧
      s'.counters = s.counters ∧ L.Spares L' fun g => g = c ∧ roleIn container child ≠ .content := by
    have found := h.field_of hc
    rw [noWidget] at found
    unfold PanelM.takePart roleIn
    rw [exec_bind_ok (PanelM.exec_field (h.field_of hp)), exec_bind_ok (PanelM.exec_field found)]
    dsimp only
    by_cases page : container.kind = .tabs ∧ child.kind = .panel
    · rw [if_pos page, if_pos page]
      obtain ⟨s', L', run, depicts, counters, spares⟩ :=
        h.exec_takePage sound younger hp hc free page.1 noWidget
      exact ⟨s', L', (exec_bind_ok run).trans rfl, depicts, counters,
        spares.mono fun g same => ⟨same, nofun⟩⟩
    · rw [if_neg page, if_neg page]
      have tag : ({ child with widget := none } : Field).tagUri? = child.tagUri? := rfl
      rw [tag]
      by_cases header : container.kind = .disclosure ∧ child.tagUri? = some Vocabulary.headerTag
      · obtain ⟨s', L', run, depicts, counters, spares⟩ :=
          h.exec_takeHeader sound younger hp hc free header.1 unfilled noWidget
        rw [if_pos header]
        by_cases none : container.attached = []
        · rw [if_pos none] at run depicts
          rw [if_pos ⟨header.1, header.2, none⟩]
          exact ⟨s', L', run, depicts, counters, spares.mono fun g same => ⟨same.1, nofun⟩⟩
        · rw [if_neg none] at run depicts
          rw [if_neg fun all => none all.2.2]
          exact ⟨s', L', run, depicts, counters, spares.mono fun g same => absurd same.2 none⟩
      · rw [if_neg header, if_neg fun all => header ⟨all.1, all.2.1⟩]
        exact ⟨s, L, rfl, h.link_content sound ne hp hc free, rfl,
          Layout.Spares.refl L⟩
  obtain ⟨s', L', run, depicts, counters, spares⟩ := taken
  refine ⟨s'.link p c (roleIn container child), L', ?_, depicts, counters, spares⟩
  unfold PanelM.addChild
  rw [exec_bind_ok run]
  exact exec_bind_ok (PanelM.exec_changeTable _)

end Scene.Depicts

end Formwork
