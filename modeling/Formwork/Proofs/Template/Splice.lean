import Formwork.Proofs.Panel.Create
import Formwork.Proofs.Template.Walk

/-!
# Splicing widgets into markup

Splicing is one step for each marker.  What a step preserves is `Splicing`: the scene depicts a
draft, the tree that is spliced into is there, and the widgets of its fields lie in it or nowhere.
So no step is refused, and at the end the tree is the settled markup.
-/

namespace Formwork

set_option autoImplicit false

/-! ## Steps of building -/

namespace BuildM

variable {α : Type} {s s' : Scene} {a : α}

theorem exec_onPanel_ok {operation : PanelM α} (run : exec operation s = (.ok a, s')) :
    exec (onPanel operation) s = (.ok a, s') := by
  have unfolded : exec (onPanel operation) s =
      (Except.mapError BuildError.field (exec operation s).1, (exec operation s).2) := rfl
  rw [unfolded, run]
  rfl

theorem onPage_eq_within (changes : PageM α) : onPage changes =
    within changes Scene.page (fun s p => { s with page := p }) (fun a _ => a) .page := by
  unfold onPage within
  refine bind_congr fun s => ?_
  rcases changes.run.run s.page with ⟨_ | _, _⟩ <;> rfl

theorem exec_onPage_ok {changes : PageM α} {p : Page} (run : exec changes s.page = (.ok a, p)) :
    exec (onPage changes) s = (.ok a, { s with page := p }) := by
  rw [onPage_eq_within]
  exact exec_within_ok run

/-- A marker is replaced by asking for the widget of its field, putting it before the marker, and removing
the marker. -/
theorem exec_replaceMarker_ok {m : Marker} {w : NodeId} {p p' : Page}
    (asked : exec (PanelM.widget m.field) s = (.ok w, s'))
    (put : s'.page.insertBefore m.parent w m.node = .ok p) (removed : p.remove m.parent m.node = .ok p') :
    exec (replaceMarker m) s = (.ok (), { s' with page := p' }) := by
  unfold replaceMarker
  rw [exec_bind_ok (exec_onPanel_ok asked),
    exec_bind_ok (exec_onPage_ok (PageM.exec_insertBefore_of_ok put))]
  exact exec_onPage_ok (s := { s' with page := p }) (PageM.exec_remove_of_ok removed)

end BuildM

namespace Draft

/-- A draft seen from a tree with some content: the tree of the panel is its content. -/
def regard (d : Draft) (k : Owner) (content : List Html) : Draft :=
  if k = .panel then d.fill none content else d

theorem panel_regard (d : Draft) (k : Owner) (content : List Html) :
    (d.regard k content).panel = d.panel := by
  unfold regard
  split <;> rfl

theorem filled_regard (d : Draft) (k : Owner) (content : List Html) (f : FieldId) :
    (d.regard k content).filled (some f) = d.filled (some f) := by
  unfold regard
  split
  · exact filled_fill_of_ne _ _ (by simp)
  · rfl

theorem field?_regard (d : Draft) (k : Owner) (content : List Html) (f : FieldId) :
    (d.regard k content).field? f = d.field? f := by
  unfold field?
  rw [panel_regard]

end Draft

namespace Scene.Depicts

open Draft

variable {base : Page} {L L' : Layout} {s : Scene} {d d' : Draft} {page : Page}

theorem exposure?_congr (panel : d'.panel = d.panel) (field : Field) :
    d'.exposure? field = d.exposure? field := by
  obtain ⟨_, _⟩ := d
  obtain ⟨_, _⟩ := d'
  cases panel
  rfl

/-- A scene in which widgets lie elsewhere, and whose panel has other content. -/
theorem relayout (h : s.Depicts base L d) (panel : d'.panel = d.panel)
    (filled : ∀ f, d'.filled (some f) = d.filled (some f)) (holds : Page.Holds base page L')
    (ordered : L'.Ordered)
    (trees : ∀ target, (L' (.tree target)).map Region.dom = (L (.tree target)).map Region.dom)
    (root : ∃ kids, L' .panel = some ⟨none, .element s.panel.root "div" .empty kids⟩ ∧
      Dom.htmlOf kids = d'.filled none) :
    ({ s with page := page } : Scene).Depicts base L' d' := by
  have same : ∀ {target r}, L (.tree target) = some r →
      ∃ r', L' (.tree target) = some r' ∧ r'.dom = r.dom := by
    intro target r hr
    have map := trees target
    rw [hr, Option.map_some] at map
    exact Option.map_eq_some_iff.1 map
  have none : ∀ {target}, L (.tree target) = none → L' (.tree target) = none := by
    intro target hr
    have map := trees target
    rw [hr] at map
    exact Option.map_eq_none_iff.1 map
  have roots : ∀ target n, L.RootAt target n → L'.RootAt target n := by
    rintro target n ⟨r, hr, rfl⟩
    obtain ⟨r', hr', eq⟩ := same hr
    exact ⟨r', hr', by rw [eq]⟩
  have fields : ∀ f, d'.field? f = d.field? f := by
    intro f
    unfold Draft.field?
    rw [panel]
  have messages : d'.panel.messages = d.panel.messages := by rw [panel]
  refine ⟨holds, ordered, h.bare.trans panel.symm, root, ?_, ?_, ?_, ?_, ?_,
    fun f => none (h.hidden f)⟩
  · intro f field w found hasWidget
    rw [fields] at found
    obtain ⟨r, hr, draws⟩ := h.built found hasWidget
    obtain ⟨r', hr', eq⟩ := same hr
    refine ⟨r', hr', ?_⟩
    rw [eq]
    exact draws.congr (Alike.refl field) rfl messages (filled _) (exposure?_congr panel field) roots
  · intro f field found noWidget
    rw [fields] at found
    obtain ⟨absent, blank⟩ := h.unbuilt found noWidget
    exact ⟨none absent, (filled _).trans blank.filled, blank.attached,
      (exposure?_congr panel field).trans blank.exposure⟩
  · intro f field e found exposed
    rw [fields] at found
    rw [exposure?_congr panel] at exposed
    obtain ⟨r, hr, draws⟩ := h.captioned found exposed
    obtain ⟨r', hr', eq⟩ := same hr
    refine ⟨r', hr', ?_⟩
    rw [eq, messages]
    exact draws
  · intro f field found hidden
    rw [fields] at found
    rw [exposure?_congr panel] at hidden
    exact none (h.uncaptioned found hidden)
  · intro f absent
    rw [fields] at absent
    exact ⟨none (h.unknown absent).1, none (h.unknown absent).2⟩

end Scene.Depicts

/-! ## One marker -/

/-- A tree that is spliced into. -/
structure SpliceSite where
  owner : Owner
  place : Option NodeId
  top : NodeId
  tag : String
  attributes : OrderedMap String String

/-- The tree of a site with its content. -/
def SpliceSite.dom (site : SpliceSite) (kids : List Dom) : Dom :=
  .element site.top site.tag site.attributes kids

/-- What splicing preserves: the scene depicts the draft, the content of the site is `kids`, and the
widgets of the fields of the site lie in it or nowhere. -/
structure Splicing (base : Page) (d : Draft) (site : SpliceSite) (fields : FieldId → Prop)
    (s : Scene) (L : Layout) (kids : List Dom) : Prop where
  depicts : s.Depicts base L (d.regard site.owner (Dom.htmlOf kids))
  there : L site.owner = some ⟨site.place, site.dom kids⟩
  inside : ∀ l ∈ Dom.linksOf kids, l.1.isShown = false
  within : ∀ f r q, fields f → L (.tree (.widget f)) = some r → r.place = some q →
    (.widget f, r.dom.root) ∈ Dom.linksOf kids

/-- The fields of a site are fields of the draft that come later than the site. -/
structure SpliceSite.Admits (site : SpliceSite) (d : Draft) (fields : FieldId → Prop) : Prop where
  known : ∀ f, fields f → ∃ field, d.field? f = some field ∧ field.id = f
  later : ∀ f, fields f → site.owner.rank < (Owner.tree (.widget f)).rank
  apart : ∀ target, site.owner ≠ .tree target

/-- A layout in which only the widgets of some fields were moved, and no trees without owners changed
but that of the site. -/
structure SpliceSite.Spares (site : SpliceSite) (fields : FieldId → Prop) (L L' : Layout) : Prop where
  free : ∀ {g}, ¬ fields g → L.Free g → L'.Free g
  loose : ∀ i, site.owner ≠ .loose i → L' (.loose i) = L (.loose i)

namespace SpliceSite.Spares

variable {site : SpliceSite} {fields : FieldId → Prop} {L L' L'' : Layout}

theorem refl (L : Layout) : site.Spares fields L L := ⟨fun _ free => free, fun _ _ => rfl⟩

theorem trans (first : site.Spares fields L L') (second : site.Spares fields L' L'') :
    site.Spares fields L L'' where
  free other free := second.free other (first.free other free)
  loose i ne := (second.loose i ne).trans (first.loose i ne)

end SpliceSite.Spares

namespace Splicing

variable {base : Page} {d : Draft} {site : SpliceSite} {fields : FieldId → Prop} {s : Scene}
  {L L' : Layout} {kids before behind inner : List Dom} {m : Marker} {tag tag' : String}
  {attributes attributes' : OrderedMap String String}

/-- The scene depicts the draft with other content of the site. -/
theorem depicts_swap (h : Splicing base d site fields s L kids)
    {page : Page} {kids' : List Dom} (holds : Page.Holds base page L') (ordered : L'.Ordered)
    (there : L' site.owner = some ⟨site.place, site.dom kids'⟩)
    (trees : ∀ target, (L' (.tree target)).map Region.dom = (L (.tree target)).map Region.dom)
    (panel : site.owner ≠ .panel → L' .panel = L .panel) :
    ({ s with page := page } : Scene).Depicts base L' (d.regard site.owner (Dom.htmlOf kids')) := by
  refine h.depicts.relayout ?_ ?_ holds ordered trees ?_
  · rw [Draft.panel_regard, Draft.panel_regard]
  · intro f
    rw [Draft.filled_regard, Draft.filled_regard]
  · obtain ⟨old, atPanel, looks⟩ := h.depicts.root
    by_cases same : site.owner = .panel
    · have before := h.there
      rw [same, atPanel] at before
      rw [same] at there
      unfold SpliceSite.dom at before there
      injection before with before
      injection before with place dom
      injection dom with top tag attributes _
      refine ⟨kids', ?_, ?_⟩
      · rw [there, place, top, tag, attributes]
      · unfold Draft.regard
        rw [if_pos same, Draft.filled_fill_self]
    · refine ⟨old, (panel same).trans atPanel, ?_⟩
      unfold Draft.regard at looks ⊢
      rw [if_neg same] at looks ⊢
      exact looks

/-- **A marker is replaced** by the widget of its field. -/
theorem exec_replaceMarker (h : Splicing base d site fields s L kids) (admits : site.Admits d fields)
    (hm : fields m.field)
    (found : (site.dom kids).find? m.parent = some (tag, attributes,
      before ++ .element m.node tag' attributes' inner :: behind))
    (bare : Dom.linksOf inner = []) :
    ∃ w s' L', exec (BuildM.replaceMarker m) s = (.ok (), s') ∧
      Splicing base d site fields s' L' (Dom.spliceAll [(m, w)] kids) ∧
      s'.counters = s.counters ∧ site.Spares fields L L' := by
  obtain ⟨field, hf, id⟩ := admits.known _ hm
  obtain ⟨w, s₁, L₁, r, run₁, h₁, has₁, counters₁, _, gains, there₁, draws⟩ :=
    h.depicts.exec_widget ((Draft.field?_regard ..).trans hf) id
  have site₁ := gains.kept h.there
  have later := admits.later _ hm
  -- a widget that was just built lies nowhere
  have old : ∀ {f r q}, L₁ (.tree (.widget f)) = some r → r.place = some q →
      L (.tree (.widget f)) = some r := by
    intro f r q hr lies
    rcases gains.old_or_new hr with old | ⟨free, _⟩
    · exact old
    · cases free.symm.trans lies
  have within₁ : ∀ f r q, fields f → L₁ (.tree (.widget f)) = some r → r.place = some q →
      (.widget f, r.dom.root) ∈ Dom.linksOf kids := fun f r q hf hr lies =>
    h.within f r q hf (old hr lies) lies
  obtain ⟨place, dom⟩ := r
  have root : dom.root = w.root := draws.root
  have distinct := h₁.holds.distinct site₁
  obtain ⟨notTop, _, atN⟩ := Dom.findAmong?_of_child _ distinct found
  obtain ⟨p₁, p₂, L₂, run₂, run₃, holds, ordered, atWidget, atSite, others⟩ :=
    h₁.holds.swap h₁.ordered site₁ there₁ (fun q lies => within₁ _ _ q hm there₁ lies) h.inside
      found bare later
  rw [root] at run₂ atSite
  have atSite' : L₂ site.owner = some ⟨site.place, site.dom (Dom.spliceAll [(m, w.root)] kids)⟩ :=
    atSite
  have h₁' : Splicing base d site fields s₁ L₁ kids := ⟨h₁, site₁, h.inside, within₁⟩
  refine ⟨w.root, { s₁ with page := p₂ }, L₂, BuildM.exec_replaceMarker_ok run₁ run₂ run₃,
    ⟨?_, atSite', ?_, ?_⟩, counters₁, ?_⟩
  · refine h₁'.depicts_swap holds ordered atSite' ?_ ?_
    · intro target
      by_cases same : target = .widget m.field
      · rw [same, atWidget, there₁]
        rfl
      · rw [others _ (by simpa using same) (admits.apart target).symm]
    · intro notPanel
      exact others _ (by simp) (Ne.symm notPanel)
  · intro l hl
    rcases Dom.mem_linksOf_swapAll hl with ⟨old, _⟩ | new
    · exact h.inside l old
    · rw [List.mem_singleton.1 new]
      rfl
  · intro f r q hf hr lies
    by_cases same : f = m.field
    · subst same
      rw [atWidget] at hr
      cases hr
      refine Dom.mem_linksOf_swapAll_of_new ?_ ?_
      · rw [root]
        exact List.mem_singleton_self _
      · rw [atN]
        exact nofun
    · rw [others _ (by simpa using same) (admits.apart _).symm] at hr
      refine Dom.mem_linksOf_swapAll_of_ne (by simpa using same) (List.nodup_cons.1 distinct).2
        ?_ (within₁ f r q hf hr lies)
      intro tag'' attributes'' children found'
      rw [atN] at found'
      cases found'
      exact bare
  · refine ⟨fun {g} other isFree r hr => ?_, fun i ne => ?_⟩
    · have ne : g ≠ m.field := by
        rintro rfl
        exact other hm
      rw [others _ (by simpa using ne) (admits.apart _).symm] at hr
      exact gains.keepsFree isFree r hr
    · exact (others _ (by simp) (Ne.symm ne)).trans (gains.others (by simp))

/-- Replacing one marker keeps the splicing, so replacing all of them does. -/
theorem inlays (admits : site.Admits d fields) : Inlays site.top site.tag site.attributes fields
    (Prod.fst : Scene × Layout → Scene) (fun x => Splicing base d site fields x.1 x.2)
    fun _ x y => y.1.counters = x.1.counters ∧ site.Spares fields x.2 y.2 where
  there h := ⟨site.place, h.depicts.holds.has h.there⟩
  distinct h := h.depicts.holds.distinct h.there
  loose h l hl := h.depicts.holds.link_ne h.depicts.ordered h.there hl (h.inside l hl)
  step h hm found bare := by
    obtain ⟨w, s', L', run, splicing, counters, spares⟩ := h.exec_replaceMarker admits hm found bare
    exact ⟨w, (s', L'), run, splicing, counters, spares⟩
  refl x := ⟨rfl, .refl x.2⟩
  trans first second := ⟨second.1.trans first.1, first.2.trans second.2⟩

/-- **Replacing the markers of imported markup** is not refused. -/
theorem runs_nodes (h : Splicing base d site fields s L kids) (admits : site.Admits d fields)
    {placeholders : Placeholders}
    (marked : ∀ identifier f, placeholders.get? identifier = some f → fields f)
    (ns : List Markup.Node) {number : Nat} {q : NodeId} (order : q.index < number)
    (found : (site.dom kids).find? q = some (tag, attributes, before ++ Dom.ofNodes number ns)) :
    ∃ steps s' L', steps.map Prod.fst = placeholders.markersAmong q number ns ∧
      exec ((placeholders.markersAmong q number ns).forM BuildM.replaceMarker) s = (.ok (), s') ∧
      Splicing base d site fields s' L' (Dom.spliceAll steps kids) ∧
      s'.counters = s.counters ∧ site.Spares fields L L' := by
  obtain ⟨steps, ⟨s', L'⟩, eq, run, splicing, ⟨counters, spares⟩, _⟩ :=
    (inlays admits).runs_nodes marked ns (x := (s, L)) h order found
  exact ⟨steps, s', L', eq, run, splicing, counters, spares⟩

end Splicing

/-! ## Splicing as a whole -/

namespace Splicing

variable {base : Page} {d : Draft} {site : SpliceSite} {fields : FieldId → Prop} {s : Scene}
  {L : Layout} {placeholders : Placeholders} {html : String}

variable (placeholders) in
/-- Markup that cannot be read is refused. -/
theorem exec_splice_error (h : Splicing base d site fields s L []) {e : Markup.Error}
    (unreadable : Markup.parseFragment html = .error e) :
    exec (BuildM.splice site.top html placeholders) s =
      (.error (.page (.invalidMarkup e)), s) := by
  obtain ⟨_, _, _, element⟩ := (h.depicts.holds.has h.there).find (Dom.find?_root ..)
  have read : s.page.readMarkup site.top html = .error (.invalidMarkup e) := by
    unfold Page.readMarkup
    rw [Page.tag?_eq element, unreadable]
    rfl
  unfold BuildM.splice
  rw [exec_bind_ok (exec_get s)]
  dsimp only
  rw [read, exec_throw]

/-- **Splicing** puts the settled markup into an empty site. -/
theorem exec_splice (h : Splicing base d site fields s L []) (admits : site.Admits d fields)
    (marked : ∀ identifier f, placeholders.get? identifier = some f → fields f)
    {ns : List Markup.Node} (readable : Markup.parseFragment html = .ok ns) :
    ∃ s' L' kids, exec (BuildM.splice site.top html placeholders) s = (.ok (), s') ∧
      Splicing base d site fields s' L' kids ∧ Dom.htmlOf kids = placeholders.settle ns ∧
      s'.counters = s.counters ∧ site.Spares fields L L' := by
  obtain ⟨_, _, _, element⟩ := (h.depicts.holds.has h.there).find (Dom.find?_root ..)
  have old : site.top.index < s.page.size := Page.lt_size_of_node? element
  have imported := h.depicts.holds.importNodes h.there (Dom.find?_root ..) ns
  rw [SpliceSite.dom, Dom.edit_root, List.nil_append] at imported
  have ordered := h.depicts.ordered.change h.there
    (d := site.dom (Dom.ofNodes s.page.size ns)) rfl fun l => by
      simp only [SpliceSite.dom, Dom.links, Dom.linksOf_ofNodes, Dom.linksOf]
  have elsewhere : ∀ {k}, k ≠ site.owner → Function.update L site.owner
      (some (⟨site.place, site.dom (Dom.ofNodes s.page.size ns)⟩ : Region)) k = L k :=
    fun ne => Function.update_of_ne ne ..
  have h' : Splicing base d site fields { s with page := s.page.importNodes site.top ns }
      (Function.update L site.owner (some ⟨site.place, site.dom (Dom.ofNodes s.page.size ns)⟩))
      (Dom.ofNodes s.page.size ns) := by
    refine ⟨?_, Function.update_self .., ?_, ?_⟩
    · refine h.depicts_swap imported ordered (Function.update_self ..) ?_ ?_
      · exact fun target => congrArg _ (elsewhere (admits.apart target).symm)
      · exact fun notPanel => elsewhere (Ne.symm notPanel)
    · intro l hl
      rw [Dom.linksOf_ofNodes] at hl
      cases hl
    · intro f r q hf hr lies
      rw [elsewhere (admits.apart _).symm] at hr
      cases h.within f r q hf hr lies
  have found : (site.dom (Dom.ofNodes s.page.size ns)).find? site.top =
      some (site.tag, site.attributes, [] ++ Dom.ofNodes s.page.size ns) := Dom.find?_root ..
  obtain ⟨steps, s', L', eq, run, splicing, counters, spares⟩ :=
    h'.runs_nodes admits marked ns old found
  refine ⟨s', L', _, ?_, splicing, Dom.html_spliceAll_ofNodes _ _ ns eq, counters, ?_⟩
  · have cleared : s.page.setNodes site.top ns = s.page.importNodes site.top ns := by
      unfold Page.setNodes
      rw [Page.clear_of_no_children (Page.children_eq element)]
    have read : s.page.readMarkup site.top html = .ok ns := by
      unfold Page.readMarkup
      rw [Page.tag?_eq element, readable]
      rfl
    unfold BuildM.splice
    rw [exec_bind_ok (exec_get s)]
    dsimp only
    rw [read]
    refine (exec_bind_ok (exec_modify _ _)).trans ?_
    rw [cleared]
    exact run
  · refine SpliceSite.Spares.trans ⟨fun _ isFree r hr => ?_, fun i ne => ?_⟩ spares
    · rw [elsewhere (admits.apart _).symm] at hr
      exact isFree r hr
    · exact elsewhere (Ne.symm ne)

end Splicing

end Formwork
