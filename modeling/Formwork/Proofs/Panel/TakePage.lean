import Formwork.Proofs.Panel.Pages

/-!
# Drafts with one more page

A tab container that took a page depicts the draft in which the page was put below it as a part.
-/

namespace Formwork

set_option autoImplicit false

namespace Draft

variable {d : Draft} {L : Layout} {field : Field} {w : Widget} {dom : Dom}

/-- The face of a tab container. -/
theorem face_tabs (d : Draft) (kind : field.kind = .tabs) :
    d.face field = .tabContainer (field.attached.map fun f => .link (.caption f))
      (field.attached.map fun f => .link (.widget f)) := by
  unfold face Field.face
  rw [kind]
  rfl

/-- What the widget of a tab container is. -/
theorem Draws.tabs (h : d.Draws L field w dom) (kind : field.kind = .tabs) :
    ∃ own bar deck pages selected captions shown, w = .tabs own bar deck pages selected ∧
      dom = .tabs own bar deck "div" (d.attributes field) captions shown ∧
      Dom.htmlOf captions = (field.attached.map fun f => .link (.caption f)) ∧
      Dom.htmlOf shown = (field.attached.map fun f => .link (.widget f)) ∧
      pages.map TabPage.field = field.attached ∧
      ∀ page ∈ pages, L.RootAt (.caption page.field) page.caption ∧
        L.RootAt (.widget page.field) page.page := by
  obtain ⟨kids, shape, looks, fits, keeps⟩ := h
  rw [kind] at fits
  obtain ⟨bar, deck, captions, shown, pages, selected, eq, rfl⟩ := fits
  rw [eq] at keeps
  obtain ⟨fields, roots⟩ := keeps
  rw [d.face_tabs kind] at shape looks
  simp only [Face.tabContainer, Face.plain, Dom.htmlOf, Dom.html, List.cons.injEq,
    Html.element.injEq, true_and, and_true] at looks
  exact ⟨w.root, bar, deck, pages, selected, captions, shown, eq, shape, looks.1, looks.2, fields,
    roots⟩

/-- When a tree is the widget of a tab container. -/
theorem Draws.of_tabs {own bar deck : NodeId} {pages : List TabPage} {selected : Option Nat}
    {captions shown : List Dom} (kind : field.kind = .tabs)
    (captionLooks : Dom.htmlOf captions = (field.attached.map fun f => .link (.caption f)))
    (looks : Dom.htmlOf shown = (field.attached.map fun f => .link (.widget f)))
    (fields : pages.map TabPage.field = field.attached)
    (roots : ∀ page ∈ pages, L.RootAt (.caption page.field) page.caption ∧
      L.RootAt (.widget page.field) page.page) :
    d.Draws L field (.tabs own bar deck pages selected)
      (.tabs own bar deck "div" (d.attributes field) captions shown) := by
  refine ⟨[.element bar "div" Face.barAttributes captions,
    .element deck "div" Face.deckAttributes shown], ?_, ?_, ?_, fields, roots⟩
  · rw [d.face_tabs kind]
    rfl
  · rw [d.face_tabs kind]
    simp only [Dom.htmlOf, Dom.html, captionLooks, looks]
    rfl
  · rw [kind]
    exact ⟨bar, deck, captions, shown, pages, selected, rfl, rfl⟩

end Draft

namespace Scene

/-- A scene in which a tab container remembers one more page and the page is below it. -/
def withPage (s : Scene) (container : FieldId) (w : Widget) (page : FieldId) (p : Page) : Scene :=
  (s.withWidget container w p).link container page .part

end Scene

namespace Scene.Depicts

open Draft

/-- What taking a page does to a layout. -/
structure PageTaken (L L' : Layout) (d : Draft) (p c : FieldId) (container child : Field) :
    Prop where
  /-- The new page has a caption. -/
  caption : ∃ r, L' (.tree (.caption c)) = some r ∧ child.DrawsCaption d.panel.messages
    (if d.isSelected c then .shown else .never) r.dom
  /-- The widget of the new page is shown or hidden. -/
  widget : ∀ r, L (.tree (.widget c)) = some r → ∃ place, L' (.tree (.widget c)) =
    some ⟨place, r.dom.withAttrs (Exposure.decorate · (if d.isSelected c then .shown else .never))⟩
  /-- The other pages are hidden when the new one is shown. -/
  widgets : ∀ g, g ≠ c → g ≠ p → L' (.tree (.widget g)) = (L (.tree (.widget g))).map fun r =>
    { r with dom := r.dom.withAttrs fun m =>
      if d.isSelected c ∧ g ∈ container.attached then m.insert "hidden" "hidden" else m }
  captions : ∀ g, g ≠ c → L' (.tree (.caption g)) = (L (.tree (.caption g))).map fun r =>
    { r with dom := r.dom.withAttrs fun m =>
      if d.isSelected c ∧ g ∈ container.attached then m.insert "class" "tab" else m }
  /-- The tab container keeps its topmost node. -/
  root : ∀ n, L.RootAt (.widget p) n → L'.RootAt (.widget p) n
  absent : L (.tree (.caption c)) = none
  panel : L' .panel = L .panel
  shown : ∀ g, L' (.tree (.shown g)) = L (.tree (.shown g))

variable {base : Page} {L L' : Layout} {s : Scene} {d : Draft} {p c : FieldId}
  {container child : Field} {page : Page}

theorem PageTaken.rootAt (taken : PageTaken L L' d p c container child) (target : Link)
    (n : NodeId) : L.RootAt target n → L'.RootAt target n := by
  rintro ⟨r, there, rfl⟩
  cases target with
  | widget g =>
    by_cases atChild : g = c
    · subst atChild
      obtain ⟨place, there'⟩ := taken.widget r there
      exact ⟨_, there', Dom.root_withAttrs _ _⟩
    · by_cases atParent : g = p
      · subst atParent
        exact taken.root _ ⟨r, there, rfl⟩
      · have there' := taken.widgets g atChild atParent
        rw [there] at there'
        exact ⟨_, there', Dom.root_withAttrs _ _⟩
  | caption g =>
    have ne : g ≠ c := by
      rintro rfl
      rw [taken.absent] at there
      cases there
    have there' := taken.captions g ne
    rw [there] at there'
    exact ⟨_, there', Dom.root_withAttrs _ _⟩
  | shown g => exact ⟨r, by rw [taken.shown, there], rfl⟩

/-- The exposure of a field other than a new page. -/
theorem exposure?_after_page (sound : d.Sound) (ne : p ≠ c) (hp : d.field? p = some container)
    (hc : d.field? c = some child) (free : child.parent = none) {g : FieldId} {field : Field}
    (hg : d.field? g = some field) (other : g ≠ c) :
    (d.link p c .part).exposure? (relinked p c .part field) =
      if d.isSelected c ∧ g ∈ container.attached then (d.exposure? field).map Exposure.replaced
      else d.exposure? field := by
  have id := sound.ids hg
  have otherId : field.id ≠ c := by rw [id]; exact other
  by_cases below : field.parent = some p
  · have before : d.exposure? field = d.exposureUnder? container g := by
      rw [exposure?_eq, below, Option.bind_some, hp, Option.bind_some, id]
    rw [exposure?_eq, parent_relinked_of_ne otherId, below, Option.bind_some,
      field?_link_eq sound ne hc free, hp, Option.map_some, Option.bind_some,
      ← (alike_relinked p c .part field).id, id, exposureUnder?_link_page sound ne hp hc free other,
      before]
    by_cases mem : g ∈ container.attached
    · simp only [mem, and_true]
    · have none : d.exposureUnder? container g = none := by
        unfold exposureUnder?
        rw [if_neg fun h => mem h.2]
      rw [none]
      simp only [Option.map_none, ite_self]
  · have notPage : g ∉ container.attached := by
      intro mem
      obtain ⟨field', found, parent⟩ := sound.attached hp mem
      rw [hg] at found
      cases found
      exact below parent
    rw [if_neg fun h => notPage h.2]
    exact exposure?_link_of_ne sound ne hc free .part otherId (.inl below)

/-- A page takes the exposure that it has in the new draft. -/
theorem onto_after_page {e : Option Exposure} (wanted : Prop) [Decidable wanted]
    (m : OrderedMap String String) (page : wanted → e ≠ none) :
    Exposure.onto (if wanted then e.map Exposure.replaced else e) m =
      if wanted then (Exposure.onto e m).insert "hidden" "hidden" else Exposure.onto e m := by
  by_cases h : wanted
  · rw [if_pos h, if_pos h]
    cases e with
    | none => exact absurd rfl (page h)
    | some e => exact (Exposure.hide_decorate m e).symm
  · rw [if_neg h, if_neg h]

section Taken

variable (taken : PageTaken L L' d p c container child) (h : s.Depicts base L d) (sound : d.Sound)
  (younger : p.index < c.index) (hp : d.field? p = some container) (hc : d.field? c = some child)
  (free : child.parent = none) (kind : container.kind = .tabs)

theorem ne_of_younger (younger : p.index < c.index) : p ≠ c := by
  rintro rfl
  exact Nat.lt_irrefl _ younger

include sound hp in
/-- A tab container is not a page of its own. -/
theorem ne_of_mem_attached {g : FieldId} (mem : g ∈ container.attached) : g ≠ p := by
  rintro rfl
  obtain ⟨field, found, parent⟩ := sound.attached hp mem
  exact Nat.lt_irrefl _ (sound.older found parent)

include sound hp kind in
/-- What a tab container took has an exposure. -/
theorem exposure?_ne_none {g : FieldId} {field : Field} (hg : d.field? g = some field)
    (mem : g ∈ container.attached) : d.exposure? field ≠ none := by
  obtain ⟨field', found, parent⟩ := sound.attached hp mem
  rw [hg] at found
  cases found
  rw [exposure?_eq, parent, Option.bind_some, hp, Option.bind_some, sound.ids hg]
  unfold exposureUnder?
  rw [if_pos ⟨kind, mem⟩]
  exact nofun

include sound younger hp hc free kind taken in
/-- The widget of the new page. -/
theorem PageTaken.draws_page {w : Widget} {r : Region} (hr : L (.tree (.widget c)) = some r)
    (draws : d.Draws L child w r.dom) :
    ∃ s, L' (.tree (.widget c)) = some s ∧
      (d.link p c .part).Draws L' (relinked p c .part child) w s.dom := by
  have ne := ne_of_younger younger
  obtain ⟨place, there⟩ := taken.widget r hr
  refine ⟨_, there, ?_⟩
  have attached : (relinked p c .part child).attached = child.attached := by
    refine attached_relinked_of_ne ?_
    rw [sound.ids hc]
    exact ne.symm
  have exposure := exposure?_link_page sound ne hp hc free kind
  have messages : (d.link p c .part).panel.messages = d.panel.messages := rfl
  refine Draws.exposed draws (alike_relinked ..) attached messages rfl (fun m => ?_) taken.rootAt
  rw [exposure, exposure?_eq, free]
  rfl

include sound younger hp hc free kind taken in
/-- The widgets of the fields other than the container and the new page. -/
theorem PageTaken.draws_other {g : FieldId} {field : Field} (hg : d.field? g = some field)
    (notPage : g ≠ c) (notTabs : g ≠ p) {w : Widget} {r : Region}
    (hr : L (.tree (.widget g)) = some r) (draws : d.Draws L field w r.dom) :
    ∃ s, L' (.tree (.widget g)) = some s ∧
      (d.link p c .part).Draws L' (relinked p c .part field) w s.dom := by
  have ne := ne_of_younger younger
  have there := taken.widgets g notPage notTabs
  rw [hr] at there
  refine ⟨_, there, ?_⟩
  have attached : (relinked p c .part field).attached = field.attached := by
    refine attached_relinked_of_ne ?_
    rw [sound.ids hg]
    exact notTabs
  have messages : (d.link p c .part).panel.messages = d.panel.messages := rfl
  refine Draws.exposed draws (alike_relinked ..) attached messages rfl (fun m => ?_) taken.rootAt
  rw [exposure?_after_page sound ne hp hc free hg notPage,
    onto_after_page _ _ fun wanted => exposure?_ne_none sound hp kind hg wanted.2]

variable {own bar deck n root : NodeId} {pages : List TabPage} {selected selected' : Option Nat}
  {captions shown : List Dom} {place : Option NodeId} {wc : Widget}

include sound younger hp hc free kind taken in
/-- The widget of the tab container. -/
theorem PageTaken.draws_tabs
    (draws : d.Draws L container (.tabs own bar deck pages selected)
      (.tabs own bar deck "div" (d.attributes container) captions shown))
    (captionRoot : L'.RootAt (.caption c) n) (widgetRoot : L'.RootAt (.widget c) root) :
    (d.link p c .part).Draws L' (relinked p c .part container)
      (.tabs own bar deck (pages ++ [⟨c, n, root⟩]) selected')
      (.tabs own bar deck "div" (d.attributes container)
        (captions ++ [.link (.caption c) n]) (shown ++ [.link (.widget c) root])) := by
  have ne := ne_of_younger younger
  obtain ⟨own', bar', deck', pages', selected'', captions', shown', eq, shape, looks, looks',
    fields, roots⟩ := draws.tabs kind
  cases eq
  cases shape
  have attached := attached_relinked_part (sound.ids hp) ne
  have alike := alike_relinked p c .part container
  have kind' := alike.kind.symm.trans kind
  have exposure := exposure?_after_page sound ne hp hc free hp ne
  rw [if_neg fun wanted => ne_of_mem_attached sound hp wanted.2 rfl] at exposure
  have attributes : (d.link p c .part).attributes (relinked p c .part container) =
      d.attributes container := by
    unfold Draft.attributes Field.lookAttributes
    rw [face_tabs _ kind', face_tabs _ kind, exposure, alike.attributes]
    rfl
  rw [← attributes]
  refine Draws.of_tabs kind' ?_ ?_ ?_ ?_
  · rw [Dom.htmlOf_append, looks, attached, List.map_append]
    rfl
  · rw [Dom.htmlOf_append, looks', attached, List.map_append]
    rfl
  · rw [List.map_append, fields, attached]
    rfl
  · intro page mem
    rcases List.mem_append.1 mem with old | new
    · exact ⟨taken.rootAt _ _ (roots page old).1, taken.rootAt _ _ (roots page old).2⟩
    · rw [List.mem_singleton] at new
      subst new
      exact ⟨captionRoot, widgetRoot⟩

include h sound younger hp hc free taken in
/-- The captions of the pages there were before. -/
theorem PageTaken.captioned {g : FieldId} {field : Field} {e : Exposure}
    (hg : d.field? g = some field) (notPage : g ≠ c)
    (exposed : (d.link p c .part).exposure? (relinked p c .part field) = some e) :
    ∃ r, L' (.tree (.caption g)) = some r ∧ field.DrawsCaption d.panel.messages e r.dom := by
  rw [exposure?_after_page sound (ne_of_younger younger) hp hc free hg notPage] at exposed
  have there := taken.captions g notPage
  by_cases wanted : d.isSelected c ∧ g ∈ container.attached
  · rw [if_pos wanted] at exposed
    obtain ⟨e, before, rfl⟩ := Option.map_eq_some_iff.1 exposed
    obtain ⟨⟨q, dom⟩, hr, m, kids, rfl, looks⟩ := h.captioned hg before
    rw [hr] at there
    refine ⟨_, there, m, kids, ?_, looks⟩
    dsimp only [Dom.withAttrs]
    rw [if_pos wanted, OrderedMap.insert_insert]
    cases e <;> rfl
  · rw [if_neg wanted] at exposed
    obtain ⟨⟨q, dom⟩, hr, m, kids, rfl, looks⟩ := h.captioned hg exposed
    rw [hr] at there
    refine ⟨_, there, m, kids, ?_, looks⟩
    dsimp only [Dom.withAttrs]
    rw [if_neg wanted]

include h sound younger hp hc free taken in
/-- Fields that are no pages have no captions. -/
theorem PageTaken.uncaptioned {g : FieldId} {field : Field}
    (hg : d.field? g = some field) (notPage : g ≠ c)
    (hidden : (d.link p c .part).exposure? (relinked p c .part field) = none) :
    L' (.tree (.caption g)) = none := by
  rw [exposure?_after_page sound (ne_of_younger younger) hp hc free hg notPage] at hidden
  have before : d.exposure? field = none := by
    by_cases wanted : d.isSelected c ∧ g ∈ container.attached
    · rw [if_pos wanted] at hidden
      exact Option.map_eq_none_iff.1 hidden
    · rw [if_neg wanted] at hidden
      exact hidden
  rw [taken.captions g notPage, h.uncaptioned hg before]
  rfl

include h sound younger hp hc free taken in
/-- A field whose widget was not built is as it was. -/
theorem PageTaken.unbuilt {g : FieldId} {field : Field} (hg : d.field? g = some field)
    (notPage : g ≠ c) (notTabs : g ≠ p) (noWidget : s.widget? g = none) :
    L' (.tree (.widget g)) = none ∧ (d.link p c .part).Blank (relinked p c .part field) := by
  obtain ⟨none, blank⟩ := h.unbuilt hg noWidget
  refine ⟨by rw [taken.widgets g notPage notTabs, none]; rfl, blank.relinked ?_ ?_⟩
  · exact attached_relinked_of_ne (by rw [sound.ids hg]; exact notTabs)
  · rw [exposure?_after_page sound (ne_of_younger younger) hp hc free hg notPage, blank.exposure]
    simp only [Option.map_none, ite_self]

include h sound younger hp hc free kind taken in
/-- **A tab container that took a page** depicts the draft in which the page is below it. -/
theorem PageTaken.depicts (hasTabs : s.widget? p = some (.tabs own bar deck pages selected))
    (hasChild : s.widget? c = some wc)
    (before : L (.tree (.widget p)) =
      some ⟨place, .tabs own bar deck "div" (d.attributes container) captions shown⟩)
    (holds : Page.Holds base page L') (ordered : L'.Ordered)
    (after : L' (.tree (.widget p)) = some ⟨place, .tabs own bar deck "div" (d.attributes container)
      (captions ++ [.link (.caption c) n]) (shown ++ [.link (.widget c) root])⟩)
    (captionRoot : L'.RootAt (.caption c) n) (widgetRoot : L'.RootAt (.widget c) root) :
    (s.withPage p (.tabs own bar deck (pages ++ [⟨c, n, root⟩]) selected') c page).Depicts base L'
      (d.link p c .part) := by
  have ne := ne_of_younger younger
  have exposurePage := exposure?_link_page sound ne hp hc free kind
  refine of_link sound ne hc free (Scene.bare_withWidget.trans h.bare)
    ((Scene.field?_withWidget_of_ne ne.symm).trans (h.field_of hc)) free holds ordered ?_ ?_ ?_ ?_ ?_ ?_
    fun g => (taken.shown g).trans (h.hidden g)
  · obtain ⟨kids, there, looks⟩ := h.root
    exact ⟨kids, taken.panel.trans there, looks⟩
  · intro g field w there hasWidget
    by_cases atTabs : g = p
    · subst atTabs
      cases hp.symm.trans there
      cases (Scene.widget?_withWidget_self (h.field_of hp)).symm.trans hasWidget
      obtain ⟨r, hr, draws⟩ := h.built hp hasTabs
      cases before.symm.trans hr
      exact ⟨_, after, taken.draws_tabs sound younger hp hc free kind draws captionRoot widgetRoot⟩
    · rw [Scene.widget?_withWidget_of_ne atTabs] at hasWidget
      obtain ⟨r, hr, draws⟩ := h.built there hasWidget
      by_cases atPage : g = c
      · subst atPage
        cases hc.symm.trans there
        exact taken.draws_page sound younger hp hc free kind hr draws
      · exact taken.draws_other sound younger hp hc free kind there atPage atTabs hr draws
  · intro g field there noWidget
    have notTabs : g ≠ p := by
      rintro rfl
      cases (Scene.widget?_withWidget_self (h.field_of hp)).symm.trans noWidget
    rw [Scene.widget?_withWidget_of_ne notTabs] at noWidget
    have notPage : g ≠ c := by
      rintro rfl
      cases hasChild.symm.trans noWidget
    exact taken.unbuilt h sound younger hp hc free there notPage notTabs noWidget
  · intro g field e there exposed
    by_cases atPage : g = c
    · subst atPage
      cases hc.symm.trans there
      cases exposurePage.symm.trans exposed
      exact taken.caption
    · exact taken.captioned h sound younger hp hc free there atPage exposed
  · intro g field there hidden
    have notPage : g ≠ c := by
      rintro rfl
      cases hc.symm.trans there
      cases exposurePage.symm.trans hidden
    exact taken.uncaptioned h sound younger hp hc free there notPage hidden
  · intro g absent
    have notPage : g ≠ c := by
      rintro rfl
      cases hc.symm.trans absent
    have notTabs : g ≠ p := by
      rintro rfl
      cases hp.symm.trans absent
    rw [taken.widgets g notPage notTabs, taken.captions g notPage, (h.unknown absent).1,
      (h.unknown absent).2]
    exact ⟨rfl, rfl⟩

end Taken

/-- The pages of a tab container have a caption and a widget with the nodes it remembers. -/
theorem hasPage (h : s.Depicts base L d) {page : TabPage}
    (roots : L.RootAt (.caption page.field) page.caption ∧ L.RootAt (.widget page.field) page.page) :
    PanelM.HasPage L page := by
  obtain ⟨⟨r, hr, captionRoot⟩, ⟨t, ht, widgetRoot⟩⟩ := roots
  obtain ⟨_, _, _, _, _, _, caption, _⟩ := h.exists_captioned hr
  obtain ⟨_, _, _, _, _, widget, _⟩ := h.exists_drawn ht
  refine ⟨⟨r, hr, ?_⟩, ⟨t, ht, ?_⟩⟩
  · rw [caption] at captionRoot ⊢
    exact ⟨_, _, _, by rw [← captionRoot]; rfl⟩
  · rw [widget] at widgetRoot ⊢
    exact ⟨_, _, _, by rw [← widgetRoot]; rfl⟩

/-! ## What the page operations do -/

/-- A layout in which a caption and a hidden widget joined a tab container. -/
structure Hung (L L' : Layout) (p c : FieldId) (place : Option NodeId) (own bar deck n root : NodeId)
    (attributes : OrderedMap String String) (captions shown kids : List Dom) (dom : Dom) : Prop where
  before : L (.tree (.widget p)) =
    some ⟨place, .tabs own bar deck "div" attributes captions shown⟩
  free : L (.tree (.widget c)) = some ⟨none, dom⟩
  absent : L (.tree (.caption c)) = none
  caption : L' (.tree (.caption c)) =
    some ⟨some bar, .element n "span" (OrderedMap.empty.insert "class" "tab") kids⟩
  widget : L' (.tree (.widget c)) = some ⟨some deck, dom.withAttrs (Exposure.decorate · .never)⟩
  after : L' (.tree (.widget p)) = some ⟨place, .tabs own bar deck "div" attributes
    (captions ++ [.link (.caption c) n]) (shown ++ [.link (.widget c) root])⟩
  others : ∀ k, k ≠ .tree (.caption c) → k ≠ .tree (.widget c) → k ≠ .tree (.widget p) → L' k = L k

theorem map_withAttrs_id (r : Option Region) :
    (r.map fun r => { r with dom := r.dom.withAttrs fun m => m }) = r := by
  cases r with
  | none => rfl
  | some r => exact congrArg (fun d => some (⟨r.place, d⟩ : Region)) (Dom.withAttrs_id r.dom)

section Hung

variable {place : Option NodeId} {own bar deck n root : NodeId}
  {attributes : OrderedMap String String} {captions shown kids : List Dom} {dom : Dom}

/-- A page that does not want to be shown stays hidden. -/
theorem Hung.taken (hung : Hung L L' p c place own bar deck n root attributes captions shown kids dom)
    (looks : Dom.htmlOf kids = Face.shownText (child.label? d.panel.messages))
    (unwanted : d.isSelected c = false) : PageTaken L L' d p c container child where
  caption := ⟨_, hung.caption, n, kids, by rw [unwanted]; rfl, looks⟩
  widget r hr := by
    rw [hung.free] at hr
    cases hr
    refine ⟨some deck, ?_⟩
    rw [hung.widget, unwanted]
    rfl
  widgets g notPage notTabs := by
    rw [hung.others _ (by simp) (by simpa using notPage) (by simpa using notTabs)]
    simp only [unwanted, Bool.false_eq_true, false_and, if_false]
    exact (map_withAttrs_id _).symm
  captions g notPage := by
    rw [hung.others _ (by simpa using notPage) (by simp) (by simp)]
    simp only [unwanted, Bool.false_eq_true, false_and, if_false]
    exact (map_withAttrs_id _).symm
  root m := by
    rintro ⟨r, hr, rfl⟩
    rw [hung.before] at hr
    cases hr
    exact ⟨_, hung.after, rfl⟩
  absent := hung.absent
  panel := hung.others _ (by simp) (by simp) (by simp)
  shown g := hung.others _ (by simp) (by simp) (by simp)

/-- The steps of showing the page that a tab container took last. -/
def steps (pages : List TabPage) (c : FieldId) (n root : NodeId) : List (TabPage × Nat) :=
  (pages ++ [(⟨c, n, root⟩ : TabPage)]).zipIdx

variable {pages : List TabPage}

theorem mem_steps {page : TabPage} {i : Nat} (mem : (page, i) ∈ steps pages c n root) :
    (page = ⟨c, n, root⟩ ∧ i = pages.length) ∨ page ∈ pages ∧ i < pages.length := by
  unfold steps at mem
  rw [List.zipIdx_append, List.mem_append] at mem
  rcases mem with old | new
  · obtain ⟨_, bound, same⟩ := List.mem_zipIdx old
    rw [same]
    exact .inr ⟨List.getElem_mem _, by omega⟩
  · rw [List.zipIdx_singleton, List.mem_singleton, Nat.zero_add] at new
    cases new
    exact .inl ⟨rfl, rfl⟩

theorem exists_mem_steps {page : TabPage} (mem : page ∈ pages) :
    ∃ i, (page, i) ∈ steps pages c n root ∧ i ≠ pages.length := by
  obtain ⟨i, bound, rfl⟩ := List.getElem_of_mem mem
  refine ⟨i, ?_, Nat.ne_of_lt bound⟩
  unfold steps
  rw [List.zipIdx_append, List.mem_append]
  exact .inl (List.mem_zipIdx_iff_getElem?.2 (List.getElem?_eq_getElem bound))

theorem new_mem_steps : ((⟨c, n, root⟩ : TabPage), pages.length) ∈ steps pages c n root := by
  unfold steps
  rw [List.zipIdx_append, List.mem_append, List.zipIdx_singleton, Nat.zero_add]
  exact .inr (List.mem_singleton_self _)

theorem map_field_steps : (steps pages c n root).map (fun e => e.1.field) =
    pages.map TabPage.field ++ [c] := by
  have split : (fun e : TabPage × Nat => e.1.field) = TabPage.field ∘ Prod.fst := rfl
  unfold steps
  rw [split, ← List.map_map, List.zipIdx_map_fst, List.map_append, List.map_singleton]

/-- Showing a page changes the trees of pages only. -/
theorem showing_elsewhere (fields : pages.map TabPage.field = container.attached) {k : Owner}
    (other : ∀ g, g = c ∨ g ∈ container.attached →
      k ≠ .tree (.caption g) ∧ k ≠ .tree (.widget g)) :
    PanelM.showing pages.length L' (steps pages c n root) k = L' k := by
  refine PanelM.showing_of_ne fun e mem => other _ ?_
  rcases mem_steps mem with ⟨eq, _⟩ | ⟨mem', _⟩
  · rw [eq]
    exact .inl rfl
  · rw [← fields]
    exact .inr (List.mem_map_of_mem mem')

theorem showing_caption (fields : pages.map TabPage.field = container.attached) {g : FieldId}
    (notPage : g ≠ c) (notOld : g ∉ container.attached) :
    PanelM.showing pages.length L' (steps pages c n root) (.tree (.caption g)) =
      L' (.tree (.caption g)) := by
  refine showing_elsewhere fields fun g' mem => ⟨?_, by simp⟩
  rintro same
  cases same
  exact mem.elim notPage notOld

theorem showing_widget (fields : pages.map TabPage.field = container.attached) {g : FieldId}
    (notPage : g ≠ c) (notOld : g ∉ container.attached) :
    PanelM.showing pages.length L' (steps pages c n root) (.tree (.widget g)) =
      L' (.tree (.widget g)) := by
  refine showing_elsewhere fields fun g' mem => ⟨by simp, ?_⟩
  rintro same
  cases same
  exact mem.elim notPage notOld

/-- The pages that there were before are hidden when the new one is shown. -/
theorem Hung.showing_old
    (hung : Hung L L' p c place own bar deck n root attributes captions shown kids dom)
    (distinct : ((steps pages c n root).map fun e => e.1.field).Nodup)
    (fields : pages.map TabPage.field = container.attached) (notNew : c ∉ container.attached)
    (notOwn : p ∉ container.attached)
    (roots : ∀ page ∈ pages, L.RootAt (.caption page.field) page.caption ∧
      L.RootAt (.widget page.field) page.page) {g : FieldId} (mem : g ∈ container.attached) :
    ∃ r s, L (.tree (.caption g)) = some r ∧ L (.tree (.widget g)) = some s ∧
      PanelM.showing pages.length L' (steps pages c n root) (.tree (.caption g)) =
          some { r with dom := r.dom.withAttrs (PanelM.showCaption false) } ∧
        PanelM.showing pages.length L' (steps pages c n root) (.tree (.widget g)) =
          some { s with dom := s.dom.withAttrs (PanelM.showWidget false) } := by
  have notPage : g ≠ c := by
    rintro rfl
    exact notNew mem
  have notTabs : g ≠ p := by
    rintro rfl
    exact notOwn mem
  rw [← fields] at mem
  obtain ⟨page, there, rfl⟩ := List.mem_map.1 mem
  obtain ⟨⟨r, hr, _⟩, ⟨s, hs, _⟩⟩ := roots page there
  obtain ⟨i, inSteps, late⟩ := exists_mem_steps (c := c) (n := n) there
  have changed := PanelM.showing_of_mem pages.length distinct inSteps
    ((hung.others _ (by simpa using notPage) (by simp) (by simp)).trans hr)
    ((hung.others _ (by simp) (by simpa using notPage) (by simpa using notTabs)).trans hs)
  rw [decide_eq_false late] at changed
  exact ⟨r, s, hr, hs, changed⟩

/-- A page that wants to be shown is shown in place of all others. -/
theorem Hung.taken_showing
    (hung : Hung L L' p c place own bar deck n root attributes captions shown kids dom)
    (ne : p ≠ c) (looks : Dom.htmlOf kids = Face.shownText (child.label? d.panel.messages))
    (wanted : d.isSelected c = true) (fields : pages.map TabPage.field = container.attached)
    (distinct : ((steps pages c n root).map fun e => e.1.field).Nodup)
    (notNew : c ∉ container.attached) (notOwn : p ∉ container.attached)
    (roots : ∀ page ∈ pages, L.RootAt (.caption page.field) page.caption ∧
      L.RootAt (.widget page.field) page.page) :
    PageTaken L (PanelM.showing pages.length L' (steps pages c n root)) d p c container child := by
  have new := PanelM.showing_of_mem pages.length distinct new_mem_steps hung.caption hung.widget
  constructor
  case caption =>
    refine ⟨_, new.1, n, kids, ?_, looks⟩
    rw [wanted]
    dsimp only [Dom.withAttrs, PanelM.showCaption]
    rw [OrderedMap.insert_insert, decide_eq_true rfl]
    rfl
  case widget =>
    intro r hr
    cases hung.free.symm.trans hr
    refine ⟨some deck, new.2.trans ?_⟩
    rw [Dom.withAttrs_withAttrs, wanted, decide_eq_true rfl]
    have erased : ∀ m, PanelM.showWidget true (Exposure.never.decorate m) =
        Exposure.shown.decorate m := fun m => Exposure.show_decorate m .never
    simp only [erased, if_true]
  case widgets =>
    intro g notPage notTabs
    by_cases mem : g ∈ container.attached
    · obtain ⟨_, s, _, hs, _, changed⟩ :=
        hung.showing_old distinct fields notNew notOwn roots mem
      rw [changed, hs]
      simp only [wanted, mem, and_self, if_true, Option.map_some]
      rfl
    · rw [showing_widget fields notPage mem,
        hung.others _ (by simp) (by simpa using notPage) (by simpa using notTabs)]
      simp only [mem, and_false, if_false]
      exact (map_withAttrs_id _).symm
  case captions =>
    intro g notPage
    by_cases mem : g ∈ container.attached
    · obtain ⟨r, _, hr, _, changed, _⟩ :=
        hung.showing_old distinct fields notNew notOwn roots mem
      rw [changed, hr]
      simp only [wanted, mem, and_self, if_true, Option.map_some]
      rfl
    · rw [showing_caption fields notPage mem,
        hung.others _ (by simpa using notPage) (by simp) (by simp)]
      simp only [mem, and_false, if_false]
      exact (map_withAttrs_id _).symm
  case root =>
    rintro m ⟨r, hr, rfl⟩
    cases hung.before.symm.trans hr
    exact ⟨_, (showing_widget fields ne notOwn).trans hung.after, rfl⟩
  case absent => exact hung.absent
  case panel =>
    exact (showing_elsewhere fields fun g _ => ⟨by simp, by simp⟩).trans
      (hung.others _ (by simp) (by simp) (by simp))
  case shown =>
    intro g
    exact (showing_elsewhere fields fun g _ => ⟨by simp, by simp⟩).trans
      (hung.others _ (by simp) (by simp) (by simp))

/-! The scenes are those behind the last step of taking a page, which shows it or leaves it hidden. -/

section Scenes

variable {selected : Option Nat} {wc : Widget}
  (hung : Hung L L' p c place own bar deck n root (d.attributes container) captions shown kids dom)
  (h : s.Depicts base L d) (sound : d.Sound) (younger : p.index < c.index)
  (hp : d.field? p = some container) (hc : d.field? c = some child) (free : child.parent = none)
  (kind : container.kind = .tabs)
  (hasTabs : s.widget? p = some (.tabs own bar deck pages selected))
  (hasChild : s.widget? c = some wc) (holds : Page.Holds base page L') (ordered : L'.Ordered)
  (looks : Dom.htmlOf kids = Face.shownText (child.label? d.panel.messages))
  (top : dom.IsElement root)

include hung h sound younger hp hc free kind hasTabs hasChild holds ordered looks top

/-- A tab container took a page that stays hidden. -/
theorem Hung.depicts (unwanted : d.isSelected c = false) :
    (s.withPage p (.tabs own bar deck (pages ++ [⟨c, n, root⟩]) selected) c page).Depicts base L'
      (d.link p c .part) := by
  obtain ⟨_, _, _, rfl⟩ := top
  exact (hung.taken looks unwanted).depicts h sound younger hp hc free kind hasTabs hasChild
    hung.before holds ordered hung.after ⟨_, hung.caption, rfl⟩ ⟨_, hung.widget, rfl⟩

/-- A tab container took a page and shows it. -/
theorem Hung.depicts_showing (wanted : d.isSelected c = true) :
    PageTaken L (PanelM.showing pages.length L' (steps pages c n root)) d p c container child ∧
      (∀ k, (∀ g, k ≠ .tree (.caption g)) → (∀ g, g ≠ p → k ≠ .tree (.widget g)) →
        PanelM.showing pages.length L' (steps pages c n root) k = L' k) ∧
      (s.withPage p (.tabs own bar deck (pages ++ [⟨c, n, root⟩]) (some pages.length)) c
        (PanelM.showPage (pages ++ [⟨c, n, root⟩]) pages.length page)).Depicts base
          (PanelM.showing pages.length L' (steps pages c n root)) (d.link p c .part) := by
  have ne := ne_of_younger younger
  obtain ⟨r, there, draws⟩ := h.built hp hasTabs
  obtain ⟨_, _, _, _, _, _, _, eq, _, _, _, fields, roots⟩ := draws.tabs kind
  cases eq
  have notNew := not_mem_attached sound hp hc free
  have notOwn : p ∉ container.attached := fun mem => ne_of_mem_attached sound hp mem rfl
  have distinct : ((steps pages c n root).map fun e => e.1.field).Nodup := by
    rw [map_field_steps, fields]
    exact nodup_attached_append sound hp hc free
  have taken := hung.taken_showing ne looks wanted fields distinct notNew notOwn roots
  have elsewhere : ∀ k, (∀ g, k ≠ .tree (.caption g)) → (∀ g, g ≠ p → k ≠ .tree (.widget g)) →
      PanelM.showing pages.length L' (steps pages c n root) k = L' k := by
    intro k noCaption noWidget
    refine showing_elsewhere fields fun g mem => ⟨noCaption g, noWidget g ?_⟩
    rcases mem with rfl | mem
    · exact ne.symm
    · exact ne_of_mem_attached sound hp mem
  have has : ∀ e ∈ steps pages c n root, PanelM.HasPage L' e.1 := by
    intro e mem
    rcases mem_steps mem with ⟨eq, _⟩ | ⟨old, _⟩
    · rw [eq]
      exact ⟨⟨_, hung.caption, _, _, _, rfl⟩, ⟨_, hung.widget, top.withAttrs _⟩⟩
    · have mem' : e.1.field ∈ container.attached := fields ▸ List.mem_map_of_mem old
      have notPage : e.1.field ≠ c := fun same => notNew (same ▸ mem')
      have notTabs := ne_of_mem_attached sound hp mem'
      obtain ⟨⟨r, hr, top'⟩, ⟨t, ht, top''⟩⟩ := hasPage h (roots e.1 old)
      refine ⟨⟨r, ?_, top'⟩, ⟨t, ?_, top''⟩⟩
      · rw [hung.others _ (by simpa using notPage) (by simp) (by simp), hr]
      · rw [hung.others _ (by simp) (by simpa using notPage) (by simpa using notTabs), ht]
  have new := PanelM.showing_of_mem pages.length distinct new_mem_steps hung.caption hung.widget
  have atTabs := (elsewhere (.tree (.widget p)) (by simp) fun g other => by
    simpa using other.symm).trans hung.after
  refine ⟨taken, elsewhere, ?_⟩
  obtain ⟨_, _, _, rfl⟩ := top
  exact taken.depicts h sound younger hp hc free kind hasTabs hasChild hung.before
    (PanelM.holds_showing pages.length holds has) (PanelM.ordered_showing ordered) atTabs
    ⟨_, new.1, rfl⟩ ⟨_, new.2, rfl⟩

end Scenes

end Hung

end Scene.Depicts

end Formwork
