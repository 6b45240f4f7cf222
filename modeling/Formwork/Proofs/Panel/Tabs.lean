import Formwork.Proofs.Panel.Arranging

/-!
# Tab containers in order

The pages of a tab container are recorded in four places: they are attached to the container, its
widget lists them, its bar has their captions and its deck their widgets.  Which page is selected is
recorded by the widget, by the flags of the pages and by the classes of the captions.

However a panel is arranged, all of these agree (`Scene.Tabbed`) for as long as no page is put
elsewhere, added again or removed (`Scene.tabbed_iff_never_displaces`).  A container is not told when it
loses a page: it keeps the caption and goes on listing the page (`Scene.not_tabbed_abandoned`).
-/

namespace Formwork

set_option autoImplicit false

open Panel (Request)

namespace Scene

variable {s s' : Scene} {f g p c : FieldId} {field field' child : Field} {w w' : Widget}
  {root bar deck : NodeId} {pages : List TabPage} {selected : Option Nat}

/-! ## What is shown of a tab container -/

/-- The bar of a tab container has the captions of its pages and the deck their widgets, and the selected
page is the only one that is shown and whose caption is marked. -/
structure ShowsTabs (s : Scene) (bar deck : NodeId) (pages : List TabPage)
    (selected : Option Nat) : Prop where
  bar : s.page.children bar = pages.map TabPage.caption
  deck : s.page.children deck = pages.map TabPage.page
  captions : ∀ tab ∈ pages, s.page.tag? tab.caption ≠ none
  widgets : ∀ tab ∈ pages, ∃ field w, s.Built tab.field field w ∧ tab.page = w.root
  selected : ∀ i, selected = some i → i < pages.length ∧ ∀ j tab, pages[j]? = some tab →
    (s.page.attr? tab.page "hidden" = none ↔ j = i) ∧
      (s.page.attr? tab.caption "class" = some "tab tab-selected" ↔ j = i)

/-- Every tab container is shown as its widget remembers it. -/
def TabsShown (s : Scene) : Prop :=
  ∀ f field root bar deck pages selected,
    s.Built f field (.tabs root bar deck pages selected) → s.ShowsTabs bar deck pages selected

namespace ShowsTabs

/-- A container without pages. -/
theorem of_hollow (hollow : (Widget.tabs root bar deck pages selected).Hollow s.page) :
    s.ShowsTabs bar deck pages selected := by
  obtain ⟨rfl, rfl, noCaptions, noWidgets⟩ := hollow
  exact ⟨noCaptions, noWidgets, nofun, nofun, nofun⟩

/-- A step that touches neither the bar nor the deck, nor their nodes. -/
theorem transfer (h : s.ShowsTabs bar deck pages selected)
    (inBar : s'.page.children bar = s.page.children bar)
    (inDeck : s'.page.children deck = s.page.children deck)
    (tags : ∀ n, s.page.tag? n ≠ none → s'.page.tag? n ≠ none)
    (built : ∀ tab ∈ pages, ∀ field w, s.Built tab.field field w →
      ∃ field' w', s'.Built tab.field field' w' ∧ w'.root = w.root)
    (hidden : ∀ tab ∈ pages, s'.page.attr? tab.page "hidden" = s.page.attr? tab.page "hidden")
    (marked : ∀ tab ∈ pages, s'.page.attr? tab.caption "class" = s.page.attr? tab.caption "class") :
    s'.ShowsTabs bar deck pages selected where
  bar := inBar.trans h.bar
  deck := inDeck.trans h.deck
  captions tab mem := tags _ (h.captions tab mem)
  widgets tab mem := by
    obtain ⟨field, w, there, root⟩ := h.widgets tab mem
    obtain ⟨field', w', there', root'⟩ := built tab mem field w there
    exact ⟨field', w', there', root.trans root'.symm⟩
  selected i is := by
    obtain ⟨bound, shown⟩ := h.selected i is
    refine ⟨bound, fun j tab there => ?_⟩
    have mem := List.mem_of_getElem? there
    rw [hidden tab mem, marked tab mem]
    exact shown j tab there

/-- The pages of a container are elements. -/
theorem pages_elements (h : s.ShowsTabs bar deck pages selected) (ground : s.Grounded) {tab : TabPage}
    (mem : tab ∈ pages) : s.page.tag? tab.page ≠ none := by
  obtain ⟨_, w, there, root⟩ := h.widgets tab mem
  rw [root]
  exact (ground.stands there).element _ w.root_mem_anchors

/-- Only the widgets of its pages lie in the deck of a container. -/
theorem mem_of_mem_deck (h : s.ShowsTabs bar deck pages selected) (ground : s.Grounded)
    (there : s.Built c child w) (mem : w.root ∈ s.page.children deck) :
    c ∈ pages.map TabPage.field := by
  rw [h.deck] at mem
  obtain ⟨tab, listed, is⟩ := List.mem_map.1 mem
  obtain ⟨_, w', there', root⟩ := h.widgets tab listed
  have same := ground.eq_of_mem_anchors there there' w.root_mem_anchors
    (is.symm.trans root ▸ w'.root_mem_anchors)
  exact List.mem_map.2 ⟨tab, listed, same.symm⟩

theorem root_not_mem_deck (h : s.ShowsTabs bar deck pages selected) (ground : s.Grounded)
    (there : s.Built c child w) (absent : c ∉ pages.map TabPage.field) :
    w.root ∉ s.page.children deck :=
  fun mem => absent (h.mem_of_mem_deck ground there mem)

/-- The widget of a field that is no page of a container is none that it shows. -/
theorem page_ne (h : s.ShowsTabs bar deck pages selected) (ground : s.Grounded)
    (there : s.Built c child w) (absent : c ∉ pages.map TabPage.field) {tab : TabPage}
    (mem : tab ∈ pages) : tab.page ≠ w.root := by
  intro same
  refine h.root_not_mem_deck ground there absent ?_
  rw [h.deck, ← same]
  exact List.mem_map_of_mem mem

/-- A node of one bar is in no other. -/
theorem captions_apart {bar' deck' : NodeId} {pages' : List TabPage} {selected' : Option Nat}
    (h : s.ShowsTabs bar deck pages selected) (h' : s.ShowsTabs bar' deck' pages' selected')
    (ground : s.Grounded) (other : bar ≠ bar') {tab tab' : TabPage} (mem : tab ∈ pages)
    (mem' : tab' ∈ pages') : tab.caption ≠ tab'.caption := by
  intro same
  refine other (ground.forest.eq_of_mem_children (c := tab.caption) ?_ ?_)
  · rw [h.bar]
    exact List.mem_map_of_mem mem
  · rw [h'.bar, same]
    exact List.mem_map_of_mem mem'

/-- A node of one deck is in no other. -/
theorem pages_apart {bar' deck' : NodeId} {pages' : List TabPage} {selected' : Option Nat}
    (h : s.ShowsTabs bar deck pages selected) (h' : s.ShowsTabs bar' deck' pages' selected')
    (ground : s.Grounded) (other : deck ≠ deck') {tab tab' : TabPage} (mem : tab ∈ pages)
    (mem' : tab' ∈ pages') : tab.page ≠ tab'.page := by
  intro same
  refine other (ground.forest.eq_of_mem_children (c := tab.page) ?_ ?_)
  · rw [h.deck]
    exact List.mem_map_of_mem mem
  · rw [h'.deck, same]
    exact List.mem_map_of_mem mem'

/-- Selecting a page of a container. -/
theorem showPage (h : s.ShowsTabs bar deck pages selected) (ground : s.Grounded)
    (there : s.Built f field (.tabs root bar deck pages selected)) {index : Nat}
    (bound : index < pages.length) :
    (s.withWidget f (.tabs root bar deck pages (some index))
      (PanelM.showPage pages index s.page)).ShowsTabs bar deck pages (some index) := by
  obtain ⟨_, children, tags⟩ := ground.forest.showPage pages index
  have captions : (pages.map TabPage.caption).Nodup := h.bar ▸ ground.forest.distinct bar
  have nodes : (pages.map TabPage.page).Nodup := h.deck ▸ ground.forest.distinct deck
  refine ⟨(children bar).trans h.bar, (children deck).trans h.deck, fun tab mem => ?_,
    fun tab mem => ?_, ?_⟩
  · exact fun none => h.captions tab mem ((tags _).symm.trans none)
  · obtain ⟨field', w, there', is⟩ := h.widgets tab mem
    obtain ⟨field'', w', there'', root⟩ := (Turns.opened there bound).stays there'
    exact ⟨field'', w', there'', is.trans root.symm⟩
  · rintro i ⟨⟩
    refine ⟨bound, fun j tab listed => ?_⟩
    obtain ⟨marked, hidden⟩ := Page.attr?_showPage (p := s.page) index captions nodes
      (fun tab mem => ⟨h.captions tab mem, h.pages_elements ground mem⟩) listed
    have marked' : (s.withWidget f (.tabs root bar deck pages (some index))
        (PanelM.showPage pages index s.page)).page.attr? tab.caption "class" = _ := marked
    have hidden' : (s.withWidget f (.tabs root bar deck pages (some index))
        (PanelM.showPage pages index s.page)).page.attr? tab.page "hidden" = _ := hidden
    rw [marked', hidden']
    by_cases same : j = index <;> simp [same]

end ShowsTabs

/-! ## Steps -/

/-- Two tab containers share neither bar nor deck. -/
theorem Grounded.tabs_apart {root' bar' deck' : NodeId} {pages' : List TabPage}
    {selected' : Option Nat} (h : s.Grounded)
    (there : s.Built f field (.tabs root bar deck pages selected))
    (there' : s.Built g field' (.tabs root' bar' deck' pages' selected')) (other : f ≠ g) :
    bar ≠ bar' ∧ deck ≠ deck' ∧ bar ≠ deck' ∧ deck ≠ bar' := by
  have apart := h.apart there there' other
  simp only [Widget.anchors_tabs, List.mem_cons, List.not_mem_nil, or_false, not_or, forall_eq_or_imp,
    forall_eq] at apart
  obtain ⟨_, ⟨_, bars, across⟩, _, across', decks⟩ := apart
  exact ⟨bars, decks, across, across'⟩

theorem TabsShown.turns (shown : s.TabsShown) (h : s.Grounded) (step : s.Turns s') :
    s'.TabsShown := by
  have known : ∀ {n}, s.page.tag? n ≠ none → n.index < s.page.size := Page.lt_size_of_tag?
  intro f₁ field₁ root₁ bar₁ deck₁ pages₁ selected₁ built₁
  cases step with
  | realized realizes =>
    obtain ⟨field, _, _, old | ⟨_, rfl, _, hollow⟩⟩ := realizes.built_cases built₁
    · have before := shown _ _ _ _ _ _ _ old
      have stands := h.stands old
      have grows := realizes.grows
      refine before.transfer (grows.children (known (stands.element _ (by simp))))
        (grows.children (known (stands.element _ (by simp)))) (fun _ => grows.tag?)
        (fun tab _ field w there => ⟨field, w, realizes.built_of_built there, rfl⟩) ?_ ?_
      · intro tab mem
        exact Page.attr?_congr (grows.content? (known (before.pages_elements h mem))) _
      · intro tab mem
        exact Page.attr?_congr (grows.content? (known (before.captions tab mem))) _
    · exact .of_hollow hollow
  | @opened f field root bar deck pages selected index there bound =>
    rcases (built_withWidget there.found).1 built₁ with ⟨_, _, is⟩ | ⟨other, old⟩
    · cases is
      exact (shown _ _ _ _ _ _ _ there).showPage h there bound
    · -- the captions and the pages of another container are others
      have before := shown _ _ _ _ _ _ _ old
      have opened := shown _ _ _ _ _ _ _ there
      obtain ⟨bars, decks, _⟩ := h.tabs_apart old there other
      obtain ⟨_, children, tags⟩ := h.forest.showPage pages index
      refine before.transfer (children bar₁) (children deck₁) (fun n => by rw [← tags n]; exact id)
        (fun tab _ field w built => ?_) (fun tab mem => ?_) fun tab mem => ?_
      · exact (Turns.opened there bound).stays built
      · exact Page.attr?_showPage_of_ne (fun is => absurd is (by decide))
          fun _ tab' mem' => before.pages_apart opened h decks mem mem'
      · exact Page.attr?_showPage_of_ne (fun _ tab' mem' => before.captions_apart opened h bars mem mem')
          fun is => absurd is (by decide)
  | @cleared f field root slot content there =>
    have old : s.Built f₁ field₁ (.tabs root₁ bar₁ deck₁ pages₁ selected₁) :=
      ⟨built₁.found, built₁.widget⟩
    have contents := h.forest.content?_clear slot
    have kept : ∀ {n}, n ≠ slot → (s.page.clear slot).children n = s.page.children n := by
      intro n other
      rw [h.forest.children_clear, if_neg other]
    obtain ⟨notBar, notDeck⟩ := h.slot_apart old there
    exact (shown _ _ _ _ _ _ _ old).transfer (kept notBar) (kept notDeck)
      (fun n element none => element ((Page.tag?_congr (contents n)).symm.trans none))
      (fun _ _ field w built => ⟨field, w, ⟨built.found, built.widget⟩, rfl⟩)
      (fun _ _ => Page.attr?_congr (contents _) _) fun _ _ => Page.attr?_congr (contents _) _

/-- A page that is taken is hidden and not selected; the others stay as they are. -/
theorem ShowsTabs.selected_takesPage (h : s.ShowsTabs bar deck pages selected) (ground : s.Grounded)
    (there : s.Built c child w) (absent : c ∉ pages.map TabPage.field) {caption : NodeId} {page' : Page}
    (takes : s.page.TakesPage bar deck caption w.root page') {i j : Nat} {tab : TabPage}
    (is : selected = some i) (listed : (pages ++ [⟨c, caption, w.root⟩])[j]? = some tab) :
    (page'.attr? tab.page "hidden" = none ↔ j = i) ∧
      (page'.attr? tab.caption "class" = some "tab tab-selected" ↔ j = i) := by
  obtain ⟨bound, shown⟩ := h.selected i is
  rcases Nat.lt_or_ge j pages.length with old | new
  · rw [List.getElem?_append_left old] at listed
    have mem := List.mem_of_getElem? listed
    rw [takes.attr? _ _ (Page.lt_size_of_tag? (h.pages_elements ground mem))
        (.inl (h.page_ne ground there absent mem)),
      takes.attr? _ _ (Page.lt_size_of_tag? (h.captions tab mem)) (.inr (by decide))]
    exact shown j tab listed
  · rw [List.getElem?_append_right new] at listed
    obtain rfl := List.mem_singleton.1 (List.mem_of_getElem? listed)
    have late : j ≠ i := fun same => Nat.not_lt.2 new (same ▸ bound)
    simp [takes.hidden, takes.plain, late]

/-- A tab container with one page more. -/
theorem ShowsTabs.takesPage (h : s.ShowsTabs bar deck pages selected) (ground : s.Grounded)
    (there : s.Built p field (.tabs root bar deck pages selected)) (there' : s.Built c child w)
    (absent : c ∉ pages.map TabPage.field) {caption : NodeId} {page' : Page}
    (takes : s.page.TakesPage bar deck caption w.root page') :
    (s.withWidget p (.tabs root bar deck (pages ++ [⟨c, caption, w.root⟩]) selected)
      page').ShowsTabs bar deck (pages ++ [⟨c, caption, w.root⟩]) selected := by
  have stands := ground.stands there
  have isBar := Page.lt_size_of_tag? (stands.element bar (by simp))
  have isDeck := Page.lt_size_of_tag? (stands.element deck (by simp))
  have ne : bar ≠ deck := by
    have distinct := stands.distinct
    simp only [Widget.anchors_tabs, List.nodup_cons, List.mem_cons, List.not_mem_nil,
      or_false] at distinct
    exact distinct.2.1
  have gain := Gains.page there there' takes
  refine ⟨?_, ?_, ?_, ?_, ?_⟩
  · refine (takes.children bar isBar).trans ?_
    rw [if_pos rfl, if_neg ne, List.append_nil,
      Page.filter_ne_of_not_mem (ground.captions there there'), h.bar]
    simp
  · refine (takes.children deck isDeck).trans ?_
    rw [if_neg ne.symm, if_pos rfl, List.append_nil,
      Page.filter_ne_of_not_mem (h.root_not_mem_deck ground there' absent), h.deck]
    simp
  · intro tab mem
    rcases List.mem_append.1 mem with mem | mem
    · exact takes.tags _ (h.captions tab mem)
    · rw [List.mem_singleton.1 mem]
      exact takes.isElement
  · intro tab mem
    rcases List.mem_append.1 mem with mem | mem
    · obtain ⟨_, _, old, is⟩ := h.widgets tab mem
      obtain ⟨field', w', new, root⟩ := gain.stays old
      exact ⟨field', w', new, is.trans root.symm⟩
    · obtain ⟨field', w', new, root⟩ := gain.stays there'
      rw [List.mem_singleton.1 mem]
      exact ⟨field', w', new, root.symm⟩
  · intro i is
    refine ⟨?_, fun j tab listed => h.selected_takesPage ground there' absent takes is listed⟩
    rw [List.length_append]
    exact Nat.lt_add_right _ (h.selected i is).1

/-- A tab container beside one that takes a page of its own. -/
theorem ShowsTabs.besidePage {bar' deck' caption : NodeId} {page' : Page}
    (h : s.ShowsTabs bar deck pages selected) (ground : s.Grounded)
    (old : s.Built f field (.tabs root bar deck pages selected)) (there : s.Built c child w)
    (absent : c ∉ pages.map TabPage.field) (bars : bar ≠ bar' ∧ bar ≠ deck')
    (decks : deck ≠ bar' ∧ deck ≠ deck') (takes : s.page.TakesPage bar' deck' caption w.root page')
    (shows : s'.page = page') (stays : ∀ {g field w}, s.Built g field w →
      ∃ field' w', s'.Built g field' w' ∧ w'.root = w.root) :
    s'.ShowsTabs bar deck pages selected := by
  have known : ∀ {n}, s.page.tag? n ≠ none → n.index < s.page.size := Page.lt_size_of_tag?
  have outside := h.root_not_mem_deck ground there absent
  have kept : ∀ {n}, s.page.tag? n ≠ none → n ≠ bar' ∧ n ≠ deck' → w.root ∉ s.page.children n →
      page'.children n = s.page.children n := by
    intro n element apart out
    rw [takes.children n (known element), if_neg apart.1, if_neg apart.2, List.append_nil,
      List.append_nil, Page.filter_ne_of_not_mem out]
  have element := (ground.stands old).element
  rw [← shows] at takes kept
  refine h.transfer (kept (element bar (by simp)) bars (ground.captions old there))
    (kept (element deck (by simp)) decks outside) takes.tags (fun _ _ _ _ => stays)
    (fun tab mem => ?_) fun tab mem => ?_
  · exact takes.attr? _ _ (known (h.pages_elements ground mem))
      (.inl (h.page_ne ground there absent mem))
  · exact takes.attr? _ _ (known (h.captions tab mem)) (.inr (by decide))

/-- A tab container beside a disclosure that takes a header. -/
theorem ShowsTabs.besideHeader {slot : NodeId} (h : s.ShowsTabs bar deck pages selected)
    (ground : s.Grounded) (old : s.Built f field (.tabs root bar deck pages selected))
    (there : s.Built c child w) (absent : c ∉ pages.map TabPage.field)
    (apart : bar ≠ slot ∧ deck ≠ slot) (run : s.page.append slot w.root = .ok s'.page)
    (stays : ∀ {g field w}, s.Built g field w →
      ∃ field' w', s'.Built g field' w' ∧ w'.root = w.root) :
    s'.ShowsTabs bar deck pages selected := by
  have contents := Page.content?_append run
  have kept : ∀ {n}, n ≠ slot → w.root ∉ s.page.children n →
      s'.page.children n = s.page.children n := by
    intro n other out
    rw [ground.forest.children_append run, if_neg other, List.append_nil,
      Page.filter_ne_of_not_mem out]
  exact h.transfer (kept apart.1 (ground.captions old there))
    (kept apart.2 (h.root_not_mem_deck ground there absent))
    (fun n element none => element ((Page.tag?_congr (contents n)).symm.trans none))
    (fun _ _ _ _ => stays) (fun _ _ => Page.attr?_congr (contents _) _)
    fun _ _ => Page.attr?_congr (contents _) _

theorem TabsShown.gains (shown : s.TabsShown) (h : s.Grounded) (untaken : s.Untaken .tabs c)
    (step : s.Gains p c s') : s'.TabsShown := by
  intro f₁ field₁ root₁ bar₁ deck₁ pages₁ selected₁ built₁
  have stays : ∀ {g field w}, s.Built g field w →
      ∃ field' w', s'.Built g field' w' ∧ w'.root = w.root := step.stays
  cases step with
  | page there there' takes =>
    rcases (built_withWidget there.found).1 built₁ with ⟨_, _, is⟩ | ⟨other, old⟩
    · cases is
      have absent := untaken _ _ _ there (h.stands there).suits
      exact (shown _ _ _ _ _ _ _ there).takesPage h there there' absent takes
    · have absent := untaken _ _ _ old (h.stands old).suits
      obtain ⟨bars, decks, across, across'⟩ := h.tabs_apart old there other
      exact (shown _ _ _ _ _ _ _ old).besidePage h old there' absent ⟨bars, across⟩ ⟨across', decks⟩
        takes rfl stays
  | @header _ _ _ slot _ _ _ there there' _ run =>
    rcases (built_withWidget there.found).1 built₁ with ⟨_, _, is⟩ | ⟨_, old⟩
    · cases is
    · have absent := untaken _ _ _ old (h.stands old).suits
      exact (shown _ _ _ _ _ _ _ old).besideHeader h old there' absent (h.slot_apart old there) run stays

/-- The pages of a container whose widget is left are left. -/
theorem TabsShown.strips (shown : s.TabsShown) (h : s.Grounded) (h' : s'.Grounded)
    (listed : s'.Listed .tabs) (strips : s.Strips s') : s'.TabsShown := by
  intro f₁ field₁ root₁ bar₁ deck₁ pages₁ selected₁ built₁
  obtain ⟨field, old, _⟩ := strips.before built₁
  have before := shown _ _ _ _ _ _ _ old
  have left : ∀ tab ∈ pages₁, (s'.panel.field? tab.field).isSome := by
    intro tab mem
    have parts := listed _ _ built₁.found (h'.stands built₁).suits
    rw [built₁.parts] at parts
    have attached : tab.field ∈ field₁.attached := parts ▸ List.mem_map_of_mem mem
    obtain ⟨_, found, _⟩ :=
      h'.booked.exists_of_mem_contents built₁.found (List.mem_append_right _ attached)
    exact Option.isSome_of_mem found
  obtain ⟨gone, children, removed⟩ := strips.children
  have kept : ∀ n, (∀ m ∈ s.page.children n, m ∉ gone) → s'.page.children n = s.page.children n := by
    intro n stay
    rw [children, List.filter_eq_self]
    exact fun m mem => decide_eq_true (stay m mem)
  refine before.transfer (kept bar₁ fun m mem away => ?_) (kept deck₁ fun m mem away => ?_)
    (fun n element none => element ((Page.tag?_congr (strips.contents n)).symm.trans none))
    (fun tab mem field w built => ?_) (fun _ _ => Page.attr?_congr (strips.contents _) _)
    fun _ _ => Page.attr?_congr (strips.contents _) _
  · obtain ⟨_, _, w, there, rfl, _⟩ := removed m away
    exact h.captions old there mem
  · obtain ⟨g, _, w, there, rfl, none⟩ := removed m away
    obtain ⟨tab, mem, rfl⟩ := List.mem_map.1 (before.mem_of_mem_deck h there mem)
    have some := left tab mem
    rw [none] at some
    cases some
  · obtain ⟨field', there⟩ := strips.stays built (left tab mem)
    exact ⟨field', w, there, rfl⟩

theorem upkeep_tabs : Upkeep .tabs TabsShown where
  turns h shown step := shown.turns h step
  gains h untaken shown step := shown.gains h untaken step
  strips h h' listed shown strips := shown.strips h h' listed strips

/-! ## Histories -/

/-- Every tab container that has a widget is in order: its widget lists the fields that are attached to
it, and these are shown. -/
structure Tabbed (s : Scene) : Prop where
  listed : ∀ {f field root bar deck pages selected},
    s.Built f field (.tabs root bar deck pages selected) →
      pages.map TabPage.field = field.attached
  shown : ∀ {f field root bar deck pages selected},
    s.Built f field (.tabs root bar deck pages selected) → s.ShowsTabs bar deck pages selected

theorem Grounded.tabbed_iff (h : s.Grounded) : s.Tabbed ↔ s.Listed .tabs ∧ s.TabsShown := by
  constructor
  · intro tabbed
    refine ⟨fun f field found kind => ?_, fun _ _ _ _ _ _ _ => tabbed.shown⟩
    cases widget : field.widget with
    | none => exact h.parts_of_unbuilt found widget
    | some w =>
      have built : s.Built f field w := ⟨found, widget⟩
      have suits := (h.stands built).suits
      cases w with
      | tabs root bar deck pages selected => exact built.parts.trans (tabbed.listed built)
      | disclosure _ _ _ _ => cases kind.symm.trans suits
      | _ => exact absurd kind suits.1
  · rintro ⟨listed, shown⟩
    refine ⟨fun built => ?_, fun built => shown _ _ _ _ _ _ _ built⟩
    exact built.parts.symm.trans (listed _ _ built.found (h.stands built).suits)

/-- **Tab containers are in order** throughout exactly those histories in which no page is put elsewhere,
added again or removed from a container that stays. -/
theorem tabbed_iff_never_displaces {page : Page} (forest : page.Forest) (counters : CounterPool)
    (series : SeriesId) (messages : Messages) {rs : List Request} (allowed : ∀ r ∈ rs, r.Arranges) :
    Throughout Tabbed (opened page counters series messages) rs ↔
      Never (Displaces .tabs) (opened page counters series messages) rs := by
  refine upkeep_tabs.throughout_iff Grounded.tabbed_iff forest counters series messages ?_ allowed
  exact fun _ _ _ _ _ _ _ built => nomatch built.found

/-- A tab container with two panels for its pages; the second one is selected. -/
def browsing : List Request :=
  [.create .tabs (.ofList [(Vocabulary.nameKey, "a")]),
    .create .panel (.ofList [(Vocabulary.nameKey, "b")]),
    .create .panel (.ofList [(Vocabulary.nameKey, "c")]), .add ⟨0⟩ ⟨1⟩, .add ⟨0⟩ ⟨2⟩, .select ⟨0⟩ 1]

theorem throughout_tabbed_browsing : Page.empty.Forest ∧ (∀ r ∈ browsing, r.Arranges) ∧
    Throughout Tabbed (opened .empty .empty ⟨0⟩ .empty) browsing := by
  have allowed : ∀ r ∈ browsing, r.Arranges := by simp [browsing, Panel.Request.Arranges]
  have never : Never (Displaces .tabs) (opened .empty .empty ⟨0⟩ .empty) browsing := by
    decide +kernel
  exact ⟨.empty, allowed, (tabbed_iff_never_displaces .empty .empty ⟨0⟩ .empty allowed).2 never⟩

/-- A tab container and a panel that becomes its page and is removed. -/
def abandoning : List Request :=
  [.create .tabs (.ofList [(Vocabulary.nameKey, "a")]),
    .create .panel (.ofList [(Vocabulary.nameKey, "b")]), .add ⟨0⟩ ⟨1⟩, .remove ⟨1⟩]

/-- A tab container goes on listing a page that was removed. -/
theorem not_tabbed_abandoned :
    ¬ Throughout Tabbed (opened .empty .empty ⟨0⟩ .empty) abandoning := by
  intro throughout
  have tabbed := throughout abandoning (List.prefix_refl _)
  have left : (((opened .empty .empty ⟨0⟩ .empty).after abandoning).panel.field? ⟨0⟩).map
      (fun field => (field.widget, field.attached)) =
        some (some (.tabs ⟨1⟩ ⟨2⟩ ⟨3⟩ [⟨⟨1⟩, ⟨5⟩, ⟨4⟩⟩] none), []) := by
    decide +kernel
  obtain ⟨field, found, is⟩ := Option.map_eq_some_iff.1 left
  obtain ⟨widget, attached⟩ := Prod.mk.inj is
  have listed := tabbed.listed ⟨found, widget⟩
  rw [attached] at listed
  cases listed

end Scene

end Formwork
