import Formwork.Proofs.Panel.Link

/-!
# Pages of tab containers

A tab container takes every panel below it as a page: a caption joins its bar, the widget joins
its deck and is hidden, and a page that wants to be shown is shown in place of all others.
-/

namespace Formwork

set_option autoImplicit false

/-! ## Changing the topmost element of a tree -/

/-- A layout in which the topmost element of one tree has other attributes. -/
def Layout.withAttrs (L : Layout) (k : Owner)
    (f : OrderedMap String String → OrderedMap String String) : Layout :=
  Function.update L k ((L k).map fun r => { r with dom := r.dom.withAttrs f })

namespace Layout

variable {L : Layout} {k : Owner} {f : OrderedMap String String → OrderedMap String String}
  {r : Region}

theorem withAttrs_self (there : L k = some r) :
    L.withAttrs k f k = some { r with dom := r.dom.withAttrs f } := by
  rw [withAttrs, Function.update_self, there]
  rfl

theorem withAttrs_of_ne {i : Owner} (ne : i ≠ k) : L.withAttrs k f i = L i :=
  Function.update_of_ne ne ..

theorem Ordered.withAttrs (h : L.Ordered) : (L.withAttrs k f).Ordered := by
  cases there : L k with
  | none =>
    rw [Layout.withAttrs, there, Option.map_none, Function.update_eq_self_iff.2 there.symm]
    exact h
  | some r =>
    rw [Layout.withAttrs, there]
    exact h.change there (Dom.root_withAttrs f r.dom) fun l => by rw [Dom.links_withAttrs]

end Layout

/-- A tree that begins with an element. -/
def Dom.IsElement (n : NodeId) (d : Dom) : Prop :=
  ∃ tag attributes children, d = .element n tag attributes children

theorem Dom.IsElement.withAttrs {n : NodeId} {d : Dom} (h : d.IsElement n)
    (f : OrderedMap String String → OrderedMap String String) : (d.withAttrs f).IsElement n := by
  obtain ⟨tag, attributes, children, rfl⟩ := h
  exact ⟨tag, f attributes, children, rfl⟩

/-- The topmost element of a tree gets other attributes. -/
theorem Page.Holds.withAttrs {base p : Page} {L : Layout} (h : Page.Holds base p L) {k : Owner}
    {r : Region} {n : NodeId} (there : L k = some r) (top : r.dom.IsElement n)
    (f : OrderedMap String String → OrderedMap String String) :
    Page.Holds base (p.updateAttrs n f) (L.withAttrs k f) := by
  obtain ⟨place, dom⟩ := r
  obtain ⟨tag, attributes, children, rfl⟩ := top
  have changed := h.updateAttrs there (Dom.find?_root ..) f
  rw [Dom.edit_root] at changed
  rw [Layout.withAttrs, there]
  exact changed

/-! ## Showing one page and hiding the others -/

namespace PanelM

/-- What showing a page does to the caption of a page. -/
def showCaption (chosen : Bool) (attributes : OrderedMap String String) :
    OrderedMap String String :=
  attributes.insert "class" (if chosen then "tab tab-selected" else "tab")

/-- What showing a page does to the widget of a page. -/
def showWidget (chosen : Bool) (attributes : OrderedMap String String) :
    OrderedMap String String :=
  if chosen then attributes.erase "hidden" else attributes.insert "hidden" "hidden"

/-- The layout after one page was shown and the others were hidden. -/
def showing (index : Nat) (L : Layout) (steps : List (TabPage × Nat)) : Layout :=
  steps.foldl (fun L e =>
    (L.withAttrs (.tree (.caption e.1.field)) (showCaption (e.2 = index))).withAttrs
      (.tree (.widget e.1.field)) (showWidget (e.2 = index))) L

variable {base : Page} {index : Nat}

theorem showing_of_ne {k : Owner} : ∀ {steps : List (TabPage × Nat)} {L : Layout},
    (∀ e ∈ steps, k ≠ .tree (.caption e.1.field) ∧ k ≠ .tree (.widget e.1.field)) →
      showing index L steps k = L k
  | [], _, _ => rfl
  | e :: steps, L, other => by
    have rest := showing_of_ne (k := k)
      (L := (L.withAttrs (.tree (.caption e.1.field)) (showCaption (e.2 = index))).withAttrs
        (.tree (.widget e.1.field)) (showWidget (e.2 = index)))
      fun e' mem => other e' (List.mem_cons_of_mem _ mem)
    obtain ⟨notCaption, notWidget⟩ := other e List.mem_cons_self
    rw [Layout.withAttrs_of_ne notWidget, Layout.withAttrs_of_ne notCaption] at rest
    exact rest

variable (index) in
/-- What becomes of the caption and of the widget of one of the pages. -/
theorem showing_of_mem {e : TabPage × Nat} {r s : Region} :
    ∀ {steps : List (TabPage × Nat)} {L : Layout},
      (steps.map fun e => e.1.field).Nodup → e ∈ steps →
      L (.tree (.caption e.1.field)) = some r → L (.tree (.widget e.1.field)) = some s →
      showing index L steps (.tree (.caption e.1.field)) =
          some { r with dom := r.dom.withAttrs (showCaption (e.2 = index)) } ∧
        showing index L steps (.tree (.widget e.1.field)) =
          some { s with dom := s.dom.withAttrs (showWidget (e.2 = index)) }
  | [], _, _, mem, _, _ => by cases mem
  | e' :: steps, L, distinct, mem, caption, widget => by
    rw [List.map_cons, List.nodup_cons] at distinct
    rcases List.mem_cons.1 mem with rfl | later
    · -- no later step changes the trees of the first page
      have elsewhere : ∀ e' ∈ steps, e.1.field ≠ e'.1.field := by
        intro e' there same
        exact distinct.1 (same ▸ List.mem_map_of_mem there)
      have atCaption : ∀ L, showing index L steps (.tree (.caption e.1.field)) =
          L (.tree (.caption e.1.field)) := by
        intro L
        exact showing_of_ne fun e' there => ⟨by simpa using elsewhere e' there, by simp⟩
      have atWidget : ∀ L, showing index L steps (.tree (.widget e.1.field)) =
          L (.tree (.widget e.1.field)) := by
        intro L
        exact showing_of_ne fun e' there => ⟨by simp, by simpa using elsewhere e' there⟩
      unfold showing at atCaption atWidget ⊢
      rw [List.foldl_cons, atCaption, atWidget]
      refine ⟨?_, Layout.withAttrs_self ?_⟩
      · rw [Layout.withAttrs_of_ne (by simp)]
        exact Layout.withAttrs_self caption
      · rw [Layout.withAttrs_of_ne (by simp), widget]
    · have ne : e.1.field ≠ e'.1.field := by
        intro same
        exact distinct.1 (same ▸ List.mem_map_of_mem later)
      show showing index _ steps _ = _ ∧ showing index _ steps _ = _
      refine showing_of_mem distinct.2 later ?_ ?_
      · refine (Layout.withAttrs_of_ne (by simp)).trans ?_
        rw [Layout.withAttrs_of_ne (by simpa using ne), caption]
      · refine (Layout.withAttrs_of_ne (by simpa using ne)).trans ?_
        rw [Layout.withAttrs_of_ne (by simp), widget]

/-- Every page has a caption and a widget on the page, with the nodes that are remembered. -/
def HasPage (L : Layout) (page : TabPage) : Prop :=
  (∃ r, L (.tree (.caption page.field)) = some r ∧ r.dom.IsElement page.caption) ∧
    ∃ r, L (.tree (.widget page.field)) = some r ∧ r.dom.IsElement page.page

theorem HasPage.withAttrs {L : Layout} {page : TabPage} (h : HasPage L page) (k : Owner)
    (f : OrderedMap String String → OrderedMap String String) : HasPage (L.withAttrs k f) page := by
  have keeps : ∀ {i n}, (∃ r, L i = some r ∧ r.dom.IsElement n) →
      ∃ r, L.withAttrs k f i = some r ∧ r.dom.IsElement n := by
    rintro i n ⟨r, there, top⟩
    by_cases same : i = k
    · subst same
      exact ⟨_, Layout.withAttrs_self there, top.withAttrs f⟩
    · exact ⟨r, by rw [Layout.withAttrs_of_ne same, there], top⟩
  exact ⟨keeps h.1, keeps h.2⟩

variable (index) in
/-- **Showing one page** changes the captions and the widgets of the pages and nothing else. -/
theorem holds_showing : ∀ {steps : List (TabPage × Nat)} {p : Page} {L : Layout},
    Page.Holds base p L → (∀ e ∈ steps, HasPage L e.1) →
      Page.Holds base (steps.foldl (fun p (tab, i) =>
        (p.setAttr tab.caption "class" (if i = index then "tab tab-selected" else "tab")).setFlag
          tab.page "hidden" (i ≠ index)) p) (showing index L steps)
  | [], _, _, h, _ => h
  | (tab, i) :: steps, p, L, h, has => by
    obtain ⟨⟨r, caption, top⟩, _⟩ := has (tab, i) List.mem_cons_self
    have first := h.withAttrs caption top (showCaption (i = index))
    have has' := fun e mem => (has e mem).withAttrs (.tree (.caption tab.field))
      (showCaption (i = index))
    obtain ⟨_, ⟨s, widget, top'⟩⟩ := has' (tab, i) List.mem_cons_self
    have second := first.withAttrs widget top' (showWidget (i = index))
    have rest := holds_showing second fun e mem =>
      (has' e (List.mem_cons_of_mem _ mem)).withAttrs _ _
    have step : (p.setAttr tab.caption "class"
        (if i = index then "tab tab-selected" else "tab")).setFlag tab.page "hidden" (i ≠ index) =
        (p.updateAttrs tab.caption (showCaption (i = index))).updateAttrs tab.page
          (showWidget (i = index)) := by
      unfold showCaption showWidget Page.setFlag Page.setAttr Page.removeAttr
      by_cases chosen : i = index
      · simp [chosen]
      · simp [chosen]
    rw [List.foldl_cons]
    rw [← step] at rest
    exact rest

theorem ordered_showing : ∀ {steps : List (TabPage × Nat)} {L : Layout}, L.Ordered →
    (showing index L steps).Ordered
  | [], _, h => h
  | e :: steps, L, h => by
    show (showing index ((L.withAttrs _ _).withAttrs _ _) steps).Ordered
    exact ordered_showing h.withAttrs.withAttrs

end PanelM

/-! ## Taking a page -/

/-- The tree of a tab container. -/
def Dom.tabs (own bar deck : NodeId) (tag : String) (attributes : OrderedMap String String)
    (captions shown : List Dom) : Dom :=
  .element own tag attributes [.element bar "div" Face.barAttributes captions,
    .element deck "div" Face.deckAttributes shown]

section Tabs

variable {own bar deck : NodeId} {tag : String} {attributes : OrderedMap String String}
  {captions shown : List Dom}

theorem Dom.find?_bar (distinct : (Dom.tabs own bar deck tag attributes captions shown).nodes.Nodup) :
    (Dom.tabs own bar deck tag attributes captions shown).find? bar =
      some ("div", Face.barAttributes, captions) := Dom.find?_child [] distinct

theorem Dom.find?_deck
    (distinct : (Dom.tabs own bar deck tag attributes captions shown).nodes.Nodup) :
    (Dom.tabs own bar deck tag attributes captions shown).find? deck =
      some ("div", Face.deckAttributes, shown) :=
  Dom.find?_child [.element bar "div" Face.barAttributes captions] distinct

theorem Dom.edit_bar (distinct : (Dom.tabs own bar deck tag attributes captions shown).nodes.Nodup)
    (x : Dom) : (Dom.tabs own bar deck tag attributes captions shown).edit bar
        (fun attributes children => (attributes, children ++ [x])) =
      .tabs own bar deck tag attributes (captions ++ [x]) shown :=
  Dom.edit_child [] distinct _

theorem Dom.edit_deck (distinct : (Dom.tabs own bar deck tag attributes captions shown).nodes.Nodup)
    (x : Dom) : (Dom.tabs own bar deck tag attributes captions shown).edit deck
        (fun attributes children => (attributes, children ++ [x])) =
      .tabs own bar deck tag attributes captions (shown ++ [x]) :=
  Dom.edit_child [.element bar "div" Face.barAttributes captions] distinct _

end Tabs

section Hang

variable {base p : Page} {L : Layout} {container c : FieldId} {place : Option NodeId}
  {own bar deck root : NodeId} {tag : String} {attributes : OrderedMap String String}
  {captions shown : List Dom} {dom : Dom}

/-- A caption is made: it shows its text, and lies nowhere yet. -/
theorem Page.Holds.createCaption (h : Page.Holds base p L) (order : L.Ordered)
    (absent : L (.tree (.caption c)) = none) (caption : String) :
    ∃ kids L', Dom.htmlOf kids = Html.ofNodes (Page.textNodes caption) ∧
      Page.Holds base (((p.createElement "span").2.setAttr (p.createElement "span").1 "class" "tab").setText
        (p.createElement "span").1 caption) L' ∧ L'.Ordered ∧
      L' (.tree (.caption c)) = some ⟨none, .element (p.createElement "span").1 "span"
        (OrderedMap.empty.insert "class" "tab") kids⟩ ∧
      ∀ k, k ≠ .tree (.caption c) → L' k = L k := by
  have created := h.create (.tree (.caption c)) "span" .empty
  have styled := created.updateAttrs (Function.update_self ..) (Dom.find?_root ..)
    fun m => m.insert "class" "tab"
  rw [Function.update_idem, Dom.edit_root] at styled
  obtain ⟨_, there⟩ := ((styled.has (Function.update_self ..)).find (Dom.find?_root ..)).2.2
  have written := styled.importNodes (Function.update_self ..) (Dom.find?_root ..)
    (Page.textNodes caption)
  rw [Function.update_idem, Dom.edit_root] at written
  rw [← Page.setText_eq (Page.tag?_eq there) (Page.children_eq there)] at written
  generalize kidsEq : ([] : List Dom) ++ Dom.ofNodes _ (Page.textNodes caption) = kids at written
  have looks : Dom.htmlOf kids = Html.ofNodes (Page.textNodes caption) := by
    rw [← kidsEq, List.nil_append, Dom.htmlOf_ofNodes]
  have unlinked : Dom.linksOf kids = [] := by
    rw [← kidsEq, List.nil_append, Dom.linksOf_ofNodes]
  exact ⟨kids, _, looks, written, order.add absent unlinked, Function.update_self ..,
    fun k other => Function.update_of_ne other ..⟩

/-- **A caption joins the bar and a widget, hidden, joins the deck.** -/
theorem Page.Holds.hangPage (h : Page.Holds base p L) (order : L.Ordered)
    (younger : container.index < c.index)
    (tabs : L (.tree (.widget container)) =
      some ⟨place, .tabs own bar deck tag attributes captions shown⟩)
    (free : L (.tree (.widget c)) = some ⟨none, dom⟩) (top : dom.IsElement root)
    (absent : L (.tree (.caption c)) = none) (caption : String) :
    ∃ n kids p' p'' L', n = (p.createElement "span").1 ∧
      ((((p.createElement "span").2.setAttr n "class" "tab").setText n caption).setFlag root
        "hidden" true).append bar n = .ok p' ∧ p'.append deck root = .ok p'' ∧
      Page.Holds base p'' L' ∧ L'.Ordered ∧
      Dom.htmlOf kids = Html.ofNodes (Page.textNodes caption) ∧
      L' (.tree (.caption c)) =
        some ⟨some bar, .element n "span" (OrderedMap.empty.insert "class" "tab") kids⟩ ∧
      L' (.tree (.widget c)) =
        some ⟨some deck, dom.withAttrs fun m => m.insert "hidden" "hidden"⟩ ∧
      L' (.tree (.widget container)) = some ⟨place, .tabs own bar deck tag attributes
        (captions ++ [.link (.caption c) n]) (shown ++ [.link (.widget c) root])⟩ ∧
      ∀ k, k ≠ .tree (.caption c) → k ≠ .tree (.widget c) → k ≠ .tree (.widget container) →
        L' k = L k := by
  have widgetNe : (Owner.tree (.widget c)) ≠ .tree (.widget container) := by
    rintro same
    cases same
    exact Nat.lt_irrefl _ younger
  have rank : ∀ target : Link, target.field = c →
      (Owner.tree (.widget container)).rank < (Owner.tree target).rank := by
    rintro target rfl
    have later : 2 * container.index + 2 < 2 * target.field.index + 2 := by omega
    cases target with
    | shown f => exact Nat.lt_succ_of_lt later
    | _ => exact later
  obtain ⟨kids, L₃, looks, written, order₃, atCaption₃, others₃⟩ := h.createCaption order absent caption
  have free₃ := (others₃ _ (by simp)).trans free
  -- the widget is hidden
  have hidden := written.withAttrs free₃ top fun m => m.insert "hidden" "hidden"
  have order₄ := order₃.withAttrs (k := .tree (.widget c))
    (f := fun m => m.insert "hidden" "hidden")
  generalize layout₄ : Layout.withAttrs _ (.tree (.widget c)) _ = L₄ at hidden order₄
  have atCaption₄ : L₄ (.tree (.caption c)) = some ⟨none, .element (p.createElement "span").1 "span"
      (OrderedMap.empty.insert "class" "tab") kids⟩ := by
    rw [← layout₄, Layout.withAttrs_of_ne (by simp), atCaption₃]
  have atWidget₄ : L₄ (.tree (.widget c)) =
      some ⟨none, dom.withAttrs fun m => m.insert "hidden" "hidden"⟩ := by
    rw [← layout₄, Layout.withAttrs_self free₃]
  have others₄ : ∀ k, k ≠ .tree (.caption c) → k ≠ .tree (.widget c) → L₄ k = L k := by
    intro k notCaption notWidget
    rw [← layout₄, Layout.withAttrs_of_ne notWidget, others₃ k notCaption]
  have atTabs₄ := (others₄ _ (by simp) widgetNe.symm).trans tabs
  have distinct₄ := hidden.distinct atTabs₄
  obtain ⟨p', L₅, run', linked, order₅, atCaption₅, atTabs₅, others₅⟩ := hidden.hang order₄ atTabs₄
    (Dom.find?_bar distinct₄) atCaption₄ (rank (.caption c) rfl)
  rw [Dom.edit_bar distinct₄] at atTabs₅
  -- the widget joins the deck
  have distinct₅ := linked.distinct atTabs₅
  have atWidget₅ := (others₅ _ (by simp) widgetNe).trans atWidget₄
  obtain ⟨p'', L₆, run'', linked', order₆, atWidget₆, atTabs₆, others₆⟩ := linked.hang order₅ atTabs₅
    (Dom.find?_deck distinct₅) atWidget₅ (rank (.widget c) rfl)
  rw [Dom.edit_deck distinct₅] at atTabs₆
  obtain ⟨tag', attributes', children', rfl⟩ := top
  refine ⟨⟨p.size⟩, kids, p', p'', L₆, rfl, run', run'', linked', order₆, looks, ?_, atWidget₆,
    atTabs₆, ?_⟩
  · exact (others₆ _ (by simp) (by simp)).trans atCaption₅
  · intro k notCaption notWidget notTabs
    exact (others₆ k notWidget notTabs).trans
      ((others₅ k notCaption notTabs).trans (others₄ k notCaption notWidget))

end Hang

end Formwork
