import Formwork.Panel.Hierarchy
import Formwork.Proofs.Page.Effects

/-!
# Tab containers on a page

A page of a tab container is put on the page in two moves: a new caption joins the bar
(`Page.TakesCaption`), and the page, hidden, joins the deck (`Page.TakesPage`).  On a forest neither move
is refused, since nothing lies in the page.  Selecting a page sets the style classes of the captions and
shows one page (`Page.attr?_showPage`); it moves nothing (`Page.Forest.showPage`).
-/

namespace Formwork

set_option autoImplicit false

namespace Page

variable {p p' : Page} {n m bar deck caption root : NodeId}

/-! ## Putting a page into a container -/

/-- A new caption joined the bar of a container, and a node its deck. -/
structure TakesPage (p : Page) (bar deck caption root : NodeId) (p' : Page) : Prop where
  forest : p'.Forest
  new : p.size ≤ caption.index
  isElement : p'.tag? caption ≠ none
  tags : ∀ n, p.tag? n ≠ none → p'.tag? n ≠ none
  children : ∀ n : NodeId, n.index < p.size → p'.children n =
    ((p.children n).filter (· ≠ root) ++ if n = bar then [caption] else []) ++
      if n = deck then [root] else []
  attr? : ∀ (n : NodeId) (name : String), n.index < p.size → n ≠ root ∨ name ≠ "hidden" →
    p'.attr? n name = p.attr? n name
  hidden : p'.attr? root "hidden" = some "hidden"
  plain : p'.attr? caption "class" = some "tab"

theorem Forest.setFlag (h : p.Forest) (n : NodeId) (name : String) (on : Bool) :
    (p.setFlag n name on).Forest := by
  cases on <;> exact h.updateAttrs n _

/-- A flag is set at one node, and nothing is moved. -/
theorem setFlag_moves_nothing (p : Page) (n : NodeId) (name : String) (on : Bool) :
    (p.setFlag n name on).size = p.size ∧
      (∀ m, (p.setFlag n name on).children m = p.children m) ∧
      (∀ m, (p.setFlag n name on).parent? m = p.parent? m) ∧
      ∀ m, (p.setFlag n name on).tag? m = p.tag? m := by
  cases on <;> exact ⟨size_updateAttrs .., children_updateAttrs p n _, parent?_updateAttrs p n _,
    tag?_updateAttrs p n _⟩

theorem ne_of_lt_size (known : n.index < p.size) : n ≠ ⟨p.size⟩ := by
  rintro rfl
  exact Nat.lt_irrefl _ known

/-- A new element with a style class and a text. -/
theorem Forest.caption_created (h : p.Forest) (text : String) :
    ∃ p₁, (((p.createElement "span").2.setAttr ⟨p.size⟩ "class" "tab").setText ⟨p.size⟩ text) = p₁ ∧
      p₁.Forest ∧ Extends p p₁ ∧ p.size < p₁.size ∧ p₁.tag? ⟨p.size⟩ ≠ none ∧
      p₁.attr? ⟨p.size⟩ "class" = some "tab" ∧
      (∀ m : NodeId, m.index < p.size → p₁.children m = p.children m) ∧
      ∀ m : NodeId, m.index < p.size → p₁.content? m = p.content? m := by
  have made := h.create (.element "span" .empty)
  have element : (p.createElement "span").2.tag? ⟨p.size⟩ ≠ none := by
    unfold tag? createElement
    rw [node?_create, if_pos rfl]
    exact nofun
  have styled : ((p.createElement "span").2.setAttr ⟨p.size⟩ "class" "tab").Forest :=
    made.updateAttrs ⟨p.size⟩ _
  have tags := tag?_updateAttrs (p.createElement "span").2 ⟨p.size⟩
    fun attributes => attributes.insert "class" "tab"
  have leaf : ((p.createElement "span").2.setAttr ⟨p.size⟩ "class" "tab").children ⟨p.size⟩ = [] := by
    refine (children_updateAttrs ..).trans ((children_create ..).trans ?_)
    have none : p.node? ⟨p.size⟩ = none := node?_eq_none (Nat.le_refl p.size)
    unfold children
    rw [none]
    rfl
  have size : ((p.createElement "span").2.setAttr ⟨p.size⟩ "class" "tab").size = p.size + 1 :=
    (size_updateAttrs ..).trans (size_create ..)
  have isElement : ((p.createElement "span").2.setAttr ⟨p.size⟩ "class" "tab").tag? ⟨p.size⟩ ≠ none := by
    exact fun none => element ((tags _).symm.trans none)
  obtain ⟨grown, children, contents⟩ := setText_of_leaf styled isElement leaf text
  have marked := attr?_setAttr_self element "class" "tab"
  have below : ∀ {i}, i < p.size + 1 →
      i < ((p.createElement "span").2.setAttr ⟨p.size⟩ "class" "tab").size :=
    fun less => Nat.lt_of_lt_of_eq less size.symm
  have larger := Nat.lt_of_lt_of_le (below (Nat.lt_succ_self p.size)) grown.size_le
  refine ⟨_, rfl, styled.setText _ _, ⟨?_, ?_, ?_⟩, ?_, ?_, ?_, ?_, ?_⟩
  · exact Nat.le_of_lt larger
  · intro m known
    refine (grown.parent m (below (Nat.lt_succ_of_lt known))).trans ?_
    exact (parent?_updateAttrs ..).trans (parent?_create ..)
  · intro m known
    refine (grown.tag m (below (Nat.lt_succ_of_lt known))).trans ?_
    exact (tags m).trans (tag?_create_of_lt _ _ known)
  · exact larger
  · rw [grown.tag ⟨p.size⟩ (below (Nat.lt_succ_self p.size))]
    exact isElement
  · rw [attr?_congr (contents ⟨p.size⟩ (below (Nat.lt_succ_self p.size)))]
    exact marked
  · intro m known
    refine (children m (ne_of_lt_size known)).trans ?_
    exact (children_updateAttrs ..).trans (children_create ..)
  · intro m known
    refine (contents m (below (Nat.lt_succ_of_lt known))).trans ?_
    exact (content?_updateAttrs_of_ne _ (ne_of_lt_size known)).trans (content?_create _ known)

/-- A new caption joined the bar of a container, and a node was hidden. -/
structure TakesCaption (p : Page) (bar caption root : NodeId) (p' : Page) : Prop where
  forest : p'.Forest
  size_le : p.size ≤ p'.size
  isElement : p'.tag? caption ≠ none
  tags : ∀ n : NodeId, n.index < p.size → p'.tag? n = p.tag? n
  children : ∀ n : NodeId, n.index < p.size →
    p'.children n = p.children n ++ if n = bar then [caption] else []
  attr? : ∀ (n : NodeId) (name : String), n.index < p.size → n ≠ root ∨ name ≠ "hidden" →
    p'.attr? n name = p.attr? n name
  hidden : p'.attr? root "hidden" = some "hidden"
  plain : p'.attr? caption "class" = some "tab"

theorem Forest.exists_takesCaption (h : p.Forest) (isBar : p.tag? bar ≠ none)
    (isRoot : p.tag? root ≠ none) (text : String) :
    ∃ p₂, (((((p.createElement "span").2.setAttr ⟨p.size⟩ "class" "tab").setText ⟨p.size⟩
        text).setFlag root "hidden" true).append bar ⟨p.size⟩ = .ok p₂) ∧
      p.TakesCaption bar ⟨p.size⟩ root p₂ := by
  obtain ⟨p₀, made, forest₀, grown, size₀, isElement, marked, children₀, contents₀⟩ :=
    h.caption_created text
  rw [made]
  have known : ∀ {m}, p.tag? m ≠ none → m.index < p.size := lt_size_of_tag?
  obtain ⟨size₁, children₁, parents₁, tags₁⟩ := setFlag_moves_nothing p₀ root "hidden" true
  have forest₁ := forest₀.setFlag root "hidden" true
  -- above the bar there are old nodes only
  obtain ⟨ns, up⟩ := h.rises bar
  have old := h.lt_size up (known isBar)
  have up₁ : (p₀.setFlag root "hidden" true).Ascends bar ns := up.congr fun m mem =>
    (parents₁ m).trans (grown.parent m (old m mem))
  have isBar₁ : (p₀.setFlag root "hidden" true).tag? bar ≠ none := by
    rw [tags₁, grown.tag bar (known isBar)]
    exact isBar
  obtain ⟨p₂, run⟩ := forest₁.exists_append isBar₁ up₁ fun mem => ne_of_lt_size (old _ mem) rfl
  have contents : ∀ m, p₂.content? m = (p₀.setFlag root "hidden" true).content? m :=
    content?_append run
  have isRoot₀ : p₀.tag? root ≠ none := by
    rw [grown.tag root (known isRoot)]
    exact isRoot
  refine ⟨p₂, run, forest₁.append (size₁.symm ▸ size₀) run, ?_, ?_, ?_, ?_, ?_, ?_, ?_⟩
  · rw [size_append run, size₁]
    exact grown.size_le
  · rw [tag?_congr (contents _), tags₁]
    exact isElement
  · intro n there
    rw [tag?_congr (contents _), tags₁, grown.tag n there]
  · intro n there
    rw [forest₁.children_append run, children₁, children₀ n there, filter_ne_of_not_mem]
    exact fun mem => ne_of_lt_size (lt_size_of_parent? ((h.agree n _).1 mem)) rfl
  · intro n name there other
    rw [attr?_congr (contents n), attr?_setFlag_of_ne other]
    exact attr?_congr (contents₀ n there) name
  · rw [attr?_congr (contents root), attr?_setFlag_self isRoot₀]
    rfl
  · have other := (ne_of_lt_size (known isRoot)).symm
    rw [attr?_congr (contents _), attr?_setFlag_of_ne (.inl other)]
    exact marked

/-- **A node without children** is taken as a page of a container. -/
theorem Forest.exists_takesPage (h : p.Forest) (isBar : p.tag? bar ≠ none)
    (isDeck : p.tag? deck ≠ none) (isRoot : p.tag? root ≠ none) (leaf : p.children root = [])
    (notBar : root ≠ bar) (notDeck : root ≠ deck) (text : String) :
    ∃ p₂ p₃, (((((p.createElement "span").2.setAttr ⟨p.size⟩ "class" "tab").setText ⟨p.size⟩
        text).setFlag root "hidden" true).append bar ⟨p.size⟩ = .ok p₂) ∧
      p₂.append deck root = .ok p₃ ∧ p.TakesPage bar deck ⟨p.size⟩ root p₃ := by
  obtain ⟨p₂, run₂, joined⟩ := h.exists_takesCaption isBar isRoot text
  have known : ∀ {m}, p.tag? m ≠ none → m.index < p.size := lt_size_of_tag?
  have isDeck₂ : p₂.tag? deck ≠ none := by
    rw [joined.tags deck (known isDeck)]
    exact isDeck
  have leaf₂ : p₂.children root = [] := by
    rw [joined.children root (known isRoot), leaf, if_neg notBar]
    rfl
  obtain ⟨p₃, run₃⟩ := joined.forest.append_leaf isDeck₂ leaf₂ notDeck
  have contents : ∀ m, p₃.content? m = p₂.content? m := content?_append run₃
  refine ⟨p₂, p₃, run₂, run₃, ?_, Nat.le_refl _, ?_, ?_, ?_, ?_, ?_, ?_⟩
  · exact joined.forest.append (Nat.lt_of_lt_of_le (known isRoot) joined.size_le) run₃
  · rw [tag?_congr (contents _)]
    exact joined.isElement
  · intro n element
    rw [tag?_congr (contents _), joined.tags n (known element)]
    exact element
  · intro n there
    rw [joined.forest.children_append run₃, joined.children n there, List.filter_append]
    congr 2
    split
    · exact filter_ne_of_not_mem fun mem => ne_of_lt_size (known isRoot) (List.mem_singleton.1 mem)
    · rfl
  · intro n name there other
    rw [attr?_congr (contents n)]
    exact joined.attr? n name there other
  · rw [attr?_congr (contents root)]
    exact joined.hidden
  · rw [attr?_congr (contents _)]
    exact joined.plain

/-! ## Selecting a page -/

/-- Show a page of a container when it is the selected one, and hide it otherwise. -/
def showStep (index : Nat) (p : Page) (step : TabPage × Nat) : Page :=
  (p.setAttr step.1.caption "class" (if step.2 = index then "tab tab-selected" else "tab")).setFlag
    step.1.page "hidden" (step.2 ≠ index)

theorem showPage_eq (pages : List TabPage) (index : Nat) (p : Page) :
    PanelM.showPage pages index p = pages.zipIdx.foldl (showStep index) p := rfl

section Showing

variable {index : Nat} {steps : List (TabPage × Nat)}

theorem Forest.showStep (h : p.Forest) (step : TabPage × Nat) :
    (p.showStep index step).Forest := (h.updateAttrs step.1.caption _).setFlag ..

theorem showStep_moves_nothing (p : Page) (index : Nat) (step : TabPage × Nat) :
    (∀ m, (p.showStep index step).children m = p.children m) ∧
      ∀ m, (p.showStep index step).tag? m = p.tag? m := by
  have moves := setFlag_moves_nothing (p.setAttr step.1.caption "class"
    (if step.2 = index then "tab tab-selected" else "tab")) step.1.page "hidden" (step.2 ≠ index)
  exact ⟨fun m => (moves.2.1 m).trans (children_updateAttrs ..),
    fun m => (moves.2.2.2 m).trans (tag?_updateAttrs ..)⟩

theorem attr?_showStep_of_ne {step : TabPage × Nat} {name : String}
    (caption : name = "class" → n ≠ step.1.caption) (page : name = "hidden" → n ≠ step.1.page) :
    (p.showStep index step).attr? n name = p.attr? n name := by
  unfold Page.showStep
  rw [attr?_setFlag_of_ne, attr?_setAttr_of_ne]
  · by_cases same : name = "class"
    · exact .inl (caption same)
    · exact .inr same
  · by_cases same : name = "hidden"
    · exact .inl (page same)
    · exact .inr same

/-- Showing pages moves nothing. -/
theorem Forest.showSteps (h : p.Forest) (index : Nat) (steps : List (TabPage × Nat)) :
    (steps.foldl (Page.showStep index) p).Forest ∧
      (∀ m, (steps.foldl (Page.showStep index) p).children m = p.children m) ∧
      ∀ m, (steps.foldl (Page.showStep index) p).tag? m = p.tag? m := by
  induction steps generalizing p with
  | nil => exact ⟨h, fun _ => rfl, fun _ => rfl⟩
  | cons step steps ih =>
    obtain ⟨forest, children, tags⟩ := ih (h.showStep step)
    obtain ⟨children', tags'⟩ := showStep_moves_nothing p index step
    exact ⟨forest, fun m => (children m).trans (children' m), fun m => (tags m).trans (tags' m)⟩

/-- Showing pages changes the classes of their captions and the flags of their widgets only. -/
theorem attr?_showSteps_of_ne {name : String}
    (caption : name = "class" → ∀ step ∈ steps, n ≠ step.1.caption)
    (page : name = "hidden" → ∀ step ∈ steps, n ≠ step.1.page) :
    (steps.foldl (showStep index) p).attr? n name = p.attr? n name := by
  induction steps generalizing p with
  | nil => rfl
  | cons step steps ih =>
    rw [List.foldl_cons, ih fun same step' mem => caption same step' (List.mem_cons_of_mem _ mem)]
    · exact attr?_showStep_of_ne (fun same => caption same step List.mem_cons_self)
        fun same => page same step List.mem_cons_self
    · exact fun same step' mem => page same step' (List.mem_cons_of_mem _ mem)

/-- A page is shown or hidden when its turn comes, and not met again. -/
theorem attr?_showSteps (captions : (steps.map (·.1.caption)).Nodup)
    (nodes : (steps.map (·.1.page)).Nodup)
    (elements : ∀ step ∈ steps, p.tag? step.1.caption ≠ none ∧ p.tag? step.1.page ≠ none) :
    ∀ step ∈ steps, (steps.foldl (showStep index) p).attr? step.1.caption "class" =
        some (if step.2 = index then "tab tab-selected" else "tab") ∧
      (steps.foldl (showStep index) p).attr? step.1.page "hidden" =
        if step.2 = index then none else some "hidden" := by
  induction steps generalizing p with
  | nil => exact fun step mem => absurd mem List.not_mem_nil
  | cons first steps ih =>
    obtain ⟨caption, captions⟩ := List.nodup_cons.1 captions
    obtain ⟨node, nodes⟩ := List.nodup_cons.1 nodes
    intro step mem
    rw [List.foldl_cons]
    rcases List.mem_cons.1 mem with rfl | mem
    · obtain ⟨isCaption, isPage⟩ := elements step List.mem_cons_self
      rw [attr?_showSteps_of_ne, attr?_showSteps_of_ne]
      · unfold showStep
        constructor
        · rw [attr?_setFlag_of_ne (.inr (by decide)), attr?_setAttr_self isCaption]
        · rw [attr?_setFlag_self]
          · by_cases shown : step.2 = index <;> simp [shown]
          · exact fun none => isPage ((tag?_updateAttrs ..).symm.trans none)
      · exact fun same => absurd same (by decide)
      · exact fun _ step' mem same => node (List.mem_map.2 ⟨step', mem, same.symm⟩)
      · exact fun _ step' mem same => caption (List.mem_map.2 ⟨step', mem, same.symm⟩)
      · exact fun same => absurd same (by decide)
    · refine ih captions nodes (fun step' mem' => ?_) step mem
      obtain ⟨_, tags⟩ := showStep_moves_nothing p index first
      rw [tags, tags]
      exact elements step' (List.mem_cons_of_mem _ mem')

end Showing

/-- Selecting a page moves nothing. -/
theorem Forest.showPage (h : p.Forest) (pages : List TabPage) (index : Nat) :
    (PanelM.showPage pages index p).Forest ∧
      (∀ m, (PanelM.showPage pages index p).children m = p.children m) ∧
      ∀ m, (PanelM.showPage pages index p).tag? m = p.tag? m := by
  rw [showPage_eq]
  exact h.showSteps index pages.zipIdx

theorem attr?_showPage_of_ne {pages : List TabPage} {index : Nat} {name : String}
    (caption : name = "class" → ∀ tab ∈ pages, n ≠ tab.caption)
    (page : name = "hidden" → ∀ tab ∈ pages, n ≠ tab.page) :
    (PanelM.showPage pages index p).attr? n name = p.attr? n name := by
  have listed : ∀ step ∈ pages.zipIdx, step.1 ∈ pages := by
    intro step mem
    exact List.fst_mem_of_mem_zipIdx mem
  rw [showPage_eq]
  exact attr?_showSteps_of_ne (fun same step mem => caption same _ (listed step mem))
    fun same step mem => page same _ (listed step mem)

/-- **Selecting a page** shows it and no other, and marks its caption and no other. -/
theorem attr?_showPage {pages : List TabPage} (index : Nat)
    (captions : (pages.map TabPage.caption).Nodup) (nodes : (pages.map TabPage.page).Nodup)
    (elements : ∀ tab ∈ pages, p.tag? tab.caption ≠ none ∧ p.tag? tab.page ≠ none)
    {i : Nat} {tab : TabPage} (there : pages[i]? = some tab) :
    (PanelM.showPage pages index p).attr? tab.caption "class" =
        some (if i = index then "tab tab-selected" else "tab") ∧
      (PanelM.showPage pages index p).attr? tab.page "hidden" =
        if i = index then none else some "hidden" := by
  have firsts : pages.zipIdx.map Prod.fst = pages := List.zipIdx_map_fst 0 pages
  rw [showPage_eq]
  refine @attr?_showSteps p index pages.zipIdx ?_ ?_ (fun step mem => ?_) (tab, i) ?_
  · rwa [← firsts, List.map_map] at captions
  · rwa [← firsts, List.map_map] at nodes
  · exact elements _ (List.fst_mem_of_mem_zipIdx mem)
  · exact List.mk_mem_zipIdx_iff_getElem?.2 there

end Page

end Formwork
