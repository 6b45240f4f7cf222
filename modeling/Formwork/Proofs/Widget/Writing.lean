import Formwork.Proofs.Page.Confined
import Formwork.Proofs.Widget.Cells

/-!
# Writing into a widget

Storing a value in a widget and resetting it change nodes of its own and make new ones, and leave the
rest of the page alone (`Widget.Rewrites`).  So two widgets with nodes of their own do not disturb each
other, as long as neither lies below a node whose content is the value of the other.

What was stored is read back (`Widget.goes_setValue`), except for content that is given as markup: that
is read back as it is written out.  A read-only control has its value twice, in a hidden input and as the
content of an element that shows it; the two never part (`Widget.Mirrored`).
-/

namespace Formwork

set_option autoImplicit false

/-- The kinds of fields that give back the very value that they accepted. -/
def FieldKind.keepsValues : FieldKind → Bool
  | .textInput | .password | .hidden | .textArea | .checkbox | .radio | .readOnly => true
  | _ => false

theorem FieldKind.hasValue_of_keepsValues {kind : FieldKind} (keeps : kind.keepsValues = true) :
    kind.hasValue = true := by
  cases kind <;> first | rfl | cases keeps

namespace Page

variable {p : Page} {n m : NodeId}

theorem nodesOrText_empty : nodesOrText "" = [] := by decide +kernel

theorem Forest.innerMarkup_of_no_children (h : p.Forest) (element : p.tag? n ≠ none)
    (none : p.children n = []) : p.innerMarkup n = "" := by
  have shown := h.renders_innerMarkup element
  rw [none] at shown
  exact Renders.nil.unique shown

/-- Only texts are below a node that has no other children. -/
theorem Forest.eq_of_within_texts (h : p.Forest) (texts : ∀ c ∈ p.children n, p.tag? c = none)
    (element : p.tag? m ≠ none) (below : p.Within n m) : m = n := by
  have leaf : ∀ {m}, p.Within n m → m = n ∨ p.tag? m = none := by
    intro m below
    induction below with
    | self => exact .inl rfl
    | child _ mem ih =>
      rcases ih with rfl | text
      · exact .inr (texts _ mem)
      · rw [h.bare _ text] at mem
        cases mem
  exact (leaf below).resolve_right element

/-- A caption that is made and filled is new. -/
theorem Forest.caption_filled (h : p.Forest) (html : String) :
    p.Rests ((p.createElement "span").2.setMarkupOrText ⟨p.size⟩ html) ∧
      p.size < ((p.createElement "span").2.setMarkupOrText ⟨p.size⟩ html).size := by
  have made : Confined p nowhere p (p.createElement "span").2 := .create (.refl h) _
  have caption := tag?_createElement p "span"
  have filled := Confined.setMarkupOrText made.rests (Nat.le_refl p.size) caption html
  exact ⟨filled.rests, lt_size_of_tag? (filled.element caption)⟩

end Page

namespace Widget

variable {w : Widget} {p p' : Page} {n m : NodeId}

/-- The element in which a read-only control shows its value has the content that the value becomes as
markup. -/
def Mirrored (p : Page) : Widget → Prop
  | .readOnly _ hidden view => p.innerMarkup view =
      (p.setMarkupOrText view ((p.attr? hidden "value").getD "")).innerMarkup view
  | _ => True

/-- A change of the nodes of a widget, after which it shows the value that it has. -/
structure Rewrites (w : Widget) (p p' : Page) : Prop where
  alters : Page.Alters (· ∈ w.own) p p'
  mirrored : w.Mirrored p'

theorem mirrored_iff {root hidden view : NodeId} (forest : p.Forest) (element : p.tag? view ≠ none) :
    (readOnly root hidden view).Mirrored p ↔ p.innerMarkup view = Html.writtenOf Markup.Escape.text
      Page.wrapMarkup (Html.ofNodes (Page.nodesOrText ((p.attr? hidden "value").getD ""))) := by
  rw [Mirrored, forest.innerMarkup_setMarkupOrText element]

/-- A widget whose nodes are left alone shows its value still. -/
theorem Mirrored.congr (h : w.Mirrored p) (forest : p.Forest) (forest' : p'.Forest)
    (own : ∀ n ∈ w.own, p.tag? n ≠ none) (content : ∀ n ∈ w.own, p'.content? n = p.content? n)
    (panes : ∀ n ∈ w.panes, p.Shares p' n) : w.Mirrored p' := by
  cases w with
  | readOnly root hidden view =>
    have isView : view ∈ (readOnly root hidden view).own := by simp [Widget.own]
    have element := own view isView
    have element' : p'.tag? view ≠ none := by rwa [Page.tag?_congr (content view isView)]
    rw [mirrored_iff forest' element', forest.innerMarkup_congr forest' (Page.lt_size_of_tag? element)
      (panes view List.mem_cons_self), Page.attr?_congr (content hidden (by simp [Widget.own]))]
    exact (mirrored_iff forest element).1 h
  | _ => trivial

/-! ## New widgets -/

theorem Vacant.mirrored (h : w.Vacant p) (forest : p.Forest) (own : ∀ n ∈ w.own, p.tag? n ≠ none) :
    w.Mirrored p := by
  cases w with
  | readOnly root hidden view =>
    obtain ⟨empty, unset⟩ := h
    have element := own view (by simp [Widget.own])
    rw [mirrored_iff forest element, forest.innerMarkup_of_no_children element empty, unset,
      Option.getD_none, Page.nodesOrText_empty]
    rfl
  | _ => trivial

/-- No element lies below a node for the value of a widget that was given none. -/
theorem Vacant.sealed (h : w.Vacant p) (forest : p.Forest) (mem : n ∈ w.panes)
    (element : p.tag? m ≠ none) (below : p.Within n m) : m = n := by
  refine forest.eq_of_within_texts (fun c child => ?_) element below
  cases w with
  | markup root =>
    rw [List.mem_singleton.1 mem, show p.children root = [] from h] at child
    cases child
  | textArea root =>
    rw [List.mem_singleton.1 mem] at child
    exact h c child
  | readOnly root hidden view =>
    rw [List.mem_singleton.1 mem, h.1] at child
    cases child
  | _ => cases mem

/-! ## Storing a value -/

/-- Setting both nodes of a read-only control. -/
theorem mirrors {root hidden view : NodeId} (forest : p.Forest) (isHidden : p.tag? hidden ≠ none)
    (isView : p.tag? view ≠ none) (value : String) :
    (((p.setAttr hidden "value" value).setMarkupOrText view value).attr? hidden "value" = some value) ∧
      (readOnly root hidden view).Mirrored
        ((p.setAttr hidden "value" value).setMarkupOrText view value) := by
  have forest₁ : (p.setAttr hidden "value" value).Forest := forest.updateAttrs hidden _
  have isView₁ : (p.setAttr hidden "value" value).tag? view ≠ none := by
    rwa [Page.setAttr, Page.tag?_updateAttrs]
  have known : hidden.index < (p.setAttr hidden "value" value).size := by
    rw [Page.setAttr, Page.size_updateAttrs]
    exact Page.lt_size_of_tag? isHidden
  have same := fun {n : NodeId} => @Page.Forest.content?_setMarkupOrText _ view forest₁ isView₁ value n
  have stored : ((p.setAttr hidden "value" value).setMarkupOrText view value).attr? hidden "value" =
      some value := by
    rw [Page.attr?_congr (same known)]
    exact Page.attr?_setAttr_self isHidden "value" value
  refine ⟨stored, ?_⟩
  rw [mirrored_iff (forest₁.setMarkupOrText view value)
    (by rwa [Page.tag?_congr (same (Page.lt_size_of_tag? isView₁))]),
    forest₁.innerMarkup_setMarkupOrText isView₁, stored]
  rfl

/-- The header of a disclosure is replaced by a new caption. -/
theorem alters_caption {root header content : NodeId} {headerField : Option FieldId} (forest : p.Forest)
    (value label : Option String) :
    Page.Alters (· ∈ (disclosure root header content headerField).own) p
      (exec ((disclosure root header content headerField).setValue value label) p).2 := by
  have isHeader : header ∈ (disclosure root header content headerField).own := by simp [own]
  obtain ⟨rests, known⟩ := forest.caption_filled ((value <|> label).getD "")
  have run : (exec ((disclosure root header content headerField).setValue value label) p).2 =
      (exec (do PageM.append header ⟨p.size⟩; return true) (((p.createElement "span").2.setMarkupOrText
        ⟨p.size⟩ ((value <|> label).getD "")).clear header)).2 := rfl
  rw [run]
  generalize (p.createElement "span").2.setMarkupOrText ⟨p.size⟩ ((value <|> label).getD "") = filled
    at rests known ⊢
  have grown : Page.Alters (· ∈ (disclosure root header content headerField).own) p filled :=
    .of_grows forest rests.forest rests.grows
  have cleared := grown.clear isHeader
  rw [exec_bind, PageM.exec_append]
  cases hung : (filled.clear header).append header ⟨p.size⟩ with
  | ok p' =>
    refine cleared.append forest isHeader (Nat.le_refl _) ?_ hung
    rwa [(rests.forest.clear header).2.1]
  | error e => exact cleared

/-- **Storing a value** changes the widget and nothing else, and a value that it accepted is its value
then. -/
theorem goes_setValue (forest : p.Forest) (own : ∀ n ∈ w.own, p.tag? n ≠ none)
    (value label : Option String) :
    Goes w.Rewrites p (w.setValue value label) fun accepted p' => accepted = true →
      ∀ v kind, value = some v → kind ∈ w.kinds → kind.keepsValues = true → w.value? p' = some v := by
  have start : Page.Alters (· ∈ w.own) p p := .refl forest
  cases w with
  | markup root =>
    have mem : root ∈ (markup root).own := List.mem_cons_self
    refine .of_exec rfl ⟨start.setMarkupOrText mem (own root mem) _, trivial⟩ ?_
    intro _ _ _ v kind _ is keeps
    simp only [kinds, List.mem_cons, List.not_mem_nil, or_false] at is
    rcases is with rfl | rfl <;> cases keeps
  | input root =>
    have mem : root ∈ (input root).own := List.mem_cons_self
    refine .of_exec rfl ⟨start.updateAttrs mem _, trivial⟩ ?_
    rintro _ _ _ v kind rfl _ _
    rw [value?, Page.attr?_setAttr_self (own root mem)]
    rfl
  | textArea root =>
    have mem : root ∈ (textArea root).own := List.mem_cons_self
    refine .of_exec rfl ⟨start.setText mem (own root mem) _, trivial⟩ ?_
    rintro _ _ _ v kind rfl _ _
    exact congrArg some (forest.textContent_setText (own root mem) v)
  | check root box standsFor initially =>
    have mem : box ∈ (check root box standsFor initially).own := by simp [Widget.own]
    unfold setValue
    dsimp only
    split
    · case isTrue same =>
      refine .of_exec rfl ⟨start.setFlag mem _ _, trivial⟩ ?_
      rintro _ _ _ v kind rfl _ _
      rw [value?, Page.attr?_setFlag_self (own box mem), same]
      rfl
    · exact .pure ⟨start, trivial⟩ fun accepted => by cases accepted
  | readOnly root hidden view =>
    have isHidden : hidden ∈ (readOnly root hidden view).own := by simp [Widget.own]
    have isView : view ∈ (readOnly root hidden view).own := by simp [Widget.own]
    obtain ⟨stored, mirrored⟩ := @mirrors p root hidden view forest (own hidden isHidden)
      (own view isView) (value.getD "")
    have set := start.updateAttrs isHidden fun attributes => attributes.insert "value" (value.getD "")
    have element : (p.setAttr hidden "value" (value.getD "")).tag? view ≠ none := by
      rw [Page.setAttr, Page.tag?_updateAttrs]
      exact own view isView
    refine .of_exec rfl ⟨set.setMarkupOrText isView element _, mirrored⟩ ?_
    rintro _ _ _ v kind rfl _ _
    exact congrArg (fun a : Option String => some (a.getD "")) stored
  | disclosure root header content headerField =>
    refine ⟨⟨alters_caption forest value label, trivial⟩, ?_⟩
    intro _ _ _ v kind _ is keeps
    rw [List.mem_singleton.1 is] at keeps
    cases keeps
  | _ => exact .pure ⟨start, trivial⟩ fun accepted => by cases accepted

/-- **Resetting a widget** changes it and nothing else. -/
theorem rewrites_resetValue (forest : p.Forest) (own : ∀ n ∈ w.own, p.tag? n ≠ none)
    (default : Option String) : w.Rewrites p (w.resetValue default p) := by
  have start : Page.Alters (· ∈ w.own) p p := .refl forest
  cases w with
  | markup root => exact ⟨start.clear List.mem_cons_self, trivial⟩
  | input root => exact ⟨start.updateAttrs List.mem_cons_self _, trivial⟩
  | textArea root =>
    exact ⟨start.setText List.mem_cons_self (own root List.mem_cons_self) _, trivial⟩
  | check root box standsFor initially => exact ⟨start.setFlag (by simp [Widget.own]) _ _, trivial⟩
  | readOnly root hidden view =>
    have isHidden := own hidden (by simp [Widget.own])
    have isView := own view (by simp [Widget.own])
    have set : Page.Alters _ p (p.setAttr hidden "value" "") :=
      start.updateAttrs (by simp [Widget.own] : hidden ∈ (readOnly root hidden view).own) _
    have cleared := set.clear (by simp [Widget.own] : view ∈ (readOnly root hidden view).own)
    refine ⟨cleared, ?_⟩
    have element : ((p.setAttr hidden "value" "").clear view).tag? view ≠ none := by
      rwa [cleared.tag view (Page.lt_size_of_tag? isView)]
    have stored : ((p.setAttr hidden "value" "").clear view).attr? hidden "value" = some "" := by
      rw [Page.attr?_congr (set.forest.content?_clear view hidden)]
      exact Page.attr?_setAttr_self isHidden "value" ""
    have empty : ((p.setAttr hidden "value" "").clear view).children view = [] := by
      rw [set.forest.children_clear, if_pos rfl]
    refine (mirrored_iff cleared.forest element).2 ?_
    rw [cleared.forest.innerMarkup_of_no_children element empty, stored, Option.getD_some,
      Page.nodesOrText_empty]
    rfl
  | _ => exact ⟨start, trivial⟩

end Widget

end Formwork
