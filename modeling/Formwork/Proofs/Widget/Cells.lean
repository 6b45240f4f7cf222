import Formwork.Proofs.Page.Subtrees
import Formwork.Proofs.Panel.Grounds

/-!
# The nodes that hold values

The value of a field is kept in nodes of its widget (`Widget.cells`): in an attribute, in the text or
the markup below a node, or in both of two nodes that mirror each other.  Which of these it is follows
from the kind of the field (`Widget.kinds`).

A widget that was just built has new nodes only, no value was given to it yet, and its value is the one
that the attributes of the field say (`Scene.exec_realize_born`).
-/

namespace Formwork

set_option autoImplicit false

/-! ## Nodes and kinds -/

namespace Widget

/-- The nodes of its own that a widget remembers. -/
def own : Widget → List NodeId
  | .check root box _ _ => [root, box]
  | .readOnly root hidden view => [root, hidden, view]
  | .container root content => [root, content]
  | .disclosure root header content _ => [root, header, content]
  | .tabs root bar deck _ _ => [root, bar, deck]
  | w => [w.root]

/-- The captions and the pages that a tab container was given. -/
def shown : Widget → List NodeId
  | .tabs _ _ _ pages _ => pages.flatMap fun tab => [tab.caption, tab.page]
  | _ => []

/-- The nodes that hold the value of a widget. -/
def cells : Widget → List NodeId
  | .markup root | .input root | .textArea root => [root]
  | .check _ box _ _ => [box]
  | .readOnly _ hidden view => [hidden, view]
  | _ => []

/-- The nodes whose content is the value of a widget, or shows it. -/
def panes : Widget → List NodeId
  | .markup root | .textArea root => [root]
  | .readOnly _ _ view => [view]
  | _ => []

/-- The kinds of fields that have a widget. -/
def kinds : Widget → List FieldKind
  | .plain _ => [.fileUpload, .blockLabel, .label, .htmlLabel, .link]
  | .markup _ => [.html, .inlineHtml]
  | .input _ => [.textInput, .password, .hidden]
  | .textArea _ => [.textArea]
  | .button _ => [.button, .submit, .clear, .cancel]
  | .check _ _ _ _ => [.checkbox, .radio]
  | .readOnly _ _ _ => [.readOnly]
  | .container _ _ => [.panel, .inlinePanel, .view, .header]
  | .disclosure _ _ _ _ => [.disclosure]
  | .tabs _ _ _ _ _ => [.tabs]

/-- No value was given to a widget since it was built: the text of a text area may be there, but no
element is. -/
def Vacant (p : Page) : Widget → Prop
  | .markup root => p.children root = []
  | .textArea root => ∀ c ∈ p.children root, p.tag? c = none
  | .readOnly _ hidden view => p.children view = [] ∧ p.attr? hidden "value" = none
  | _ => True

theorem root_mem_own (w : Widget) : w.root ∈ w.own := by
  cases w <;> exact List.mem_cons_self

theorem panes_subset_cells {w : Widget} {n : NodeId} (mem : n ∈ w.panes) : n ∈ w.cells := by
  cases w <;> simp_all [panes, cells]

theorem cells_subset_own {w : Widget} {n : NodeId} (mem : n ∈ w.cells) : n ∈ w.own := by
  cases w <;> first | exact mem | exact List.mem_cons_of_mem _ mem | cases mem

theorem slot_mem_own {w : Widget} {n : NodeId} (slot : w.contentSlot? = some n) : n ∈ w.own := by
  cases w <;> cases slot <;> simp [own]

/-- A widget that others are put into holds no value. -/
theorem cells_of_slot {w : Widget} {n : NodeId} (slot : w.contentSlot? = some n) : w.cells = [] := by
  cases w <;> cases slot <;> rfl

/-- Parts change none of the nodes of its own that a widget remembers. -/
theorem own_of_frame {w w' : Widget} (same : w'.frame = w.frame) : w'.own = w.own := by
  have own : ∀ w : Widget, w.frame.own = w.own := by
    intro w
    cases w <;> rfl
  rw [← own, same, own]

end Widget

/-! ## Answers of builders -/

/-- Whatever a sequence of changes answers has a property. -/
def Yields {α : Type} (m : PageM α) (Q : α → Prop) : Prop :=
  ∀ (p p' : Page) (a : α), exec m p = (.ok a, p') → Q a

namespace Yields

variable {α β : Type} {Q : α → Prop}

theorem pure {a : α} (is : Q a) : Yields (Pure.pure a) Q := by
  intro p p' b run
  cases run
  exact is

theorem bind {m : PageM β} {f : β → PageM α} (rest : ∀ b, Yields (f b) Q) : Yields (m >>= f) Q := by
  intro p p' a run
  obtain ⟨b, p'', _, run⟩ := exec_bind_eq_ok.1 run
  exact rest b p'' p' a run

end Yields

namespace Widget

variable {f : Field} {label : Option String}

theorem kinds_textControl (type : String) {kind : FieldKind}
    (is : kind ∈ [.textInput, .password, .hidden]) :
    Yields (textControl type f) fun w => kind ∈ w.kinds := by
  refine .bind fun root => ?_
  cases f.defaultValue? with
  | none => exact .pure is
  | some value => exact .bind fun _ => .pure is

theorem kinds_checkControl (type : String) {kind : FieldKind} (is : kind ∈ [.checkbox, .radio]) :
    Yields (checkControl type f label) fun w => kind ∈ w.kinds :=
  .bind fun _ => .bind fun _ => .bind fun _ => .bind fun _ => .bind fun _ => .bind fun _ =>
    .bind fun _ => .pure is

theorem kinds_headerContainer : Yields (headerContainer f) fun w => FieldKind.header ∈ w.kinds := by
  refine .bind fun root => ?_
  have is : FieldKind.header ∈ [FieldKind.panel, .inlinePanel, .view, .header] := by simp
  cases f.attr? Vocabulary.switchKey with
  | none => exact .bind fun _ => .bind fun _ => .pure is
  | some style => exact .bind fun _ => .bind fun _ => .bind fun _ => .pure is

theorem kinds_linkElement : Yields (linkElement f label) fun w => FieldKind.link ∈ w.kinds := by
  refine .bind fun link => .bind fun _ => .bind fun _ => ?_
  have is : FieldKind.link ∈ [FieldKind.fileUpload, .blockLabel, .label, .htmlLabel, .link] := by simp
  cases f.attributes.flag Vocabulary.inlineKey true with
  | true => exact .pure is
  | false => exact .bind fun _ => .bind fun _ => .pure is

/-- The widget that is built for a field is one for its kind. -/
theorem kinds_build (f : Field) (label : Option String) :
    Yields (Widget.build f label) fun w => f.kind ∈ w.kinds := by
  unfold Widget.build
  cases f.kind
  case textInput | password | hidden => exact kinds_textControl _ (by simp)
  case checkbox | radio => exact kinds_checkControl _ (by simp)
  case readOnly =>
    exact .bind fun _ => .bind fun _ => .bind fun _ => .bind fun _ => .bind fun _ =>
      .pure List.mem_cons_self
  case header => exact kinds_headerContainer
  case disclosure =>
    exact .bind fun _ => .bind fun _ => .bind fun _ => .bind fun _ => .bind fun _ => .bind fun _ =>
      .bind fun _ => .bind fun _ => .bind fun _ => .pure List.mem_cons_self
  case tabs =>
    exact .bind fun _ => .bind fun _ => .bind fun _ => .bind fun _ => .bind fun _ => .bind fun _ =>
      .bind fun _ => .pure List.mem_cons_self
  case link => exact kinds_linkElement
  case textArea => exact .bind fun _ => .bind fun _ => .bind fun _ => .pure List.mem_cons_self
  case blockLabel | label | htmlLabel | button | submit | clear | cancel =>
    exact .bind fun _ => .bind fun _ => .pure (by simp [kinds])
  case html | inlineHtml | fileUpload | panel | view | inlinePanel =>
    exact .bind fun _ => .pure (by simp [kinds])

end Widget

/-! ## A new widget -/

/-- The value of the widget of a field with a resolved label, before any value was stored. -/
def Field.firstValue? (f : Field) (label : Option String) : Option String :=
  match f.kind with
  | .html | .inlineHtml | .readOnly => some ""
  | .textInput | .password | .hidden =>
    some (((f.attributes.forWidget.foldl (fun m e => m.insert e.1 e.2)
      (f.face label .none).attributes).get? "value").getD "")
  | .textArea => some (f.defaultValue?.getD "")
  | .checkbox | .radio =>
    if f.attributes.flag Vocabulary.checkedKey false then f.defaultValue? <|> label else none
  | _ => none

/-- A widget that was built for a field behind the first nodes of a page. -/
structure Widget.Born (w : Widget) (f : Field) (label : Option String) (before : Nat) (p : Page) :
    Prop where
  kind : f.kind ∈ w.kinds
  shown : w.shown = []
  own : ∀ n ∈ w.own, before ≤ n.index ∧ p.tag? n ≠ none
  vacant : w.Vacant p
  value : w.value? p = f.firstValue? label

/-- The first of some trees that looks like an element is one. -/
theorem Dom.eq_cons_of_htmlOf {tag : String} {attributes : OrderedMap String String}
    {children rest : List Html} : ∀ {ds : List Dom},
      htmlOf ds = .element tag attributes children :: rest →
        ∃ n kids ds', ds = .element n tag attributes kids :: ds' ∧ htmlOf kids = children ∧
          htmlOf ds' = rest
  | .element n _ _ kids :: ds, looks => by
    simp only [htmlOf, html, List.cons.injEq, Html.element.injEq] at looks
    obtain ⟨⟨rfl, rfl, inner⟩, later⟩ := looks
    exact ⟨n, kids, ds, rfl, inner, later⟩

/-- Trees that look like a text are texts. -/
theorem Dom.eq_text_of_htmlOf {content : String} : ∀ {ds : List Dom},
    htmlOf ds = Html.ofNodes (Page.textNodes content) → ∀ d ∈ ds, ∃ n own, d = .text n own := by
  intro ds looks d mem
  unfold Page.textNodes at looks
  split at looks
  · rw [eq_nil_of_htmlOf looks] at mem
    cases mem
  · cases ds with
    | nil => cases mem
    | cons e es =>
      rw [htmlOf, Html.ofNodes, Html.ofNodes, Html.ofNode, List.cons.injEq] at looks
      rw [eq_nil_of_htmlOf looks.2, List.mem_singleton] at mem
      subst mem
      cases d with
      | text n own => exact ⟨n, own, rfl⟩
      | element => cases looks.1
      | link => cases looks.1

namespace Widget

section Born

/-! The tree on the page is that of the widget as it is built, but for attributes of its topmost
element. -/

variable {w : Widget} {f : Field} {label : Option String} {before : Nat} {p : Page}
  {attributes own : OrderedMap String String} {tag : String} {kids : List Dom} {root : NodeId}

/-- A node of a new widget: the topmost one, or an element right below it. -/
theorem seat {n : NodeId} (fresh : ∀ m ∈ root :: Dom.nodesOf kids, before ≤ m.index)
    (there : p.Has none (.element root tag own kids))
    (place : n = root ∨ ∃ tag' attributes' inner, Dom.element n tag' attributes' inner ∈ kids) :
    before ≤ n.index ∧ p.tag? n ≠ none := by
  rcases place with rfl | ⟨tag', attributes', inner, mem⟩
  · exact ⟨fresh n List.mem_cons_self, there.tag?⟩
  · have has := Page.hasAll_iff.1 there.2 _ mem
    refine ⟨fresh n (List.mem_cons_of_mem _ (Dom.mem_nodesOf.2 ⟨_, mem, ?_⟩)), has.tag?⟩
    rw [Dom.nodes]
    exact List.mem_cons_self

/-- A new element for markup is empty. -/
theorem born_markup (kind : f.kind ∈ (markup root).kinds)
    (new : (markup root).IsNew f label (.element root tag attributes kids))
    (there : p.Has none (.element root tag own kids))
    (fresh : ∀ m ∈ root :: Dom.nodesOf kids, before ≤ m.index) :
    (markup root).Born f label before p := by
  obtain ⟨⟨_, shape, looks, _⟩, _, _⟩ := new
  cases shape
  have blank : (f.face label .none).children = [] ∧ f.firstValue? label = some "" := by
    simp only [kinds, List.mem_cons, List.not_mem_nil, or_false] at kind
    unfold Field.face Field.firstValue?
    rcases kind with kind | kind <;> rw [kind] <;> exact ⟨rfl, rfl⟩
  rw [blank.1] at looks
  obtain rfl := Dom.eq_nil_of_htmlOf looks
  refine ⟨kind, rfl, fun n mem => seat fresh there (.inl (List.mem_singleton.1 mem)),
    Page.children_eq there.1, ?_⟩
  rw [blank.2, value?, Page.innerMarkup, there.1]
  rfl

/-- A new input control has the value that its attributes say. -/
theorem born_input (kind : f.kind ∈ (input root).kinds)
    (there : p.Has none (.element root tag (f.attributes.forWidget.foldl
      (fun m e => m.insert e.1 e.2) (f.face label .none).attributes) kids))
    (fresh : ∀ m ∈ root :: Dom.nodesOf kids, before ≤ m.index) :
    (input root).Born f label before p := by
  refine ⟨kind, rfl, fun n mem => seat fresh there (.inl (List.mem_singleton.1 mem)), trivial, ?_⟩
  have first : f.firstValue? label = some (((f.attributes.forWidget.foldl
      (fun m e => m.insert e.1 e.2) (f.face label .none).attributes).get? "value").getD "") := by
    simp only [kinds, List.mem_cons, List.not_mem_nil, or_false] at kind
    unfold Field.firstValue?
    rcases kind with kind | kind | kind <;> rw [kind]
  rw [first, value?, Page.attr?, there.1]
  rfl

/-- A new text area holds the default as text. -/
theorem born_textArea (forest : p.Forest) (kind : f.kind ∈ (textArea root).kinds)
    (new : (textArea root).IsNew f label (.element root tag attributes kids))
    (there : p.Has none (.element root tag own kids))
    (fresh : ∀ m ∈ root :: Dom.nodesOf kids, before ≤ m.index) :
    (textArea root).Born f label before p := by
  obtain ⟨⟨_, shape, looks, _⟩, links, _⟩ := new
  cases shape
  have is : f.kind = .textArea := List.mem_singleton.1 kind
  have first : f.firstValue? label = some (f.defaultValue?.getD "") := by
    unfold Field.firstValue?
    rw [is]
  have shows : Dom.htmlOf kids = Html.ofNodes (Page.textNodes (f.defaultValue?.getD "")) := by
    rw [looks]
    unfold Field.face
    rw [is]
    rfl
  refine ⟨kind, rfl, fun n mem => seat fresh there (.inl (List.mem_singleton.1 mem)), ?_, ?_⟩
  · intro c mem
    rw [Page.children_eq there.1, List.mem_map] at mem
    obtain ⟨d, mem, rfl⟩ := mem
    obtain ⟨n, content, rfl⟩ := Dom.eq_text_of_htmlOf shows d mem
    have found : p.node? n = some ⟨.text content, some root, []⟩ := Page.hasAll_iff.1 there.2 _ mem
    unfold Page.tag?
    rw [Dom.root, found]
    rfl
  · obtain ⟨inner, shown, text⟩ := (forest.renders_textContent (n := root)
      (Page.lt_size_of_tag? there.tag?)).inner (Page.content?_eq there.1)
    rw [Page.children_eq there.1] at shown
    rw [first, value?, text, (there.2.renders links).unique shown, shows, Html.writtenOf_textNodes]

/-- The box of a new control to check lies right below the topmost element, and is marked if the attributes
of the field say so. -/
theorem box_check {box : NodeId} {value : Option String} {initially : Bool} {p₀ : Page}
    (kind : f.kind ∈ (check root box value initially).kinds)
    (build : ∃ p', exec (Widget.build f label) p' = (.ok (check root box value initially), p₀))
    (new : (check root box value initially).IsNew f label (.element root tag attributes kids))
    (there : p.Has none (.element root tag own kids)) (children : p₀.children root = kids.map Dom.root) :
    (∃ tag' attributes' inner, Dom.element box tag' attributes' inner ∈ kids) ∧
      value = (f.defaultValue? <|> label) ∧
      p.attr? box "checked" =
        if f.attributes.flag Vocabulary.checkedKey false then some "checked" else none := by
  obtain ⟨⟨_, shape, looks, _⟩, _, _⟩ := new
  cases shape
  obtain ⟨p', build⟩ := build
  have byKind : ∃ type, f.face label .none = .checkControl type f label ∧
      Widget.build f label = checkControl type f label := by
    simp only [kinds, List.mem_cons, List.not_mem_nil, or_false] at kind
    unfold Field.face Widget.build
    rcases kind with kind | kind <;> rw [kind]
    · exact ⟨"checkbox", rfl, rfl⟩
    · exact ⟨"radio", rfl, rfl⟩
  obtain ⟨type, face, builder⟩ := byKind
  obtain ⟨w, p₁, ds, again, holds, root', box', caption, shown, is, _, _, rfl⟩ :=
    @builds_checkControl_tree p' f label type p' (by
      rw [Layout.ofList_nil]
      exact Page.Holds.empty p')
  rw [builder, again] at build
  cases build
  cases is
  have tree := holds.has (Layout.ofList_loose (i := 0) rfl)
  rw [Page.children_eq tree.1] at children
  rw [face] at looks
  obtain ⟨n, inner, rest, rfl, _, later⟩ := Dom.eq_cons_of_htmlOf looks
  injection children with same _
  cases same
  have has := (Page.hasAll_iff.1 there.2 _ List.mem_cons_self).1
  refine ⟨⟨_, _, _, List.mem_cons_self⟩, rfl, ?_⟩
  rw [Page.attr?, has]
  cases f.attributes.flag Vocabulary.checkedKey false with
  | true => simp
  | false => simp [OrderedMap.get?_erase]

/-- A new control to check is checked if its attributes say so. -/
theorem born_check {box : NodeId} {value : Option String} {initially : Bool} {p₀ : Page}
    (kind : f.kind ∈ (check root box value initially).kinds)
    (build : ∃ p', exec (Widget.build f label) p' = (.ok (check root box value initially), p₀))
    (new : (check root box value initially).IsNew f label (.element root tag attributes kids))
    (there : p.Has none (.element root tag own kids)) (children : p₀.children root = kids.map Dom.root)
    (fresh : ∀ m ∈ root :: Dom.nodesOf kids, before ≤ m.index) :
    (check root box value initially).Born f label before p := by
  obtain ⟨place, rfl, marked⟩ := box_check kind build new there children
  have first : f.firstValue? label = if f.attributes.flag Vocabulary.checkedKey false then
      f.defaultValue? <|> label else none := by
    simp only [kinds, List.mem_cons, List.not_mem_nil, or_false] at kind
    unfold Field.firstValue?
    rcases kind with kind | kind <;> rw [kind]
  refine ⟨kind, rfl, fun m mem => seat fresh there ?_, trivial, ?_⟩
  · simp only [Widget.own, List.mem_cons, List.not_mem_nil, or_false] at mem
    refine mem.imp id ?_
    rintro rfl
    exact place
  · rw [first, value?, marked]
    cases f.attributes.flag Vocabulary.checkedKey false <;> rfl

/-- A new control that shows its value has none and shows none. -/
theorem born_readOnly {hidden view : NodeId} {p₀ : Page}
    (kind : f.kind ∈ (readOnly root hidden view).kinds)
    (build : ∃ p', exec (Widget.build f label) p' = (.ok (readOnly root hidden view), p₀))
    (new : (readOnly root hidden view).IsNew f label (.element root tag attributes kids))
    (there : p.Has none (.element root tag own kids)) (children : p₀.children root = kids.map Dom.root)
    (fresh : ∀ m ∈ root :: Dom.nodesOf kids, before ≤ m.index) :
    (readOnly root hidden view).Born f label before p := by
  obtain ⟨⟨_, shape, looks, _⟩, _, _⟩ := new
  cases shape
  obtain ⟨p', build⟩ := build
  have is : f.kind = .readOnly := List.mem_singleton.1 kind
  have builder : Widget.build f label = readOnlyControl f := by
    unfold Widget.build
    rw [is]
  obtain ⟨w, p₁, ds, again, holds, root', hidden', view', same, rfl⟩ :=
    builds_readOnlyControl_tree (p := p') (f := f) p' (by
      rw [Layout.ofList_nil]
      exact Page.Holds.empty p')
  rw [builder, again] at build
  cases build
  cases same
  have tree := holds.has (Layout.ofList_loose (i := 0) rfl)
  rw [Page.children_eq tree.1] at children
  unfold Field.face at looks
  rw [is] at looks
  obtain ⟨n, inner, rest, rfl, _, looks⟩ := Dom.eq_cons_of_htmlOf looks
  obtain ⟨m, inner', rest, rfl, blank, _⟩ := Dom.eq_cons_of_htmlOf looks
  obtain rfl := Dom.eq_nil_of_htmlOf blank
  injection children with first children
  injection children with second _
  cases first
  cases second
  obtain ⟨hasHidden, hasView, _⟩ := there.2
  have unset : p.attr? hidden "value" = none := by
    rw [Page.attr?, hasHidden.1]
    rfl
  refine ⟨kind, rfl, fun m mem => seat fresh there ?_, ⟨Page.children_eq hasView.1, unset⟩, ?_⟩
  · simp only [Widget.own, List.mem_cons, List.not_mem_nil, or_false] at mem
    rcases mem with rfl | rfl | rfl
    · exact .inl rfl
    · exact .inr ⟨_, _, _, List.mem_cons_self⟩
    · exact .inr ⟨_, _, _, List.mem_cons_of_mem _ List.mem_cons_self⟩
  · rw [value?, unset]
    unfold Field.firstValue?
    rw [is]
    rfl

/-- The nodes of its own that a widget without a value remembers. -/
theorem placed_of_fits (kind : f.kind ∈ w.kinds) (fits : w.Fits f.kind kids) (valueless : w.cells = []) :
    ∀ n ∈ w.own, n = w.root ∨
      ∃ tag' attributes' inner, Dom.element n tag' attributes' inner ∈ kids := by
  cases w with
  | markup | input | textArea | check | readOnly => cases valueless
  | plain | button => exact fun n mem => .inl (List.mem_singleton.1 mem)
  | container root content =>
    intro n mem
    simp only [Widget.own, kinds, List.mem_cons, List.not_mem_nil, or_false] at kind mem
    rcases mem with rfl | rfl
    · exact .inl rfl
    · rcases kind with kind | kind | kind | kind <;> rw [kind] at fits
      · exact .inl (Widget.container.inj fits).2
      · exact .inl (Widget.container.inj fits).2
      · exact .inl (Widget.container.inj fits).2
      · obtain ⟨content', slot, same, rfl⟩ := fits
        cases same
        exact .inr ⟨_, _, _, List.mem_cons_self⟩
  | disclosure root header content headerField =>
    intro n mem
    rw [List.mem_singleton.1 kind] at fits
    obtain ⟨header', content', caption, slot, headerField', same, rfl⟩ := fits
    cases same
    simp only [Widget.own, List.mem_cons, List.not_mem_nil, or_false] at mem
    rcases mem with rfl | rfl | rfl
    · exact .inl rfl
    · exact .inr ⟨_, _, _, List.mem_cons_self⟩
    · exact .inr ⟨_, _, _, List.mem_cons_of_mem _ List.mem_cons_self⟩
  | tabs root bar deck pages selected =>
    intro n mem
    rw [List.mem_singleton.1 kind] at fits
    obtain ⟨bar', deck', captions, shown, pages', selected', same, rfl⟩ := fits
    cases same
    simp only [Widget.own, List.mem_cons, List.not_mem_nil, or_false] at mem
    rcases mem with rfl | rfl | rfl
    · exact .inl rfl
    · exact .inr ⟨_, _, _, List.mem_cons_self⟩
    · exact .inr ⟨_, _, _, List.mem_cons_of_mem _ List.mem_cons_self⟩

/-- The widgets that hold a value are those of the fields that have one. -/
theorem hasValue_iff {kind : FieldKind} (is : kind ∈ w.kinds) : kind.hasValue = true ↔ w.cells ≠ [] := by
  cases w <;>
    simp only [kinds, List.mem_cons, List.not_mem_nil, or_false] at is <;>
    rcases is with rfl | rfl | rfl | rfl | rfl <;> simp [FieldKind.hasValue, FieldKind.isText, cells]

/-- A new widget without a value. -/
theorem born_other (kind : f.kind ∈ w.kinds) (valueless : w.cells = [])
    (new : w.IsNew f label (.element w.root tag attributes kids))
    (there : p.Has none (.element w.root tag own kids))
    (fresh : ∀ m ∈ w.root :: Dom.nodesOf kids, before ≤ m.index) : w.Born f label before p := by
  obtain ⟨⟨_, shape, _, fits⟩, _, empty⟩ := new
  cases shape
  have placed := placed_of_fits kind fits valueless
  have first : f.firstValue? label = none := by
    have none : ¬ f.kind.hasValue = true := by
      rw [hasValue_iff kind]
      exact fun some => some valueless
    unfold Field.firstValue?
    cases is : f.kind <;> rw [is] at none <;> first | rfl | exact absurd rfl none
  cases w with
  | markup | input | textArea | check | readOnly => cases valueless
  | plain | button | container | disclosure =>
    exact ⟨kind, rfl, fun n mem => seat fresh there (placed n mem), trivial, first.symm⟩
  | tabs =>
    obtain ⟨rfl, _⟩ := empty
    exact ⟨kind, rfl, fun n mem => seat fresh there (placed n mem), trivial, first.symm⟩

end Born

end Widget

/-- **Building the widget of a field**: the widget is new, it is one for the kind of the field, and it
holds the first value of the field. -/
theorem Scene.exec_realize_born {s : Scene} (forest : s.page.Forest) (field : Field) :
    ∃ w p, exec (PanelM.realize field) s = (.ok w, s.withWidget field.id w p) ∧ p.Forest ∧
      s.page.Grows p ∧ w.Born field (field.label? s.panel.messages) s.page.size p := by
  obtain ⟨w, p₀, p, kids, build, run, forest', grows, new, there, children, _, fresh⟩ :=
    exec_realize_tree forest field
  refine ⟨w, p, run, forest', grows, ?_⟩
  have kind := Widget.kinds_build field _ _ _ _ build
  cases w with
  | markup root => exact Widget.born_markup kind new there fresh
  | input root => exact Widget.born_input kind there fresh
  | textArea root => exact Widget.born_textArea forest' kind new there fresh
  | check root box value initially =>
    exact Widget.born_check kind ⟨_, build⟩ new there children fresh
  | readOnly root hidden view => exact Widget.born_readOnly kind ⟨_, build⟩ new there children fresh
  | plain | button | container | disclosure | tabs =>
    exact Widget.born_other kind rfl new there fresh

/-! ## Reading a value -/

namespace Widget

variable {p p' : Page} {w : Widget}

/-- The value of a widget is read from nodes of its own, and from what lies below its panes. -/
theorem value?_congr (forest : p.Forest) (forest' : p'.Forest) (known : ∀ n ∈ w.own, n.index < p.size)
    (content : ∀ n ∈ w.own, p'.content? n = p.content? n) (panes : ∀ n ∈ w.panes, p.Shares p' n) :
    w.value? p' = w.value? p := by
  cases w with
  | markup root =>
    exact congrArg some (forest.innerMarkup_congr forest' (known root List.mem_cons_self)
      (panes root List.mem_cons_self))
  | textArea root =>
    exact congrArg some (forest.textContent_congr forest' (known root List.mem_cons_self)
      (panes root List.mem_cons_self))
  | input root =>
    rw [value?, value?, Page.attr?_congr (content root List.mem_cons_self)]
  | check root box value initially =>
    rw [value?, value?, Page.attr?_congr (content box (by simp [own]))]
  | readOnly root hidden view =>
    rw [value?, value?, Page.attr?_congr (content hidden (by simp [own]))]
  | _ => rfl

/-- A widget on a page that has grown. -/
theorem value?_grows (forest : p.Forest) (forest' : p'.Forest) (grows : p.Grows p')
    (known : ∀ n ∈ w.own, n.index < p.size) : w.value? p' = w.value? p := by
  have shares : ∀ n ∈ w.own, p.Shares p' n := fun n mem => grows.shares forest (known n mem)
  exact value?_congr forest forest' known (fun n mem => (shares n mem n .self).1)
    fun n mem => shares n (cells_subset_own (panes_subset_cells mem))

end Widget

/-- The value of a field: that of its widget, or the one that a new widget has. -/
def Scene.reading (s : Scene) (field : Field) : Option String :=
  if field.kind.hasValue then
    field.widget.elim (field.firstValue? (field.label? s.panel.messages)) fun w => w.value? s.page
  else none

/-- **Reading the value** of a field. -/
theorem PanelM.exec_value? {s : Scene} (forest : s.page.Forest) (f : FieldId) :
    (exec (PanelM.value? f) s).1 =
      (s.panel.field? f).elim (.error (.unknownField f)) fun field => .ok (s.reading field) := by
  unfold PanelM.value?
  rcases exec_field_cases f s with ⟨field, found, run⟩ | ⟨missing, run⟩
  · rw [exec_bind_ok run, found, Option.elim_some]
    unfold Scene.reading
    cases field.kind.hasValue with
    | false => rfl
    | true =>
      cases widget : field.widget with
      | some w => exact congrArg Prod.fst (exec_bind_ok (exec_widgetOf_built found widget))
      | none =>
        obtain ⟨w, p, built, _, _, born⟩ := s.exec_realize_born forest field
        have asked : exec (widgetOf f) s = (.ok w, s.withWidget field.id w p) :=
          (exec_widgetOf_unbuilt found widget).trans built
        refine (congrArg Prod.fst (exec_bind_ok asked)).trans ?_
        exact congrArg Except.ok born.value
  · rw [exec_bind_error run, missing]
    rfl

end Formwork
