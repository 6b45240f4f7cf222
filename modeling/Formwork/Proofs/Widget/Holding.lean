import Formwork.Proofs.Panel.Captions

/-!
# What a widget holds

Storing a value changes an attribute of one node of a widget, the content of another, or both; what is
seen there is what the widget holds (`Widget.held`), and its value can be told from it
(`Widget.value?_eq_told`).

A widget may be offered a value, or that there is none.  Whether it accepts the offer, which text is put
into it then, and what it holds afterwards is known from what the widget is, wherever its nodes are
(`Widget.blank`, `Widget.exec_setValue_offered`).  For a new widget it is known from its field
(`Scene.exec_realize_blank`).
-/

namespace Formwork

set_option autoImplicit false

namespace Widget

/-! ## Offers -/

/-- What a widget is, wherever its nodes are and whatever parts it took. -/
def blank : Widget → Widget
  | .plain _ => .plain ⟨0⟩
  | .markup _ => .markup ⟨0⟩
  | .input _ => .input ⟨0⟩
  | .textArea _ => .textArea ⟨0⟩
  | .button _ => .button ⟨0⟩
  | .check _ _ standsFor _ => .check ⟨0⟩ ⟨0⟩ standsFor false
  | .readOnly _ _ _ => .readOnly ⟨0⟩ ⟨0⟩ ⟨0⟩
  | .container _ _ => .container ⟨0⟩ ⟨0⟩
  | .disclosure _ _ _ _ => .disclosure ⟨0⟩ ⟨0⟩ ⟨0⟩ none
  | .tabs _ _ _ _ _ => .tabs ⟨0⟩ ⟨0⟩ ⟨0⟩ [] none

/-- Whether a widget accepts a value, or that there is none. -/
def accepts : Widget → Option String → Bool
  | .markup _, _ | .input _, _ | .textArea _, _ | .readOnly _ _ _, _ | .disclosure _ _ _ _, _ => true
  | .check _ _ standsFor _, value => standsFor = value
  | _, _ => false

/-- The text that is put into a widget: a disclosure shows its label when there is no value. -/
def given (w : Widget) (value label : Option String) : String :=
  match w with
  | .disclosure _ _ _ _ => (value <|> label).getD ""
  | _ => value.getD ""

/-- What a widget holds: all that storing a value may change of what is seen of it. -/
def held (w : Widget) (p : Page) : List (Option String) :=
  match w with
  | .markup root => [some (p.innerMarkup root)]
  | .input root => [p.attr? root "value"]
  | .textArea root => [some (p.textContent root)]
  | .check _ box _ _ => [p.attr? box "checked"]
  | .readOnly _ hidden view => [p.attr? hidden "value", some (p.innerMarkup view)]
  | .disclosure _ header _ _ => [some (p.innerMarkup header)]
  | _ => []

/-- What a widget holds when a text was put into it. -/
def holding (w : Widget) (text : String) : List (Option String) :=
  match w with
  | .markup _ => [some (Page.shown text)]
  | .input _ | .textArea _ => [some text]
  | .check _ _ _ _ => [some "checked"]
  | .readOnly _ _ _ => [some text, some (Page.shown text)]
  | .disclosure _ _ _ _ => [some (Page.caption (Page.shown text))]
  | _ => []

/-- The value of a widget that holds something. -/
def told (w : Widget) (held : List (Option String)) : Option String :=
  match w with
  | .markup _ | .textArea _ => held.head?.join
  | .input _ | .readOnly _ _ _ => some (held.head?.join.getD "")
  | .check _ _ standsFor _ => if held.head?.join.isSome then standsFor else none
  | _ => none

variable {w : Widget} {p p' : Page} {text : String} {value label : Option String}

theorem value?_eq_told (w : Widget) (p : Page) : w.value? p = w.told (w.held p) := by
  cases w <;> rfl

/-- How a widget deals with offers does not depend on where its nodes are. -/
theorem offers_blank (w : Widget) : w.blank.accepts = w.accepts ∧ w.blank.given = w.given ∧
    w.blank.holding = w.holding ∧ w.blank.told = w.told := by
  cases w <;> exact ⟨rfl, rfl, rfl, rfl⟩

/-- A widget whose nodes are left alone, with what lies below those that are filled, holds what it held. -/
theorem held_congr (forest : p.Forest) (forest' : p'.Forest) (known : ∀ n ∈ w.own, n.index < p.size)
    (content : ∀ n ∈ w.own, p'.content? n = p.content? n) (filled : ∀ n ∈ w.filled, p.Shares p' n) :
    w.held p' = w.held p := by
  cases w with
  | markup root =>
    rw [held, held, forest.innerMarkup_congr forest' (known root List.mem_cons_self)
      (filled root List.mem_cons_self)]
  | textArea root =>
    rw [held, held, forest.textContent_congr forest' (known root List.mem_cons_self)
      (filled root List.mem_cons_self)]
  | input root => rw [held, held, Page.attr?_congr (content root List.mem_cons_self)]
  | check root box value initially => rw [held, held, Page.attr?_congr (content box (by simp [own]))]
  | readOnly root hidden view =>
    rw [held, held, Page.attr?_congr (content hidden (by simp [own])),
      forest.innerMarkup_congr forest' (known view (by simp [own])) (filled view List.mem_cons_self)]
  | disclosure root header content headerField =>
    rw [held, held, forest.innerMarkup_congr forest' (known header (by simp [own]))
      (filled header List.mem_cons_self)]
  | _ => rfl

/-- But for the header of a disclosure, the nodes that are filled are those whose content is the value. -/
theorem filled_eq_panes (other : .disclosure ∉ w.kinds) : w.filled = w.panes := by
  cases w with
  | disclosure => exact absurd List.mem_cons_self other
  | _ => rfl

theorem not_mem_kinds_of_refused (refused : w.accepts value = false) : .disclosure ∉ w.kinds := by
  cases w with
  | disclosure => cases refused
  | _ => simp [kinds]

/-! ## Accepted offers -/

/-- A text was put into a widget. -/
structure Holds (w : Widget) (text : String) (p p' : Page) : Prop where
  stored : w.Stored text p p'
  held : w.held p' = w.holding text

theorem holds_check {root box : NodeId} {standsFor : Option String} {initially : Bool}
    (forest : p.Forest) (element : p.tag? box ≠ none) (text : String) :
    (check root box standsFor initially).Holds text p (p.setFlag box "checked" true) := by
  refine ⟨stored_setAttr rfl (by simp [own]) rfl forest, ?_⟩
  rw [held, Page.attr?_setFlag_self element]
  rfl

/-- A text that is taken is held. -/
theorem holds_of_takes (forest : p.Forest) (own : ∀ n ∈ w.own, p.tag? n ≠ none)
    (taken : w.takes text = true) : w.Holds text p (w.stored p text) := by
  have stored := stored_of_takes forest own taken
  cases w with
  | markup root =>
    exact ⟨stored, congrArg (fun markup => [some markup])
      (forest.innerMarkup_setMarkupOrText (own root List.mem_cons_self) text)⟩
  | input root =>
    exact ⟨stored, congrArg (fun value => [value])
      (Page.attr?_setAttr_self (own root List.mem_cons_self) "value" text)⟩
  | textArea root =>
    exact ⟨stored, congrArg (fun content => [some content])
      (forest.textContent_setText (own root List.mem_cons_self) text)⟩
  | check root box standsFor initially =>
    have marks : (check root box standsFor initially).Holds text p (p.setFlag box "checked" true) :=
      holds_check forest (own box (by simp [Widget.own])) text
    have set : (check root box standsFor initially).stored p text = p.setFlag box "checked" true :=
      if_pos (of_decide_eq_true taken)
    rwa [set]
  | readOnly root hidden view =>
    have isHidden := own hidden (by simp [Widget.own])
    have isView := own view (by simp [Widget.own])
    have isView' : (p.setAttr hidden "value" text).tag? view ≠ none := by
      rwa [Page.setAttr, Page.tag?_updateAttrs]
    have shows := Page.Forest.innerMarkup_setMarkupOrText
      (forest.updateAttrs hidden fun attributes => attributes.insert "value" text) isView' text
    obtain ⟨value, _⟩ := @mirrors p root hidden view forest isHidden isView text
    refine ⟨stored, ?_⟩
    rw [held, Widget.stored, value]
    exact congrArg (fun markup => [some text, some markup]) shows
  | disclosure root header content headerField =>
    exact ⟨stored, congrArg (fun markup => [some markup])
      (innerMarkup_stored_disclosure forest own text)⟩
  | _ => cases taken

/-- What an offer comes to: the widget accepts it, and holds the text that it is given, or nothing is
changed. -/
structure Offered (w : Widget) (value label : Option String) (p p' : Page) : Prop where
  rewrites : w.Rewrites p p'
  accepted : w.accepts value = true → w.Holds (w.given value label) p p'
  refused : w.accepts value = false → p' = p

/-- **Offering a value** to a widget. -/
theorem exec_setValue_offered (forest : p.Forest) (own : ∀ n ∈ w.own, p.tag? n ≠ none)
    (value label : Option String) : ∃ p', exec (w.setValue value label) p = (.ok (w.accepts value), p') ∧
      w.Offered value label p p' := by
  have rewrites := (goes_setValue forest own value label).1
  -- but for a control to check, an offer is the text that is given
  have texts : w.setValue value label = w.setValue (some (w.given value label)) none →
      w.takes (w.given value label) = w.accepts value →
      ∃ p', exec (w.setValue value label) p = (.ok (w.accepts value), p') ∧
        w.Offered value label p p' := by
    intro text takes
    have run := exec_setValue forest own (w.given value label) none
    rw [← text, takes] at run
    rw [run] at rewrites
    exact ⟨_, run, rewrites, fun accepted => holds_of_takes forest own (takes.trans accepted),
      fun refused => stored_of_refused (takes.trans refused)⟩
  cases w with
  | check root box standsFor initially =>
    unfold setValue at rewrites ⊢
    dsimp only at rewrites ⊢
    by_cases same : standsFor = value
    · rw [if_pos same] at rewrites ⊢
      have accepted : (check root box standsFor initially).accepts value = true := decide_eq_true same
      rw [accepted]
      refine ⟨p.setFlag box "checked" true, rfl, rewrites,
        fun _ => holds_check forest (own box (by simp [Widget.own])) _, fun refused => ?_⟩
      rw [accepted] at refused
      cases refused
    · rw [if_neg same] at rewrites ⊢
      have refused : (check root box standsFor initially).accepts value = false := decide_eq_false same
      rw [refused]
      refine ⟨p, rfl, rewrites, fun accepted => ?_, fun _ => rfl⟩
      rw [refused] at accepted
      cases accepted
  | _ => exact texts rfl rfl

end Widget

/-! ## New widgets -/

/-- The widget that is built for a field, but for its nodes. -/
def Field.blank (f : Field) (label : Option String) : Widget :=
  match f.kind with
  | .html | .inlineHtml => .markup ⟨0⟩
  | .textInput | .password | .hidden => .input ⟨0⟩
  | .textArea => .textArea ⟨0⟩
  | .checkbox | .radio => .check ⟨0⟩ ⟨0⟩ (f.defaultValue? <|> label) false
  | .readOnly => .readOnly ⟨0⟩ ⟨0⟩ ⟨0⟩
  | .button | .submit | .clear | .cancel => .button ⟨0⟩
  | .panel | .inlinePanel | .view | .header => .container ⟨0⟩ ⟨0⟩
  | .disclosure => .disclosure ⟨0⟩ ⟨0⟩ ⟨0⟩ none
  | .tabs => .tabs ⟨0⟩ ⟨0⟩ ⟨0⟩ [] none
  | .fileUpload | .blockLabel | .label | .htmlLabel | .link => .plain ⟨0⟩

/-- What the new widget of a field holds that need not accept what it is offered. -/
def Field.marks (f : Field) : List (Option String) :=
  match f.kind with
  | .checkbox | .radio =>
    [if f.attributes.flag Vocabulary.checkedKey false then some "checked" else none]
  | _ => []

/-- **The widget that is built for a field** is alike wherever it is built, and so is what it holds unless
it accepts everything. -/
theorem Scene.exec_realize_blank {s : Scene} (forest : s.page.Forest) (field : Field) :
    ∃ w p, exec (PanelM.realize field) s = (.ok w, s.withWidget field.id w p) ∧
      w.blank = field.blank (field.label? s.panel.messages) ∧
      ∀ value, w.accepts value = false → w.held p = field.marks := by
  obtain ⟨w, p₀, p, kids, build, run, _, _, new, there, children, _⟩ := exec_realize_tree forest field
  refine ⟨w, p, run, ?_⟩
  have kind := Widget.kinds_build field _ _ _ _ build
  unfold Field.blank Field.marks
  cases w with
  | check root box standsFor initially =>
    obtain ⟨_, rfl, marked⟩ := Widget.box_check kind ⟨_, build⟩ new there children
    rw [Widget.held, marked]
    simp only [Widget.kinds, List.mem_cons, List.not_mem_nil, or_false] at kind
    rcases kind with kind | kind <;> rw [kind] <;> exact ⟨rfl, fun _ _ => rfl⟩
  | _ =>
    simp only [Widget.kinds, List.mem_cons, List.not_mem_nil, or_false] at kind
    generalize field.kind = k at kind ⊢
    rcases kind with rfl | rfl | rfl | rfl | rfl <;>
      exact ⟨rfl, fun _ refused => by first | rfl | cases refused⟩

end Formwork
