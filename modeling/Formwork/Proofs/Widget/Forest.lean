import Formwork.Field.Widget
import Formwork.Proofs.Page.Effects
import Formwork.Proofs.Page.Steps

/-!
# Building a widget keeps the forest

Building makes nodes and puts them into one another.  A node may be put somewhere when the page knows
it, so what has to be followed through a sequence of steps is which nodes are known
(`Page.Knows`, `Tends`).  A page that is a forest is one when the widget of a field was built on it, and
the widget is one for the kind of the field (`Widget.tends_build`).
-/

namespace Formwork

set_option autoImplicit false

/-- A forest on which some nodes are known. -/
structure Page.Knows (p : Page) (ns : List NodeId) : Prop where
  forest : p.Forest
  known : ∀ n ∈ ns, n.index < p.size

/-- What a sequence of steps answers on a forest that knows some nodes, and the nodes that are known
then. -/
def Tends {α : Type} (ns : List NodeId) (m : PageM α) (answers : α → List NodeId → Prop) : Prop :=
  ∀ (p p' : Page) (a : α), exec m p = (.ok a, p') → p.Knows ns → ∃ ms, answers a ms ∧ p'.Knows ms

namespace Tends

variable {α β : Type} {ns : List NodeId}

theorem pure {a : α} {answers : α → List NodeId → Prop} (done : answers a ns) :
    Tends ns (Pure.pure a) answers := by
  intro p p' b run knows
  cases run
  exact ⟨ns, done, knows⟩

theorem bind {m : PageM α} {f : α → PageM β} {answers : α → List NodeId → Prop}
    {answers' : β → List NodeId → Prop} (first : Tends ns m answers)
    (second : ∀ a ms, answers a ms → Tends ms (f a) answers') : Tends ns (m >>= f) answers' := by
  intro p p' b run knows
  obtain ⟨a, p'', run', rest⟩ := exec_bind_eq_ok.1 run
  obtain ⟨ms, done, knows'⟩ := first _ _ _ run' knows
  exact second a ms done _ _ _ rest knows'

/-- A new element is known. -/
theorem element (tag : String) : Tends ns (PageM.element tag) fun n ms => ms = n :: ns := by
  intro p p' n run knows
  cases run
  refine ⟨_, rfl, knows.forest.create _, fun m mem => ?_⟩
  have grown : ∀ {i}, i < p.size + 1 → i < (p.create (.element tag .empty)).2.size :=
    fun less => Nat.lt_of_lt_of_eq less (Page.size_create ..).symm
  rcases List.mem_cons.1 mem with rfl | mem
  · exact grown (Nat.lt_succ_self _)
  · exact grown (Nat.lt_succ_of_lt (knows.known m mem))

/-- A change of the page that keeps forests, and that forgets no node. -/
theorem modify {change : Page → Page} (forest : ∀ {p : Page}, p.Forest → (change p).Forest)
    (size : ∀ {p : Page}, p.Forest → p.size ≤ (change p).size) :
    Tends ns (modify change) fun _ ms => ms = ns := by
  intro p p' a run knows
  cases run
  exact ⟨_, rfl, forest knows.forest, fun m mem =>
    Nat.lt_of_lt_of_le (knows.known m mem) (size knows.forest)⟩

theorem setAttr (n : NodeId) (name value : String) :
    Tends ns (PageM.setAttr n name value) fun _ ms => ms = ns :=
  modify (fun h => h.updateAttrs n _) fun _ => Nat.le_of_eq (Page.size_updateAttrs ..).symm

theorem setFlag (n : NodeId) (name : String) (on : Bool) :
    Tends ns (PageM.setFlag n name on) fun _ ms => ms = ns := by
  cases on with
  | true => exact setAttr n name name
  | false => exact modify (fun h => h.updateAttrs n _) fun _ => Nat.le_of_eq (Page.size_updateAttrs ..).symm

theorem setText (n : NodeId) (content : String) :
    Tends ns (PageM.setText n content) fun _ ms => ms = ns :=
  modify (fun h => h.setText n content) fun h => h.size_le_setText n content

theorem setMarkupOrText (n : NodeId) (html : String) :
    Tends ns (PageM.setMarkupOrText n html) fun _ ms => ms = ns :=
  modify (fun h => h.setMarkupOrText n html) fun h => h.size_le_setMarkupOrText n html

/-- A known node is put into another. -/
theorem append (q : NodeId) {c : NodeId} (known : c ∈ ns) :
    Tends ns (PageM.append q c) fun _ ms => ms = ns := by
  intro p p' a run knows
  rw [PageM.exec_append] at run
  cases appended : p.append q c with
  | error e =>
    rw [appended] at run
    cases run
  | ok p'' =>
    rw [appended] at run
    cases run
    refine ⟨_, rfl, knows.forest.append (knows.known c known) appended, fun m mem => ?_⟩
    rw [Page.Forest.size_append appended]
    exact knows.known m mem

end Tends

/-! ## The widgets -/

namespace Widget

/-- A widget is one for fields of a kind: tab containers have the widgets with a bar and a deck, and
disclosures those with a slot for a header. -/
def Suits : Widget → FieldKind → Prop
  | .tabs _ _ _ _ _, kind => kind = .tabs
  | .disclosure _ _ _ _, kind => kind = .disclosure
  | _, kind => kind ≠ .tabs ∧ kind ≠ .disclosure

variable {f : Field} {label : Option String} {ns : List NodeId}

/-- What building the widget of a field of a kind answers. -/
abbrev Suited (kind : FieldKind) (w : Widget) (_ : List NodeId) : Prop := w.Suits kind

theorem tends_inputControl (type name : String) :
    Tends ns (inputControl type name) fun n ms => ms = n :: ns := by
  refine .bind (.element "input") ?_
  rintro n _ rfl
  refine .bind (.setAttr n "type" type) ?_
  rintro _ _ rfl
  refine .bind (.setAttr n "name" name) ?_
  rintro _ _ rfl
  exact .pure rfl

theorem tends_textControl {kind : FieldKind} (type : String) (other : kind ≠ .tabs ∧ kind ≠ .disclosure) :
    Tends ns (textControl type f) (Suited kind) := by
  refine .bind (tends_inputControl type f.name) ?_
  rintro root _ rfl
  cases f.defaultValue? with
  | none => exact .pure other
  | some value =>
    refine .bind (.setAttr root "value" value) ?_
    rintro _ _ rfl
    exact .pure other

theorem tends_checkControl {kind : FieldKind} (type : String)
    (other : kind ≠ .tabs ∧ kind ≠ .disclosure) :
    Tends ns (checkControl type f label) (Suited kind) := by
  refine .bind (.element "span") ?_
  rintro root _ rfl
  refine .bind (tends_inputControl type f.name) ?_
  rintro box _ rfl
  refine .bind (.element "label") ?_
  rintro caption _ rfl
  refine .bind (.setMarkupOrText caption _) ?_
  rintro _ _ rfl
  refine .bind (.append root (by simp)) ?_
  rintro _ _ rfl
  refine .bind (.append root (by simp)) ?_
  rintro _ _ rfl
  refine .bind (.setFlag box "checked" _) ?_
  rintro _ _ rfl
  exact .pure other

theorem tends_readOnlyControl {kind : FieldKind} (other : kind ≠ .tabs ∧ kind ≠ .disclosure) :
    Tends ns (readOnlyControl f) (Suited kind) := by
  refine .bind (.element "div") ?_
  rintro root _ rfl
  refine .bind (tends_inputControl "hidden" f.name) ?_
  rintro hidden _ rfl
  refine .bind (.element "div") ?_
  rintro view _ rfl
  refine .bind (.append root (by simp)) ?_
  rintro _ _ rfl
  refine .bind (.append root (by simp)) ?_
  rintro _ _ rfl
  exact .pure other

theorem tends_headerContainer {kind : FieldKind} (other : kind ≠ .tabs ∧ kind ≠ .disclosure) :
    Tends ns (headerContainer f) (Suited kind) := by
  refine .bind (.element "div") ?_
  rintro root _ rfl
  have rest : Tends (root :: ns) (do
      let content ← PageM.element "div"
      PageM.append root content
      return .container root content) (Suited kind) := by
    refine .bind (.element "div") ?_
    rintro content _ rfl
    refine .bind (.append root (by simp)) ?_
    rintro _ _ rfl
    exact .pure other
  cases f.attr? Vocabulary.switchKey with
  | none => exact rest
  | some style =>
    refine .bind (.setAttr root "class" style) ?_
    rintro _ _ rfl
    exact rest

theorem tends_disclosureSection : Tends ns (disclosureSection f label) (Suited .disclosure) := by
  refine .bind (.element "details") ?_
  rintro root _ rfl
  refine .bind (.element "summary") ?_
  rintro header _ rfl
  refine .bind (.element "div") ?_
  rintro content _ rfl
  refine .bind (.append root (by simp)) ?_
  rintro _ _ rfl
  refine .bind (.append root (by simp)) ?_
  rintro _ _ rfl
  refine .bind (.setFlag root "open" _) ?_
  rintro _ _ rfl
  refine .bind (.element "span") ?_
  rintro caption _ rfl
  refine .bind (.setText caption _) ?_
  rintro _ _ rfl
  refine .bind (.append header (by simp)) ?_
  rintro _ _ rfl
  exact .pure rfl

theorem tends_tabContainer : Tends ns tabContainer (Suited .tabs) := by
  refine .bind (.element "div") ?_
  rintro root _ rfl
  refine .bind (.element "div") ?_
  rintro bar _ rfl
  refine .bind (.element "div") ?_
  rintro deck _ rfl
  refine .bind (.setAttr bar "class" "tab-bar") ?_
  rintro _ _ rfl
  refine .bind (.setAttr deck "class" "tab-deck") ?_
  rintro _ _ rfl
  refine .bind (.append root (by simp)) ?_
  rintro _ _ rfl
  refine .bind (.append root (by simp)) ?_
  rintro _ _ rfl
  exact .pure rfl

/-- An element whose content is set by one step. -/
theorem tends_filled {kind : FieldKind} {tag : String} {fill : NodeId → PageM Unit}
    {wrap : NodeId → Widget} (fills : ∀ n, Tends (n :: ns) (fill n) fun _ ms => ms = n :: ns)
    (suits : ∀ n, (wrap n).Suits kind) :
    Tends ns (do let n ← PageM.element tag; fill n; return wrap n) (Suited kind) := by
  refine .bind (.element tag) ?_
  rintro n _ rfl
  refine .bind (fills n) ?_
  rintro _ _ rfl
  exact .pure (suits n)

theorem tends_linkElement {kind : FieldKind} (other : kind ≠ .tabs ∧ kind ≠ .disclosure) :
    Tends ns (linkElement f label) (Suited kind) := by
  refine .bind (.element "a") ?_
  rintro link _ rfl
  refine .bind (.setAttr link "href" _) ?_
  rintro _ _ rfl
  refine .bind (.setText link _) ?_
  rintro _ _ rfl
  cases f.attributes.flag Vocabulary.inlineKey true with
  | true => exact .pure other
  | false =>
    refine .bind (.element "div") ?_
    rintro block _ rfl
    refine .bind (.append block (by simp)) ?_
    rintro _ _ rfl
    exact .pure other

/-- **Building a widget** keeps the forest, and the widget is one for the kind of its field. -/
theorem tends_build (f : Field) (label : Option String) :
    Tends ns (Widget.build f label) (Suited f.kind) := by
  unfold Widget.build
  cases kind : f.kind
  case html | inlineHtml | panel | view | inlinePanel =>
    refine .bind (.element _) ?_
    rintro root _ rfl
    exact .pure ⟨nofun, nofun⟩
  case textInput => exact tends_textControl "text" ⟨nofun, nofun⟩
  case password => exact tends_textControl "password" ⟨nofun, nofun⟩
  case hidden => exact tends_textControl "hidden" ⟨nofun, nofun⟩
  case fileUpload =>
    refine .bind (tends_inputControl "file" f.name) ?_
    rintro root _ rfl
    exact .pure ⟨nofun, nofun⟩
  case textArea =>
    refine .bind (.element "textarea") ?_
    rintro root _ rfl
    refine .bind (.setAttr root "name" f.name) ?_
    rintro _ _ rfl
    refine .bind (.setText root _) ?_
    rintro _ _ rfl
    exact .pure ⟨nofun, nofun⟩
  case checkbox => exact tends_checkControl "checkbox" ⟨nofun, nofun⟩
  case radio => exact tends_checkControl "radio" ⟨nofun, nofun⟩
  case readOnly => exact tends_readOnlyControl ⟨nofun, nofun⟩
  case button | submit | clear | cancel | blockLabel | label =>
    exact tends_filled (fun n => .setText n _) fun _ => ⟨nofun, nofun⟩
  case htmlLabel => exact tends_filled (fun n => .setMarkupOrText n _) fun _ => ⟨nofun, nofun⟩
  case header => exact tends_headerContainer ⟨nofun, nofun⟩
  case disclosure => exact tends_disclosureSection
  case tabs => exact tends_tabContainer
  case link => exact tends_linkElement ⟨nofun, nofun⟩

end Widget

end Formwork
