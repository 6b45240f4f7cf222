import Formwork.Proofs.Widget.Writing

/-!
# A value that is stored

Whether a widget takes a value does not depend on the page (`Widget.takes`), and storing a value is
a function of the page (`Widget.stored`, `Widget.exec_setValue`).

What a value that was stored looks like depends on the value alone, and not on the values that were
stored before it (`Widget.Stored`): an attribute of one node is set, and the content of another is replaced.
The other nodes of the widget are what they were.
-/

namespace Formwork

set_option autoImplicit false

open Page (nodesOrText textNodes wrapMarkup Alters)
open Markup (Escape.text)

/-! ## Pages -/

/-- What a node is when one of its attributes is set. -/
def Content.withAttr (name value : String) : Content → Content
  | .element tag attributes => .element tag (attributes.insert name value)
  | .text content => .text content

theorem Content.withAttr_withAttr (name v u : String) : ∀ c : Content,
    (c.withAttr name v).withAttr name u = c.withAttr name u
  | .element _ attributes => by
    rw [withAttr, withAttr, withAttr, OrderedMap.insert_insert]
  | .text _ => rfl

namespace Page

variable {p p' : Page} {into : NodeId → Prop} {n m c : NodeId}

theorem content?_setAttr_self (p : Page) (n : NodeId) (name value : String) :
    (p.setAttr n name value).content? n = (p.content? n).map (Content.withAttr name value) := by
  unfold setAttr updateAttrs content?
  rw [node?_update_self, Option.map_map, Option.map_map]
  refine Option.map_congr fun node _ => ?_
  obtain ⟨content, place, below⟩ := node
  cases content <;> rfl

/-- The content of an element was replaced by new nodes, which are written out in some way. -/
structure Refilled (p : Page) (n : NodeId) (html : List Html) (p' : Page) : Prop where
  alters : Alters (· = n) p p'
  content : ∀ m : NodeId, m.index < p.size → p'.content? m = p.content? m
  renders : p'.Renders Escape.text wrapMarkup (p'.children n) (Html.writtenOf Escape.text wrapMarkup html)
  new : ∀ c ∈ p'.children n, p.size ≤ c.index

theorem Alters.mono {into' : NodeId → Prop} (h : Alters into p p') (wider : ∀ n, into n → into' n) :
    Alters into' p p' :=
  ⟨h.forest, h.size, h.tag, fun n known other => h.content n known fun is => other (wider n is),
    fun n known other => h.children n known fun is => other (wider n is), h.kept⟩

/-- Above a node that was there lie only nodes that were there. -/
theorem Alters.known_of_ascends (h : Alters into p p') {ns : List NodeId} (up : p'.Ascends n ns) :
    n.index < p.size → ∀ m ∈ ns, m.index < p.size := by
  induction up with
  | top => exact fun known m mem => List.mem_singleton.1 mem ▸ known
  | @step n q ns lies _ ih =>
    intro known m mem
    rcases List.mem_cons.1 mem with rfl | above
    · exact known
    · exact ih (lt_size_of_mem_children (h.kept q n known ((h.forest.agree q n).2 lies))) m above

/-- Below a node with new children lies nothing that was there. -/
theorem Alters.new_of_within (h : Alters into p p') (new : ∀ c ∈ p'.children n, p.size ≤ c.index)
    (below : p'.Within n m) : m = n ∨ p.size ≤ m.index := by
  induction below with
  | self => exact .inl rfl
  | @child k c _ mem ih =>
    rcases ih with rfl | later
    · exact .inr (new c mem)
    · refine .inr (Nat.le_of_not_lt fun known => ?_)
      exact Nat.not_lt.2 later (lt_size_of_mem_children (h.kept k c known mem))

namespace Forest

/-- New content is made of new nodes. -/
theorem new_of_mem_replaced (h : p.Forest) (element : p.tag? n ≠ none) (ms : List Markup.Node)
    (mem : c ∈ ((p.clear n).importNodes n ms).children n) : p.size ≤ c.index := by
  obtain ⟨cleared, size, tags⟩ := h.clear n
  have start : Alters (· = n) (p.clear n) (p.clear n) := .refl cleared
  have imported := start.importNodes rfl (by rwa [tags]) ms
  refine Nat.le_of_not_lt fun known => ?_
  have before := imported.kept n c (by rwa [size]) mem
  rw [h.children_clear, if_pos rfl] at before
  cases before

/-- New content is in place of the old one. -/
theorem refilled_setNodes (h : p.Forest) (element : p.tag? n ≠ none) (ms : List Markup.Node) :
    p.Refilled n (Html.ofNodes ms) (p.setNodes n ms) := by
  have start : Alters (· = n) p p := .refl h
  exact ⟨start.setNodes rfl element ms, fun _ known => h.content?_replaced element ms known,
    (h.renders_replaced element ms).2, fun _ => h.new_of_mem_replaced element ms⟩

theorem refilled_setMarkupOrText (h : p.Forest) (element : p.tag? n ≠ none) (html : String) :
    p.Refilled n (Html.ofNodes (nodesOrText html)) (p.setMarkupOrText n html) := by
  rw [setMarkupOrText_eq_importNodes element]
  exact h.refilled_setNodes element _

theorem refilled_setText (h : p.Forest) (element : p.tag? n ≠ none) (content : String) :
    p.Refilled n (Html.ofNodes (textNodes content)) (p.setText n content) := by
  rw [setText_eq_importNodes element]
  exact h.refilled_setNodes element _

end Forest

end Page

namespace Widget

/-- Whether a widget takes a value that it is given. -/
def takes : Widget → String → Bool
  | .markup _, _ | .input _, _ | .textArea _, _ | .readOnly _ _ _, _ | .disclosure _ _ _ _, _ => true
  | .check _ _ standsFor _, v => standsFor = some v
  | _, _ => false

/-- A new caption that shows a value. -/
def captioned (p : Page) (v : String) : Page := (p.createElement "span").2.setMarkupOrText ⟨p.size⟩ v

/-- The page with a value in a widget, if the widget takes it. -/
def stored (w : Widget) (p : Page) (v : String) : Page :=
  match w with
  | .markup root => p.setMarkupOrText root v
  | .input root => p.setAttr root "value" v
  | .textArea root => p.setText root v
  | .check _ box standsFor _ => if standsFor = some v then p.setFlag box "checked" true else p
  | .readOnly _ hidden view => (p.setAttr hidden "value" v).setMarkupOrText view v
  | .disclosure _ header _ _ => ((captioned p v).clear header).link header ⟨p.size⟩
  | _ => p

/-- The attribute in which a widget keeps a value, if it does: the node, the name, and what it is set to. -/
def mark? (w : Widget) (v : String) : Option (NodeId × String × String) :=
  match w with
  | .input root => some (root, "value", v)
  | .check _ box _ _ => some (box, "checked", "checked")
  | .readOnly _ hidden _ => some (hidden, "value", v)
  | _ => none

/-- What a value makes of what a node is. -/
def marked (w : Widget) (v : String) (n : NodeId) (c : Content) : Content :=
  (w.mark? v).elim c fun mark => if n = mark.1 then c.withAttr mark.2.1 mark.2.2 else c

/-- The nodes whose content is replaced when a value is stored. -/
def filled : Widget → List NodeId
  | .disclosure _ header _ _ => [header]
  | w => w.panes

/-- What the content is replaced with. -/
def filling (w : Widget) (v : String) : List Html :=
  match w with
  | .textArea _ => Html.ofNodes (textNodes v)
  | .disclosure _ _ _ _ => [.element "span" .empty (Html.ofNodes (nodesOrText v))]
  | _ => Html.ofNodes (nodesOrText v)

variable {w : Widget} {p p' : Page} {n root content : NodeId} {v u : String} {headerField : Option FieldId}

theorem filled_subset_own (mem : n ∈ w.filled) : n ∈ w.own := by
  cases w with
  | disclosure root header content headerField =>
    rw [List.mem_singleton.1 mem]
    simp [own]
  | _ => exact cells_subset_own (panes_subset_cells mem)

/-- A value takes the place of the one before. -/
theorem marked_marked (w : Widget) (v u : String) (n : NodeId) (c : Content) :
    w.marked u n (w.marked v n c) = w.marked u n c := by
  have twice : ∀ (m : NodeId) (name a b : String), (if n = m then
      (if n = m then c.withAttr name a else c).withAttr name b else if n = m then c.withAttr name a else c) =
      if n = m then c.withAttr name b else c := by
    intro m name a b
    by_cases same : n = m
    · rw [if_pos same, if_pos same, if_pos same, Content.withAttr_withAttr]
    · rw [if_neg same, if_neg same, if_neg same]
  cases w <;> first | rfl | exact twice _ _ _ _

/-! ## The caption of a disclosure -/

section Caption

variable {header : NodeId} (forest : p.Forest)
include forest

/-- A new caption is filled, and the header is emptied. -/
theorem alters_captioned (v : String) : Alters (fun n => n = ⟨p.size⟩ ∨ n = header) p (captioned p v) := by
  have made := forest.create (.element "span" .empty)
  have isCaption := Page.tag?_createElement p "span"
  have grown : p.Grows (p.createElement "span").2 :=
    ⟨Nat.le_of_lt (Page.lt_size_of_tag? isCaption), fun _ => Page.node?_create_of_lt p _⟩
  have begun : Alters (fun n => n = ⟨p.size⟩ ∨ n = header) p (p.createElement "span").2 :=
    .of_grows forest made grown
  exact begun.setMarkupOrText (.inl rfl) isCaption v

/-- The caption lies nowhere yet. -/
theorem caption_free (v : String) : ((captioned p v).clear header).parent? ⟨p.size⟩ = none := by
  have made := forest.create (.element "span" .empty)
  have isCaption := Page.tag?_createElement p "span"
  have start : Alters (· = ⟨p.size⟩) (p.createElement "span").2 (p.createElement "span").2 := .refl made
  have filled : Alters _ _ (captioned p v) := start.setMarkupOrText rfl isCaption v
  refine Option.eq_none_iff_forall_ne_some.2 fun q lies => ?_
  have listed := ((filled.forest.clear header).1.agree q _).2 lies
  rw [filled.forest.children_clear] at listed
  split at listed
  · cases listed
  · have before := (made.agree q _).1 (filled.kept q _ (Page.lt_size_of_tag? isCaption) listed)
    unfold Page.parent? at before
    rw [Page.node?_create, if_pos rfl] at before
    cases before

section Hung

variable (element : p.tag? header ≠ none)
  (hung : ((captioned p v).clear header).append header ⟨p.size⟩ = .ok p')
include hung

/-- A caption that is put below the header is all that lies there, and is taken from nowhere. -/
theorem children_caption (m : NodeId) :
    p'.children m = if m = header then [⟨p.size⟩] else (captioned p v).children m := by
  have filled : Alters (fun n => n = ⟨p.size⟩ ∨ n = header) p (captioned p v) :=
    alters_captioned forest v
  have cleared := (filled.forest.clear header).1
  have apart : ∀ c ∈ ((captioned p v).clear header).children m, c ≠ ⟨p.size⟩ := by
    rintro c mem rfl
    have lies := (cleared.agree m _).1 mem
    rw [caption_free forest v] at lies
    cases lies
  rw [cleared.children_append hung, List.filter_eq_self.2 fun c mem => decide_eq_true (apart c mem),
    filled.forest.children_clear]
  by_cases same : m = header
  · rw [if_pos same, if_pos same, if_pos same]
    rfl
  · rw [if_neg same, if_neg same, if_neg same, List.append_nil]

theorem content?_caption (m : NodeId) : p'.content? m = (captioned p v).content? m := by
  have filled : Alters (fun n => n = ⟨p.size⟩ ∨ n = header) p (captioned p v) :=
    alters_captioned forest v
  exact (Page.content?_append hung m).trans (filled.forest.content?_clear header m)

include element

/-- A caption shows what it was filled with. -/
theorem renders_caption : p'.Renders Escape.text wrapMarkup [⟨p.size⟩] (Html.writtenOf Escape.text wrapMarkup
    [.element "span" .empty (Html.ofNodes (nodesOrText v))]) := by
  have known := Page.lt_size_of_tag? element
  have filled : Alters (fun n => n = ⟨p.size⟩ ∨ n = header) p (captioned p v) :=
    alters_captioned forest v
  have isCaption := Page.tag?_createElement p "span"
  have made := Page.lt_size_of_tag? isCaption
  have filling : (p.createElement "span").2.Refilled ⟨p.size⟩ _ (captioned p v) :=
    (forest.create _).refilled_setMarkupOrText isCaption v
  have new : ∀ c ∈ (captioned p v).children ⟨p.size⟩, p.size ≤ c.index := fun c mem =>
    Nat.le_trans (Nat.le_of_lt made) (filling.new c mem)
  have others : ∀ m : NodeId, p.size ≤ m.index → p'.children m = (captioned p v).children m := by
    intro m later
    rw [children_caption forest hung, if_neg]
    rintro rfl
    exact Nat.lt_irrefl _ (Nat.lt_of_lt_of_le known later)
  have is : p'.content? ⟨p.size⟩ = some (.element "span" .empty) := by
    rw [content?_caption forest hung, filling.content _ made]
    unfold Page.content? Page.createElement
    rw [Page.node?_create, if_pos rfl]
    rfl
  refine .element (Page.node?_of_content? is) ?_ .nil
  rw [others ⟨p.size⟩ (Nat.le_refl p.size)]
  refine filling.renders.congr fun c mem n below => ⟨content?_caption forest hung n, others n ?_⟩
  rcases filled.new_of_within new (.trans (.child .self mem) below) with rfl | later
  · exact Nat.le_refl _
  · exact later

end Hung

/-- The caption can be put below the header. -/
theorem append_caption (element : p.tag? header ≠ none) (v : String) :
    ((captioned p v).clear header).append header ⟨p.size⟩ =
      .ok ((disclosure root header content headerField).stored p v) := by
  have known := Page.lt_size_of_tag? element
  have cleared := (alters_captioned forest v).clear (n := header) (.inr rfl)
  have element' : ((captioned p v).clear header).tag? header ≠ none := by
    rwa [cleared.tag header known]
  obtain ⟨ns, up⟩ := cleared.forest.rises header
  have outside : ⟨p.size⟩ ∉ ns := fun mem =>
    Nat.lt_irrefl _ (cleared.known_of_ascends up known _ mem)
  obtain ⟨p', hung⟩ := cleared.forest.exists_append element' up outside
  obtain ⟨-, linked⟩ := Page.append_ok hung
  rw [hung, linked]
  unfold Page.detach
  rw [caption_free forest v]
  rfl

end Caption

/-! ## Storing -/

/-- **Storing a value** is a function of the page, and so is whether it is taken. -/
theorem exec_setValue (forest : p.Forest) (own : ∀ n ∈ w.own, p.tag? n ≠ none) (v : String)
    (label : Option String) :
    exec (w.setValue (some v) label) p = (.ok (w.takes v), w.stored p v) := by
  cases w with
  | check root box standsFor initially =>
    unfold setValue takes stored
    dsimp only
    by_cases same : standsFor = some v
    · rw [if_pos same, if_pos same, decide_eq_true same]
      rfl
    · rw [if_neg same, if_neg same, decide_eq_false same]
      rfl
  | disclosure root header content headerField =>
    have run : exec ((disclosure root header content headerField).setValue (some v) label) p =
        exec (do PageM.append header ⟨p.size⟩; return true) ((captioned p v).clear header) := rfl
    have element := own header (by simp [Widget.own])
    rw [run, exec_bind_ok (PageM.exec_append_of_ok (append_caption forest element v))]
    rfl
  | _ => rfl

theorem rewrites_stored (forest : p.Forest) (own : ∀ n ∈ w.own, p.tag? n ≠ none) (v : String) :
    w.Rewrites p (w.stored p v) := by
  have page := (goes_setValue forest own (some v) none).1
  rwa [exec_setValue forest own] at page

/-- A value that is not taken changes nothing. -/
theorem stored_of_refused (refused : w.takes v = false) : w.stored p v = p := by
  cases w with
  | check root box standsFor initially => exact if_neg (of_decide_eq_false refused)
  | _ => first | rfl | cases refused

/-! ## What is there then -/

/-- A value is in a widget. -/
structure Stored (w : Widget) (v : String) (p p' : Page) : Prop where
  alters : Alters (· ∈ w.own) p p'
  content : ∀ m : NodeId, m.index < p.size → p'.content? m = (p.content? m).map (w.marked v m)
  children : ∀ m : NodeId, m.index < p.size → m ∉ w.filled → p'.children m = p.children m
  renders : ∀ m ∈ w.filled, p'.Renders Escape.text wrapMarkup (p'.children m)
    (Html.writtenOf Escape.text wrapMarkup (w.filling v))
  new : ∀ m ∈ w.filled, ∀ c ∈ p'.children m, p.size ≤ c.index

/-- Marking one node. -/
theorem content?_setAttr (w : Widget) {name value : String} (mark : w.mark? v = some (n, name, value))
    (m : NodeId) : (p.setAttr n name value).content? m = (p.content? m).map (w.marked v m) := by
  by_cases same : m = n
  · subst same
    rw [Page.content?_setAttr_self]
    refine Option.map_congr fun c _ => ?_
    rw [marked, mark, Option.elim_some, if_pos rfl]
  · rw [Page.setAttr, Page.content?_updateAttrs_of_ne _ same]
    refine Option.map_id'.symm.trans (Option.map_congr fun c _ => ?_)
    rw [marked, mark, Option.elim_some, if_neg same]

theorem map_marked (none : w.mark? v = none) (c : Option Content) : c.map (w.marked v n) = c := by
  refine (Option.map_congr fun c _ => ?_).trans Option.map_id'
  rw [marked, none]
  rfl

/-- A value in an attribute. -/
theorem stored_setAttr {name value : String} (mark : w.mark? v = some (n, name, value))
    (mem : n ∈ w.own) (empty : w.filled = []) (forest : p.Forest) :
    w.Stored v p (p.setAttr n name value) where
  alters := (Alters.refl forest : Alters (· ∈ w.own) p p).updateAttrs mem _
  content m _ := content?_setAttr w mark m
  children m _ _ := Page.children_updateAttrs ..
  renders m mem := by rw [empty] at mem; cases mem
  new m mem := by rw [empty] at mem; cases mem

/-- A value in place of the content. -/
theorem stored_refilled (none : w.mark? v = none) (filled : w.filled = [n])
    (page : p.Refilled n (w.filling v) p') : w.Stored v p p' := by
  have mem : n ∈ w.own := filled_subset_own (by rw [filled]; exact List.mem_singleton_self n)
  refine ⟨page.alters.mono fun _ is => is ▸ mem, fun m known => ?_, fun m known other => ?_,
    fun m mem => ?_, fun m mem => ?_⟩
  · rw [map_marked none, page.content m known]
  · rw [filled, List.mem_singleton] at other
    exact page.alters.children m known other
  · rw [filled, List.mem_singleton] at mem
    rw [mem]
    exact page.renders
  · rw [filled, List.mem_singleton] at mem
    rw [mem]
    exact page.new

/-- A value in an attribute and, as markup, in place of the content. -/
theorem stored_readOnly {hidden view : NodeId} (forest : p.Forest) (isView : p.tag? view ≠ none) :
    (readOnly root hidden view).Stored v p ((readOnly root hidden view).stored p v) := by
  have isView' : (p.setAttr hidden "value" v).tag? view ≠ none := by
    rwa [Page.setAttr, Page.tag?_updateAttrs]
  have size : (p.setAttr hidden "value" v).size = p.size := Page.size_updateAttrs ..
  have page : (p.setAttr hidden "value" v).Refilled view _ ((readOnly root hidden view).stored p v) :=
    (forest.updateAttrs hidden _).refilled_setMarkupOrText isView' v
  have start : Alters (· ∈ (readOnly root hidden view).own) p p := .refl forest
  refine ⟨(start.updateAttrs (by simp [own]) _).setMarkupOrText (by simp [own]) isView' v,
    fun m known => ?_, fun m known other => ?_, fun m mem => ?_, fun m mem => ?_⟩
  · exact (page.content m (by rwa [size])).trans (content?_setAttr (readOnly root hidden view) rfl m)
  · exact (page.alters.children m (by rwa [size]) fun is => other (List.mem_singleton.2 is)).trans
      (Page.children_updateAttrs ..)
  · rw [List.mem_singleton.1 mem]
    exact page.renders
  · rw [List.mem_singleton.1 mem, ← size]
    exact page.new

/-- A value as the caption of a disclosure. -/
theorem stored_disclosure {header : NodeId} (forest : p.Forest)
    (own : ∀ n ∈ (disclosure root header content headerField).own, p.tag? n ≠ none) :
    (disclosure root header content headerField).Stored v p
      ((disclosure root header content headerField).stored p v) := by
  have element := own header (by simp [Widget.own])
  have hung : ((captioned p v).clear header).append header ⟨p.size⟩ =
      .ok ((disclosure root header content headerField).stored p v) := append_caption forest element v
  have filled : Alters (fun n => n = ⟨p.size⟩ ∨ n = header) p (captioned p v) :=
    alters_captioned forest v
  have isCaption := Page.tag?_createElement p "span"
  have below : ∀ m : NodeId, m = header →
      ((disclosure root header content headerField).stored p v).children m = [⟨p.size⟩] := fun m is => by
    rw [children_caption forest hung, if_pos is]
  refine ⟨(rewrites_stored forest own v).alters, fun m known => ?_, fun m known other => ?_,
    fun m mem => ?_, fun m mem c child => ?_⟩
  · rw [map_marked rfl, content?_caption forest hung]
    exact ((forest.create _).content?_setMarkupOrText isCaption v
      (Nat.lt_trans known (Page.lt_size_of_tag? isCaption))).trans (Page.content?_create _ known)
  · have apart : m ≠ header := fun is => other (List.mem_singleton.2 is)
    rw [children_caption forest hung, if_neg apart]
    refine filled.children m known fun is => is.elim ?_ apart
    rintro rfl
    exact Nat.lt_irrefl _ known
  · rw [below m (List.mem_singleton.1 mem)]
    exact renders_caption forest element hung
  · rw [below m (List.mem_singleton.1 mem)] at child
    obtain rfl := List.mem_singleton.1 child
    exact Nat.le_refl _

/-- **What is there when a value was taken.** -/
theorem stored_of_takes (forest : p.Forest) (own : ∀ n ∈ w.own, p.tag? n ≠ none)
    (taken : w.takes v = true) : w.Stored v p (w.stored p v) := by
  cases w with
  | markup root =>
    exact stored_refilled rfl rfl (forest.refilled_setMarkupOrText (own root List.mem_cons_self) v)
  | input root => exact stored_setAttr rfl List.mem_cons_self rfl forest
  | textArea root =>
    exact stored_refilled rfl rfl (forest.refilled_setText (own root List.mem_cons_self) v)
  | check root box standsFor initially =>
    rw [stored, if_pos (of_decide_eq_true taken)]
    exact stored_setAttr rfl (by simp [Widget.own]) rfl forest
  | readOnly root hidden view => exact stored_readOnly forest (own view (by simp [Widget.own]))
  | disclosure root header content headerField =>
    exact stored_disclosure forest own
  | _ => cases taken

end Widget

/-! ## Reading it back -/

/-- What is read of a value that a field of some kind took: the value itself, or, if it is content that is
given as markup, what it is written out as.  A disclosure does not tell its header. -/
def FieldKind.readBack? (kind : FieldKind) (v : String) : Option String :=
  match kind with
  | .html | .inlineHtml => some (Html.writtenOf Escape.text wrapMarkup (Html.ofNodes (nodesOrText v)))
  | _ => if kind.keepsValues then some v else none

theorem FieldKind.readBack?_of_keepsValues {kind : FieldKind} (keeps : kind.keepsValues = true)
    (v : String) : kind.readBack? v = some v := by
  cases kind <;> first | rfl | cases keeps

theorem FieldKind.readBack?_eq_none {kind : FieldKind} (none : kind.hasValue = false) (v : String) :
    kind.readBack? v = Option.none := by
  cases kind <;> first | rfl | cases none

/-- **A value that was taken** is read back. -/
theorem Widget.value?_stored {w : Widget} {p : Page} (forest : p.Forest)
    (own : ∀ n ∈ w.own, p.tag? n ≠ none) {v : String} (taken : w.takes v = true) {kind : FieldKind}
    (is : kind ∈ w.kinds) : w.value? (w.stored p v) = kind.readBack? v := by
  by_cases keeps : kind.keepsValues = true
  · rw [FieldKind.readBack?_of_keepsValues keeps]
    have read := (goes_setValue forest own (some v) none).2
    rw [exec_setValue forest own] at read
    exact read _ rfl taken v kind rfl is keeps
  · cases w with
    | markup root =>
      have shown := forest.innerMarkup_setMarkupOrText (own root List.mem_cons_self) v
      simp only [kinds, List.mem_cons, List.not_mem_nil, or_false] at is
      rcases is with rfl | rfl <;> exact congrArg some shown
    | disclosure root header content headerField =>
      rw [List.mem_singleton.1 is]
      rfl
    | plain | button | container | tabs => cases taken
    | _ =>
      simp only [kinds, List.mem_cons, List.not_mem_nil, or_false] at is
      rcases is with rfl | rfl | rfl <;> exact absurd rfl keeps

/-! ## New widgets -/

/-- Whether a field takes a value when its widget is not there yet, so that it is built. -/
def Field.takes (f : Field) (label : Option String) (v : String) : Bool :=
  match f.kind with
  | .html | .inlineHtml | .textInput | .password | .hidden | .textArea | .readOnly | .disclosure => true
  | .checkbox | .radio => (f.defaultValue? <|> label) = some v
  | _ => false

namespace Widget

variable {f : Field} {label : Option String}

theorem takes_checkControl (type v : String) :
    Yields (checkControl type f label) fun w => w.takes v = decide ((f.defaultValue? <|> label) = some v) :=
  .bind fun _ => .bind fun _ => .bind fun _ => .bind fun _ => .bind fun _ => .bind fun _ =>
    .bind fun _ => .pure rfl

/-- The widget that is built for a field takes what the field takes. -/
theorem takes_build (f : Field) (label : Option String) (v : String) :
    Yields (Widget.build f label) fun w => w.takes v = f.takes label v := by
  intro p p' w run
  have kind := kinds_build f label p p' w run
  cases w with
  | check root box standsFor initially =>
    simp only [kinds, List.mem_cons, List.not_mem_nil, or_false] at kind
    unfold Widget.build at run
    unfold Field.takes
    rcases kind with kind | kind <;> rw [kind] at run ⊢ <;>
      exact takes_checkControl _ v p p' _ run
  | _ =>
    simp only [kinds, List.mem_cons, List.not_mem_nil, or_false] at kind
    unfold Field.takes
    generalize f.kind = k at kind ⊢
    rcases kind with rfl | rfl | rfl | rfl | rfl <;> rfl

end Widget

end Formwork
