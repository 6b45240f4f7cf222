import Formwork.Panel.Hierarchy
import Formwork.Proofs.Page.Order
import Formwork.Proofs.Panel.Table
import Formwork.Proofs.Widget.Build

/-!
# Drafts of panels

A draft says what a panel holds and shows without saying how: it has the fields without their
widgets, and the content that was put into the panel and into the slots of its fields.  What every
widget looks like follows from the draft (`Draft.look`), whether or not the widget was built.

A scene depicts a draft (`Scene.Depicts`) when the trees on its page are those looks.  A widget
that was not built yet is one that nothing was put into.
-/

namespace Formwork

set_option autoImplicit false

/-- A panel whose fields have no widgets, and whose views show nothing. -/
def Panel.bare (p : Panel) : Panel := { p with table := p.table.bare, views := [] }

/-- A panel without widgets, and what was put into it and into the slots of its fields. -/
structure Draft where
  panel : Panel
  filled : Option FieldId → List Html

namespace Draft

/-! ## Looks -/

/-- A field of a draft. -/
def field? (d : Draft) (f : FieldId) : Option Field := d.panel.field? f

/-- Whether a field wants to be shown when it becomes a page of a tab container. -/
def isSelected (d : Draft) (f : FieldId) : Bool :=
  ((d.field? f).map fun field => field.attributes.flag Vocabulary.selectedKey false).getD false

/-- The page that a tab container shows: the last one that wanted it. -/
def chosen? (d : Draft) (container : Field) : Option FieldId :=
  (container.attached.filter d.isSelected).getLast?

/-- Whether a page of a tab container was shown. -/
def exposureIn (d : Draft) (container : Field) (f : FieldId) : Exposure :=
  if d.chosen? container = some f then .shown
  else if d.isSelected f then .formerly
  else .never

/-- Whether a field was shown, when it is a page of a tab container. -/
def exposure? (d : Draft) (field : Field) : Option Exposure :=
  match field.parent.bind d.field? with
  | some container =>
    if container.kind = .tabs ∧ field.id ∈ container.attached then
      some (d.exposureIn container field.id)
    else none
  | none => none

/-- What was put into the widget of a field. -/
def parts (d : Draft) (field : Field) : Parts where
  header := field.attached.head?.map fun f => .link (.widget f)
  slot := d.filled (some field.id)
  captions := field.attached.map fun f => .link (.caption f)
  pages := field.attached.map fun f => .link (.widget f)

/-- The widget of a field before attributes are passed on to it. -/
def face (d : Draft) (field : Field) : Face :=
  field.face (field.label? d.panel.messages) (d.parts field)

/-- The attributes of the widget of a field. -/
def attributes (d : Draft) (field : Field) : OrderedMap String String :=
  field.lookAttributes (d.face field).attributes (d.exposure? field)

/-- The widget of a field. -/
def look (d : Draft) (field : Field) : Html :=
  .element (d.face field).tag (d.attributes field) (d.face field).children

/-- Nothing was put into a field, nor was the field put anywhere as a page. -/
structure Blank (d : Draft) (field : Field) : Prop where
  filled : d.filled (some field.id) = []
  attached : field.attached = []
  exposure : d.exposure? field = none

theorem Blank.parts {d : Draft} {field : Field} (h : d.Blank field) :
    d.parts field = Parts.none := by
  unfold Draft.parts
  rw [h.filled, h.attached]
  rfl

/-- The fields of a draft are kept under their numbers, those that a field took for parts of its own
are its children, and children are newer than their parents. -/
structure Sound (d : Draft) : Prop where
  ids : ∀ {f field}, d.field? f = some field → field.id = f
  attached : ∀ {f container c}, d.field? f = some container → c ∈ container.attached →
    ∃ child, d.field? c = some child ∧ child.parent = some f
  distinct : ∀ {f container}, d.field? f = some container → container.attached.Nodup
  older : ∀ {f field q}, d.field? f = some field → field.parent = some q → q.index < f.index

end Draft

/-! ## Depicting -/

/-- A node is the topmost node of the tree of a link. -/
def Layout.RootAt (L : Layout) (target : Link) (n : NodeId) : Prop :=
  ∃ r, L (.tree target) = some r ∧ r.dom.root = n

/-- A widget remembers what its field took for parts of its own. -/
def Widget.Keeps (w : Widget) (L : Layout) (field : Field) : Prop :=
  match w with
  | .disclosure _ _ _ header => header = field.attached.head?
  | .tabs _ _ _ pages _ => pages.map TabPage.field = field.attached ∧
      ∀ page ∈ pages, L.RootAt (.caption page.field) page.caption ∧
        L.RootAt (.widget page.field) page.page
  | _ => True

theorem Widget.Keeps.mono {w : Widget} {L L' : Layout} {field : Field}
    (roots : ∀ target n, L.RootAt target n → L'.RootAt target n) (h : w.Keeps L field) :
    w.Keeps L' field := by
  unfold Widget.Keeps at h ⊢
  cases w with
  | tabs root bar deck pages selected =>
    exact ⟨h.1, fun page mem => ⟨roots _ _ (h.2 page mem).1, roots _ _ (h.2 page mem).2⟩⟩
  | _ => exact h

theorem Widget.IsEmpty.keeps {w : Widget} {L : Layout} {field : Field} (h : w.IsEmpty)
    (none : field.attached = []) : w.Keeps L field := by
  unfold Widget.Keeps
  cases w with
  | disclosure root header content headerField =>
    rw [none]
    exact h
  | tabs root bar deck pages selected =>
    obtain ⟨rfl, _⟩ := h
    rw [none]
    exact ⟨rfl, fun page mem => nomatch mem⟩
  | _ => trivial

/-- A tree is the widget of a field of a draft. -/
def Draft.Draws (d : Draft) (L : Layout) (field : Field) (w : Widget) (dom : Dom) : Prop :=
  ∃ kids, dom = .element w.root (d.face field).tag (d.attributes field) kids ∧
    Dom.htmlOf kids = (d.face field).children ∧ w.Fits field.kind kids ∧ w.Keeps L field

theorem Draft.Draws.html {d : Draft} {L : Layout} {field : Field} {w : Widget} {dom : Dom}
    (h : d.Draws L field w dom) : dom.html = d.look field := by
  obtain ⟨kids, rfl, looks, _, _⟩ := h
  rw [Dom.html, looks, Draft.look]

theorem Draft.Draws.root {d : Draft} {L : Layout} {field : Field} {w : Widget} {dom : Dom}
    (h : d.Draws L field w dom) : dom.root = w.root := by
  obtain ⟨kids, rfl, _⟩ := h
  rfl

/-- A tree is the caption of a page with an exposure. -/
def Field.DrawsCaption (field : Field) (messages : Messages) (e : Exposure) (dom : Dom) : Prop :=
  ∃ n kids, dom = .element n "span" (OrderedMap.empty.insert "class" e.captionClass) kids ∧
    Dom.htmlOf kids = Face.shownText (field.label? messages)

/-- The widget of a field, if it was built. -/
def Scene.widget? (s : Scene) (f : FieldId) : Option Widget := (s.panel.field? f).bind Field.widget

/-- **A scene depicts a draft**: the trees on its page, on top of an older page, are the looks of
the draft. -/
structure Scene.Depicts (base : Page) (L : Layout) (s : Scene) (d : Draft) : Prop where
  holds : Page.Holds base s.page L
  ordered : L.Ordered
  bare : s.panel.bare = d.panel
  root : ∃ kids, L .panel = some ⟨none, .element s.panel.root "div" .empty kids⟩ ∧
    Dom.htmlOf kids = d.filled none
  built : ∀ {f field w}, d.field? f = some field → s.widget? f = some w →
    ∃ r, L (.tree (.widget f)) = some r ∧ d.Draws L field w r.dom
  unbuilt : ∀ {f field}, d.field? f = some field → s.widget? f = none →
    L (.tree (.widget f)) = none ∧ d.Blank field
  captioned : ∀ {f field e}, d.field? f = some field → d.exposure? field = some e →
    ∃ r, L (.tree (.caption f)) = some r ∧ field.DrawsCaption d.panel.messages e r.dom
  uncaptioned : ∀ {f field}, d.field? f = some field → d.exposure? field = none →
    L (.tree (.caption f)) = none
  unknown : ∀ {f}, d.field? f = none →
    L (.tree (.widget f)) = none ∧ L (.tree (.caption f)) = none
  hidden : ∀ f, L (.tree (.shown f)) = none

namespace Scene.Depicts

variable {base : Page} {L : Layout} {s : Scene} {d : Draft}

theorem messages (h : s.Depicts base L d) : s.panel.messages = d.panel.messages := by
  rw [← h.bare]
  rfl

theorem field?_eq (h : s.Depicts base L d) (f : FieldId) :
    d.field? f = (s.panel.field? f).map Field.bare := by
  unfold Draft.field? Panel.field?
  rw [← h.bare]
  exact FieldTable.field?_bare _ _

/-- A field of the draft is a field of the scene, apart from its widget. -/
theorem field_of (h : s.Depicts base L d) {f : FieldId} {field : Field}
    (found : d.field? f = some field) :
    s.panel.field? f = some { field with widget := s.widget? f } := by
  rw [h.field?_eq] at found
  unfold Scene.widget?
  cases there : s.panel.field? f with
  | none =>
    rw [there] at found
    cases found
  | some field' =>
    rw [there] at found
    cases found
    rfl

/-- The tree of a widget shows what the draft says of its field. -/
theorem exists_drawn (h : s.Depicts base L d) {f : FieldId} {r : Region}
    (there : L (.tree (.widget f)) = some r) :
    ∃ field w, d.field? f = some field ∧ s.widget? f = some w ∧ d.Draws L field w r.dom := by
  cases found : d.field? f with
  | none => cases there.symm.trans (h.unknown found).1
  | some field =>
    cases hasWidget : s.widget? f with
    | none => cases there.symm.trans (h.unbuilt found hasWidget).1
    | some w =>
      obtain ⟨r', there', draws⟩ := h.built found hasWidget
      cases there.symm.trans there'
      exact ⟨field, w, rfl, rfl, draws⟩

/-- The tree of a caption shows the label of its field. -/
theorem exists_captioned (h : s.Depicts base L d) {f : FieldId} {r : Region}
    (there : L (.tree (.caption f)) = some r) :
    ∃ field e, d.field? f = some field ∧ d.exposure? field = some e ∧
      field.DrawsCaption d.panel.messages e r.dom := by
  cases found : d.field? f with
  | none => cases there.symm.trans (h.unknown found).2
  | some field =>
    cases exposed : d.exposure? field with
    | none => cases there.symm.trans (h.uncaptioned found exposed)
    | some e =>
      obtain ⟨r', there', draws⟩ := h.captioned found exposed
      cases there.symm.trans there'
      exact ⟨field, e, rfl, exposed, draws⟩

end Scene.Depicts

/-! ## Steps on a panel -/

namespace PanelM

variable {s : Scene}

@[simp]
theorem exec_changePage (change : Page → Page) :
    exec (changePage change) s = (.ok (), { s with page := change s.page }) := rfl

@[simp]
theorem exec_changeTable (change : FieldTable → FieldTable) :
    exec (changeTable change) s =
      (.ok (), { s with panel := { s.panel with table := change s.panel.table } }) := rfl

@[simp]
theorem exec_changeField (f : FieldId) (change : Field → Field) :
    exec (changeField f change) s =
      (.ok (), { s with panel := { s.panel with table := s.panel.table.update f change } }) := rfl

theorem onPage_eq_within {α : Type} (changes : PageM α) : onPage changes =
    within changes Scene.page (fun s p => { s with page := p }) (fun a _ => a) .page := by
  unfold onPage within
  refine bind_congr fun s => ?_
  rcases changes.run.run s.page with ⟨_ | _, _⟩ <;> rfl

theorem exec_onPage_ok {α : Type} {changes : PageM α} {a : α} {p : Page}
    (run : exec changes s.page = (.ok a, p)) :
    exec (onPage changes) s = (.ok a, { s with page := p }) := by
  rw [onPage_eq_within]
  exact exec_within_ok run

theorem exec_onPage_error {α : Type} {changes : PageM α} {e : PageError} {p : Page}
    (run : exec changes s.page = (.error e, p)) :
    exec (onPage changes) s = (.error (.page e), { s with page := p }) := by
  rw [onPage_eq_within]
  exact exec_within_error run

theorem exec_field {f : FieldId} {field : Field} (found : s.panel.field? f = some field) :
    exec (PanelM.field f) s = (.ok field, s) := by
  unfold PanelM.field
  rw [exec_bind_ok (exec_get s), found]
  rfl

end PanelM

/-- Setting attributes one after the other at the topmost element of a tree. -/
theorem Page.Holds.setAttrs {base : Page} {k : Owner} {n : NodeId} {tag : String}
    {place : Option NodeId} {kids : List Dom} : ∀ (given : List (String × String)) {p : Page}
    {L : Layout} {attributes : OrderedMap String String}, Page.Holds base p L →
      L k = some ⟨place, .element n tag attributes kids⟩ →
      Page.Holds base (given.foldl (fun p e => p.setAttr n e.1 e.2) p) (Function.update L k
        (some ⟨place, .element n tag (given.foldl (fun m e => m.insert e.1 e.2) attributes) kids⟩))
  | [], p, L, attributes, h, hk => by
    rw [Function.update_eq_self_iff.2 hk.symm]
    exact h
  | (name, value) :: given, p, L, attributes, h, hk => by
    have first := h.updateAttrs hk (Dom.find?_root ..) fun m => m.insert name value
    rw [Dom.edit_root] at first
    have rest := setAttrs given first (Function.update_self ..)
    rw [Function.update_idem] at rest
    exact rest

/-- A tree that was built gets an owner. -/
theorem Page.Holds.adopt {base p p' : Page} {L : Layout} (h : Page.Holds base p L)
    {ds : List (Option Dom)} (built : Page.Holds p p' (Layout.ofList ds)) {i : Nat} {d : Dom}
    (tree : ds[i]? = some (some d)) (k : Owner) :
    Page.Holds base p' (Function.update L k (some ⟨none, d⟩)) := by
  have hi := Layout.ofList_loose tree
  refine h.replaceOne k _ ?_ ?_ built.grown (built.has hi) (built.distinct hi) (built.rooted hi) ?_
  · exact fun n hn _ => built.old n hn
  · intro j s _ hs l hl
    obtain ⟨m, _, parent⟩ := h.link_parent hs hl
    unfold Page.parent?
    rw [built.old _ (Page.lt_size_of_parent? parent)]
  · exact fun n hn => .inl (built.fresh hi n hn)

end Formwork
