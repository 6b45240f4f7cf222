import Formwork.Proofs.Template.Identifiers
import Formwork.Proofs.Template.Rendering

/-!
# Following links to what is shown

The panel of a template is assembled from parts that are linked into one another.  By recursion on
the sketch of the template, the link to a field leads to the widget of the field in the rendering
(`Sketch.stands_renderOf`), provided that no element was written with the identifier of a marker
beside it.
-/

namespace Formwork

set_option autoImplicit false

/-! ## Following links -/

namespace Draft

open Classical in
/-- What a link of a draft leads to, as markup. -/
noncomputable def writing (d : Draft) (shown : FieldId → Option Html) (target : Link) : String :=
  if leads : ∃ h, d.Resolves shown (.link target) h then leads.choose.markup else ""

variable {d : Draft} {shown : FieldId → Option Html}

theorem writing_eq {target : Link} {h : Html} (resolves : d.Resolves shown (.link target) h) :
    d.writing shown target = h.markup := by
  have leads : ∃ h, d.Resolves shown (.link target) h := ⟨h, resolves⟩
  unfold writing
  rw [dif_pos leads, Resolves.unique leads.choose_spec resolves]

mutual
theorem exists_resolves : ∀ {h : Html},
    (∀ target ∈ h.targets, ∃ h', d.Resolves shown (.link target) h') →
      ∃ h', d.Resolves shown h h' ∧ h'.markup = h.markupWith (d.writing shown)
  | .text content, _ => ⟨_, .text content, rfl⟩
  | .element tag attributes children, leads => by
    obtain ⟨hs', resolves, markup⟩ := @exists_resolvesAll children leads
    refine ⟨_, .element tag attributes resolves, ?_⟩
    rw [Html.markup, Html.markupWith, markup]
  | .link target, leads => by
    obtain ⟨h', resolves⟩ := leads target (List.mem_singleton_self _)
    exact ⟨h', resolves, (writing_eq resolves).symm⟩

/-- **Trees whose links lead somewhere** stand for trees without links. -/
theorem exists_resolvesAll : ∀ {hs : List Html},
    (∀ target ∈ Html.targetsOf hs, ∃ h', d.Resolves shown (.link target) h') →
      ∃ hs', d.ResolvesAll shown hs hs' ∧ Html.markupOf hs' = Html.markupOfWith (d.writing shown) hs
  | [], _ => ⟨[], .nil, rfl⟩
  | h :: hs, leads => by
    obtain ⟨h', first, markup⟩ := exists_resolves (h := h) fun target mem =>
      leads target (List.mem_append_left _ mem)
    obtain ⟨hs', rest, markup'⟩ := @exists_resolvesAll hs fun target mem =>
      leads target (List.mem_append_right _ mem)
    refine ⟨h' :: hs', .cons first rest, ?_⟩
    rw [Html.markupOf, Html.markupOfWith, markup, markup']
end

end Draft

namespace Html

theorem markupOfWith_map_link (w : Link → String) (targets : List Link) :
    markupOfWith w (targets.map .link) = String.join (targets.map w) := by
  induction targets with
  | nil => rfl
  | cons target targets ih =>
    rw [List.map_cons, markupOfWith, ih, List.map_cons, String.join_cons]
    rfl

theorem markupOf_eq_join (hs : List Html) : markupOf hs = String.join (hs.map markup) := by
  induction hs with
  | nil => rfl
  | cons h hs ih => rw [markupOf, ih, List.map_cons, String.join_cons]

end Html

/-! ## The look of a widget -/

namespace Field

variable (f : Field) (messages : Messages) (exposure : Option Exposure)

/-- Only tab containers have captions. -/
theorem look_captions (other : f.kind ≠ .tabs) (parts : Parts) :
    f.look messages exposure parts = f.look messages exposure { parts with captions := [] } := by
  unfold look face
  cases kind : f.kind <;> first | rfl | exact absurd kind other

theorem markupWith_face (label : Option String) (w : Link → String) {given plain : Parts}
    (header : given.header.map (Html.markupWith w) = plain.header.map Html.markup)
    (slot : Html.markupOfWith w given.slot = Html.markupOf plain.slot)
    (captions : Html.markupOfWith w given.captions = Html.markupOf plain.captions)
    (pages : Html.markupOfWith w given.pages = Html.markupOf plain.pages) :
    (f.face label given).tag = (f.face label plain).tag ∧
      (f.face label given).attributes = (f.face label plain).attributes ∧
      Html.markupOfWith w (f.face label given).children =
        Html.markupOf (f.face label plain).children := by
  have shownText : ∀ content, Html.markupOfWith w (Face.shownText content) =
      Html.markupOf (Face.shownText content) :=
    fun content => Html.markupOfWith_of_unlinked (Html.targetsOf_ofNodes _)
  have shownMarkup : ∀ html, Html.markupOfWith w (Face.shownMarkup html) =
      Html.markupOf (Face.shownMarkup html) :=
    fun html => Html.markupOfWith_of_unlinked (Html.targetsOf_ofNodes _)
  unfold face
  cases f.kind with
  | disclosure =>
    refine ⟨rfl, rfl, ?_⟩
    have caption : Html.markupWith w
        (given.header.getD (.element "span" .empty (Face.shownText label))) =
        Html.markup (plain.header.getD (.element "span" .empty (Face.shownText label))) := by
      cases h : given.header <;> cases h' : plain.header <;> rw [h, h'] at header
      · simp only [Option.getD_none, Html.markupWith, Html.markup, shownText]
      · cases header
      · cases header
      · exact Option.some.inj header
    simp only [Face.disclosureSection, Html.markupOfWith, Html.markupOf, Html.markupWith, Html.markup,
      caption, slot]
  | link =>
    dsimp only [Face.linkElement]
    split <;> refine ⟨rfl, rfl, ?_⟩ <;>
      simp only [Face.plain, Html.markupOfWith, Html.markupOf, Html.markupWith, Html.markup, shownText]
  | _ =>
    refine ⟨rfl, rfl, ?_⟩
    simp only [Face.plain, Face.textControl, Face.checkControl, Face.readOnlyControl,
      Face.headerContainer, Face.tabContainer, Html.markupOfWith, Html.markupOf, Html.markupWith,
      Html.markup, shownText, shownMarkup, slot, captions, pages]

/-- What a widget looks like as markup depends on the markup of what was put into it. -/
theorem markupWith_look (w : Link → String) {given plain : Parts}
    (header : given.header.map (Html.markupWith w) = plain.header.map Html.markup)
    (slot : Html.markupOfWith w given.slot = Html.markupOf plain.slot)
    (captions : Html.markupOfWith w given.captions = Html.markupOf plain.captions)
    (pages : Html.markupOfWith w given.pages = Html.markupOf plain.pages) :
    (f.look messages exposure given).markupWith w = (f.look messages exposure plain).markup := by
  obtain ⟨tag, attributes, children⟩ :=
    f.markupWith_face (f.label? messages) w header slot captions pages
  unfold look
  dsimp only
  rw [Html.markupWith, Html.markup, tag, attributes, children]
end Field

/-! ## Rendering and following links -/

namespace Sketch

mutual
theorem marks_direct (isPart : FieldId → Bool) : ∀ (x : Sketch) (start : Nat),
    (x.marks isPart start).map Prod.snd =
      ((x.direct start).map Prod.fst).filter fun f => !isPart f
  | .text _, _ => rfl
  | .element _ inner, start => marks_directIn isPart inner start
  | .field m _, start => by
    rw [marks, direct]
    cases part : isPart ⟨start⟩ <;> simp [part]

/-- Fields that became content have markers. -/
theorem marks_directIn (isPart : FieldId → Bool) : ∀ (xs : List Sketch) (start : Nat),
    (marksOf isPart start xs).map Prod.snd =
      ((directIn start xs).map Prod.fst).filter fun f => !isPart f
  | [], _ => rfl
  | x :: xs, start => by
    rw [marksOf, List.map_append, marks_direct isPart x start, marks_directIn isPart xs, directIn,
      List.map_append, List.filter_append]
end

end Sketch

/-- The views of a draft show what views hold in a rendering. -/
structure Draft.Holds (d : Draft) (shown held : FieldId → Option Html) : Prop where
  looks : ∀ f, (shown f).map Html.markup = (held f).map Html.markup
  views : ∀ {f field}, d.field? f = some field → (shown f).isSome → field.kind = .view

namespace Sketch

/-- A field of a draft that was made from a sketch below another field. -/
def fieldAt (parent : Option FieldId) (start : Nat) (m : Made) (inner : List Sketch) : Field :=
  Draft.fieldOf ⟨⟨start⟩, m, parent, Piece.gathered m (piecesOf inner) start⟩

/-- The fields that are attached to a field are its parts. -/
theorem attached_fieldAt (parent : Option FieldId) (start : Nat) (m : Made) (inner : List Sketch) :
    (fieldAt parent start m inner).attached = (own m start inner).map Prod.fst :=
  attached_gather_piecesOf ..

/-- Some sketches below a field of a draft, which is of some kind and has some parts. -/
structure Placed (d : Draft) (parent : Option FieldId) (container : Option FieldKind)
    (parts : List (FieldId × Made)) (start : Nat) (xs : List Sketch) : Prop where
  rows : ∀ row ∈ Piece.rowsOf parent start (piecesOf xs), d.HasRow row
  drawn : DrawnAll xs
  writable : ∃ collects, WritableAll collects xs
  distinct : (identifiersOf xs).Nodup
  apart : ∀ e ∈ fieldsOf start xs, e.2.1.kind.acceptsPanel = true →
    Apart (identifiersIn (some e.2.1.kind) (e.1.index + 1) e.2.2) (tagsOf e.2.2)
  exposed : ∀ e ∈ directIn start xs, ∀ field : Field, field.id = e.1 → field.parent = parent →
    d.exposure? field = Made.exposureIn container parts e

/-- The links to the fields of some sketches lead to what is shown of them. -/
structure Stands (d : Draft) (shown : FieldId → Option Html) (parts : List (FieldId × Made))
    (start : Nat) (xs : List Sketch) (s : Shown) : Prop where
  leads : ∀ e ∈ directIn start xs, ∃ h, d.Resolves shown (.link (.widget e.1)) h
  content : writtenOf (fun f => d.writing shown (.widget f))
    (fun f => decide (f ∈ parts.map Prod.fst)) start xs = Html.markupOf s.content
  parts : ((directIn start xs).filter fun e => decide (e.1 ∈ parts.map Prod.fst)).map
    (fun e => d.writing shown (.widget e.1)) = s.parts.map Html.markup

namespace Placed

variable {d : Draft} {parent : Option FieldId} {container : Option FieldKind}
  {parts : List (FieldId × Made)} {start : Nat} {x : Sketch} {xs inner : List Sketch}
  {tag : Markup.Tag} {m : Made}

/-- The first of some sketches. -/
theorem first (h : Placed d parent container parts start (x :: xs)) :
    Placed d parent container parts start [x] where
  rows row mem := by
    refine h.rows row ?_
    rw [piecesOf, Piece.rowsOf_append]
    rw [piecesOf_singleton] at mem
    exact List.mem_append_left _ mem
  drawn := ⟨h.drawn.1, trivial⟩
  writable := h.writable.imp fun _ writable => ⟨writable.1, trivial⟩
  distinct := by
    have distinct := h.distinct
    rw [identifiersOf, List.nodup_append] at distinct
    rw [identifiersOf, identifiersOf, List.append_nil]
    exact distinct.1
  apart e mem := by
    rw [fieldsOf, fieldsOf, List.append_nil] at mem
    exact h.apart e (List.mem_append_left _ mem)
  exposed e mem := by
    rw [directIn, directIn, List.append_nil] at mem
    exact h.exposed e (List.mem_append_left _ mem)

/-- All but the first of some sketches. -/
theorem rest (h : Placed d parent container parts start (x :: xs)) :
    Placed d parent container parts (start + x.count) xs where
  rows row mem := by
    refine h.rows row ?_
    rw [piecesOf, Piece.rowsOf_append, countOf_pieces]
    exact List.mem_append_right _ mem
  drawn := h.drawn.2
  writable := h.writable.imp fun _ writable => writable.2
  distinct := by
    have distinct := h.distinct
    rw [identifiersOf, List.nodup_append] at distinct
    exact distinct.2.1
  apart e mem := h.apart e (List.mem_append_right _ mem)
  exposed e mem := h.exposed e (List.mem_append_right _ mem)

/-- What lies in an element lies where the element does. -/
theorem element (h : Placed d parent container parts start [.element tag inner]) :
    Placed d parent container parts start inner where
  rows row mem := by
    refine h.rows row ?_
    rw [piecesOf_singleton, pieces, Piece.rowsOf, Piece.rows, List.nil_append, Piece.rowsOf_append]
    exact List.mem_append_left _ mem
  drawn := h.drawn.1
  writable := h.writable.imp fun _ writable => writable.1.2
  distinct := by
    have distinct := h.distinct
    rwa [identifiersOf, identifiersOf, List.append_nil] at distinct
  apart e mem := h.apart e (by rwa [fieldsOf, fieldsOf, List.append_nil])
  exposed e mem := h.exposed e (by rwa [directIn, directIn, List.append_nil])

/-- The row of a field. -/
theorem row (h : Placed d parent container parts start [.field m inner]) :
    d.HasRow ⟨⟨start⟩, m, parent, Piece.gathered m (piecesOf inner) start⟩ := by
  refine h.rows _ ?_
  rw [piecesOf_singleton, pieces, Piece.rowsOf, Piece.rows]
  exact List.mem_cons_self

theorem rowsBelow (h : Placed d parent container parts start [.field m inner]) :
    ∀ row ∈ Piece.rowsOf (some ⟨start⟩) (start + 1) (piecesOf inner), d.HasRow row := by
  intro row mem
  refine h.rows row ?_
  rw [piecesOf_singleton, pieces, Piece.rowsOf, Piece.rows, Piece.rowsOf, List.append_nil]
  exact List.mem_cons_of_mem _ mem

/-- A field in another was selected when it wants to be. -/
theorem isSelected_below (h : Placed d parent container parts start [.field m inner])
    {e : FieldId × Made} (mem : e ∈ directIn (start + 1) inner) :
    d.isSelected e.1 = e.2.isSelected := by
  obtain ⟨within, row⟩ := exists_row_directIn inner (start + 1) (some ⟨start⟩) mem
  unfold Draft.isSelected
  rw [(h.rowsBelow _ row).field]
  rfl

/-- The last part of a field that wants to be selected is chosen. -/
theorem chosen?_fieldAt (h : Placed d parent container parts start [.field m inner]) :
    d.chosen? (fieldAt parent start m inner) =
      (((own m start inner).filter fun e => e.2.isSelected).map Prod.fst).getLast? := by
  unfold Draft.chosen?
  rw [attached_fieldAt, List.filter_map]
  refine congrArg (fun l => (List.map Prod.fst l).getLast?) (List.filter_congr fun e mem => ?_)
  exact h.isSelected_below (mem_directIn_of_mem_own mem)

/-- What lies in a field lies below it. -/
theorem field (h : Placed d parent container parts start [.field m inner]) :
    Placed d (some ⟨start⟩) (some m.kind) (own m start inner) (start + 1) inner where
  rows := h.rowsBelow
  drawn := h.drawn.1.2
  writable := ⟨_, h.writable.choose_spec.1⟩
  distinct := by
    have distinct := h.distinct
    rw [identifiersOf, identifiersOf, List.append_nil, identifiers, List.nodup_cons] at distinct
    exact distinct.2
  apart e mem := h.apart e (by
    rw [fieldsOf, fieldsOf, List.append_nil]
    exact List.mem_cons_of_mem _ mem)
  exposed e mem field id below := by
    have there : d.field? ⟨start⟩ = some (fieldAt parent start m inner) := h.row.field
    have kind : (fieldAt parent start m inner).kind = m.kind := rfl
    unfold Draft.exposure? Made.exposureIn
    rw [below, Option.bind_some, there]
    dsimp only
    unfold Draft.exposureIn
    rw [h.chosen?_fieldAt, id, h.isSelected_below mem, kind, attached_fieldAt]
    simp only [Option.some.injEq]

end Placed

end Sketch

namespace Markup.Node

/-- Siblings leave nothing when they are joined exactly if all of them are empty texts. -/
theorem joinedAll_eq_nil : ∀ {ns : List Node}, joinedAll ns = [] ↔ ∀ n ∈ ns, n = .text ""
  | [] => by simp [joinedAll]
  | .text content :: ns => by
    rw [joinedAll, joined, cons, List.forall_mem_cons, ← @joinedAll_eq_nil ns]
    rcases consText_cases content (joinedAll ns) with ⟨more, rest, some, joined⟩ | ⟨_, added⟩
    · rw [joined, some]
      simp
    · rw [added]
      by_cases nothing : content = ""
      · simp [nothing]
      · simp [nothing]
  | .element tag children :: ns => by
    simp [joinedAll, joined, cons]

theorem asWrittenAll_eq_nil {ns : List Node} : asWrittenAll ns = [] ↔ ns = [] := by
  cases ns <;> simp [asWrittenAll]

end Markup.Node

namespace Sketch

variable {messages : Messages} {held : FieldId → Option Html}

mutual
theorem render_eq_nil {container : Option FieldKind} {parts : List (FieldId × Made)} :
    ∀ {x : Sketch} {start : Nat}, (render messages held container parts start x).content = [] ↔
      ∀ n ∈ x.marked (fun f => decide (f ∈ parts.map Prod.fst)) start, n = .text ""
  | .text content, start => by
    rw [render, marked]
    unfold Page.textNodes
    by_cases nothing : content = "" <;> simp [nothing, Html.ofNodes]
  | .element tag inner, start => by
    simp [render, marked]
  | .field m inner, start => by
    rw [render, marked]
    by_cases part : (⟨start⟩ : FieldId) ∈ parts.map Prod.fst
    · simp only [part, decide_true, if_true]
      simp
    · simp only [part, decide_false, if_false]
      simp [markerNode]

/-- Nothing is shown exactly where only empty texts were written. -/
theorem renderOf_eq_nil {container : Option FieldKind} {parts : List (FieldId × Made)} :
    ∀ {xs : List Sketch} {start : Nat},
      (renderOf messages held container parts start xs).content = [] ↔
        ∀ n ∈ markedOf (fun f => decide (f ∈ parts.map Prod.fst)) start xs, n = .text ""
  | [], _ => by simp [renderOf, markedOf]
  | x :: xs, start => by
    rw [renderOf, markedOf]
    dsimp only
    rw [List.append_eq_nil_iff, @render_eq_nil _ _ x, @renderOf_eq_nil _ _ xs, List.forall_mem_append]
end

theorem isPartIn_eq_fun (container : Option FieldKind) (start : Nat) (xs : List Sketch) :
    isPartIn container start xs = fun f =>
      decide (f ∈ (Made.partsIn container (directIn start xs)).map Prod.fst) :=
  funext (isPartIn_eq container start xs)

/-- Nothing is settled exactly where nothing is shown. -/
theorem settledOf_eq_nil {container : Option FieldKind} {start : Nat} {xs : List Sketch} :
    settledOf container start xs = [] ↔ (renderOf messages held container
      (Made.partsIn container (directIn start xs)) start xs).content = [] := by
  rw [renderOf_eq_nil, ← isPartIn_eq_fun, ← Markup.Node.joinedAll_eq_nil,
    ← Markup.Node.asWrittenAll_eq_nil, Markup.Node.asWrittenAll_joinedAll]
  constructor
  · intro nothing
    by_contra something
    exact Placeholders.settle_ne_nil _ something nothing
  · intro nothing
    unfold settledOf readOf
    rw [nothing]
    rfl

end Sketch

namespace Html

theorem targetsOf_boxed (hs : List Html) : targetsOf (boxed hs) = targetsOf hs := by
  unfold boxed
  split
  · case isTrue nothing => rw [List.isEmpty_iff.1 nothing]
  · rw [targetsOf, targets, targetsOf, List.append_nil]

theorem markupOf_boxed {w : Link → String} {given plain : List Html}
    (empty : given = [] ↔ plain = []) (same : markupOfWith w given = markupOf plain) :
    markupOfWith w (boxed given) = markupOf (boxed plain) := by
  unfold boxed
  by_cases nothing : given = []
  · rw [nothing, empty.1 nothing]
    rfl
  · have something : plain ≠ [] := fun none => nothing (empty.2 none)
    rw [if_neg (by simpa using nothing), if_neg (by simpa using something)]
    simp only [markupOfWith, markupOf, markupWith, markup, same]

end Html

/-! ### Content -/

namespace Sketch

variable {messages : Messages} {shown held : FieldId → Option Html} {d : Draft}
  {parent : Option FieldId} {container : Option FieldKind} {parts : List (FieldId × Made)}
  {start : Nat} {xs inner : List Sketch} {m : Made}

/-- **What is settled of sketches** leads to what is shown of them. -/
theorem Stands.settled (stands : Stands d shown
      (Made.partsIn container (directIn start xs)) start xs
      (renderOf messages held container (Made.partsIn container (directIn start xs)) start xs))
    (drawn : DrawnAll xs) (distinct : (identifiersOf xs).Nodup)
    (apart : Apart (identifiersIn container start xs) (tagsOf xs)) :
    (∀ target ∈ Html.targetsOf (settledOf container start xs),
        ∃ h, d.Resolves shown (.link target) h) ∧
      Html.markupOfWith (d.writing shown) (settledOf container start xs) =
        Html.markupOf (renderOf messages held container
          (Made.partsIn container (directIn start xs)) start xs).content := by
  have different : (identifiersIn container start xs).Nodup :=
    distinct.sublist (sublist_marksOf _ xs start)
  constructor
  · intro target mem
    obtain ⟨f, marked, rfl⟩ := mem_marksOf_of_target drawn different apart mem
    rw [marks_directIn] at marked
    obtain ⟨e, direct, rfl⟩ := List.mem_map.1 (List.mem_filter.1 marked).1
    exact stands.leads e direct
  · rw [markupWith_settledOf _ drawn different apart, isPartIn_eq_fun]
    exact stands.content

/-- The slot of a view that shows another panel. -/
theorem Placed.slot_shown (h : Placed d parent container parts start [.field m inner])
    (holds : d.Holds shown held) {h' : Html} (there : shown ⟨start⟩ = some h') :
    (d.viewing shown).filled (some ⟨start⟩) = [.link (.shown ⟨start⟩)] ∧
      m.kind.acceptsPanel = false ∧ Html.markupOf (held ⟨start⟩).toList = h'.markup := by
  have view : m.kind = .view := holds.views h.row.field (by rw [there]; rfl)
  have looks := holds.looks ⟨start⟩
  rw [there] at looks
  obtain ⟨h'', other, same⟩ := Option.map_eq_some_iff.1 looks.symm
  refine ⟨?_, by rw [view]; rfl, ?_⟩
  · unfold Draft.viewing
    dsimp only [Option.elim_some]
    rw [there]
    rfl
  · rw [other, ← same]
    exact String.append_empty

/-- **What was put into a field** leads to what its widget holds in the rendering. -/
theorem Placed.slot (h : Placed d parent container parts start [.field m inner])
    (holds : d.Holds shown held)
    (inside : Stands (d.viewing shown) shown (own m start inner) (start + 1) inner
      (shownIn messages held m start inner)) :
    (∀ target ∈ Html.targetsOf ((d.viewing shown).filled (some ⟨start⟩)),
        ∃ h, (d.viewing shown).Resolves shown (.link target) h) ∧
      Html.markupOfWith ((d.viewing shown).writing shown) ((d.viewing shown).filled (some ⟨start⟩)) =
        Html.markupOf (if m.kind.acceptsPanel then
          Html.boxed (shownIn messages held m start inner).content else (held ⟨start⟩).toList) := by
  cases there : shown ⟨start⟩ with
  | some h' =>
    obtain ⟨filled, declines, markup⟩ := h.slot_shown holds there
    have resolves : (d.viewing shown).Resolves shown (.link (.shown ⟨start⟩)) h' := .shown there
    rw [filled, declines, if_neg (by simp), markup, Html.markupOfWith_singleton, Html.markupWith,
      Draft.writing_eq resolves]
    refine ⟨fun target mem => ?_, rfl⟩
    rw [List.mem_singleton.1 mem]
    exact ⟨h', resolves⟩
  | none =>
    have none : held ⟨start⟩ = none := by
      have looks := holds.looks ⟨start⟩
      rw [there] at looks
      exact Option.map_eq_none_iff.1 looks.symm
    have content := h.row.content
    unfold Piece.gathered at content
    rw [Draft.filled_viewing there]
    cases accepts : m.kind.acceptsPanel with
    | true =>
      obtain ⟨_, writable⟩ := h.writable
      have writable' : WritableAll true inner := accepts ▸ writable.1
      have apart := h.apart (⟨start⟩, m, inner) List.mem_cons_self accepts
      obtain ⟨leads, markup⟩ := inside.settled h.field.drawn h.field.distinct apart
      rw [accepts, (content_gather _ h.field.drawn writable').2] at content
      rw [← Except.ok.inj content, if_pos rfl]
      exact ⟨fun target mem => leads target (Html.targetsOf_boxed _ ▸ mem),
        Html.markupOf_boxed settledOf_eq_nil markup⟩
    | false =>
      have nothing : (Piece.gather (some m.kind) false (start + 1) (piecesOf inner) .none).markup =
          "" := Piece.markup_gather_dropping ..
      unfold Gathered.content at content
      rw [accepts, if_pos nothing] at content
      rw [← Except.ok.inj content, none, if_neg (by simp)]
      exact ⟨nofun, rfl⟩

/-! ### Captions -/

/-- The caption of a page. -/
def caption (messages : Messages) (x : Exposure) (e : FieldId × Made) : Html :=
  (Field.create e.1 e.2.kind e.2.name e.2.attributes).captionLook messages x

/-- The link to a caption leads to the caption of a page. -/
theorem Placed.leads_caption (h : Placed d parent (some .tabs) parts start xs)
    {e : FieldId × Made} (mem : e ∈ directIn start xs) (part : e ∈ parts) :
    ∃ x, Made.exposureIn (some .tabs) parts e = some x ∧
      ∃ h', (d.viewing shown).Resolves shown (.link (.caption e.1)) h' ∧
        h'.markup = (caption d.panel.messages x e).markup := by
  obtain ⟨g, row⟩ := exists_row_directIn xs start parent mem
  have there := (h.rows _ row).field
  have exposed := h.exposed e mem (Draft.fieldOf ⟨e.1, e.2, parent, g⟩) rfl rfl
  obtain ⟨x, exposure⟩ : ∃ x, Made.exposureIn (some .tabs) parts e = some x := by
    unfold Made.exposureIn
    rw [if_pos ⟨rfl, List.mem_map_of_mem part⟩]
    exact ⟨_, rfl⟩
  have unlinked : (caption d.panel.messages x e).targets = [] := Html.targetsOf_ofNodes _
  obtain ⟨h', look, markup⟩ :=
    @Draft.exists_resolves (d.viewing shown) shown (caption d.panel.messages x e) (by
      rw [unlinked]
      exact nofun)
  refine ⟨x, exposure, h', .caption there (exposed.trans exposure) look, ?_⟩
  rw [markup, Html.markupWith_of_unlinked unlinked]

/-- The captions of a tab container lead to the captions of its pages. -/
theorem Placed.captions (h : Placed d parent container parts start [.field m inner])
    (tabs : m.kind = .tabs) :
    (∀ e ∈ own m start inner, ∃ h', (d.viewing shown).Resolves shown (.link (.caption e.1)) h') ∧
      String.join ((own m start inner).map fun e => (d.viewing shown).writing shown (.caption e.1)) =
        Html.markupOf ((own m start inner).filterMap fun e =>
          (Made.exposureIn (some m.kind) (own m start inner) e).map
            (caption d.panel.messages · e)) := by
  have placed := h.field
  have leads : ∀ e ∈ own m start inner, ∃ x, Made.exposureIn (some m.kind) (own m start inner) e =
      some x ∧ ∃ h', (d.viewing shown).Resolves shown (.link (.caption e.1)) h' ∧
        h'.markup = (caption d.panel.messages x e).markup := by
    intro e mem
    rw [tabs] at placed ⊢
    exact placed.leads_caption (mem_directIn_of_mem_own mem) mem
  refine ⟨fun e mem => ?_, ?_⟩
  · obtain ⟨_, _, h', resolves, _⟩ := leads e mem
    exact ⟨h', resolves⟩
  · rw [Html.markupOf_eq_join, List.map_filterMap, ← List.filterMap_eq_map]
    refine congrArg String.join (List.filterMap_congr fun e mem => ?_)
    obtain ⟨x, exposure, h', resolves, markup⟩ := leads e mem
    rw [exposure, Function.comp_apply, Draft.writing_eq resolves, markup]
    rfl

/-! ### Widgets -/

/-- What was put into the widget of a field, as its sketch has it: only a tab container shows
captions. -/
def given (d : Draft) (start : Nat) (m : Made) (inner : List Sketch) : Parts where
  header := (own m start inner).head?.map fun e => .link (.widget e.1)
  slot := d.filled (some ⟨start⟩)
  captions := if m.kind = .tabs then
    ((own m start inner).map fun e => Link.caption e.1).map .link else []
  pages := ((own m start inner).map fun e => Link.widget e.1).map .link

theorem Placed.look (h : Placed d parent container parts start [.field m inner])
    (shown : FieldId → Option Html) :
    (d.viewing shown).look (fieldAt parent start m inner) =
      (Field.create ⟨start⟩ m.kind m.name m.attributes).look d.panel.messages
        (Made.exposureIn container parts (⟨start⟩, m)) (given (d.viewing shown) start m inner) := by
  have exposed := h.exposed (⟨start⟩, m) List.mem_cons_self (fieldAt parent start m inner) rfl rfl
  have put : (d.viewing shown).parts (fieldAt parent start m inner) =
      { given (d.viewing shown) start m inner with
        captions := (own m start inner).map fun e => .link (.caption e.1) } := by
    unfold Draft.parts given
    rw [attached_fieldAt, List.head?_map, Option.map_map]
    simp only [List.map_map]
    rfl
  have look : (d.viewing shown).look (fieldAt parent start m inner) =
      (Field.create ⟨start⟩ m.kind m.name m.attributes).look d.panel.messages
        (d.exposure? (fieldAt parent start m inner))
        ((d.viewing shown).parts (fieldAt parent start m inner)) := rfl
  rw [look, put, exposed]
  by_cases tabs : m.kind = .tabs
  · unfold given
    rw [if_pos tabs, List.map_map]
    rfl
  · rw [Field.look_captions _ _ _ tabs]
    unfold given
    rw [if_neg tabs]

/-- What was put into a widget leads somewhere. -/
theorem Placed.targets_given (h : Placed d parent container parts start [.field m inner])
    (holds : d.Holds shown held)
    (inside : Stands (d.viewing shown) shown (own m start inner) (start + 1) inner
      (shownIn d.panel.messages held m start inner)) :
    ∀ target ∈ (given (d.viewing shown) start m inner).targets,
      ∃ h', (d.viewing shown).Resolves shown (.link target) h' := by
  have leads : ∀ e ∈ own m start inner,
      ∃ h', (d.viewing shown).Resolves shown (.link (.widget e.1)) h' :=
    fun e mem => inside.leads e (mem_directIn_of_mem_own mem)
  intro target mem
  unfold Parts.targets given at mem
  simp only [List.mem_append] at mem
  rcases mem with (header | slot) | captions | pages
  · cases first : own m start inner with
    | nil =>
      rw [first] at header
      cases header
    | cons e rest =>
      rw [first] at header
      obtain rfl := List.mem_singleton.1 header
      exact leads e (first ▸ List.mem_cons_self)
  · exact (h.slot holds inside).1 target slot
  · split at captions
    · case isTrue tabs =>
      rw [Html.targetsOf_map_link, List.mem_map] at captions
      obtain ⟨e, mem, rfl⟩ := captions
      exact (h.captions tabs).1 e mem
    · cases captions
  · rw [Html.targetsOf_map_link, List.mem_map] at pages
    obtain ⟨e, mem, rfl⟩ := pages
    exact leads e mem

/-- What was put into a widget looks like what its widget holds in the rendering. -/
theorem Placed.markupWith_given (h : Placed d parent container parts start [.field m inner])
    (holds : d.Holds shown held)
    (inside : Stands (d.viewing shown) shown (own m start inner) (start + 1) inner
      (shownIn d.panel.messages held m start inner)) :
    ((Field.create ⟨start⟩ m.kind m.name m.attributes).look d.panel.messages
        (Made.exposureIn container parts (⟨start⟩, m))
        (given (d.viewing shown) start m inner)).markupWith ((d.viewing shown).writing shown) =
      (widget d.panel.messages held ⟨start⟩ m (Made.exposureIn container parts (⟨start⟩, m))
        (own m start inner) (shownIn d.panel.messages held m start inner)).markup := by
  have pages := inside.parts
  rw [filter_own] at pages
  refine Field.markupWith_look _ _ _ _ ?_ (h.slot holds inside).2 ?_ ?_
  · have heads := congrArg List.head? pages
    rw [List.head?_map, List.head?_map] at heads
    unfold given
    rw [Option.map_map]
    exact heads
  · unfold given
    by_cases tabs : m.kind = .tabs
    · rw [if_pos tabs, Html.markupOfWith_map_link, List.map_map]
      exact (h.captions tabs).2
    · have none : ∀ e, Made.exposureIn (some m.kind) (own m start inner) e = none := by
        intro e
        unfold Made.exposureIn
        rw [if_neg fun both => tabs (Option.some.inj both.1)]
      rw [if_neg tabs, List.filterMap_eq_nil_iff.2 fun e _ => by rw [none]; rfl]
      rfl
  · unfold given
    rw [Html.markupOfWith_map_link, List.map_map, Html.markupOf_eq_join, ← pages]
    rfl

/-- **The link to a field** leads to the widget of the field in the rendering. -/
theorem Placed.leads (h : Placed d parent container parts start [.field m inner])
    (holds : d.Holds shown held)
    (inside : Stands (d.viewing shown) shown (own m start inner) (start + 1) inner
      (shownIn d.panel.messages held m start inner)) :
    ∃ h', (d.viewing shown).Resolves shown (.link (.widget ⟨start⟩)) h' ∧
      h'.markup = (widget d.panel.messages held ⟨start⟩ m (Made.exposureIn container parts (⟨start⟩, m))
        (own m start inner) (shownIn d.panel.messages held m start inner)).markup := by
  have look := h.look shown
  obtain ⟨h', resolves, markup⟩ := @Draft.exists_resolves (d.viewing shown) shown
    ((d.viewing shown).look (fieldAt parent start m inner)) fun target mem =>
      h.targets_given holds inside target (Field.targets_look _ _ _ _ _ (look ▸ mem))
  exact ⟨h', .widget h.row.field resolves,
    markup.trans ((congrArg _ look).trans (h.markupWith_given holds inside))⟩

/-! ### Whole sketches -/

section Whole

variable {x : Sketch} {tag : Markup.Tag} {s first rest : Shown}

/-- Sketches that stand one after the other. -/
theorem Stands.cons (here : Stands d shown parts start [x] first)
    (later : Stands d shown parts (start + x.count) xs rest) :
    Stands d shown parts start (x :: xs)
      ⟨first.content ++ rest.content, first.parts ++ rest.parts⟩ where
  leads e mem := by
    rcases List.mem_append.1 mem with mem | mem
    · exact here.leads e (by rwa [directIn, directIn, List.append_nil])
    · exact later.leads e mem
  content := by
    have content := here.content
    rw [writtenOf, writtenOf, String.append_empty] at content
    rw [writtenOf, content, later.content, Html.markupOf_eq_join, Html.markupOf_eq_join,
      Html.markupOf_eq_join, List.map_append, String.join_append]
  parts := by
    have parts := here.parts
    rw [directIn, directIn, List.append_nil] at parts
    rw [directIn, List.filter_append, List.map_append, parts, later.parts, List.map_append]

mutual
/-- **The links to the fields of a sketch** lead to what is shown of it. -/
theorem stands_render (holds : d.Holds shown held) : ∀ (x : Sketch) {parent : Option FieldId}
    {container : Option FieldKind} {parts : List (FieldId × Made)} {start : Nat},
    Placed d parent container parts start [x] → Stands (d.viewing shown) shown parts start [x]
      (render d.panel.messages held container parts start x)
  | .text content, _, _, _, _, _ => by
    refine ⟨nofun, ?_, rfl⟩
    rw [writtenOf, writtenOf, written, render, String.append_empty]
    unfold Page.textNodes
    by_cases nothing : content = ""
    · rw [if_pos nothing, nothing]
      rfl
    · rw [if_neg nothing]
      exact String.append_empty.symm
  | .element tag inner, _, container, parts, start, h => by
    obtain ⟨leads, content, shownParts⟩ := stands_renderOf holds inner h.element
    refine ⟨fun e mem => leads e (by rwa [directIn, directIn, List.append_nil] at mem), ?_, ?_⟩
    · rw [writtenOf, writtenOf, written, content, render, Html.markupOf, Html.markupOf, Html.markup,
        Html.around]
    · rw [directIn, directIn, List.append_nil]
      exact shownParts
  | .field m inner, parent, container, parts, start, h => by
    obtain ⟨h', resolves, markup⟩ := h.leads holds (stands_renderOf holds inner h.field)
    have writing := (Draft.writing_eq resolves).trans markup
    refine ⟨fun e mem => ?_, ?_, ?_⟩
    · obtain rfl := List.mem_singleton.1 mem
      exact ⟨h', resolves⟩
    · rw [writtenOf, writtenOf, written, String.append_empty, render]
      by_cases part : (⟨start⟩ : FieldId) ∈ parts.map Prod.fst
      · simp only [part, decide_true, if_true]
        rfl
      · simp only [part, decide_false, if_false]
        exact writing.trans String.append_empty.symm
    · rw [directIn, directIn, List.append_nil, direct, render]
      by_cases part : (⟨start⟩ : FieldId) ∈ parts.map Prod.fst
      · simp only [part, decide_true, if_true, List.filter_cons_of_pos, List.filter_nil]
        exact congrArg ([·]) writing
      · rw [if_neg part, List.filter_cons_of_neg (by simpa using part)]
        rfl

/-- **The links to the fields of some sketches** lead to what is shown of them. -/
theorem stands_renderOf (holds : d.Holds shown held) : ∀ (xs : List Sketch)
    {parent : Option FieldId} {container : Option FieldKind} {parts : List (FieldId × Made)}
    {start : Nat}, Placed d parent container parts start xs →
      Stands (d.viewing shown) shown parts start xs
        (renderOf d.panel.messages held container parts start xs)
  | [], _, _, _, _, _ => ⟨nofun, rfl, rfl⟩
  | x :: xs, _, _, _, _, h => (stands_render holds x h.first).cons (stands_renderOf holds xs h.rest)
end

end Whole

end Sketch

end Formwork