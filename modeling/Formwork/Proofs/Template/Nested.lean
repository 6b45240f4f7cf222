import Formwork.Proofs.Panel.ShowView
import Formwork.Proofs.Template.Collect

/-!
# Panels within panels

When the fields of a template are there, its views are filled with the panels of the templates that
they name, each of them built in the same way.  What such a panel looks like as a whole can be said
without the page: its draft shows the other panels by links (`Draft.viewing`), and the links are
followed (`Builder.Built`).

Filling views does what it should, provided that building the panels does
(`Builder.exec_fillViews`): building may refuse some templates, and then so does filling a view with
one of these.
-/

namespace Formwork

set_option autoImplicit false

/-! ## The draft of a template -/

/-- What the draft of a template holds whose own element stands for no field. -/
structure Draft.Outlined (d : Draft) (inner : List Piece) : Prop where
  sound : d.Sound
  size : d.size = Piece.countOf inner
  rows : ∀ row ∈ Piece.rowsOf none 0 inner, d.HasRow row
  names : d.panel.table.names = Draft.indexOf .empty (Piece.rowsOf none 0 inner)
  root : (Piece.gather none true 0 inner .none).content id = .ok (d.filled none)

/-- What settling puts into the panel is what was collected. -/
theorem Play.filled_settle {p : Play} {g : Gathered} {settled : Draft} (markup : p.markup = g.markup)
    (marks : p.marks = g.marks) (unfilled : p.draft.filled none = [])
    (run : p.settle none id = .ok settled) : g.content id = .ok (settled.filled none) := by
  unfold settle at run
  unfold Gathered.content
  rw [← markup, ← marks]
  by_cases nothing : p.markup = ""
  · rw [if_pos nothing] at run ⊢
    cases run
    rw [unfilled]
  · rw [if_neg nothing] at run ⊢
    cases read : Markup.parseFragment p.markup with
    | error e =>
      rw [read] at run
      cases run
    | ok ns =>
      rw [read] at run
      cases run
      exact congrArg Except.ok (Draft.filled_fill_self ..).symm

/-- **The draft of a template** has the fields of its outline with their content. -/
theorem Play.template_outlined {panel : Panel} {inner : List Piece} {d : Draft}
    (empty : panel.table = .empty) (run : template (.blank panel) none inner = .ok d) :
    d.Outlined inner := by
  obtain ⟨size, _, names⟩ := template_rows empty run
  obtain ⟨played, run, settled⟩ := template_eq_ok.1 run
  have open_ : Open none (rootPlay (.blank panel) none) := Open.blank empty
  have outlines := pieces_outlines (g := .none) inner run open_ ⟨rfl, rfl, nofun, fun _ => rfl⟩
  obtain ⟨grows, open'⟩ := pieces_grows inner run open_
  have zero : (rootPlay (.blank panel) none).draft.size = 0 := by
    unfold Draft.size rootPlay Draft.blank
    rw [Option.elim_none, empty]
    rfl
  have rows := outlines.rows
  have finds := outlines.finds
  rw [zero] at rows finds
  have unfilled : played.draft.filled none = [] := grows.filled none nofun
  refine ⟨?_, size, fun row mem => ?_, names, filled_settle finds.markup finds.marks unfilled settled⟩
  · rcases settle_eq settled with rfl | ⟨content, rfl⟩
    · exact open'.sound
    · exact open'.sound.fill _ _
  · rcases settle_eq settled with rfl | ⟨content, rfl⟩
    · exact rows row mem
    · exact (rows row mem).fill (by simp) content

namespace Piece

mutual
/-- A field that shows no content collects nothing. -/
theorem markup_rows_dropping (parent : Option FieldId) : ∀ (x : Piece) (start : Nat),
    ∀ row ∈ rows parent start x, row.made.kind.acceptsPanel = false → row.gathered.markup = ""
  | .run _, _ => nofun
  | .field m inner, start => by
    intro row mem declines
    rw [rows] at mem
    rcases List.mem_cons.1 mem with rfl | inside
    · have dropped : m.kind.acceptsPanel = false := declines
      show (gather (some m.kind) m.kind.acceptsPanel (start + 1) inner .none).markup = ""
      rw [dropped, markup_gather_dropping]
      rfl
    · exact markup_rowsOf_dropping _ inner _ row inside declines

theorem markup_rowsOf_dropping (parent : Option FieldId) : ∀ (xs : List Piece) (start : Nat),
    ∀ row ∈ rowsOf parent start xs, row.made.kind.acceptsPanel = false → row.gathered.markup = ""
  | [], _ => nofun
  | x :: xs, start => by
    intro row mem declines
    rw [rowsOf] at mem
    rcases List.mem_append.1 mem with first | rest
    · exact markup_rows_dropping parent x start row first declines
    · exact markup_rowsOf_dropping parent xs _ row rest declines
end

end Piece

namespace Draft.Outlined

variable {d : Draft} {inner : List Piece} {f : FieldId} {field : Field}

/-- Every field of the draft has a row. -/
theorem row_of (h : d.Outlined inner) (found : d.field? f = some field) :
    ∃ row ∈ Piece.rowsOf none 0 inner, row.id = f ∧ field = Draft.fieldOf row := by
  have small := Draft.lt_size found
  have listed : f.index ∈ (Piece.rowsOf none 0 inner).map fun row => row.id.index := by
    rw [Piece.map_id_rowsOf, List.mem_range'_1, ← h.size]
    omega
  obtain ⟨row, mem, same⟩ := List.mem_map.1 listed
  obtain rfl : row.id = f := congrArg FieldId.mk same
  exact ⟨row, mem, rfl, Option.some.inj (found.symm.trans (h.rows row mem).field)⟩

/-- Nothing was put into a field that takes no content. -/
theorem unfilled (h : d.Outlined inner) (found : d.field? f = some field)
    (declines : field.kind.acceptsPanel = false) : d.filled (some f) = [] := by
  obtain ⟨row, mem, rfl, rfl⟩ := h.row_of found
  have content := (h.rows row mem).content
  unfold Gathered.content at content
  rw [if_pos (Piece.markup_rowsOf_dropping none inner 0 row mem declines)] at content
  exact (Except.ok.inj content).symm

end Draft.Outlined

/-! ## Where panels are shown -/

namespace Html

mutual
theorem mem_targets_without {f : FieldId} {target : Link} : ∀ {h : Html},
    target ∈ targetsOf (without f h) → target ∈ h.targets
  | .text _, mem => mem
  | .element _ _ children, mem => by
    rw [without, targetsOf, targets, targetsOf, List.append_nil] at mem
    exact mem_targetsOf_withoutAll mem
  | .link _, mem => by
    rw [without] at mem
    split at mem
    · cases mem
    · simpa [targetsOf] using mem

theorem mem_targetsOf_withoutAll {f : FieldId} {target : Link} : ∀ {hs : List Html},
    target ∈ targetsOf (withoutAll f hs) → target ∈ targetsOf hs
  | [], mem => mem
  | h :: hs, mem => by
    rw [withoutAll, targetsOf_append, List.mem_append] at mem
    rw [targetsOf, List.mem_append]
    exact mem.imp mem_targets_without mem_targetsOf_withoutAll
end

theorem mem_targetsOf_withoutEach {target : Link} : ∀ (fs : List FieldId) {hs : List Html},
    target ∈ targetsOf (withoutEach fs hs) → target ∈ targetsOf hs
  | [], _, mem => mem
  | _ :: fs, _, mem => mem_targetsOf_withoutAll (mem_targetsOf_withoutEach fs mem)

end Html

namespace Placeholders

mutual
theorem targets_settleNode (placeholders : Placeholders) : ∀ n : Markup.Node,
    ∀ target ∈ Html.targetsOf (placeholders.settleNode n), target.isShown = false
  | .text _ => nofun
  | .element tag children => by
    intro target mem
    rw [settleNode] at mem
    split at mem
    · obtain rfl := List.mem_singleton.1 mem
      rfl
    · rw [Html.targetsOf, Html.targets, Html.targetsOf, List.append_nil] at mem
      exact targets_settle placeholders children target mem

/-- Markup shows no panels. -/
theorem targets_settle (placeholders : Placeholders) : ∀ ns : List Markup.Node,
    ∀ target ∈ Html.targetsOf (placeholders.settle ns), target.isShown = false
  | [] => nofun
  | n :: ns => by
    intro target mem
    rw [settle, Html.targetsOf_append, List.mem_append] at mem
    rcases mem with first | rest
    · exact targets_settleNode placeholders n target (Html.mem_targetsOf_withoutEach _ first)
    · exact targets_settle placeholders ns target rest
end

end Placeholders

/-- What was collected shows no panels. -/
theorem Gathered.targets_content {g : Gathered} {wrap : List Html → List Html}
    (wraps : ∀ hs, Html.targetsOf (wrap hs) = Html.targetsOf hs) {content : List Html}
    (settled : g.content wrap = .ok content) :
    ∀ target ∈ Html.targetsOf content, target.isShown = false := by
  unfold Gathered.content at settled
  by_cases nothing : g.markup = ""
  · rw [if_pos nothing] at settled
    cases settled
    exact nofun
  · rw [if_neg nothing] at settled
    cases read : Markup.parseFragment g.markup with
    | error e =>
      rw [read] at settled
      cases settled
    | ok ns =>
      rw [read] at settled
      cases settled
      intro target mem
      rw [wraps] at mem
      exact g.marks.targets_settle ns target mem

theorem Play.targets_wrapped (hs : List Html) :
    Html.targetsOf (Play.wrapped hs) = Html.targetsOf hs := List.append_nil _

/-- Other panels are shown in the slot of a widget only. -/
theorem Draft.targets_parts (d : Draft) (field : Field) : ∀ target ∈ (d.parts field).targets,
    target.isShown = true → target ∈ Html.targetsOf (d.filled (some field.id)) := by
  intro target mem shown
  have links : ∀ (link : FieldId → Link), (∀ f, (link f).isShown = false) → ∀ fs : List FieldId,
      target ∉ Html.targetsOf (fs.map fun f => .link (link f)) := by
    intro link plain fs mem
    have same : (fs.map fun f => Html.link (link f)) = (fs.map link).map .link := by
      rw [List.map_map]
      rfl
    rw [same, Html.targetsOf_map_link, List.mem_map] at mem
    obtain ⟨f, _, rfl⟩ := mem
    cases (plain f).symm.trans shown
  unfold Parts.targets parts at mem
  simp only [List.mem_append] at mem
  rcases mem with (header | slot) | captions | pages
  · refine absurd header ?_
    cases field.attached.head? with
    | none => exact links .widget (fun _ => rfl) []
    | some f => exact links .widget (fun _ => rfl) [f]
  · exact slot
  · exact absurd captions (links .caption (fun _ => rfl) _)
  · exact absurd pages (links .widget (fun _ => rfl) _)

/-- A panel that was assembled shows no other panels yet. -/
theorem Scene.Depicts.showsNone {base : Page} {L : Layout} {s : Scene} {d : Draft}
    {inner : List Piece} (h : s.Depicts base L d) (outlined : d.Outlined inner) :
    s.Shows base L fun _ => none where
  linked {k r f n} hk plain mem := by
    have target : .shown f ∈ r.dom.html.targets := by
      rw [Dom.targets_html]
      exact List.mem_map_of_mem mem
    exfalso
    cases k with
    | loose i => cases plain
    | panel =>
      obtain ⟨kids, there, looks⟩ := h.root
      cases hk.symm.trans there
      rw [Dom.html, looks, Html.targets] at target
      cases Gathered.targets_content (fun _ => rfl) outlined.root _ target
    | tree link =>
      cases link with
      | shown g => cases plain
      | widget g =>
        obtain ⟨field, w, found, _, draws⟩ := h.exists_drawn hk
        rw [draws.html] at target
        have part : .shown f ∈ (d.parts field).targets :=
          field.targets_look d.panel.messages (d.exposure? field) (d.parts field) _ target
        have content := Draft.targets_parts d field _ part rfl
        obtain ⟨row, mem, rfl, rfl⟩ := outlined.row_of found
        cases Gathered.targets_content Play.targets_wrapped (outlined.rows row mem).content _ content
      | caption g =>
        obtain ⟨_, _, _, _, m, kids, shape, looks⟩ := h.exists_captioned hk
        rw [shape, Dom.html, looks, Html.targets] at target
        unfold Face.shownText at target
        rw [Html.targetsOf_ofNodes] at target
        cases target
  has there := nomatch there
  unlinked there := nomatch there
  apart there := nomatch there
  fresh there := nomatch there
  outside there := nomatch there

/-! ## The views of a template -/

namespace OrderedMap

variable {κ α : Type} [DecidableEq κ]

/-- Adding to the list under a key adds to the lists as a whole. -/
theorem perm_flatten_put (k : κ) (x : α) : ∀ es : List (κ × List α),
    ((put k ((find? k es).getD [] ++ [x]) es).map Prod.snd).flatten.Perm
      ((es.map Prod.snd).flatten ++ [x])
  | [] => by simp [put, find?]
  | e :: es => by
    by_cases same : e.1 = k
    · rw [put, if_pos same, find?, if_pos same]
      simp only [Option.getD_some, List.map_cons, List.flatten_cons, List.append_assoc]
      exact List.Perm.append_left _ List.perm_append_comm
    · rw [put, if_neg same, find?, if_neg same]
      simp only [List.map_cons, List.flatten_cons, List.append_assoc]
      exact List.Perm.append_left _ (perm_flatten_put k x es)

end OrderedMap

/-- An index lists the fields of its rows. -/
theorem Draft.perm_indexOf : ∀ (rows : List Row) (names : OrderedMap String (List FieldId)),
    (Draft.indexOf names rows).values.flatten.Perm (names.values.flatten ++ rows.map Row.id)
  | [], names => by simp [Draft.indexOf]
  | row :: rows, names => by
    have rest := perm_indexOf rows (names.insert row.made.name
      ((names.get? row.made.name).getD [] ++ [row.id]))
    refine rest.trans ?_
    have first := OrderedMap.perm_flatten_put row.made.name row.id names.toList
    refine (first.append_right _).trans ?_
    rw [List.append_assoc, List.map_cons]
    rfl

namespace Draft.Outlined

variable {d : Draft} {inner : List Piece}

/-- All fields of the draft are listed, each of them once. -/
theorem perm_ids (h : d.Outlined inner) :
    d.panel.table.ids.Perm ((Piece.rowsOf none 0 inner).map Row.id) := by
  unfold FieldTable.ids
  rw [h.names]
  exact (perm_indexOf _ .empty).trans (List.Perm.of_eq (List.nil_append _))

theorem nodup_ids (h : d.Outlined inner) : d.panel.table.ids.Nodup := by
  refine h.perm_ids.nodup_iff.2 ?_
  refine List.Nodup.of_map FieldId.index ?_
  rw [List.map_map]
  exact (Piece.map_id_rowsOf none 0 inner).symm ▸ List.nodup_range' 1

/-- The fields that are listed are those of the draft. -/
theorem mem_fields (h : d.Outlined inner) {field : Field} :
    field ∈ d.panel.table.fields ↔ d.field? field.id = some field := by
  unfold FieldTable.fields
  rw [List.mem_filterMap]
  constructor
  · rintro ⟨f, _, found⟩
    obtain rfl := h.sound.ids found
    exact found
  · intro found
    obtain ⟨row, mem, same, _⟩ := h.row_of found
    exact ⟨_, h.perm_ids.mem_iff.2 (same ▸ List.mem_map_of_mem mem), found⟩

theorem map_id_fields (h : d.Outlined inner) :
    d.panel.table.fields.map Field.id = d.panel.table.ids := by
  have found : ∀ f ∈ d.panel.table.ids, (d.field? f).map Field.id = some f := by
    intro f mem
    obtain ⟨row, mem', rfl⟩ := List.mem_map.1 (h.perm_ids.mem_iff.1 mem)
    rw [(h.rows row mem').field]
    rfl
  unfold FieldTable.fields
  rw [List.map_filterMap]
  refine (List.filterMap_congr found).trans ?_
  exact List.filterMap_some

/-- The views of the draft are different fields. -/
theorem nodup_views (h : d.Outlined inner) :
    ((Builder.viewsOf d.panel).map Prod.fst).Nodup := by
  unfold Builder.viewsOf
  rw [List.map_map]
  refine List.Nodup.sublist ?_ h.nodup_ids
  rw [← h.map_id_fields]
  exact List.filter_sublist.map Field.id

theorem mem_views (h : d.Outlined inner) {f : FieldId} {name : Option String} :
    (f, name) ∈ Builder.viewsOf d.panel ↔ ∃ field, d.field? f = some field ∧ field.kind = .view ∧
      field.attr? Vocabulary.templateKey = name := by
  unfold Builder.viewsOf
  simp only [List.mem_map, List.mem_filter, h.mem_fields, decide_eq_true_eq, Prod.mk.injEq]
  constructor
  · rintro ⟨field, ⟨found, kind⟩, rfl, rfl⟩
    exact ⟨field, found, kind, rfl⟩
  · rintro ⟨field, found, kind, rfl⟩
    obtain rfl := h.sound.ids found
    exact ⟨field, ⟨found, kind⟩, rfl, rfl⟩

end Draft.Outlined

/-- The views of a panel do not depend on its widgets. -/
theorem Builder.viewsOf_bare (p : Panel) : viewsOf p.bare = viewsOf p := by
  have fields : p.bare.table.fields = p.table.fields.map Field.bare := by
    unfold FieldTable.fields
    rw [List.map_filterMap]
    exact List.filterMap_congr fun f _ => FieldTable.field?_bare _ _
  unfold viewsOf
  rw [fields, List.filter_map, List.map_map]
  rfl

/-! ## Filling views -/

/-- A draft whose views show panels. -/
def Draft.viewing (d : Draft) (shown : FieldId → Option Html) : Draft :=
  { d with filled := fun target => target.elim (d.filled none) fun f =>
      if (shown f).isSome then [.link (.shown f)] else d.filled (some f) }

namespace Draft

variable {d : Draft} {shown : FieldId → Option Html} {f : FieldId}

theorem viewing_none (d : Draft) : d.viewing (fun _ => none) = d := by
  have same : (d.viewing fun _ => none).filled = d.filled := by
    funext target
    cases target <;> rfl
  exact congrArg (Draft.mk d.panel) same

theorem filled_viewing (unshown : shown f = none) :
    (d.viewing shown).filled (some f) = d.filled (some f) := by
  unfold viewing
  dsimp only [Option.elim_some]
  rw [unshown]
  rfl

/-- Showing one more panel. -/
theorem fill_viewing (d : Draft) (shown : FieldId → Option Html) (f : FieldId) (h : Html) :
    (d.viewing shown).fill (some f) [.link (.shown f)] =
      d.viewing (Function.update shown f (some h)) := by
  have same : ((d.viewing shown).fill (some f) [.link (.shown f)]).filled =
      (d.viewing (Function.update shown f (some h))).filled := by
    funext target
    cases target with
    | none => exact filled_fill_of_ne _ _ nofun
    | some g =>
      by_cases eq : g = f
      · subst eq
        rw [filled_fill_self]
        unfold viewing
        dsimp only [Option.elim_some]
        rw [Function.update_self]
        rfl
      · rw [filled_fill_of_ne _ _ (by simpa using eq)]
        unfold viewing
        dsimp only [Option.elim_some]
        rw [Function.update_of_ne eq]
  exact congrArg (Draft.mk d.panel) same

theorem Sound.viewing (sound : d.Sound) (shown : FieldId → Option Html) : (d.viewing shown).Sound :=
  ⟨sound.ids, sound.attached, sound.distinct, sound.older⟩

end Draft

namespace Builder

mutual
/-- What is in the panel of a template as a whole, and the counters before and after it was built. -/
inductive Built (b : Builder) : String → CounterPool → List Html → CounterPool → Prop where
  | panel {name : String} {t : Template} {page : Page} {c c₁ c₂ : CounterPool} {inner : List Piece}
      {d : Draft} {shown : FieldId → Option Html} {kids : List Html}
      (found : b.templates.get? name = some t)
      (pieces : Piece.ofTemplate b.series c t = (none, inner, c₁))
      (played : b.played page none inner = .ok d)
      (views : Filled b (viewsOf d.panel) (fun _ => none) c₁ shown c₂)
      (whole : (d.viewing shown).ResolvesAll shown (d.filled none) kids) : Built b name c kids c₂

/-- What views show when they are filled, and the counters before and after. -/
inductive Filled (b : Builder) : List (FieldId × Option String) → (FieldId → Option Html) →
    CounterPool → (FieldId → Option Html) → CounterPool → Prop where
  | nil {shown : FieldId → Option Html} {c : CounterPool} : Filled b [] shown c shown c
  | unnamed {f : FieldId} {views : List (FieldId × Option String)}
      {shown shown' : FieldId → Option Html} {c c' : CounterPool}
      (rest : Filled b views shown c shown' c') : Filled b ((f, none) :: views) shown c shown' c'
  | unknown {f : FieldId} {name : String} {views : List (FieldId × Option String)}
      {shown shown' : FieldId → Option Html} {c c' : CounterPool}
      (absent : b.templates.get? name = none) (rest : Filled b views shown c shown' c') :
      Filled b ((f, some name) :: views) shown c shown' c'
  | shown {f : FieldId} {name : String} {views : List (FieldId × Option String)}
      {shown shown' : FieldId → Option Html} {kids : List Html} {c c₁ c' : CounterPool}
      (built : Built b name c kids c₁)
      (rest : Filled b views (Function.update shown f (some (.element "div" .empty kids))) c₁
        shown' c') :
      Filled b ((f, some name) :: views) shown c shown' c'
end

/-- What building a template gives: nothing when there is no such template, and else a panel that
lies on the page on top of what was there. -/
inductive Gives (b : Builder) (name : String) (w : Workspace) : Option Panel → Workspace → Prop where
  | nothing (absent : b.templates.get? name = none) : Gives b name w none w
  | panel {p : Panel} {w' : Workspace} {kids : List Dom}
      (bears : w.page.Bears w'.page p.root kids)
      (built : b.Built name w.counters (Dom.htmlOf kids) w'.counters) : Gives b name w (some p) w'

/-- An operation builds all templates but some, which it refuses. -/
structure Builds (b : Builder) (build : String → WorkM (Option Panel)) (refused : String → Prop) :
    Prop where
  refuses : ∀ {name}, refused name → ∀ w, ∃ u w',
    exec (build name) w = (.error (.recursiveTemplate u), w')
  gives : ∀ {name}, ¬ refused name → ∀ w, ∃ o w',
    exec (build name) w = (.ok o, w') ∧ b.Gives name w o w'

/-- A scene in which some views of a draft show panels. -/
structure Views (base : Page) (L : Layout) (s : Scene) (d : Draft) (shown : FieldId → Option Html)
    (doms : FieldId → Option Dom) : Prop where
  depicts : s.Depicts base L (d.viewing shown)
  shows : s.Shows base L doms
  looks : ∀ f, (doms f).map Dom.html = shown f

variable {b : Builder} {build : String → WorkM (Option Panel)} {refused : String → Prop}
  {base : Page} {L : Layout} {s : Scene} {d : Draft} {shown : FieldId → Option Html}
  {doms : FieldId → Option Dom}

/-- Showing a panel that was built. -/
theorem Views.exec_setView (h : Views base L s d shown doms) (sound : d.Sound) {f : FieldId}
    {field : Field} (found : d.field? f = some field) (kind : field.kind = .view)
    (unfilled : d.filled (some f) = []) (unshown : shown f = none) {p : Panel} {w : Workspace}
    {kids : List Dom} (bears : s.page.Bears w.page p.root kids) :
    ∃ s' L' doms', exec (onPanel s.panel (PanelM.setView f p)) w =
        (.ok ((), s'.panel), ⟨s'.page, s'.counters⟩) ∧
      Views base L' s' d
        (Function.update shown f (some (.element "div" .empty (Dom.htmlOf kids)))) doms' ∧
      s'.counters = w.counters := by
  have absent : doms f = none := by
    have look := h.looks f
    rw [unshown] at look
    exact Option.map_eq_none_iff.1 look
  obtain ⟨s', L', run, depicts, shows, counters⟩ := h.depicts.exec_setView (sound.viewing shown)
    h.shows found kind ((Draft.filled_viewing unshown).trans unfilled) absent p bears w.counters
  rw [Draft.fill_viewing d shown f (.element "div" .empty (Dom.htmlOf kids))] at depicts
  refine ⟨s', L', _, ?_, ⟨depicts, shows, fun g => ?_⟩, counters⟩
  · rw [onPanel_eq_within]
    exact exec_within_ok run
  · by_cases same : g = f
    · subst same
      rw [Function.update_self, Function.update_self]
      rfl
    · rw [Function.update_of_ne same, Function.update_of_ne same, h.looks]

/-- What filling views comes to: one of the templates that they name is refused, or all of their
panels are shown. -/
inductive FillsTo (b : Builder) (refused : String → Prop) (base : Page) (d : Draft)
    (views : List (FieldId × Option String)) (shown : FieldId → Option Html) (c : CounterPool) :
    Except BuildError Panel × Workspace → Prop where
  | refused {f : FieldId} {name u : String} {w' : Workspace} (mem : (f, some name) ∈ views)
      (doomed : refused name) :
      FillsTo b refused base d views shown c (.error (.recursiveTemplate u), w')
  | filled {s' : Scene} {L' : Layout} {shown' : FieldId → Option Html}
      {doms' : FieldId → Option Dom} (allowed : ∀ f name, (f, some name) ∈ views → ¬ refused name)
      (looks : Views base L' s' d shown' doms')
      (filled : b.Filled views shown c shown' s'.counters) :
      FillsTo b refused base d views shown c (.ok s'.panel, ⟨s'.page, s'.counters⟩)

/-- Filling one view more. -/
theorem FillsTo.cons {views : List (FieldId × Option String)} {f : FieldId} {name : Option String}
    {shown shown₁ : FieldId → Option Html} {c c₁ : CounterPool}
    {r : Except BuildError Panel × Workspace} (h : FillsTo b refused base d views shown₁ c₁ r)
    (allowed : ∀ u, name = some u → ¬ refused u)
    (more : ∀ {shown' c'}, b.Filled views shown₁ c₁ shown' c' →
      b.Filled ((f, name) :: views) shown c shown' c') :
    FillsTo b refused base d ((f, name) :: views) shown c r := by
  cases h with
  | refused mem doomed => exact .refused (List.mem_cons_of_mem _ mem) doomed
  | filled others looks filled =>
    refine .filled (fun g u mem => ?_) looks (more filled)
    rcases List.mem_cons.1 mem with first | later
    · exact allowed u (Prod.mk.inj first).2.symm
    · exact others g u later

/-- **Filling views** builds and shows the panels of the templates that they name, and fails just
when building one of these is refused. -/
theorem exec_fillViews (builds : b.Builds build refused) (sound : d.Sound) :
    ∀ (views : List (FieldId × Option String)) {L : Layout} {s : Scene}
      {shown : FieldId → Option Html} {doms : FieldId → Option Dom}, Views base L s d shown doms →
      (views.map Prod.fst).Nodup →
      (∀ view ∈ views, ∃ field, d.field? view.1 = some field ∧ field.kind = .view ∧
        d.filled (some view.1) = [] ∧ shown view.1 = none) →
      FillsTo b refused base d views shown s.counters
        (exec (fillViews build s.panel views) ⟨s.page, s.counters⟩)
  | [], _, _, _, _, h, _, _ => .filled nofun h .nil
  | (f, none) :: views, _, _, _, _, h, distinct, known => by
    have rest := exec_fillViews builds sound views h (List.nodup_cons.1 distinct).2
      fun view mem => known view (List.mem_cons_of_mem _ mem)
    exact rest.cons nofun .unnamed
  | (f, some name) :: views, _, s, _, _, h, distinct, known => by
    obtain ⟨new, distinct⟩ := List.nodup_cons.1 distinct
    by_cases doomed : refused name
    · obtain ⟨u, w', run⟩ := builds.refuses doomed ⟨s.page, s.counters⟩
      have step : exec (fillViews build s.panel ((f, some name) :: views)) ⟨s.page, s.counters⟩ =
          (.error (.recursiveTemplate u), w') := exec_bind_error run
      rw [step]
      exact .refused List.mem_cons_self doomed
    · have allowed : ∀ u, some name = some u → ¬ refused u := by
        rintro _ ⟨⟩
        exact doomed
      obtain ⟨o, w₁, run₁, gives⟩ := builds.gives doomed ⟨s.page, s.counters⟩
      cases gives with
      | nothing absent =>
        have step : exec (fillViews build s.panel ((f, some name) :: views)) ⟨s.page, s.counters⟩ =
            exec (fillViews build s.panel views) ⟨s.page, s.counters⟩ := exec_bind_ok run₁
        have rest := exec_fillViews builds sound views h distinct
          fun view mem => known view (List.mem_cons_of_mem _ mem)
        rw [step]
        exact rest.cons allowed (.unknown absent)
      | panel bears built =>
        obtain ⟨field, found, kind, unfilled, unshown⟩ := known _ List.mem_cons_self
        obtain ⟨s₂, L₂, doms₂, run₂, h₂, counters₂⟩ :=
          h.exec_setView sound found kind unfilled unshown bears
        have step : exec (fillViews build s.panel ((f, some name) :: views)) ⟨s.page, s.counters⟩ =
            exec (fillViews build s₂.panel views) ⟨s₂.page, s₂.counters⟩ :=
          (exec_bind_ok run₁).trans (exec_bind_ok run₂)
        have rest := exec_fillViews builds sound views h₂ distinct fun view mem => by
          obtain ⟨field', found', kind', unfilled', unshown'⟩ :=
            known view (List.mem_cons_of_mem _ mem)
          refine ⟨field', found', kind', unfilled', (Function.update_of_ne ?_ ..).trans unshown'⟩
          rintro same
          exact new (same ▸ List.mem_map_of_mem mem)
        rw [step, counters₂]
        rw [counters₂] at rest
        exact rest.cons allowed (.shown built)

end Builder

end Formwork
