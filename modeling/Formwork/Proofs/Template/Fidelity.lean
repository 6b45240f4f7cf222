import Formwork.Proofs.Template.Following

/-!
# Panels look like their templates

The panel of a template shows what is shown of its sketches, when none of its elements is taken for a
marker (`Draft.Outlined.markup_resolved`).  Its views are those of the sketches, in the same order
(`Draft.Outlined.viewsOf_eq`); so they are filled with panels that were drawn from the same counters,
and by induction on how these were built, with what is shown of the templates that the views name
(`Builder.Built.rendered`).

Identifiers that were drawn are different from all that were drawn before.  A template can therefore
only be shown otherwise when one of its elements, or of those of the templates in its views, was
written with an identifier that is drawn while it is built (`Builder.innerMarkup_build`).
-/

namespace Formwork

set_option autoImplicit false

open Relation (ReflTransGen TransGen)

/-! ## A whole template -/

/-- **What the panel of a template looks like** as markup is what is shown of its sketches, when no
element has the identifier of a marker beside it. -/
theorem Draft.Outlined.markup_resolved {d : Draft} {inner : List Piece} (h : d.Outlined inner)
    {xs : List Sketch} (same : Piece.Same inner (Sketch.piecesOf xs)) (drawn : Sketch.DrawnAll xs)
    (writable : Sketch.WritableAll true xs) (distinct : (Sketch.identifiersOf xs).Nodup)
    (clear : Sketch.Clear xs) {shown held : FieldId → Option Html} (holds : d.Holds shown held)
    {kids : List Html} (whole : (d.viewing shown).ResolvesAll shown (d.filled none) kids) :
    Html.markupOf kids = Html.markupOf (Sketch.rendering d.panel.messages held xs) := by
  have placed : Sketch.Placed d none none [] 0 xs := by
    refine ⟨fun row mem => h.rows row (same.rows none 0 ▸ mem), drawn, ⟨true, writable⟩, distinct,
      clear.field, fun e _ field _ outside => ?_⟩
    unfold Draft.exposure?
    rw [outside]
    rfl
  have stands : Sketch.Stands (d.viewing shown) shown
      (Made.partsIn none (Sketch.directIn 0 xs)) 0 xs (Sketch.renderOf d.panel.messages held none
        (Made.partsIn none (Sketch.directIn 0 xs)) 0 xs) := Sketch.stands_renderOf holds xs placed
  obtain ⟨leads, markup⟩ := stands.settled drawn distinct clear.panel
  have root := h.root
  rw [same.gather, (Sketch.content_gather 0 drawn writable).1] at root
  rw [← Except.ok.inj root] at whole
  obtain ⟨kids', resolves, markup'⟩ := Draft.exists_resolvesAll leads
  rw [Draft.ResolvesAll.unique whole resolves, markup', markup]
  rfl

/-! ## The views of a template -/

namespace OrderedMap

variable {κ α : Type} [DecidableEq κ]

theorem perm_foldl_group (key : α → κ) : ∀ (xs : List α) (groups : OrderedMap κ (List α)),
    (xs.foldl (group key) groups).values.flatten.Perm (groups.values.flatten ++ xs)
  | [], _ => by simp
  | x :: xs, groups => by
    have first : (group key groups x).values.flatten.Perm (groups.values.flatten ++ [x]) :=
      perm_flatten_put (key x) x groups.toList
    refine (perm_foldl_group key xs _).trans ((first.append_right xs).trans ?_)
    rw [List.append_assoc]
    rfl

/-- Grouping keeps all entries. -/
theorem perm_grouped (key : α → κ) (xs : List α) : (grouped key xs).values.flatten.Perm xs :=
  perm_foldl_group key xs .empty

end OrderedMap

/-- The index of some rows lists the fields in groups of one name. -/
theorem Draft.toList_indexOf : ∀ (rows : List Row) {names : OrderedMap String (List FieldId)}
    {groups : OrderedMap String (List (FieldId × Made))},
    names.toList = groups.toList.map (Prod.map id (List.map Prod.fst)) →
      (Draft.indexOf names rows).toList =
        ((rows.map fun row => (row.id, row.made)).foldl (OrderedMap.group fun e => e.2.name)
          groups).toList.map (Prod.map id (List.map Prod.fst))
  | [], _, _, same => same
  | row :: rows, names, groups, same => by
    refine toList_indexOf rows ?_
    have listed : (names.get? row.made.name).getD [] =
        ((groups.get? row.made.name).getD []).map Prod.fst := by
      unfold OrderedMap.get?
      rw [same, OrderedMap.find?_map]
      cases OrderedMap.find? row.made.name groups.toList <;> rfl
    have put := OrderedMap.put_map (List.map Prod.fst) row.made.name
      ((groups.get? row.made.name).getD [] ++ [(row.id, row.made)]) groups.toList
    rw [List.map_append, ← listed, ← same] at put
    exact put

namespace Sketch

mutual
theorem map_rows_pieces : ∀ (x : Sketch) (start : Nat) (parent : Option FieldId),
    (Piece.rowsOf parent start x.pieces).map (fun row => (row.id, row.made)) =
      (x.fields start).map fun e => (e.1, e.2.1)
  | .text _, _, _ => rfl
  | .element tag inner, start, parent => by
    have last : ∀ start, Piece.rowsOf parent start [.run tag.closeMarkup] = [] := fun _ => rfl
    rw [pieces, Piece.rowsOf, Piece.rows, List.nil_append, Piece.rowsOf_append, last, List.append_nil]
    exact map_rows_piecesOf inner start parent
  | .field m inner, start, parent => by
    rw [pieces, Piece.rowsOf, Piece.rowsOf, List.append_nil, Piece.rows, List.map_cons,
      map_rows_piecesOf inner, fields, List.map_cons]
    rfl

/-- The rows of some sketches are those of their fields. -/
theorem map_rows_piecesOf : ∀ (xs : List Sketch) (start : Nat) (parent : Option FieldId),
    (Piece.rowsOf parent start (piecesOf xs)).map (fun row => (row.id, row.made)) =
      allFields start xs
  | [], _, _ => rfl
  | x :: xs, start, parent => by
    rw [piecesOf, Piece.rowsOf_append, List.map_append, countOf_pieces, map_rows_pieces x,
      map_rows_piecesOf xs]
    exact List.map_append.symm
end

end Sketch

/-- **The views of a draft** are those of the sketches of its template. -/
theorem Draft.Outlined.viewsOf_eq {d : Draft} {inner : List Piece} (h : d.Outlined inner)
    {xs : List Sketch} (same : Piece.Same inner (Sketch.piecesOf xs)) :
    Builder.viewsOf d.panel = Sketch.views xs := by
  have listed := Sketch.map_rows_piecesOf xs 0 none
  rw [← same.rows] at listed
  have ids : d.panel.table.ids = (OrderedMap.grouped (fun e => e.2.name)
      (Sketch.allFields 0 xs)).values.flatten.map Prod.fst := by
    have empty : (OrderedMap.empty : OrderedMap String (List FieldId)).toList =
        (OrderedMap.empty : OrderedMap String (List (FieldId × Made))).toList.map
          (Prod.map id (List.map Prod.fst)) := rfl
    have index := Draft.toList_indexOf (Piece.rowsOf none 0 inner) empty
    unfold FieldTable.ids
    rw [h.names, ← listed, OrderedMap.values, index, List.map_map, List.map_flatten,
      OrderedMap.values, List.map_map]
    rfl
  have found : ∀ e ∈ Sketch.allFields 0 xs, ∃ field, d.panel.table.field? e.1 = some field ∧
      field.id = e.1 ∧ field.kind = e.2.kind ∧ field.attributes = e.2.attributes := by
    intro e mem
    rw [← listed, List.mem_map] at mem
    obtain ⟨row, there, rfl⟩ := mem
    exact ⟨_, (h.rows row there).field, rfl, rfl, rfl⟩
  unfold Builder.viewsOf Sketch.views FieldTable.fields
  rw [ids, List.filterMap_map, List.filter_filterMap, List.map_filterMap]
  refine List.filterMap_congr fun e mem => ?_
  obtain ⟨field, there, id, kind, attributes⟩ :=
    found e ((OrderedMap.perm_grouped ..).mem_iff.1 mem)
  rw [Function.comp_apply, there, ← kind, ← attributes, ← id]
  by_cases view : field.kind = .view
  · simp [view, Field.attr?]
  · simp [view]

/-! ## Sources of templates -/

namespace Builder

/-- The templates of a builder were compiled from some sources, which can be written. -/
structure CompiledFrom (b : Builder) (sources : Sources) : Prop where
  templates : ∀ name, b.templates.get? name =
    (sources name).map fun source => Template.compile source.1 source.2
  writable : ∀ {name source}, sources name = some source → source.2.Writable

namespace CompiledFrom

variable {b : Builder} {sources : Sources} {name : String} {t : Template}

theorem create (registry : Registry) (series : SeriesId) :
    (create registry series).CompiledFrom fun _ => none := ⟨fun _ => rfl, nofun⟩

/-- Another source takes the place of what there was under a name, or none does. -/
theorem update (h : b.CompiledFrom sources) {b' : Builder} (name : String)
    (source : Option (Registry × Markup.Node)) (writable : ∀ s ∈ source, s.2.Writable)
    (templates : ∀ u, b'.templates.get? u =
      if name = u then source.map fun s => Template.compile s.1 s.2 else b.templates.get? u) :
    b'.CompiledFrom (Function.update sources name source) where
  templates u := by
    rw [templates]
    by_cases same : name = u
    · subst same
      rw [if_pos rfl, Function.update_self]
    · rw [if_neg same, Function.update_of_ne (Ne.symm same), h.templates]
  writable {u s} found := by
    by_cases same : u = name
    · subst same
      rw [Function.update_self] at found
      exact writable s found
    · rw [Function.update_of_ne same] at found
      exact h.writable found

theorem addTemplate (h : b.CompiledFrom sources) {element : Markup.Element}
    (writable : element.toNode.Writable) (name : String) (metadata : Option Attributes) :
    (b.addTemplate name element metadata).CompiledFrom
      (Function.update sources name (some (b.registry, element.toNode))) := by
  refine h.update name _ (fun s is => ?_) fun _ => OrderedMap.get?_insert ..
  cases is
  exact writable

theorem removeTemplate (h : b.CompiledFrom sources) (name : String) :
    (b.removeTemplate name).2.CompiledFrom (Function.update sources name none) :=
  h.update name none nofun fun _ => OrderedMap.get?_erase ..

theorem exists_source (h : b.CompiledFrom sources) (found : b.templates.get? name = some t) :
    ∃ source, sources name = some source ∧ t = Template.compile source.1 source.2 := by
  rw [h.templates, Option.map_eq_some_iff] at found
  obtain ⟨source, there, rfl⟩ := found
  exact ⟨source, there, rfl⟩

theorem compiled (h : b.CompiledFrom sources) : b.Compiled := by
  intro name t found
  obtain ⟨source, there, rfl⟩ := h.exists_source found
  exact ⟨source.1, source.2, h.writable there, rfl⟩

end CompiledFrom

/-! ## Counters of a build -/

variable {b : Builder} {sources : Sources}

/-- What a template draws when it is built: numbers for markers, from those left on. -/
theorem drawn_template (registry : Registry) (n : Markup.Node) {c : CounterPool}
    (known : b.series.index < c.sets.size) :
    (Sketch.ofTemplate registry b.series c n).2.sets.size = c.sets.size ∧
      Sketch.DrawnFrom (c.get b.series).placeholder
        ((Sketch.ofTemplate registry b.series c n).2.get b.series).placeholder
        (Sketch.ofTemplate registry b.series c n).1 := by
  have known' : b.series.index < (c.next b.series .placeholder).2.sets.size := by
    rwa [CounterPool.size_next]
  obtain ⟨size, drawn⟩ := Sketch.drawnFrom_ofNode registry n known'
  refine ⟨size.trans (CounterPool.size_next ..), drawn.mono ?_⟩
  rw [CounterPool.get_next known]
  exact Nat.le_succ _

mutual
/-- Building a panel only draws more numbers. -/
theorem Built.counters (compiled : b.Compiled) {name : String} {c c₂ : CounterPool}
    {kids : List Html} : b.Built name c kids c₂ → b.series.index < c.sets.size →
      c₂.sets.size = c.sets.size ∧
        (c.get b.series).placeholder ≤ (c₂.get b.series).placeholder
  | .panel found pieces played views whole, known => by
    obtain ⟨registry, n, _, rfl⟩ := compiled name _ found
    obtain ⟨inner, pieces', _⟩ := Template.same_compile registry b.series n c
    obtain ⟨size, drawn⟩ := drawn_template registry n known
    have le := drawn.le
    rw [← (Prod.mk.inj (Prod.mk.inj (pieces.symm.trans pieces')).2).2] at size le
    obtain ⟨size', le'⟩ := views.counters compiled (by omega)
    exact ⟨size'.trans size, le.trans le'⟩

theorem Filled.counters (compiled : b.Compiled) {views : List (FieldId × Option String)}
    {c c' : CounterPool} {shown shown' : FieldId → Option Html} :
    b.Filled views shown c shown' c' → b.series.index < c.sets.size →
      c'.sets.size = c.sets.size ∧
        (c.get b.series).placeholder ≤ (c'.get b.series).placeholder
  | .nil, _ => ⟨rfl, Nat.le_refl _⟩
  | .unnamed rest, known => rest.counters compiled known
  | .unknown _ rest, known => rest.counters compiled known
  | .shown built rest, known => by
    obtain ⟨size, le⟩ := built.counters compiled known
    obtain ⟨size', le'⟩ := rest.counters compiled (by omega)
    exact ⟨by omega, le.trans le'⟩
end

/-! ## Panels within panels -/

/-- No element of a template, or of one that it shows in the end, was written with one of the
identifiers of markers with some numbers. -/
def ForeignFrom (b : Builder) (sources : Sources) (low high : Nat) (name : String) : Prop :=
  ∀ u, ReflTransGen b.Shows name u → ∀ source, sources u = some source →
    Sketch.Foreign low high source.2.tags

theorem ForeignFrom.shown {low high : Nat} {name u : String}
    (h : b.ForeignFrom sources low high name) (shows : b.Shows name u) :
    b.ForeignFrom sources low high u := fun v path => h v (.head shows path)

theorem ForeignFrom.narrow {low high low' high' : Nat} {name : String}
    (h : b.ForeignFrom sources low high name) (least : low ≤ low') (most : high' ≤ high) :
    b.ForeignFrom sources low' high' name :=
  fun u path source found tag mem n le lt => h u path source found tag mem n (le.trans' least)
    (lt.trans_le most)

/-- Only views are filled. -/
theorem Filled.isSome {views : List (FieldId × Option String)} {c c' : CounterPool}
    {shown shown' : FieldId → Option Html} {f : FieldId} :
    b.Filled views shown c shown' c' → (shown' f).isSome → (shown f).isSome ∨ f ∈ views.map Prod.fst
  | .nil, there => .inl there
  | .unnamed rest, there => (rest.isSome there).imp_right (List.mem_cons_of_mem _)
  | .unknown _ rest, there => (rest.isSome there).imp_right (List.mem_cons_of_mem _)
  | .shown _ rest, there => by
    rcases rest.isSome there with here | later
    · rw [Function.update_apply] at here
      split at here
      · case isTrue same => exact .inr (same ▸ List.mem_cons_self)
      · exact .inl here
    · exact .inr (List.mem_cons_of_mem _ later)

theorem Built.contains {name : String} {c c₂ : CounterPool} {kids : List Html} :
    b.Built name c kids c₂ → b.templates.contains name = true
  | .panel found .. => contains_of_get? found

theorem CompiledFrom.rendering_eq_none (h : b.CompiledFrom sources) {name : String}
    (absent : b.templates.get? name = none) {messages : Messages} {series : SeriesId}
    {levels : Nat} {c : CounterPool} : sources.rendering messages series levels name c = none := by
  cases levels with
  | zero => rfl
  | succ levels =>
    rw [Sources.rendering, Option.map_eq_none_iff]
    exact Option.map_eq_none_iff.1 ((h.templates name).symm.trans absent)

/-- A template is played with the messages of its builder. -/
theorem messages_played {page : Page} {inner : List Piece} {d : Draft}
    (played : b.played page none inner = .ok d) : d.panel.messages = b.messages := by
  obtain ⟨p, run, settled⟩ := Play.template_eq_ok.1 played
  obtain ⟨grows, _⟩ := Play.pieces_grows inner run (Play.Open.blank rfl)
  rw [Play.panel_settle settled, grows.panel]
  rfl

mutual
/-- **What is built** is what is shown of the sources. -/
theorem Built.rendered (h : b.CompiledFrom sources) {name : String} {c c₂ : CounterPool}
    {kids : List Html} : b.Built name c kids c₂ →
      ∀ {levels : Nat} {building : List String}, b.Deep levels building →
      ¬ b.Doomed building name → b.series.index < c.sets.size →
      b.ForeignFrom sources (c.get b.series).placeholder (c₂.get b.series).placeholder name →
      ∃ content, sources.rendering b.messages b.series levels name c = some (content, c₂) ∧
        Html.markupOf kids = Html.markupOf content
  | .panel .., 0, _, deep, _, _, _ => absurd deep Deep.not_zero
  | .panel found pieces played views whole, levels + 1, building, deep, spared, known, foreign => by
    obtain ⟨⟨registry, n⟩, source, rfl⟩ := h.exists_source found
    have writable := h.writable source
    obtain ⟨inner, pieces', same⟩ := Template.same_compile registry b.series n c
    obtain ⟨size, drawn⟩ := drawn_template registry n known
    have made := Prod.mk.inj (Prod.mk.inj (pieces.symm.trans pieces')).2
    rw [← made.1] at same
    rw [← made.2] at size drawn
    have outlined : Draft.Outlined _ _ := Play.template_outlined (by rfl) played
    have known' : name ∉ building := fun mem =>
      spared ⟨contains_of_get? found, name, .refl, .inl mem⟩
    have shows : ∀ f u, (f, some u) ∈ viewsOf _ → b.templates.contains u = true → b.Shows name u :=
      fun f u mem there =>
        ⟨⟨_, found, (outlined.mem_template_views pieces).1 ⟨f, mem⟩⟩, there⟩
    obtain ⟨size', le⟩ := views.counters h.compiled (by omega)
    -- the views show what they hold in the rendering, one level further down
    obtain ⟨held, run, looks⟩ := views.held h (deep.below (contains_of_get? found) known')
      (fun f u mem doomed => spared ((doomed_iff (contains_of_get? found) known').2
        ⟨u, shows f u mem doomed.1, doomed⟩)) (by omega)
      (fun f u mem there => (foreign.shown (shows f u mem there)).narrow drawn.le (Nat.le_refl _))
      fun f => rfl
    have holds : Draft.Holds _ _ held := ⟨looks, fun {f field} there shown => by
      rcases views.isSome shown with none | listed
      · cases none
      · obtain ⟨⟨_, u⟩, mem, rfl⟩ := List.mem_map.1 listed
        obtain ⟨field', there', view, _⟩ := outlined.mem_views.1 mem
        cases there.symm.trans there'
        exact view⟩
    have clear := drawn.clear (Sketch.tagsAmong_ofNode registry b.series n _)
      ((foreign.narrow (Nat.le_refl _) le) name .refl _ source)
    have markup := outlined.markup_resolved same (Sketch.drawn_ofNode registry b.series n _)
      (Sketch.writable_ofNode registry b.series true n _ writable) drawn.nodup clear holds whole
    rw [messages_played played] at markup
    refine ⟨_, ?_, markup⟩
    rw [made.2, outlined.viewsOf_eq same] at run
    rw [Sources.rendering, source]
    dsimp only [Option.map_some]
    rw [run]

theorem Filled.held (h : b.CompiledFrom sources) {views : List (FieldId × Option String)}
    {c c' : CounterPool} {shown shown' : FieldId → Option Html} :
    b.Filled views shown c shown' c' →
      ∀ {levels : Nat} {building : List String}, b.Deep levels building →
      (∀ f u, (f, some u) ∈ views → ¬ b.Doomed building u) → b.series.index < c.sets.size →
      (∀ f u, (f, some u) ∈ views → b.templates.contains u = true → b.ForeignFrom sources
        (c.get b.series).placeholder (c'.get b.series).placeholder u) →
      ∀ {held : FieldId → Option Html}, (∀ f, (shown f).map Html.markup = (held f).map Html.markup) →
      ∃ held', Sources.hold (sources.rendering b.messages b.series levels) views held c =
          (held', c') ∧ ∀ f, (shown' f).map Html.markup = (held' f).map Html.markup
  | .nil, _, _, _, _, _, _, held, looks => ⟨held, rfl, looks⟩
  | .unnamed rest, _, _, deep, spared, known, foreign, _, looks =>
    rest.held h deep (fun f u mem => spared f u (List.mem_cons_of_mem _ mem)) known
      (fun f u mem => foreign f u (List.mem_cons_of_mem _ mem)) looks
  | .unknown absent rest, _, _, deep, spared, known, foreign, _, looks => by
    rw [Sources.hold, h.rendering_eq_none absent]
    exact rest.held h deep (fun f u mem => spared f u (List.mem_cons_of_mem _ mem)) known
      (fun f u mem => foreign f u (List.mem_cons_of_mem _ mem)) looks
  | .shown built rest, _, _, deep, spared, known, foreign, _, looks => by
    have foreign' := foreign _ _ List.mem_cons_self built.contains
    obtain ⟨size, le⟩ := built.counters h.compiled known
    obtain ⟨size', le'⟩ := rest.counters h.compiled (by omega)
    obtain ⟨content, run, markup⟩ := built.rendered h deep (spared _ _ List.mem_cons_self) known
      (foreign'.narrow (Nat.le_refl _) le')
    rw [Sources.hold, run]
    refine rest.held h deep (fun f u mem => spared f u (List.mem_cons_of_mem _ mem)) (by omega)
      (fun f u mem there =>
        (foreign f u (List.mem_cons_of_mem _ mem) there).narrow le (Nat.le_refl _))
      fun f => ?_
    rw [Function.update_apply, Function.update_apply]
    split
    · simp only [Option.map_some, Html.markup, markup]
    · exact looks f
end

/-- A panel that lies on a page looks like its nodes. -/
theorem innerMarkup_of_bears {p p' : Page} {root : NodeId} {kids : List Dom}
    (bears : p.Bears p' root kids) : p'.innerMarkup root = Html.markupOf (Dom.htmlOf kids) :=
  Page.innerMarkup_eq bears.has bears.unlinked bears.apart

/-- **The panel of a template looks like the template.**  When a template is added whose element can
be written, and no template that can be reached from it shows itself in the end, then its panel can be
built on every page.  The content of the panel is what is shown of the element, with the panels of
other templates in its views, unless some element was written with one of the identifiers that were
drawn for markers meanwhile. -/
theorem innerMarkup_build (h : b.CompiledFrom sources) {element : Markup.Element}
    (writable : element.toNode.Writable) (name : String) (metadata : Option Attributes)
    (finite : ¬ ∃ u, ReflTransGen (b.addTemplate name element metadata).Shows name u ∧
      TransGen (b.addTemplate name element metadata).Shows u u) {w : Workspace}
    (known : b.series.index < w.counters.sets.size) :
    ∃ p w', exec ((b.addTemplate name element metadata).build name) w = (.ok (some p), w') ∧
      ((b.addTemplate name element metadata).ForeignFrom
          (Function.update sources name (some (b.registry, element.toNode)))
          (w.counters.get b.series).placeholder (w'.counters.get b.series).placeholder name →
        ∃ content, Sources.rendering
            (Function.update sources name (some (b.registry, element.toNode))) b.messages b.series
            ((b.addTemplate name element metadata).templates.size + 1) name w.counters =
              some (content, w'.counters) ∧
          w'.page.innerMarkup p.root = Html.markupOf content) := by
  have h' := h.addTemplate writable name metadata
  obtain ⟨o, w', run, there, gives⟩ := ((build_recursive h'.compiled name).2 w).2 finite
  have added : (b.addTemplate name element metadata).templates.contains name = true :=
    contains_of_get? (OrderedMap.get?_insert_self ..)
  rw [added] at there
  cases gives with
  | nothing absent => cases there
  | @panel p _ kids bears built =>
    refine ⟨p, w', run, fun foreign => ?_⟩
    obtain ⟨content, shown, markup⟩ := built.rendered h' (Deep.start _)
      (fun doomed => finite (doomed_nil.1 doomed)) known foreign
    exact ⟨content, shown, (innerMarkup_of_bears bears).trans markup⟩

/-! A line with a character of markup, and a page that shows it in a view: -/

/-- What the line was compiled from. -/
def lineElement : Markup.Element := ⟨⟨"b", "b", []⟩, [.text "1 < 2"]⟩

/-- What the page was compiled from. -/
def pageElement : Markup.Element := ⟨⟨"p", "p", []⟩, [.text "So ", viewOf "line"]⟩

/-- The sources of the line. -/
def lineSources : Sources :=
  Function.update (fun _ => none) "line" (some (.builtin 0, lineElement.toNode))

/-- A builder that knows the line. -/
def lineBuilder : Builder := (create (.builtin 0) ⟨0⟩).addTemplate "line" lineElement none

theorem compiledFrom_lineBuilder : lineBuilder.CompiledFrom lineSources :=
  (CompiledFrom.create (.builtin 0) ⟨0⟩).addTemplate (by decide +kernel) "line" none

/-- Only the page shows something, the line. -/
theorem shows_lineBuilder {u v : String}
    (shows : (lineBuilder.addTemplate "page" pageElement none).Shows u v) :
    u = "page" ∧ v = "line" := by
  obtain ⟨⟨t, found, mem⟩, _⟩ := shows
  have page : pageElement.toNode.Writable := by decide +kernel
  obtain ⟨source, there, rfl⟩ :=
    (compiledFrom_lineBuilder.addTemplate page "page" none).exists_source found
  unfold lineSources at there
  rw [Function.update_apply, Function.update_apply] at there
  split at there
  · case isTrue page =>
    cases there
    have views : (Template.compile (.builtin 0) pageElement.toNode).views = ["line"] := by
      decide +kernel
    exact ⟨page, List.mem_singleton.1 (views ▸ mem)⟩
  · split at there
    · cases there
      have views : (Template.compile (.builtin 0) lineElement.toNode).views = [] := by
        decide +kernel
      cases views ▸ mem
    · cases there

theorem innerMarkup_build_page : ∃ p w',
    exec ((lineBuilder.addTemplate "page" pageElement none).build "page")
      ⟨⟨#[]⟩, ⟨#[.initial]⟩⟩ = (.ok (some p), w') ∧
      w'.page.innerMarkup p.root = "<p>So <div><div><b>1 &lt; 2</b></div></div></p>" := by
  have finite : ¬ ∃ u, ReflTransGen (lineBuilder.addTemplate "page" pageElement none).Shows "page" u ∧
      TransGen (lineBuilder.addTemplate "page" pageElement none).Shows u u := by
    rintro ⟨u, _, cycle⟩
    obtain ⟨v, first, rest⟩ := TransGen.head'_iff.1 cycle
    obtain ⟨rfl, rfl⟩ := shows_lineBuilder first
    rcases rest.cases_head with same | ⟨_, again, _⟩
    · exact absurd same (by decide)
    · exact absurd (shows_lineBuilder again).1 (by decide)
  have plain : ∀ {u source}, Function.update lineSources "page"
      (some (.builtin 0, pageElement.toNode)) u = some source →
        ∀ tag ∈ source.2.tags, tag.plainAttributes.get? "id" = none := by
    intro u source found
    unfold lineSources at found
    rw [Function.update_apply, Function.update_apply] at found
    split at found
    · cases found
      decide +kernel
    · split at found
      · cases found
        decide +kernel
      · cases found
  have page : pageElement.toNode.Writable := by decide +kernel
  obtain ⟨p, w', run, looks⟩ := innerMarkup_build compiledFrom_lineBuilder page "page" none finite
    (w := ⟨⟨#[]⟩, ⟨#[.initial]⟩⟩) (by decide)
  obtain ⟨content, shown, markup⟩ := looks fun _ _ _ found tag mem _ _ _ id =>
    nomatch (plain found tag mem).symm.trans id
  have rendered : (Sources.rendering (Function.update lineSources "page"
      (some (.builtin 0, pageElement.toNode))) .empty ⟨0⟩ 3 "page" ⟨#[.initial]⟩).map
        (fun r => Html.markupOf r.1) = some "<p>So <div><div><b>1 &lt; 2</b></div></div></p>" := by
    decide +kernel
  have shown' := congrArg (Option.map fun r => Html.markupOf r.1) shown
  exact ⟨p, w', run, markup.trans (Option.some.inj (shown'.symm.trans rendered))⟩

end Builder

end Formwork
