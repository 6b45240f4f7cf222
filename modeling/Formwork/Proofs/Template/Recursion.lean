import Mathlib.Logic.Relation
import Formwork.Proofs.Markup.Naming
import Formwork.Proofs.Template.Nested

/-!
# Recursive templates

A template shows those that its views name (`Builder.Shows`).  A builder refuses a template that is
being built already, and it goes down one level for every template on the way.  So there are never
more levels than templates (`Builder.Nests`), and a build is refused just when some template that can
be reached shows itself in the end (`Builder.build_recursive`).  Templates that are reached twice, but
not from themselves, are built twice.

The induction is on the levels that are left.  It says of a template inside those being built that it
is refused when it leads back to one of these or to a cycle (`Builder.Doomed`), and that all others
are built; what is built does not matter for the recursion, only that assembling never fails.
-/

namespace Formwork

set_option autoImplicit false

open Relation (ReflTransGen TransGen)

/-! ## The views of a template -/

mutual
/-- What the composites of an item say, outer ones before inner ones. -/
def Cache.Item.payloads {α : Type} : Cache.Item α → List α
  | .text _ => []
  | .composite payload items => payload :: payloadsOf items

/-- What the composites of some items say. -/
def Cache.payloadsOf {α : Type} : List (Cache.Item α) → List α
  | [] => []
  | item :: items => item.payloads ++ payloadsOf items
end

/-- The kind and the attributes of the field that a blueprint makes, if it makes one. -/
def Blueprint.making? (b : Blueprint) : Option (FieldKind × Attributes) :=
  (b.factory.bind Factory.makes).map fun kind => (kind, b.attributes)

/-- The template that a view names. -/
def shownBy? (field : FieldKind × Attributes) : Option String :=
  if field.1 = .view then field.2.get? Vocabulary.templateKey else none

/-- The templates that are named by the views of a template, at any depth. -/
def Template.views (t : Template) : List String :=
  (t.toItem.payloads.filterMap Blueprint.making?).filterMap shownBy?

/-- What a row says about its field. -/
def Row.making (row : Row) : FieldKind × Attributes := (row.made.kind, row.made.attributes)

namespace Piece

mutual
/-- An item has one row for every composite that makes a field. -/
theorem making_rowsOf_ofItem (series : SeriesId) : ∀ (item : Cache.Item Blueprint)
    (c : CounterPool) (parent : Option FieldId) (start : Nat),
    (rowsOf parent start (ofItem series c item).1).map Row.making =
      item.payloads.filterMap Blueprint.making?
  | .text _, _, _, _ => rfl
  | .composite b items, c, parent, start => by
    rw [Cache.Item.payloads, List.filterMap_cons]
    cases makes : b.factory.bind Factory.makes with
    | none =>
      rw [ofItem_declined series makes, Blueprint.making?, makes]
      exact making_rowsOf_ofItems series items _ parent start
    | some kind =>
      rw [ofItem_makes series makes, Blueprint.making?, makes, rowsOf, rowsOf, List.append_nil, rows,
        List.map_cons]
      exact congrArg (_ :: ·) (making_rowsOf_ofItems series items _ _ _)

theorem making_rowsOf_ofItems (series : SeriesId) : ∀ (items : List (Cache.Item Blueprint))
    (c : CounterPool) (parent : Option FieldId) (start : Nat),
    (rowsOf parent start (ofItems series c items).1).map Row.making =
      (Cache.payloadsOf items).filterMap Blueprint.making?
  | [], _, _, _ => rfl
  | item :: items, c, parent, start => by
    rw [ofItems, rowsOf_append, List.map_append, making_rowsOf_ofItem series item,
      making_rowsOf_ofItems series items, Cache.payloadsOf, List.filterMap_append]
end

/-- The rows of a template whose own element makes no field. -/
theorem making_rowsOf_template {series : SeriesId} {c c' : CounterPool} {t : Template}
    {inner : List Piece} (pieces : ofTemplate series c t = (none, inner, c')) :
    (rowsOf none 0 inner).map Row.making = t.toItem.payloads.filterMap Blueprint.making? := by
  unfold ofTemplate at pieces
  cases makes : t.payload.factory.bind Factory.makes with
  | some kind =>
    rw [makes] at pieces
    cases pieces
  | none =>
    rw [makes] at pieces
    obtain ⟨-, below⟩ := Prod.mk.inj pieces
    obtain rfl : _ = inner := congrArg Prod.fst below
    rw [making_rowsOf_ofItems, Cache.Composite.toItem, Cache.Item.payloads, List.filterMap_cons,
      Blueprint.making?, makes]
    rfl

end Piece

/-- The views of a draft name the templates that its template shows. -/
theorem Draft.Outlined.mem_template_views {d : Draft} {inner : List Piece} (h : d.Outlined inner)
    {series : SeriesId} {c c' : CounterPool} {t : Template}
    (pieces : Piece.ofTemplate series c t = (none, inner, c')) {u : String} :
    (∃ f, (f, some u) ∈ Builder.viewsOf d.panel) ↔ u ∈ t.views := by
  unfold Template.views
  rw [← Piece.making_rowsOf_template pieces, List.mem_filterMap]
  simp only [h.mem_views]
  constructor
  · rintro ⟨f, field, found, kind, named⟩
    obtain ⟨row, mem, rfl, rfl⟩ := h.row_of found
    refine ⟨row.making, List.mem_map_of_mem mem, ?_⟩
    have kind' : row.making.1 = .view := kind
    unfold shownBy?
    rw [if_pos kind']
    exact named
  · rintro ⟨making, mem, named⟩
    obtain ⟨row, listed, rfl⟩ := List.mem_map.1 mem
    unfold shownBy? at named
    split at named
    · case isTrue kind => exact ⟨row.id, _, (h.rows row listed).field, kind, named⟩
    · cases named

namespace Builder

/-! ## Templates that show each other -/

/-- All templates were compiled from elements that can be written. -/
def Compiled (b : Builder) : Prop :=
  ∀ name t, b.templates.get? name = some t →
    ∃ (registry : Registry) (n : Markup.Node), n.Writable ∧ t = Template.compile registry n

theorem Compiled.create (registry : Registry) (series : SeriesId) :
    (create registry series).Compiled := nofun

theorem Compiled.addTemplate {b : Builder} (h : b.Compiled) {element : Markup.Element}
    (writable : element.toNode.Writable) (name : String) (metadata : Option Attributes) :
    (b.addTemplate name element metadata).Compiled := by
  intro name' t found
  unfold Builder.addTemplate at found
  dsimp only at found
  rw [OrderedMap.get?_insert] at found
  split at found
  · cases found
    exact ⟨b.registry, element.toNode, writable, rfl⟩
  · exact h name' t found

theorem Compiled.removeTemplate {b : Builder} (h : b.Compiled) (name : String) :
    (b.removeTemplate name).2.Compiled := by
  intro name' t found
  refine h name' t (OrderedMap.get?_eq_some.2 ?_)
  exact List.mem_of_mem_filter (OrderedMap.get?_eq_some.1 found)

/-- One of the templates shows another in one of its views. -/
def Shows (b : Builder) (name u : String) : Prop :=
  (∃ t, b.templates.get? name = some t ∧ u ∈ t.views) ∧ b.templates.contains u = true

variable {b : Builder} {name u : String} {building : List String}

theorem contains_of_get? {t : Template} (found : b.templates.get? name = some t) :
    b.templates.contains name = true := by
  unfold OrderedMap.contains
  rw [found]
  rfl

theorem Shows.contains_left (h : b.Shows name u) : b.templates.contains name = true := by
  obtain ⟨⟨t, found, _⟩, _⟩ := h
  exact contains_of_get? found

/-- Inside some templates that are being built, a template leads to one of these or to a cycle. -/
def Doomed (b : Builder) (building : List String) (name : String) : Prop :=
  b.templates.contains name = true ∧
    ∃ u, ReflTransGen b.Shows name u ∧ (u ∈ building ∨ TransGen b.Shows u u)

/-- A template that is not being built is doomed when one that it shows is doomed inside it. -/
theorem doomed_iff (known : b.templates.contains name = true) (new : name ∉ building) :
    b.Doomed building name ↔ ∃ v, b.Shows name v ∧ b.Doomed (name :: building) v := by
  constructor
  · rintro ⟨_, u, path, ends⟩
    -- the way on from the template itself, whether it is on a cycle or leads elsewhere
    obtain ⟨v, first, w, rest, ends⟩ : ∃ v, b.Shows name v ∧ ∃ w, ReflTransGen b.Shows v w ∧
        (w ∈ name :: building ∨ TransGen b.Shows w w) := by
      rcases path.cases_head with rfl | ⟨v, first, rest⟩
      · rcases ends with old | cycle
        · exact absurd old new
        · obtain ⟨v, first, rest⟩ := (TransGen.head'_iff).1 cycle
          exact ⟨v, first, _, rest, .inl List.mem_cons_self⟩
      · exact ⟨v, first, u, rest, ends.imp_left (List.mem_cons_of_mem _)⟩
    exact ⟨v, first, first.2, w, rest, ends⟩
  · rintro ⟨v, first, _, u, path, ends⟩
    refine ⟨known, ?_⟩
    rcases ends with here | cycle
    · rcases List.mem_cons.1 here with rfl | old
      · exact ⟨u, .refl, .inr (TransGen.head' first path)⟩
      · exact ⟨u, .head first path, .inl old⟩
    · exact ⟨u, .head first path, .inr cycle⟩

/-- From the start, a template is doomed when a cycle can be reached. -/
theorem doomed_nil : b.Doomed [] name ↔
    ∃ u, ReflTransGen b.Shows name u ∧ TransGen b.Shows u u := by
  constructor
  · rintro ⟨_, u, path, none | cycle⟩
    · cases none
    · exact ⟨u, path, cycle⟩
  · rintro ⟨u, path, cycle⟩
    refine ⟨?_, u, path, .inr cycle⟩
    rcases path.cases_head with rfl | ⟨v, first, _⟩
    · obtain ⟨v, first, _⟩ := (TransGen.head'_iff).1 cycle
      exact first.contains_left
    · exact first.contains_left

/-- No more templates are being built than there are. -/
theorem length_le_size (distinct : building.Nodup)
    (known : ∀ name ∈ building, b.templates.contains name = true) :
    building.length ≤ b.templates.size := by
  have listed : building ⊆ b.templates.keys := by
    intro name mem
    by_contra absent
    have none := known name mem
    unfold OrderedMap.contains at none
    rw [OrderedMap.get?_eq_none.2 absent] at none
    cases none
  have length : b.templates.keys.length = b.templates.size := List.length_map _
  rw [← length]
  exact (distinct.subperm listed).length_le

/-- There are levels left for all templates that are not being built. -/
structure Deep (b : Builder) (levels : Nat) (building : List String) : Prop where
  distinct : building.Nodup
  known : ∀ u ∈ building, b.templates.contains u = true
  enough : b.templates.size < levels + building.length

namespace Deep

/-- One level more than there are templates is enough. -/
theorem start (b : Builder) : b.Deep (b.templates.size + 1) [] :=
  ⟨List.nodup_nil, List.forall_mem_nil _, Nat.lt_succ_self _⟩

theorem length_le {levels : Nat} (h : b.Deep levels building) :
    building.length ≤ b.templates.size := length_le_size h.distinct h.known

theorem not_zero : ¬ b.Deep 0 building := by
  intro h
  have few := h.length_le
  have enough := h.enough
  omega

/-- Inside one template more there is one level less. -/
theorem below {levels : Nat} (h : b.Deep (levels + 1) building)
    (known : b.templates.contains name = true) (new : name ∉ building) :
    b.Deep levels (name :: building) where
  distinct := List.nodup_cons.2 ⟨new, h.distinct⟩
  known := List.forall_mem_cons.2 ⟨known, h.known⟩
  enough := by
    have enough := h.enough
    rw [List.length_cons]
    omega

end Deep

/-! ## Levels -/

/-- What building a template does inside those being built, with a limit to the levels that it goes
down.  A template that is not known has no panel, one that is being built already is refused, and any
other is assembled and shows panels that are built one level further down. -/
inductive Nests (b : Builder) : Nat → List String → String → WorkM (Option Panel) → Prop where
  | unknown {depth : Nat} {building : List String} {name : String}
      (absent : b.templates.get? name = none) : Nests b depth building name (pure none)
  | refused {depth : Nat} {building : List String} {name : String}
      (known : b.templates.contains name = true) (mem : name ∈ building) :
      Nests b depth building name (throw (.recursiveTemplate name))
  | built {depth : Nat} {building : List String} {name : String} {t : Template}
      {build : String → WorkM (Option Panel)} (found : b.templates.get? name = some t)
      (new : name ∉ building) (below : ∀ u, Nests b depth (name :: building) u (build u)) :
      Nests b (depth + 1) building name do
        let p ← b.assemble t
        return some (← fillViews build p (viewsOf p))

section Levels

variable {levels : Nat} {t : Template}

/-! What the levels do with a template: -/

theorem buildUpTo_unknown (absent : b.templates.get? name = none) :
    b.buildUpTo (levels + 1) building name = pure none := by
  rw [buildUpTo, absent]

theorem buildUpTo_refused (found : b.templates.get? name = some t) (mem : name ∈ building) :
    b.buildUpTo (levels + 1) building name = throw (.recursiveTemplate name) := by
  rw [buildUpTo, found]
  dsimp only
  rw [if_pos mem]
  rfl

theorem buildUpTo_built (found : b.templates.get? name = some t) (new : name ∉ building) :
    b.buildUpTo (levels + 1) building name = do
      let p ← b.assemble t
      return some (← fillViews (b.buildUpTo levels (name :: building)) p (viewsOf p)) := by
  rw [buildUpTo, found]
  dsimp only
  rw [if_neg new]

/-- **There are no more levels than templates** that are not being built. -/
theorem nests_buildUpTo : ∀ (levels : Nat) {building : List String}, b.Deep levels building →
    ∀ name, b.Nests (b.templates.size - building.length) building name
      (b.buildUpTo levels building name)
  | 0, building, deep, name => absurd deep Deep.not_zero
  | levels + 1, building, deep, name => by
    cases found : b.templates.get? name with
    | none =>
      rw [buildUpTo_unknown found]
      exact .unknown found
    | some t =>
      by_cases mem : name ∈ building
      · rw [buildUpTo_refused found mem]
        exact .refused (contains_of_get? found) mem
      · have deep' := deep.below (contains_of_get? found) mem
        have few := deep'.length_le
        have depth : b.templates.size - building.length =
            b.templates.size - (name :: building).length + 1 := by
          rw [List.length_cons] at few ⊢
          omega
        rw [buildUpTo_built found mem, depth]
        exact .built found mem (nests_buildUpTo levels deep')

end Levels

/-! ## What is built -/

/-- Assembling a template that was compiled does not fail. -/
theorem Compiled.exists_assembled (h : b.Compiled) {t : Template}
    (found : b.templates.get? name = some t) (w : Workspace) :
    ∃ (inner : List Piece) (c : CounterPool) (d : Draft) (s : Scene) (L : Layout),
      Piece.ofTemplate b.series w.counters t = (none, inner, c) ∧
      b.played w.page none inner = .ok d ∧
      exec (b.assemble t) w = (.ok s.panel, ⟨s.page, s.counters⟩) ∧ s.Depicts w.page L d ∧
      s.counters = c := by
  obtain ⟨registry, n, writable, rfl⟩ := h name t found
  obtain ⟨inner, pieces, same⟩ := Template.same_compile registry b.series n w.counters
  obtain ⟨d, played⟩ := b.exists_played w.page same (Sketch.drawn_ofNode registry b.series n _)
    (Sketch.writable_ofNode registry b.series true n _ writable)
  obtain ⟨s, L, run, depicts, counters⟩ := (b.exec_assemble pieces).1 d played
  exact ⟨inner, _, d, s, L, pieces, played, run, depicts, counters⟩

/-- **One level of building**: a template that is not being built is assembled, and its views are
filled. -/
theorem exec_level (compiled : b.Compiled) {t : Template}
    (found : b.templates.get? name = some t) {build : String → WorkM (Option Panel)}
    {refused : String → Prop} (builds : b.Builds build refused) (w : Workspace) :
    (∃ v ∈ t.views, refused v) ∧ (∃ u w', exec (do
        let p ← b.assemble t
        return some (← fillViews build p (viewsOf p))) w = (.error (.recursiveTemplate u), w')) ∨
      (∀ v ∈ t.views, ¬ refused v) ∧ ∃ o w', exec (do
        let p ← b.assemble t
        return some (← fillViews build p (viewsOf p))) w = (.ok o, w') ∧ b.Gives name w o w' := by
  obtain ⟨inner, c, d, s, L, pieces, played, run, depicts, rfl⟩ := compiled.exists_assembled found w
  have outlined : d.Outlined inner := Play.template_outlined (by rfl) played
  have views : viewsOf s.panel = viewsOf d.panel := by
    rw [← viewsOf_bare s.panel, depicts.bare]
  have looks : Views w.page L s d (fun _ => none) fun _ => none :=
    ⟨by rw [Draft.viewing_none]; exact depicts, depicts.showsNone outlined, fun _ => rfl⟩
  have fills := exec_fillViews builds outlined.sound (viewsOf d.panel) looks outlined.nodup_views
    fun view mem => by
      obtain ⟨field, there, kind, _⟩ := outlined.mem_views.1 mem
      exact ⟨field, there, kind, outlined.unfilled there (by rw [kind]; rfl), rfl⟩
  rw [exec_bind_ok run, views]
  generalize outcome : exec (fillViews build s.panel (viewsOf d.panel)) ⟨s.page, s.counters⟩ = r at fills
  cases fills with
  | @refused f v u w' mem doomed =>
    exact .inl ⟨⟨v, (outlined.mem_template_views pieces).1 ⟨f, mem⟩, doomed⟩, u, w',
      exec_bind_error outcome⟩
  | @filled s' L' shown' doms' allowed looks' filled =>
    refine .inr ⟨fun v mem => ?_, some s'.panel, _, (exec_bind_ok outcome).trans rfl, ?_⟩
    · obtain ⟨f, there⟩ := (outlined.mem_template_views pieces).2 mem
      exact allowed f v there
    · obtain ⟨kids, has, unlinked, apart, whole, fresh⟩ :=
        looks'.depicts.exists_panel looks'.shows
      rw [funext looks'.looks] at whole
      exact .panel ⟨looks'.depicts.holds.grows, has, unlinked, apart, fresh⟩
        (.panel found pieces played filled whole)

/-- **Building up to so many levels** refuses the templates that are doomed inside those being built,
and builds all others. -/
theorem builds_buildUpTo (compiled : b.Compiled) : ∀ (levels : Nat) {building : List String},
    b.Deep levels building → b.Builds (b.buildUpTo levels building) (b.Doomed building)
  | 0, building, deep => absurd deep Deep.not_zero
  | levels + 1, building, deep => by
    -- what one level does with a template that is not being built
    have level : ∀ {name t}, b.templates.get? name = some t → name ∉ building → ∀ w,
        b.Doomed building name ∧ (∃ u w', exec (b.buildUpTo (levels + 1) building name) w =
            (.error (.recursiveTemplate u), w')) ∨
          ¬ b.Doomed building name ∧ ∃ o w', exec (b.buildUpTo (levels + 1) building name) w =
            (.ok o, w') ∧ b.Gives name w o w' := by
      intro name t found new w
      have builds := builds_buildUpTo compiled levels (deep.below (contains_of_get? found) new)
      have doomed := doomed_iff (contains_of_get? found) new
      rw [buildUpTo_built found new]
      rcases exec_level compiled found builds w with ⟨⟨v, mem, below⟩, run⟩ | ⟨allowed, run⟩
      · exact .inl ⟨doomed.2 ⟨v, ⟨⟨t, found, mem⟩, below.1⟩, below⟩, run⟩
      · refine .inr ⟨fun leads => ?_, run⟩
        obtain ⟨v, ⟨⟨t', found', mem⟩, _⟩, below⟩ := doomed.1 leads
        cases found.symm.trans found'
        exact allowed v mem below
    constructor
    case refuses =>
      intro name doomed w
      obtain ⟨t, found⟩ : ∃ t, b.templates.get? name = some t :=
        Option.isSome_iff_exists.1 doomed.1
      by_cases mem : name ∈ building
      · rw [buildUpTo_refused found mem]
        exact ⟨name, w, rfl⟩
      · rcases level found mem w with ⟨_, run⟩ | ⟨spared, _⟩
        · exact run
        · exact absurd doomed spared
    case gives =>
      intro name spared w
      cases found : b.templates.get? name with
      | none =>
        rw [buildUpTo_unknown found]
        exact ⟨none, w, rfl, .nothing found⟩
      | some t =>
        have new : name ∉ building := fun mem =>
          spared ⟨contains_of_get? found, name, .refl, .inl mem⟩
        rcases level found new w with ⟨doomed, _⟩ | ⟨_, run⟩
        · exact absurd doomed spared
        · exact run

/-- **Recursion is found out exactly.**  Building a template goes down no more levels than there are
templates.  It is refused just when a template can be reached that shows itself in the end; if not,
the panel is built when the template is known, and there is none when it is not. -/
theorem build_recursive (compiled : b.Compiled) (name : String) :
    b.Nests b.templates.size [] name (b.build name) ∧ ∀ w,
      ((∃ u w', exec (b.build name) w = (.error (.recursiveTemplate u), w')) ↔
        ∃ u, ReflTransGen b.Shows name u ∧ TransGen b.Shows u u) ∧
      ((¬ ∃ u, ReflTransGen b.Shows name u ∧ TransGen b.Shows u u) →
        ∃ o w', exec (b.build name) w = (.ok o, w') ∧ o.isSome = b.templates.contains name ∧
          b.Gives name w o w') := by
  have builds := builds_buildUpTo compiled _ (Deep.start b)
  refine ⟨nests_buildUpTo _ (Deep.start b) name, fun w => ?_⟩
  rw [← doomed_nil]
  refine ⟨⟨?_, fun doomed => builds.refuses doomed w⟩, fun spared => ?_⟩
  · rintro ⟨u, w', run⟩
    by_contra spared
    obtain ⟨o, w'', run', _⟩ := builds.gives spared w
    cases run.symm.trans run'
  · obtain ⟨o, w', run, gives⟩ := builds.gives spared w
    refine ⟨o, w', run, ?_, gives⟩
    unfold OrderedMap.contains
    cases gives with
    | nothing absent => rw [absent]; rfl
    | panel bears built =>
      cases built with
      | panel found _ _ _ _ => rw [found]; rfl

/-- A view of a template. -/
def viewOf (name : String) : Markup.Node :=
  .element ⟨Vocabulary.reserved "view", "view",
    [⟨Vocabulary.templateKey, "template", name⟩]⟩ []

/-- Two views of a template side by side, which has a view of itself. -/
def loopingBuilder : Builder :=
  ((create (.builtin 0) ⟨0⟩).addTemplate "loop" ⟨⟨"p", "p", []⟩, [viewOf "loop"]⟩ none).addTemplate
    "pair" ⟨⟨"p", "p", []⟩, [viewOf "loop", viewOf "loop"]⟩ none

theorem compiled_loopingBuilder : loopingBuilder.Compiled :=
  ((Compiled.create _ _).addTemplate (by decide +kernel) "loop" none).addTemplate
    (by decide +kernel) "pair" none

theorem build_recursive_looping : loopingBuilder.Compiled ∧ ∃ u w',
    exec (loopingBuilder.build "pair") ⟨⟨#[]⟩, ⟨#[.initial]⟩⟩ =
      (.error (.recursiveTemplate u), w') := by
  have loops : ∀ name, name = "loop" ∨ name = "pair" → loopingBuilder.Shows name "loop" := by
    rintro name (rfl | rfl)
    · exact ⟨⟨_, rfl, by decide +kernel⟩, by decide +kernel⟩
    · exact ⟨⟨_, rfl, by decide +kernel⟩, by decide +kernel⟩
  exact ⟨compiled_loopingBuilder, ((build_recursive compiled_loopingBuilder "pair").2 _).1.2
    ⟨"loop", .single (loops _ (.inr rfl)), .single (loops _ (.inl rfl))⟩⟩

end Builder

end Formwork
