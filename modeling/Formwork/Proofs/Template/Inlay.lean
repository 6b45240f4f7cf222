import Formwork.Proofs.Panel.Reached
import Formwork.Proofs.Template.Splice

/-!
# Splicing into any element of a page

A scene that a panel has reached may hold anything: widgets that were built before, some of them below
the element that markup is spliced into, or below one another.  As long as the element lies in none of the
widgets that are to be put into it, splicing is not refused, and it leaves in the element the markup with
the widgets in the place of its markers (`Scene.Reached.splice_inlaid`).

What is known of the scene while markers are replaced is `Scene.Holding`: the tree of the element is there
and has nodes of its own, which belong to no widget, and none of the widgets has the element below it.
Asking for a widget keeps that (`Holding.asked`), and so does putting one in the place of a marker
(`Holding.exchanged`); both leave alone what the element lies in.
-/

namespace Formwork

set_option autoImplicit false

/-! ## Putting a node in the place of an element -/

namespace Page

variable {p p' : Page} {place : Option NodeId} {top n q w : NodeId} {tag tag' tag'' : String}
  {attributes attributes' attributes'' : OrderedMap String String}
  {kids before behind inner : List Dom} {target : Link} {up : List NodeId}

/-- The node that one starts from is not come to again. -/
theorem Ascends.parent_ne (h : p.Ascends n up) (mem : q ∈ up) : p.parent? q ≠ some n := by
  intro lies
  obtain ⟨ns, above, short⟩ := h.of_mem mem
  have le := short.length_le
  rw [(Ascends.step lies h).unique above, List.length_cons] at le
  exact Nat.not_succ_le_self _ le

/-- From the nodes of a tree one comes to nodes of the tree, and then to what the tree lies in. -/
theorem Has.ascends {d : Dom} (there : p.Has place d) (above : p.Ascends d.root up)
    {ns : List NodeId} (way : p.Ascends n ns) (mem : n ∈ d.nodes) :
    ∀ m ∈ ns, m ∈ d.nodes ∨ m ∈ up := by
  induction way with
  | top =>
    intro m hm
    rw [List.mem_singleton.1 hm]
    exact .inl mem
  | @step n q ns lies rest ih =>
    rcases there.parent_mem mem with ⟨rfl, _⟩ | ⟨q', inside, lies'⟩
    · rw [above.unique (.step lies rest)]
      exact fun m hm => .inr hm
    · cases lies.symm.trans lies'
      intro m hm
      rcases List.mem_cons.1 hm with rfl | hm
      · exact .inl mem
      · exact ih inside m hm

/-- **A node takes the place of an element** of a tree that it has nothing to do with but by links. -/
theorem Forest.exchange (h : p.Forest) (there : p.Has place (.element top tag attributes kids))
    (distinct : (Dom.element top tag attributes kids).nodes.Nodup)
    (found : (Dom.element top tag attributes kids).find? q =
      some (tag', attributes', before ++ .element n tag'' attributes'' inner :: behind))
    (above : p.Ascends top up) (apart : w ∉ up ∧ w ∉ Dom.nodesOf kids) (known : w.index < p.size)
    (links : ∀ l ∈ Dom.linksOf kids, l.2 ≠ n ∧ (l.1 = target ↔ l.2 = w)) :
    ∃ p₁ p₂, p.insertBefore q w n = .ok p₁ ∧ p₁.remove q n = .ok p₂ ∧
      p₂.Has place (.element top tag attributes (Dom.swapAll n target [.link target w] kids)) ∧
      ∀ m, m ≠ n → m ≠ w → p₂.parent? m = p.parent? m := by
  obtain ⟨hq, hn, lies⟩ := there.child_mem distinct before found
  have outside : ∀ m ∈ (Dom.element top tag attributes kids).nodes, m ≠ w := by
    rintro m hm rfl
    rcases List.mem_cons.1 hm with rfl | below
    · exact apart.1 above.self_mem
    · exact apart.2 below
  obtain ⟨_, _, _, element⟩ := there.find found
  have listed := children_eq element
  rw [List.map_append] at element listed
  have single := h.distinct q
  rw [listed, List.map_cons, List.nodup_append] at single
  obtain ⟨ns, way⟩ := h.rises q
  have notAbove : p.contains w q = false := by
    rw [h.contains_eq way]
    refine decide_eq_false fun mem => ?_
    rcases there.ascends above way hq w mem with own | beyond
    · exact outside w own rfl
    · exact apart.1 beyond
  obtain ⟨p₁, p₂, run₁, run₂, _, moved, _, parents, nodes⟩ := swap_eq_ok element
    (fun mem => single.2.2 n mem n List.mem_cons_self rfl) (List.nodup_cons.1 single.2.1).1
    (fun c mem => (h.agree q c).1 (listed ▸ mem)) (outside n hn).symm (outside q hq).symm
    (fun same => h.parent?_ne_self q (same ▸ lies)) (h.parent?_ne_self w) notAbove
  have swaps := there.swaps distinct before found (exists_node? known) outside links moved parents nodes
  refine ⟨p₁, p₂, run₁, run₂, ?_, parents⟩
  have notTop := (Dom.findAmong?_of_child before distinct found).1
  have all := swaps.has (fun _ hm => hm) (fun _ hl => hl) there
  rw [Dom.swap, if_neg notTop] at all
  exact all.1

/-- Clearing a node leaves the nodes where they lay, apart from its children. -/
theorem Forest.parent?_clear (h : p.Forest) (other : p.parent? q ≠ some n) :
    (p.clear n).parent? q = p.parent? q := by
  refine Option.ext fun m => ?_
  rw [← (h.clear n).1.agree, ← h.agree, h.children_clear]
  by_cases same : m = n
  · rw [if_pos same, same, h.agree]
    exact iff_of_false List.not_mem_nil other
  · rw [if_neg same]

/-- **New content**: the element has the trees of the markup below it, and lies where it lay. -/
theorem Forest.setNodes (h : p.Forest) (element : p.content? n = some (.element tag attributes))
    (above : p.Ascends n up) (nodes : List Markup.Node) :
    (p.setNodes n nodes).Has (p.parent? n) (.element n tag attributes (Dom.ofNodes p.size nodes)) ∧
      (p.setNodes n nodes).Ascends n up := by
  have isElement : p.tag? n ≠ none := by
    rw [tag?_eq (node?_of_content? element)]
    exact nofun
  have known := lt_size_of_tag? isElement
  obtain ⟨cleared, size, tags⟩ := h.clear n
  have lies : (p.clear n).parent? n = p.parent? n := h.parent?_clear (h.parent?_ne_self n)
  have imported := imported_nodes nodes (n := n) (p := p.clear n) (by rwa [size])
  have grown := (cleared.importNodes nodes (by rwa [tags])).2
  rw [size] at imported
  refine ⟨⟨?_, imported.has⟩, above.congr fun m mem => ?_⟩
  · obtain ⟨⟨content, place, below⟩, found⟩ := exists_node? (p := p.clear n) (by rwa [size])
    have is := (h.content?_clear n n).trans element
    have none := (h.children_clear n n).trans (if_pos rfl)
    unfold content? at is
    rw [found] at is
    rw [children_eq found] at none
    rw [parent?_eq found] at lies
    cases is
    cases none
    cases lies
    exact imported.below.trans (by rw [found]; rfl)
  · exact (grown.parent m (size ▸ h.lt_size above known m mem)).trans
      (h.parent?_clear (above.parent_ne mem))

end Page

/-! ## Asking for widgets -/

namespace Panel

/-- The topmost node of the widget of a field that has one. -/
def rootOf (p : Panel) (f : FieldId) : NodeId := ((p.field? f).bind Field.root?).getD default

/-- The widgets of some fields were asked for: these have the widget that they had, or a new one if they
had none, and all other fields are as they were. -/
structure Asked (fs : List FieldId) (p p' : Panel) : Prop where
  asked : ∀ f ∈ fs, ∃ field w, p.field? f = some field ∧
    p'.field? f = some { field with widget := some w } ∧
    (field.widget = none ∨ field.widget = some w)
  others : ∀ f, f ∉ fs → p'.field? f = p.field? f

namespace Asked

variable {fs gs : List FieldId} {p p' p'' : Panel} {f : FieldId} {field : Field} {w : Widget}

theorem refl (p : Panel) : Asked [] p p := ⟨nofun, fun _ _ => rfl⟩

/-- A widget that is there stays. -/
theorem kept (h : Asked fs p p') (found : p.field? f = some field) (has : field.widget = some w) :
    p'.field? f = some field := by
  by_cases mem : f ∈ fs
  · obtain ⟨field', w', found', after, before⟩ := h.asked f mem
    cases found.symm.trans found'
    rcases before with none | same
    · cases has.symm.trans none
    · rw [after, ← same]
  · exact (h.others f mem).trans found

theorem trans (first : Asked fs p p') (second : Asked gs p' p'') : Asked (fs ++ gs) p p'' := by
  refine ⟨fun f mem => ?_, fun f absent => ?_⟩
  · by_cases early : f ∈ fs
    · obtain ⟨field, w, found, after, before⟩ := first.asked f early
      exact ⟨field, w, found, second.kept after rfl, before⟩
    · obtain ⟨field, w, found, after, before⟩ :=
        second.asked f ((List.mem_append.1 mem).resolve_left early)
      exact ⟨field, w, (first.others f early).symm.trans found, after, before⟩
  · rw [List.mem_append, not_or] at absent
    exact (second.others f absent.2).trans (first.others f absent.1)

theorem rootOf_eq (found : p.field? f = some field) (has : field.widget = some w) :
    p.rootOf f = w.root := by
  unfold rootOf Field.root?
  rw [found, Option.bind_some, has]
  rfl

/-- The widgets that were asked for stay the same. -/
theorem rootOf_trans (first : Asked fs p p') (second : Asked gs p' p'') (mem : f ∈ fs) :
    p''.rootOf f = p'.rootOf f := by
  obtain ⟨field, w, _, after, _⟩ := first.asked f mem
  rw [rootOf_eq after rfl, rootOf_eq (second.kept after rfl) rfl]

end Asked

end Panel

/-! ## What is known while markers are replaced -/

namespace Scene

variable {s s' : Scene} {place : Option NodeId} {top n q : NodeId} {tag tag' tag'' : String}
  {attributes attributes' attributes'' : OrderedMap String String} {up : List NodeId}
  {fields : FieldId → Prop} {kids before behind inner : List Dom} {f : FieldId} {field : Field}
  {w : Widget} {m : Marker}

/-- An element holds trees, in which there are widgets of some fields; neither their own nodes nor what the
element lies in are widgets of these fields. -/
structure Holding (place : Option NodeId) (top : NodeId) (tag : String)
    (attributes : OrderedMap String String) (up : List NodeId) (fields : FieldId → Prop) (s : Scene)
    (kids : List Dom) : Prop where
  custody : s.Custody .empty False
  there : s.page.Has place (.element top tag attributes kids)
  distinct : (Dom.element top tag attributes kids).nodes.Nodup
  above : s.page.Ascends top up
  fresh : ∀ n ∈ Dom.nodesOf kids, n ∉ up
  alive : ∀ f, fields f → ∃ field, s.panel.field? f = some field
  linked : ∀ l ∈ Dom.linksOf kids, ∃ f field w, fields f ∧ l = (.widget f, w.root) ∧ s.Built f field w
  apart : ∀ f field w, fields f → s.Built f field w → w.root ∉ up ∧ w.root ∉ Dom.nodesOf kids

namespace Holding

/-- **New content** is held by its element: the nodes are new, and there are no links yet. -/
theorem setNodes (custody : s.Custody .empty False)
    (element : s.page.content? top = some (.element tag attributes)) (above : s.page.Ascends top up)
    (nodes : List Markup.Node) (alive : ∀ f, fields f → ∃ field, s.panel.field? f = some field)
    (outside : ∀ f field w, fields f → s.Built f field w → w.root ∉ up) :
    ({ s with page := s.page.setNodes top nodes } : Scene).Holding (s.page.parent? top) top tag attributes
      up fields (Dom.ofNodes s.page.size nodes) := by
  have forest := custody.rests.forest
  have isElement : s.page.tag? top ≠ none := by
    rw [Page.tag?_eq (Page.node?_of_content? element)]
    exact nofun
  have known := Page.lt_size_of_tag? isElement
  obtain ⟨there, above'⟩ := forest.setNodes element above nodes
  have new : ∀ n ∈ Dom.nodesOf (Dom.ofNodes s.page.size nodes), s.page.size ≤ n.index :=
    fun n mem => (Dom.mem_nodesOf_ofNodes mem).1
  refine ⟨(custody.leads_page (.setNodes custody.rests (Nat.zero_le _) isElement nodes) nofun).custody,
    there, ?_, above', ?_, alive, ?_, ?_⟩
  · refine List.nodup_cons.2 ⟨fun mem => Nat.not_le.2 known (new _ mem), ?_⟩
    exact Dom.nodup_nodesOf_ofNodes _ _
  · exact fun n mem beyond => Nat.not_le.2 (forest.lt_size above known n beyond) (new n mem)
  · intro l hl
    rw [Dom.linksOf_ofNodes] at hl
    cases hl
  · intro f field w hf built
    have old : s.Built f field w := ⟨built.found, built.widget⟩
    exact ⟨outside f field w hf old, fun mem =>
      Nat.not_le.2 (custody.own_known old w.root_mem_own) (new _ mem)⟩

/-- No link stands for a node of the tree. -/
theorem loose (h : s.Holding place top tag attributes up fields kids) :
    ∀ l ∈ Dom.linksOf kids, l.2 ∉ (Dom.element top tag attributes kids).nodes := by
  intro l hl mem
  obtain ⟨f, field, w, hf, rfl, built⟩ := h.linked l hl
  obtain ⟨notAbove, notInside⟩ := h.apart f field w hf built
  rcases List.mem_cons.1 mem with same | below
  · obtain rfl : top = w.root := same.symm
    exact notAbove h.above.self_mem
  · exact notInside below

/-- The widgets of two fields have different topmost nodes. -/
theorem link_eq_iff (h : s.Holding place top tag attributes up fields kids) (built : s.Built f field w)
    {l : Link × NodeId} (hl : l ∈ Dom.linksOf kids) : l.1 = .widget f ↔ l.2 = w.root := by
  obtain ⟨g, field', w', _, rfl, built'⟩ := h.linked l hl
  constructor
  · intro same
    cases same
    rw [(built.unique built').2]
  · intro same
    by_contra other
    have ne : g ≠ f := fun eq => other (congrArg Link.widget eq)
    have shared : w'.root = w.root := same
    exact h.custody.apart built' built ne w'.root w'.root_mem_own (shared ▸ w.root_mem_own)

/-- **Asking for a widget** touches nothing that is there. -/
theorem asked (h : s.Holding place top tag attributes up fields kids)
    (asks : PanelM.Asks .empty False s f field w s') :
    s'.Holding place top tag attributes up fields kids := by
  have forest := h.custody.rests.forest
  have topKnown : top.index < s.page.size := h.there.lt_size List.mem_cons_self
  have upKnown := forest.lt_size h.above topKnown
  have parents : ∀ n : NodeId, n.index < s.page.size → s'.page.parent? n = s.page.parent? n := by
    intro n known
    unfold Page.parent?
    rw [asks.grows.old n known]
  refine ⟨asks.leads.custody, ?_, h.distinct, h.above.congr fun n mem => parents n (upKnown n mem),
    h.fresh, fun g hg => ?_, fun l hl => ?_, fun g field' w' hg built => ?_⟩
  · refine h.there.congr (fun n hn => asks.grows.old n (h.there.lt_size hn)) fun l hl => ?_
    obtain ⟨_, _, w', _, rfl, built⟩ := h.linked l hl
    exact parents _ (h.custody.own_known built w'.root_mem_own)
  · by_cases same : g = f
    · exact ⟨_, same ▸ asks.built.found⟩
    · obtain ⟨field', found⟩ := h.alive g hg
      exact ⟨field', (asks.others same).trans found⟩
  · obtain ⟨g, field', w', hg, is, built⟩ := h.linked l hl
    exact ⟨g, field', w', hg, is, asks.stays built⟩
  · rcases asks.built_cases built with old | ⟨_, _, rfl, born⟩
    · exact h.apart g field' w' hg old
    · have new := (born.own _ w'.root_mem_own).1
      exact ⟨fun mem => Nat.not_le.2 (upKnown _ mem) new,
        fun mem => Nat.not_le.2 (h.there.lt_size (List.mem_cons_of_mem _ mem)) new⟩

/-- **A widget is put in the place of a marker.** -/
theorem exchanged (h : s.Holding place top tag attributes up fields kids) (hf : fields f)
    (built : s.Built f field w)
    (found : (Dom.element top tag attributes kids).find? q =
      some (tag', attributes', before ++ .element n tag'' attributes'' inner :: behind)) :
    ∃ p₁ p₂, s.page.insertBefore q w.root n = .ok p₁ ∧ p₁.remove q n = .ok p₂ ∧
      ({ s with page := p₂ } : Scene).Holding place top tag attributes up fields
        (Dom.swapAll n (.widget f) [.link (.widget f) w.root] kids) := by
  have rests := h.custody.rests
  have known := h.custody.own_known built w.root_mem_own
  have inside : n ∈ Dom.nodesOf kids := (Dom.nodes_of_findAmong?
    (Dom.findAmong?_of_child before h.distinct found).2.2).subset List.mem_cons_self
  obtain ⟨p₁, p₂, run₁, run₂, there, parents⟩ := rests.forest.exchange h.there h.distinct found
    h.above (h.apart f field w hf built) known fun l hl =>
      ⟨fun same => h.loose l hl (same ▸ List.mem_cons_of_mem _ inside), h.link_eq_iff built hl⟩
  have custody : ({ s with page := p₂ } : Scene).Custody .empty False := by
    have first := Page.Confined.exec_insertBefore rests (Nat.zero_le q.index) (Nat.zero_le _) known n
    rw [PageM.exec_insertBefore_of_ok run₁] at first
    have second := Page.Confined.exec_remove (q := q) first.rests (Nat.zero_le n.index)
    rw [PageM.exec_remove_of_ok run₂] at second
    have step : s.Leads .empty False { s with page := p₁ } := h.custody.leads_page first nofun
    exact (step.custody.leads_page second nofun).custody
  have fewer : (Dom.nodesOf (Dom.swapAll n (.widget f) [.link (.widget f) w.root] kids)).Sublist
      (Dom.nodesOf kids) := Dom.nodesOf_swapAll rfl kids
  refine ⟨p₁, p₂, run₁, run₂, custody, there, h.distinct.sublist (fewer.cons_cons top),
    h.above.congr fun m mem => parents m ?_ ?_, fun m mem => h.fresh m (fewer.subset mem), h.alive,
    fun l hl => ?_, fun g field' w' hg built' => ?_⟩
  · rintro rfl
    exact h.fresh m inside mem
  · rintro rfl
    exact (h.apart f field w hf built).1 mem
  · rcases Dom.mem_linksOf_swapAll hl with ⟨old, _⟩ | new
    · obtain ⟨g, field', w', hg, is, built'⟩ := h.linked l old
      exact ⟨g, field', w', hg, is, ⟨built'.found, built'.widget⟩⟩
    · exact ⟨f, field, w, hf, List.mem_singleton.1 new, ⟨built.found, built.widget⟩⟩
  · obtain ⟨notAbove, notInside⟩ := h.apart g field' w' hg ⟨built'.found, built'.widget⟩
    exact ⟨notAbove, fun mem => notInside (fewer.subset mem)⟩

/-- A marker is replaced. -/
theorem exec_replaceMarker (h : s.Holding place top tag attributes up fields kids) (hm : fields m.field)
    (found : (Dom.element top tag attributes kids).find? m.parent =
      some (tag', attributes', before ++ .element m.node tag'' attributes'' inner :: behind)) :
    ∃ w s', exec (BuildM.replaceMarker m) s = (.ok (), s') ∧
      s'.Holding place top tag attributes up fields (Dom.spliceAll [(m, w)] kids) ∧
      s.panel.Asked [m.field] s'.panel ∧ s'.panel.rootOf m.field = w := by
  obtain ⟨field, alive⟩ := h.alive _ hm
  obtain ⟨w, s₁, run₁, asks⟩ := PanelM.exec_widget h.custody alive
  obtain ⟨p₁, p₂, run₂, run₃, holding⟩ := (h.asked asks).exchanged hm asks.built found
  refine ⟨w.root, { s₁ with page := p₂ }, BuildM.exec_replaceMarker_ok run₁ run₂ run₃, holding,
    ⟨fun f mem => ?_, fun f absent => ?_⟩, Panel.Asked.rootOf_eq asks.built.found asks.built.widget⟩
  · rw [List.mem_singleton.1 mem]
    exact ⟨field, w, alive, asks.built.found, asks.fresh.symm.imp_left And.left⟩
  · exact asks.others fun same => absent (List.mem_singleton.2 same)

theorem inlays : Inlays top tag attributes fields (fun s : Scene => s)
    (Holding place top tag attributes up fields) fun steps s s' =>
      s.panel.Asked (steps.map fun e => e.1.field) s'.panel ∧
        ∀ e ∈ steps, e.2 = s'.panel.rootOf e.1.field where
  there h := ⟨_, h.there⟩
  distinct := distinct
  loose := loose
  step h hm found _ := by
    obtain ⟨w, s', run, holding, asked, root⟩ := h.exec_replaceMarker hm found
    refine ⟨w, s', run, holding, asked, fun e mem => ?_⟩
    rw [List.mem_singleton.1 mem]
    exact root.symm
  refl s := ⟨.refl s.panel, nofun⟩
  trans first second := by
    refine ⟨List.map_append .. ▸ first.1.trans second.1, fun e mem => ?_⟩
    rcases List.mem_append.1 mem with early | late
    · rw [first.2 e early, first.1.rootOf_trans second.1 (List.mem_map_of_mem early)]
    · exact second.2 e late

end Holding

/-! ## Splicing -/

/-- **Splicing** into an element of a scene that a panel has reached.  If the markup can be read, and if the
identifiers stand for fields that are alive and whose widgets do not have the element in them, splicing is
not refused.  It is the walk over the new content of the element, and what is there at its end is the markup
with widgets in the place of its markers: no node that is no marker, or below one, has changed, and a field
has its widget where its last marker was.  The fields that are marked have widgets, and nothing is done to
the other fields. -/
theorem Reached.splice_inlaid (h : s.Reached) {container : NodeId}
    (element : s.page.content? container = some (.element tag attributes)) {html : String}
    {nodes : List Markup.Node} (readable : Markup.parseFragment html = .ok nodes)
    {placeholders : Placeholders}
    (suits : ∀ identifier f, placeholders.get? identifier = some f →
      ∃ field, s.panel.field? f = some field ∧
        ∀ root, field.root? = some root → s.page.contains root container = false) :
    ∃ s', exec (BuildM.splice container html placeholders) s = (.ok (), s') ∧
      BuildM.Walks placeholders container ((s.page.setNodes container nodes).firstChild? container)
        { s with page := s.page.setNodes container nodes } s' ∧
      s'.page.Has (s.page.parent? container) (.element container tag attributes
        (placeholders.inlaid s'.panel.rootOf [] s.page.size nodes)) ∧
      s.panel.Asked (placeholders.markedAmong nodes) s'.panel := by
  have isElement := Page.tag?_eq (Page.node?_of_content? element)
  obtain ⟨up, above⟩ := h.custody.rests.forest.rises container
  have known : container.index < s.page.size :=
    Page.lt_size_of_tag? (by rw [isElement]; exact nofun)
  have outside : ∀ f field w, (∃ identifier, placeholders.get? identifier = some f) →
      s.Built f field w → w.root ∉ up := by
    rintro f field w ⟨identifier, stands⟩ built
    obtain ⟨field', found, clear⟩ := suits identifier f stands
    cases found.symm.trans built.found
    have notAbove := clear w.root (by rw [Field.root?, built.widget]; rfl)
    rw [h.custody.rests.forest.contains_eq above] at notAbove
    exact of_decide_eq_false notAbove
  have start := Holding.setNodes h.custody element above nodes
    (fun f ⟨identifier, stands⟩ => (suits identifier f stands).imp fun _ => And.left) outside
  have found : (Dom.element container tag attributes (Dom.ofNodes s.page.size nodes)).find?
      container = some (tag, attributes, [] ++ Dom.ofNodes s.page.size nodes) := Dom.find?_root ..
  obtain ⟨steps, s', eq, run, holding, ⟨asked, roots⟩, walks, _⟩ :=
    Holding.inlays.runs_nodes (fun identifier f stands => ⟨identifier, stands⟩) nodes start known found
  have fields : steps.map (fun e => e.1.field) = placeholders.markedAmong nodes := by
    rw [← Placeholders.map_field_markersAmong placeholders container s.page.size, ← eq, List.map_map]
    rfl
  refine ⟨s', ?_, ?_, ?_, fields ▸ asked⟩
  · have read : s.page.readMarkup container html = .ok nodes := by
      unfold Page.readMarkup
      rw [isElement, readable]
      rfl
    unfold BuildM.splice
    rw [exec_bind_ok (exec_get s)]
    dsimp only
    rw [read]
    exact (exec_bind_ok (exec_modify _ _)).trans run
  · have first : (s.page.setNodes container nodes).firstChild? container =
        ((Dom.ofNodes s.page.size nodes).map Dom.root).head? := by
      unfold Page.firstChild?
      rw [Page.children_eq start.there.1]
    rw [first]
    exact walks
  · rw [← Placeholders.spliceAll_ofNodes container s.page.size nodes eq roots]
    exact holding.there

/-- A panel field that holds the widget of a label, and a button without a widget. -/
def holdingLabel : Scene := (opened .empty .empty ⟨0⟩ .empty).after [
  .create .label (.ofList [(Vocabulary.nameKey, "a"), (Vocabulary.labelKey, "x")]),
  .create .panel (.ofList [(Vocabulary.nameKey, "b")]),
  .create .button (.ofList [(Vocabulary.nameKey, "c")]),
  .widget ⟨1⟩, .widget ⟨0⟩, .fill ⟨1⟩ ⟨2⟩]

/-- The label is marked twice, and the button inside of a marker only. -/
def markedTwice : String := "<p id='a'>1</p><p>2<b id='a'><i id='c'/></b></p><u id='d'/>"

/-- The label and the button. -/
def labelAndButton : Placeholders := .ofList [("a", ⟨0⟩), ("c", ⟨2⟩)]

theorem Reached.splice_inlaid_markedTwice : holdingLabel.Reached ∧
    ∃ nodes s', Markup.parseFragment markedTwice = .ok nodes ∧
      exec (BuildM.splice ⟨1⟩ markedTwice labelAndButton) holdingLabel = (.ok (), s') ∧
      holdingLabel.panel.Asked (labelAndButton.markedAmong nodes) s'.panel ∧
      s'.page.outerMarkup ⟨1⟩ = "<div><p>2<span>x</span></p><u id=\"d\"></u></div>" ∧
      (s'.panel.field? ⟨2⟩).bind Field.root? = none := by
  have reached : holdingLabel.Reached := by
    refine .step (.step (.step (.step (.step (.step (.opened .empty _ _ _) trivial) trivial) trivial)
      trivial) trivial) ?_
    change _ < _
    decide +kernel
  have isElement : holdingLabel.page.tag? ⟨1⟩ ≠ none := by decide +kernel
  obtain ⟨_, _, element⟩ := Page.exists_element isElement
  have reads : (Markup.parseFragment markedTwice).isOk = true := by decide +kernel
  obtain ⟨nodes, readable⟩ : ∃ nodes, Markup.parseFragment markedTwice = .ok nodes := by
    cases read : Markup.parseFragment markedTwice with
    | ok nodes => exact ⟨nodes, rfl⟩
    | error e =>
      rw [read] at reads
      cases reads
  have outside : ∀ e ∈ labelAndButton.toList, (holdingLabel.panel.field? e.2).isSome ∧
      (((holdingLabel.panel.field? e.2).bind Field.root?).all fun root =>
        !holdingLabel.page.contains root ⟨1⟩) := by decide +kernel
  have suits : ∀ identifier f, labelAndButton.get? identifier = some f →
      ∃ field, holdingLabel.panel.field? f = some field ∧
        ∀ root, field.root? = some root → holdingLabel.page.contains root ⟨1⟩ = false := by
    intro identifier f stands
    obtain ⟨alive, apart⟩ := outside _ (OrderedMap.mem_of_get? stands)
    obtain ⟨field, found⟩ := Option.isSome_iff_exists.1 alive
    refine ⟨field, found, fun root has => ?_⟩
    rw [found, Option.bind_some, has] at apart
    simpa using apart
  obtain ⟨s', run, _, _, asked⟩ := reached.splice_inlaid element readable suits
  have shown : (exec (BuildM.splice ⟨1⟩ markedTwice labelAndButton) holdingLabel).2.page.outerMarkup ⟨1⟩ =
      "<div><p>2<span>x</span></p><u id=\"d\"></u></div>" := by decide +kernel
  have unrealized : ((exec (BuildM.splice ⟨1⟩ markedTwice labelAndButton) holdingLabel).2.panel.field?
      ⟨2⟩).bind Field.root? = none := by decide +kernel
  rw [run] at shown unrealized
  exact ⟨reached, nodes, s', readable, run, asked, shown, unrealized⟩

end Scene

end Formwork
