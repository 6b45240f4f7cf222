import Formwork.Proofs.Page.Walks
import Formwork.Proofs.Step
import Formwork.Proofs.Template.Settle

/-!
# Walking over markup while markers are replaced

Markers can be looked for on the page: from child to next sibling, and below every child that is no
marker.  A marker that is replaced is gone, and its widget may have been one of the siblings, so it is
read off the page where to go on before a child is replaced (`BuildM.Walks`).

Which markers there are can be read off the markup as well, before anything was replaced.  That replacing
these one after the other is the walk follows for every invariant that replacing one marker keeps
(`Inlays.runs_nodes`): the siblings behind a child are still as the markup says when the child is done.
-/

namespace Formwork

set_option autoImplicit false

/-! ## The walk -/

namespace BuildM

variable {placeholders : Placeholders}

/-- Replacing the markers among a child of a node and its later siblings, and below them. -/
inductive Walks (placeholders : Placeholders) : NodeId → Option NodeId → Scene → Scene → Prop where
  | done {q : NodeId} {s : Scene} : Walks placeholders q none s s
  | marker {q c : NodeId} {f : FieldId} {s s' s'' : Scene} :
      (s.page.attr? c "id").bind placeholders.get? = some f →
      exec (replaceMarker ⟨c, q, f⟩) s = (.ok (), s') →
      Walks placeholders q (s.page.nextSibling? c) s' s'' → Walks placeholders q (some c) s s''
  | other {q c : NodeId} {s s' s'' : Scene} :
      (s.page.attr? c "id").bind placeholders.get? = none →
      Walks placeholders c (s.page.firstChild? c) s s' →
      Walks placeholders q (s.page.nextSibling? c) s' s'' → Walks placeholders q (some c) s s''

/-- A walk ends in one way. -/
theorem Walks.unique {q : NodeId} {child : Option NodeId} {s s' s'' : Scene}
    (h : Walks placeholders q child s s') (h' : Walks placeholders q child s s'') : s'' = s' := by
  induction h generalizing s'' with
  | done =>
    cases h'
    rfl
  | marker is run _ ih =>
    cases h' with
    | marker is' run' rest =>
      cases is.symm.trans is'
      cases run.symm.trans run'
      exact ih rest
    | other isNot => cases is.symm.trans isNot
  | other isNot _ _ inner ih =>
    cases h' with
    | marker is => cases isNot.symm.trans is
    | other _ below rest =>
      cases inner below
      exact ih rest

end BuildM

/-! ## Children on a page -/

namespace Dom

variable {top q : NodeId} {tag tag' : String} {attributes attributes' : OrderedMap String String}
  {kids before behind : List Dom} {d : Dom}

@[simp]
theorem root_ofNode (number : Nat) (n : Markup.Node) : (ofNode number n).root = ⟨number⟩ := by
  cases n <;> rfl

theorem root_mem_nodes_ofNode (number : Nat) (n : Markup.Node) :
    (ofNode number n).root ∈ (ofNode number n).nodes := by
  cases n <;> exact List.mem_cons_self

/-- A child with a node of its own is not among the topmost nodes of the children before it. -/
theorem root_not_mem_of_child (distinct : (element top tag attributes kids).nodes.Nodup)
    (loose : ∀ l ∈ linksOf kids, l.2 ∉ (element top tag attributes kids).nodes)
    (found : (element top tag attributes kids).find? q =
      some (tag', attributes', before ++ d :: behind)) (rooted : d.root ∈ d.nodes) :
    d.root ∉ before.map root := by
  have below := nodes_of_find? found
  have own : d.root ∈ nodesOf (d :: behind) := List.mem_append_left _ rooted
  have apart := (List.nodup_cons.1 (distinct.sublist below)).2
  rw [nodesOf_append, List.nodup_append] at apart
  intro mem
  obtain ⟨e, he, same⟩ := List.mem_map.1 mem
  have clash : e.root ∉ e.nodes := fun rooted' =>
    apart.2.2 e.root (mem_nodesOf.2 ⟨e, he, rooted'⟩) d.root own same
  cases e with
  | text n content => exact clash (List.mem_singleton_self _)
  | element n _ _ _ => exact clash List.mem_cons_self
  | link target n =>
    have listed := links_of_find? found (target, n)
      (mem_linksOf.2 ⟨_, List.mem_append_left _ he, List.mem_singleton_self _⟩)
    refine loose _ listed (below.subset (List.mem_cons_of_mem _ ?_))
    rw [nodesOf_append, show n = d.root from same]
    exact List.mem_append_right _ own

end Dom

namespace Page

variable {p : Page} {q c : NodeId} {place : Option NodeId} {top : NodeId} {tag tag' : String}
  {attributes attributes' : OrderedMap String String} {kids before behind : List Dom}
  {number : Nat} {n : Markup.Node}

/-- A node of markup that is a child of an element of a tree, and what is read off the page there. -/
theorem Has.child_ofNode (there : p.Has place (.element top tag attributes kids))
    (distinct : (Dom.element top tag attributes kids).nodes.Nodup)
    (loose : ∀ l ∈ Dom.linksOf kids, l.2 ∉ (Dom.element top tag attributes kids).nodes)
    (found : (Dom.element top tag attributes kids).find? q =
      some (tag', attributes', before ++ Dom.ofNode number n :: behind)) :
    p.Has (some q) (Dom.ofNode number n) ∧
      p.nextSibling? ⟨number⟩ = (behind.map Dom.root).head? := by
  obtain ⟨_, below, _, element⟩ := there.find found
  have here := (hasAll_append.1 below).2.1
  refine ⟨here, ?_⟩
  have lies := here.root_parent
  have absent := Dom.root_not_mem_of_child distinct loose found (Dom.root_mem_nodes_ofNode number n)
  rw [Dom.root_ofNode] at lies absent
  have listed := children_eq element
  rw [List.map_append, List.map_cons, Dom.root_ofNode] at listed
  exact nextSibling?_eq_of_not_mem lies listed absent

/-- The field that an element of markup stands for can be read off the page. -/
theorem Has.field_ofNode {t : Markup.Tag} {children : List Markup.Node}
    (there : p.Has place (Dom.ofNode number (.element t children))) (placeholders : Placeholders) :
    (p.attr? ⟨number⟩ "id").bind placeholders.get? = placeholders.fieldOf? t ∧
      p.firstChild? ⟨number⟩ = ((Dom.ofNodes (number + 1) children).map Dom.root).head? := by
  have element := there.1
  constructor
  · unfold attr?
    rw [element]
    rfl
  · unfold firstChild?
    rw [children_eq element]

end Page

/-! ## Replacing markers one after the other -/

/-- What is known of the states of a scene, and of the content of an element in it, is kept by replacing
a marker in that content; what the replacements come to adds up. -/
structure Inlays (top : NodeId) (tag : String) (attributes : OrderedMap String String)
    (fields : FieldId → Prop) {σ : Type} (scene : σ → Scene) (Keeps : σ → List Dom → Prop)
    (Comes : List (Marker × NodeId) → σ → σ → Prop) : Prop where
  there : ∀ {x kids}, Keeps x kids →
    ∃ place, (scene x).page.Has place (.element top tag attributes kids)
  distinct : ∀ {x kids}, Keeps x kids → (Dom.element top tag attributes kids).nodes.Nodup
  loose : ∀ {x kids}, Keeps x kids →
    ∀ l ∈ Dom.linksOf kids, l.2 ∉ (Dom.element top tag attributes kids).nodes
  step : ∀ {x : σ} {kids before behind inner : List Dom} {m : Marker} {tag' tag'' : String}
    {attributes' attributes'' : OrderedMap String String}, Keeps x kids → fields m.field →
      (Dom.element top tag attributes kids).find? m.parent = some (tag', attributes',
        before ++ .element m.node tag'' attributes'' inner :: behind) →
      Dom.linksOf inner = [] →
      ∃ w y, exec (BuildM.replaceMarker m) (scene x) = (.ok (), scene y) ∧
        Keeps y (Dom.spliceAll [(m, w)] kids) ∧ Comes [(m, w)] x y
  refl : ∀ x, Comes [] x x
  trans : ∀ {first second x y z}, Comes first x y → Comes second y z → Comes (first ++ second) x z

namespace Inlays

variable {top : NodeId} {tag tag' : String} {attributes attributes' : OrderedMap String String}
  {fields : FieldId → Prop} {σ : Type} {scene : σ → Scene} {Keeps : σ → List Dom → Prop}
  {Comes : List (Marker × NodeId) → σ → σ → Prop} {x : σ} {kids before behind : List Dom}
  {placeholders : Placeholders} {number : Nat} {q : NodeId}

/-- Replacing some markers, which lie in a range of nodes, is not refused; elements out of the range are
changed below only. -/
def Runs (top : NodeId) (tag : String) (attributes : OrderedMap String String) (scene : σ → Scene)
    (Keeps : σ → List Dom → Prop) (Comes : List (Marker × NodeId) → σ → σ → Prop) (x : σ)
    (kids : List Dom) (low high : Nat) (ms : List Marker) (walked : Scene → Prop) : Prop :=
  ∃ steps y, steps.map Prod.fst = ms ∧
    exec (ms.forM BuildM.replaceMarker) (scene x) = (.ok (), scene y) ∧
    Keeps y (Dom.spliceAll steps kids) ∧ Comes steps x y ∧ walked (scene y) ∧
    ∀ c tag' attributes' children, c.index < low ∨ high ≤ c.index →
      (Dom.element top tag attributes kids).find? c = some (tag', attributes', children) →
      (Dom.element top tag attributes (Dom.spliceAll steps kids)).find? c =
        some (tag', attributes', Dom.spliceAll steps children)

theorem runs_nil (h : Inlays top tag attributes fields scene Keeps Comes) (keeps : Keeps x kids)
    (low high : Nat) {walked : Scene → Prop} (here : walked (scene x)) :
    Runs top tag attributes scene Keeps Comes x kids low high [] walked :=
  ⟨[], x, rfl, rfl, keeps, h.refl x, here, fun _ _ _ _ _ found => found⟩

/-- One marker, whose node is a subtree of imported markup. -/
theorem runs_single (h : Inlays top tag attributes fields scene Keeps Comes) (keeps : Keeps x kids)
    {t : Markup.Tag} {children : List Markup.Node} {f : FieldId} (hf : fields f)
    (found : (Dom.element top tag attributes kids).find? q = some (tag', attributes',
      before ++ Dom.ofNode number (.element t children) :: behind)) {walked : Scene → Prop}
    (done : ∀ {s}, exec (BuildM.replaceMarker ⟨⟨number⟩, q, f⟩) (scene x) = (.ok (), s) → walked s) :
    Runs top tag attributes scene Keeps Comes x kids number
      (number + (Markup.Node.element t children).count) [⟨⟨number⟩, q, f⟩] walked := by
  have distinct := h.distinct keeps
  obtain ⟨_, _, atN⟩ := Dom.findAmong?_of_child _ distinct found
  obtain ⟨w, y, run, keeps', comes⟩ := h.step (m := ⟨⟨number⟩, q, f⟩) keeps hf found
    (Dom.linksOf_ofNodes _ _)
  refine ⟨[(⟨⟨number⟩, q, f⟩, w)], y, rfl, ?_, keeps', comes, done run, ?_⟩
  · rw [exec_forM_cons, exec_bind_ok run]
    rfl
  · intro c tag'' attributes'' children' outside found'
    rw [Dom.find?] at found' ⊢
    split at found'
    · case isTrue same =>
      cases found'
      rw [if_pos same]
    · case isFalse other =>
      have notMarker : c ≠ ⟨number⟩ := by
        rintro rfl
        rw [Markup.Node.count] at outside
        simp only at outside
        omega
      have step : Dom.spliceAll [((⟨⟨number⟩, q, f⟩ : Marker), w)] kids =
          Dom.swapAll ⟨number⟩ (.widget f) [.link (.widget f) w] kids := rfl
      rw [if_neg other, step, Dom.findAmong?_swapAll notMarker rfl (List.nodup_cons.1 distinct).2,
        found']
      · rfl
      · intro _ _ inner atN' mem
        rw [atN] at atN'
        cases atN'
        have range := Dom.mem_nodesOf_ofNodes mem
        rw [Markup.Node.count] at outside
        omega

mutual
/-- Replacing the markers of a node of imported markup: the walk over it and what comes behind it. -/
theorem runs_node (h : Inlays top tag attributes fields scene Keeps Comes)
    (marked : ∀ identifier f, placeholders.get? identifier = some f → fields f) :
    ∀ (n : Markup.Node) {number : Nat} {q : NodeId} {x : σ} {kids before behind : List Dom}
      {tag' : String} {attributes' : OrderedMap String String}, Keeps x kids →
      (Dom.element top tag attributes kids).find? q =
        some (tag', attributes', before ++ Dom.ofNode number n :: behind) →
      Runs top tag attributes scene Keeps Comes x kids number (number + n.count)
        (placeholders.markersIn q number n) fun s => ∀ s',
          BuildM.Walks placeholders q (behind.map Dom.root).head? s s' →
            BuildM.Walks placeholders q (some ⟨number⟩) (scene x) s'
  | .text content, number, q, x, kids, _, _, _, _, keeps, found => by
    obtain ⟨_, there⟩ := h.there keeps
    obtain ⟨here, next⟩ := there.child_ofNode (h.distinct keeps) (h.loose keeps) found
    have text : (scene x).page.node? ⟨number⟩ = some ⟨.text content, some q, []⟩ := here
    have unmarked : ((scene x).page.attr? ⟨number⟩ "id").bind placeholders.get? = none := by
      unfold Page.attr?
      rw [text]
      rfl
    have below : BuildM.Walks placeholders ⟨number⟩ ((scene x).page.firstChild? ⟨number⟩) (scene x)
        (scene x) := by
      unfold Page.firstChild?
      rw [Page.children_eq text]
      exact .done
    exact h.runs_nil keeps _ _ fun s' rest => .other unmarked below (next ▸ rest)
  | .element t children, number, q, x, kids, before, behind, tag', attributes', keeps, found => by
    obtain ⟨_, there⟩ := h.there keeps
    obtain ⟨here, next⟩ := there.child_ofNode (h.distinct keeps) (h.loose keeps) found
    obtain ⟨field, first⟩ := here.field_ofNode placeholders
    rw [Placeholders.markersIn]
    cases stands : placeholders.fieldOf? t with
    | some f =>
      obtain ⟨identifier, _, got⟩ := Option.bind_eq_some_iff.1 stands
      exact h.runs_single keeps (marked identifier f got) found fun run s' rest =>
        .marker (field.trans stands) run (next ▸ rest)
    | none =>
      obtain ⟨notTop, _, atN⟩ := Dom.findAmong?_of_child _ (h.distinct keeps) found
      have whole : (Dom.element top tag attributes kids).find? ⟨number⟩ =
          some (t.qname, t.plainAttributes, [] ++ Dom.ofNodes (number + 1) children) := by
        rw [Dom.find?, if_neg notTop]
        exact atN
      obtain ⟨steps, y, eq, run, keeps', comes, walked, kept⟩ :=
        runs_nodes h marked children keeps (Nat.lt_succ_self number) whole
      refine ⟨steps, y, eq, run, keeps', comes, fun s' rest => ?_, ?_⟩
      · exact .other (field.trans stands) (first ▸ walked) (next ▸ rest)
      · intro c tag'' attributes'' children' outside
        refine kept c tag'' attributes'' children' ?_
        rw [Markup.Node.count] at outside
        omega

/-- **Replacing the markers of imported markup** one after the other is the walk over it, and it is not
refused. -/
theorem runs_nodes (h : Inlays top tag attributes fields scene Keeps Comes)
    (marked : ∀ identifier f, placeholders.get? identifier = some f → fields f) :
    ∀ (ns : List Markup.Node) {number : Nat} {q : NodeId} {x : σ} {kids before : List Dom}
      {tag' : String} {attributes' : OrderedMap String String}, Keeps x kids → q.index < number →
      (Dom.element top tag attributes kids).find? q =
        some (tag', attributes', before ++ Dom.ofNodes number ns) →
      Runs top tag attributes scene Keeps Comes x kids number (number + Markup.countOf ns)
        (placeholders.markersAmong q number ns)
        (BuildM.Walks placeholders q ((Dom.ofNodes number ns).map Dom.root).head? (scene x))
  | [], number, q, x, kids, _, _, _, keeps, _, _ => h.runs_nil keeps _ _ .done
  | n :: ns, number, q, x, kids, before, tag', attributes', keeps, order, found => by
    obtain ⟨first, y, eq₁, run₁, keeps₁, comes₁, walked₁, kept₁⟩ := runs_node h marked n keeps found
    -- the siblings behind are as they were
    have still : Dom.spliceAll first (Dom.ofNodes (number + n.count) ns) =
        Dom.ofNodes (number + n.count) ns := by
      refine Dom.spliceAll_of_absent (fun e mem there => ?_) (Dom.linksOf_ofNodes _ _)
      have range := Placeholders.mem_markersIn (eq₁ ▸ List.mem_map_of_mem mem)
      have range' := Dom.mem_nodesOf_ofNodes there
      omega
    have found₁ := kept₁ q tag' attributes' _ (.inl order) found
    have split : before ++ Dom.ofNodes number (n :: ns) =
        (before ++ [Dom.ofNode number n]) ++ Dom.ofNodes (number + n.count) ns := by
      rw [Dom.ofNodes, List.append_assoc]
      rfl
    rw [split, Dom.spliceAll_append_trees, still] at found₁
    obtain ⟨second, z, eq₂, run₂, keeps₂, comes₂, walked₂, kept₂⟩ :=
      runs_nodes h marked ns keeps₁ (by omega) found₁
    refine ⟨first ++ second, z, ?_, ?_, ?_, h.trans comes₁ comes₂, ?_, ?_⟩
    · rw [List.map_append, eq₁, eq₂, Placeholders.markersAmong]
    · rw [Placeholders.markersAmong]
      exact (exec_forM_append _ _ _ _).trans ((exec_bind_ok run₁).trans run₂)
    · rw [Dom.spliceAll_append]
      exact keeps₂
    · rw [Dom.ofNodes, List.map_cons, Dom.root_ofNode]
      exact walked₁ _ walked₂
    · intro c tag'' attributes'' children outside there
      rw [Markup.countOf] at outside
      rw [Dom.spliceAll_append, Dom.spliceAll_append]
      exact kept₂ c tag'' attributes'' _ (by omega)
        (kept₁ c tag'' attributes'' children (by omega) there)
end

end Inlays

end Formwork
