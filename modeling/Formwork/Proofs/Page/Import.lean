import Formwork.Proofs.Page.Change
import Formwork.Template.Splice

/-!
# Markup as trees of a page

Nodes of markup that are put on a page get numbers in document order, an element before its
children.  So the trees they become can be written down beforehand (`Dom.ofNodes`), and putting
them below an element adds these trees behind its children and does nothing else.
-/

namespace Formwork

set_option autoImplicit false

/-! ## The trees of markup -/

/-- The attributes of a tag by their written names; the last value of a repeated one counts. -/
def Markup.Tag.plainAttributes (t : Markup.Tag) : OrderedMap String String :=
  OrderedMap.ofList (t.attributes.map fun a => (a.qname, a.value))

mutual
/-- The tree that a node of markup is. -/
def Html.ofNode : Markup.Node → Html
  | .text content => .text content
  | .element tag children => .element tag.qname tag.plainAttributes (Html.ofNodes children)

def Html.ofNodes : List Markup.Node → List Html
  | [] => []
  | n :: ns => Html.ofNode n :: Html.ofNodes ns
end

namespace Dom

mutual
/-- The tree that a node of markup becomes when its topmost node gets a number. -/
def ofNode (number : Nat) : Markup.Node → Dom
  | .text content => .text ⟨number⟩ content
  | .element tag children =>
    .element ⟨number⟩ tag.qname tag.plainAttributes (ofNodes (number + 1) children)

def ofNodes (number : Nat) : List Markup.Node → List Dom
  | [] => []
  | n :: ns => ofNode number n :: ofNodes (number + n.count) ns
end

mutual
@[simp]
theorem html_ofNode (number : Nat) : ∀ n : Markup.Node, (ofNode number n).html = Html.ofNode n
  | .text _ => rfl
  | .element tag children => by rw [ofNode, html, htmlOf_ofNodes, Html.ofNode]

@[simp]
theorem htmlOf_ofNodes (number : Nat) : ∀ ns : List Markup.Node,
    htmlOf (ofNodes number ns) = Html.ofNodes ns
  | [] => rfl
  | n :: ns => by rw [ofNodes, htmlOf, html_ofNode, htmlOf_ofNodes, Html.ofNodes]
end

mutual
@[simp]
theorem links_ofNode (number : Nat) : ∀ n : Markup.Node, (ofNode number n).links = []
  | .text _ => rfl
  | .element tag children => by rw [ofNode, links, linksOf_ofNodes]

@[simp]
theorem linksOf_ofNodes (number : Nat) : ∀ ns : List Markup.Node, linksOf (ofNodes number ns) = []
  | [] => rfl
  | n :: ns => by rw [ofNodes, linksOf, links_ofNode, linksOf_ofNodes, List.append_nil]
end

mutual
/-- The nodes of imported markup are numbered one after the other, in document order. -/
theorem nodes_ofNode (number : Nat) : ∀ n : Markup.Node,
    (ofNode number n).nodes = (List.range' number n.count).map NodeId.mk
  | .text _ => rfl
  | .element tag children => by
    rw [ofNode, nodes, nodesOf_ofNodes (number + 1) children, Markup.Node.count, Nat.add_comm 1,
      List.range'_succ, List.map_cons]

theorem nodesOf_ofNodes (number : Nat) : ∀ ns : List Markup.Node,
    nodesOf (ofNodes number ns) = (List.range' number (Markup.countOf ns)).map NodeId.mk
  | [] => rfl
  | n :: ns => by
    rw [ofNodes, nodesOf, nodes_ofNode number n, nodesOf_ofNodes _ ns, ← List.map_append,
      List.range'_append_1, Markup.countOf]
end

theorem mem_map_range' {m : NodeId} {number count : Nat} :
    m ∈ (List.range' number count).map NodeId.mk ↔
      number ≤ m.index ∧ m.index < number + count := by
  rw [List.mem_map, ← List.mem_range'_1]
  constructor
  · rintro ⟨index, mem, rfl⟩
    exact mem
  · exact fun mem => ⟨m.index, mem, rfl⟩

theorem mem_nodes_ofNode {number : Nat} {m : NodeId} {n : Markup.Node} :
    m ∈ (ofNode number n).nodes → number ≤ m.index ∧ m.index < number + n.count := by
  rw [nodes_ofNode]
  exact mem_map_range'.1

theorem mem_nodesOf_ofNodes {number : Nat} {m : NodeId} {ns : List Markup.Node} :
    m ∈ nodesOf (ofNodes number ns) →
      number ≤ m.index ∧ m.index < number + Markup.countOf ns := by
  rw [nodesOf_ofNodes]
  exact mem_map_range'.1

theorem nodup_nodesOf_ofNodes (number : Nat) (ns : List Markup.Node) :
    (nodesOf (ofNodes number ns)).Nodup := by
  rw [nodesOf_ofNodes]
  refine List.Nodup.map (fun a b same => ?_) List.nodup_range'
  cases same
  rfl

end Dom

namespace Page

/-! ## Putting markup on a page -/

/-- A page with more nodes, which form trees behind the children of a node. -/
structure Imported (n : NodeId) (p p' : Page) (ds : List Dom) (count : Nat) : Prop where
  size : p'.size = p.size + count
  others : ∀ m : NodeId, m.index < p.size → m ≠ n → p'.node? m = p.node? m
  below : p'.node? n = (p.node? n).map fun node =>
    { node with children := node.children ++ ds.map Dom.root }
  has : p'.HasAll (some n) ds

theorem Imported.nil (n : NodeId) (p : Page) : Imported n p p [] 0 where
  size := rfl
  others _ _ _ := rfl
  below := by
    cases p.node? n with
    | none => rfl
    | some node => simp
  has := trivial

theorem Imported.append {n : NodeId} {p p' p'' : Page} {ds es : List Dom} {count count' : Nat}
    (first : Imported n p p' ds count) (second : Imported n p' p'' es count')
    (fresh : ∀ m ∈ Dom.nodesOf ds, m.index < p'.size ∧ m ≠ n) (unlinked : Dom.linksOf ds = []) :
    Imported n p p'' (ds ++ es) (count + count') where
  size := by rw [second.size, first.size, Nat.add_assoc]
  others m hm ne := by
    rw [second.others m (by rw [first.size]; omega) ne, first.others m hm ne]
  below := by
    rw [second.below, first.below]
    cases p.node? n with
    | none => rfl
    | some node => simp
  has := by
    refine hasAll_append.2 ⟨first.has.congr (fun m hm => ?_) (fun l hl => ?_), second.has⟩
    · exact second.others m (fresh m hm).1 (fresh m hm).2
    · rw [unlinked] at hl
      cases hl

mutual
theorem imported_node {n : NodeId} : ∀ (m : Markup.Node) {p : Page}, n.index < p.size →
    Imported n p (p.importNode n m) [Dom.ofNode p.size m] m.count
  | .text content, p, old => by
    have ne : (⟨p.size⟩ : NodeId) ≠ n := by
      rintro rfl
      exact Nat.lt_irrefl _ old
    have created : p.importNode n (.text content) =
        (p.create (.text content)).2.link n ⟨p.size⟩ := rfl
    rw [created]
    refine ⟨by rw [size_link, size_create]; rfl, ?_, ?_, ?_⟩
    · intro k hk other
      have notNew : k ≠ ⟨p.size⟩ := by
        rintro rfl
        exact Nat.lt_irrefl _ hk
      rw [node?_link_of_ne ne other notNew, node?_create, if_neg notNew]
    · rw [node?_link_parent ne, node?_create_of_lt p _ old]
      rfl
    · refine ⟨?_, trivial⟩
      rw [Dom.ofNode, Has, node?_link_child ne, node?_create, if_pos rfl]
      rfl
  | .element tag children, p, old => by
    have ne : (⟨p.size⟩ : NodeId) ≠ n := by
      rintro rfl
      exact Nat.lt_irrefl _ old
    have created : p.importNode n (.element tag children) =
        ((p.create (.element tag.qname tag.plainAttributes)).2.importNodes ⟨p.size⟩
          children).link n ⟨p.size⟩ := rfl
    rw [created]
    generalize made : (p.create (.element tag.qname tag.plainAttributes)).2 = q
    have size : q.size = p.size + 1 := by rw [← made, size_create]
    have inner := imported_nodes children (n := ⟨p.size⟩) (p := q)
      (by rw [size]; exact Nat.lt_succ_self _)
    rw [size] at inner
    refine ⟨?_, ?_, ?_, ?_, trivial⟩
    · rw [size_link, inner.size, size, Markup.Node.count, Nat.add_assoc]
    · intro k hk other
      have notNew : k ≠ ⟨p.size⟩ := by
        rintro rfl
        exact Nat.lt_irrefl _ hk
      rw [node?_link_of_ne ne other notNew, inner.others k (by omega) notNew, ← made, node?_create,
        if_neg notNew]
    · rw [node?_link_parent ne, inner.others n (by omega) ne.symm, ← made,
        node?_create_of_lt p _ old]
      rfl
    · refine ⟨?_, inner.has.congr (fun k hk => ?_) (fun l hl => ?_)⟩
      · rw [node?_link_child ne, inner.below, ← made, node?_create, if_pos rfl]
        rfl
      · have range := Dom.mem_nodesOf_ofNodes hk
        have notParent : k ≠ n := by
          rintro rfl
          omega
        have notNew : k ≠ ⟨p.size⟩ := by
          rintro rfl
          simp only at range
          omega
        exact node?_link_of_ne ne notParent notNew
      · rw [Dom.linksOf_ofNodes] at hl
        cases hl

/-- **Imported markup** becomes the trees that can be written down beforehand. -/
theorem imported_nodes {n : NodeId} : ∀ (ms : List Markup.Node) {p : Page}, n.index < p.size →
    Imported n p (p.importNodes n ms) (Dom.ofNodes p.size ms) (Markup.countOf ms)
  | [], p, _ => Imported.nil n p
  | m :: ms, p, old => by
    have first := imported_node m old
    have old' : n.index < (p.importNode n m).size := by
      rw [first.size]
      omega
    have second := imported_nodes ms old'
    rw [first.size] at second
    refine first.append second (fun k hk => ?_) ?_
    · rw [Dom.nodesOf, Dom.nodesOf, List.append_nil] at hk
      have range := Dom.mem_nodes_ofNode hk
      refine ⟨by rw [first.size]; exact range.2, ?_⟩
      rintro rfl
      omega
    · rw [Dom.linksOf, Dom.linksOf, Dom.links_ofNode, List.append_nil]
end

namespace Holds

variable {base p : Page} {L : Layout}

/-- Imported markup stands behind the children of its element. -/
theorem importNodes (h : Holds base p L) {k : Owner} {r : Region} (hk : L k = some r)
    {n : NodeId} {tag : String} {attributes : OrderedMap String String} {children : List Dom}
    (found : r.dom.find? n = some (tag, attributes, children)) (ms : List Markup.Node) :
    Holds base (p.importNodes n ms) (Function.update L k
      (some { r with dom := r.dom.edit n fun attributes children =>
        (attributes, children ++ Dom.ofNodes p.size ms) })) := by
  have imported := imported_nodes ms (h.lt_size hk ((h.has hk).find found).1)
  refine h.edit hk found (Dom.nodesOf (Dom.ofNodes p.size ms)) ?_ imported.others ?_ ?_ ?_
    ?_ ?_
  · rw [imported.size]
    exact Nat.le_add_right _ _
  · unfold parent?
    rw [imported.below]
    cases p.node? n <;> rfl
  · intro tag attributes q children found below inside linked
    refine ⟨?_, hasAll_append.2 ⟨below.congr (fun m hm => ?_) (fun l hl => ?_), imported.has⟩⟩
    · rw [imported.below, found, List.map_append]
      rfl
    · exact imported.others m (h.lt_size hk (inside m hm).1) (inside m hm).2
    · obtain ⟨m, hm, parent⟩ := h.link_parent hk (linked l hl)
      unfold parent?
      by_cases same : l.2 = n
      · rw [same, imported.below]
        cases p.node? n <;> rfl
      · rw [imported.others l.2 (lt_size_of_parent? parent) same]
  · exact fun m hm => (Dom.mem_nodesOf_ofNodes hm).1
  · intro attributes children m hm
    rwa [Dom.nodesOf_append, List.mem_append] at hm
  · intro attributes children nodup apart
    rw [Dom.nodesOf_append, List.nodup_append]
    exact ⟨nodup, Dom.nodup_nodesOf_ofNodes _ ms, fun m hm m' hm' same => apart m hm (same ▸ hm')⟩

end Holds

/-! ## Text as content -/

/-- The nodes of a text: none when it is empty. -/
def textNodes (content : String) : List Markup.Node := if content = "" then [] else [.text content]

/-- The nodes of markup, or of the markup as text when it cannot be read. -/
def nodesOrText (html : String) : List Markup.Node :=
  match Markup.parseFragment html with
  | .ok nodes => nodes
  | .error _ => textNodes html

theorem clear_of_no_children {p : Page} {n : NodeId} (none : p.children n = []) :
    p.clear n = p := by
  unfold clear
  rw [none]
  rfl

theorem setText_eq {p : Page} {n : NodeId} {tag : String} (element : p.tag? n = some tag)
    (none : p.children n = []) (content : String) :
    p.setText n content = p.importNodes n (textNodes content) := by
  unfold setText textNodes
  rw [element, clear_of_no_children none]
  by_cases blank : content = ""
  · rw [if_pos blank]
    simp [blank, Page.importNodes]
  · simp [blank, Page.importNodes, Page.importNode]

theorem setMarkupOrText_eq {p : Page} {n : NodeId} {tag : String} (element : p.tag? n = some tag)
    (none : p.children n = []) (html : String) :
    p.setMarkupOrText n html = p.importNodes n (nodesOrText html) := by
  unfold setMarkupOrText setMarkup readMarkup nodesOrText
  rw [element]
  cases Markup.parseFragment html with
  | ok nodes =>
    show p.setNodes n nodes = _
    unfold setNodes
    rw [clear_of_no_children none]
  | error e => exact setText_eq element none html

end Page

end Formwork
