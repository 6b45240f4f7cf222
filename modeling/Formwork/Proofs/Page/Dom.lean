import Mathlib.Data.List.Nodup
import Mathlib.Tactic.Tauto
import Formwork.Field.Basic
import Formwork.Page.Markup

/-!
# Trees on a page

A page is an array of nodes that point at one another; what the eye sees is trees.  `Dom` is a
tree of a page with the numbers of its nodes, and `Page.Has` says that the tree is there: every
node holds what the tree says, knows its parent and lists its children.  `Html` is the same tree
without numbers.

Widgets are trees that are put into other trees, and they keep changing afterwards.  So a tree
may end in a *link*, which stands for the topmost node of another tree; that tree is described
on its own.  A link records that its node lies where the link stands, and nothing else.

The main facts say that a tree is still there when its own nodes are left alone
(`Page.Has.congr`), and what tree is there after one of its elements was changed
(`Page.Has.edit`).
-/

namespace Formwork

set_option autoImplicit false

/-! ## Trees -/

/-- A tree that is described on its own. -/
inductive Link where
  /-- The widget of a field. -/
  | widget (f : FieldId)
  /-- The caption of a page in the bar of its tab container. -/
  | caption (f : FieldId)
  /-- The panel that a view field shows. -/
  | shown (f : FieldId)
  deriving DecidableEq, Repr

/-- The field a link is about. -/
def Link.field : Link → FieldId
  | .widget f | .caption f | .shown f => f

/-- A tree of markup, with links for the trees that are described on their own. -/
inductive Html where
  | text (content : String)
  | element (tag : String) (attributes : OrderedMap String String) (children : List Html)
  | link (target : Link)
  deriving Inhabited

/-- A tree of a page. -/
inductive Dom where
  | text (n : NodeId) (content : String)
  | element (n : NodeId) (tag : String) (attributes : OrderedMap String String)
      (children : List Dom)
  | link (target : Link) (n : NodeId)
  deriving Inhabited

namespace Dom

/-- The topmost node. -/
def root : Dom → NodeId
  | .text n _ | .element n _ _ _ | .link _ n => n

mutual
/-- The nodes of a tree, without those of the trees it links to. -/
def nodes : Dom → List NodeId
  | .text n _ => [n]
  | .element n _ _ children => n :: nodesOf children
  | .link _ _ => []

def nodesOf : List Dom → List NodeId
  | [] => []
  | d :: ds => d.nodes ++ nodesOf ds
end

mutual
/-- The links of a tree with the nodes they stand for. -/
def links : Dom → List (Link × NodeId)
  | .text _ _ => []
  | .element _ _ _ children => linksOf children
  | .link target n => [(target, n)]

def linksOf : List Dom → List (Link × NodeId)
  | [] => []
  | d :: ds => d.links ++ linksOf ds
end

mutual
/-- A tree without the numbers of its nodes. -/
def html : Dom → Html
  | .text _ content => .text content
  | .element _ tag attributes children => .element tag attributes (htmlOf children)
  | .link target _ => .link target

def htmlOf : List Dom → List Html
  | [] => []
  | d :: ds => d.html :: htmlOf ds
end

mutual
/-- Change the attributes and the children of an element. -/
def edit (n : NodeId)
    (change : OrderedMap String String → List Dom → OrderedMap String String × List Dom) :
    Dom → Dom
  | .text m content => .text m content
  | .element m tag attributes children =>
    if m = n then
      .element m tag (change attributes children).1 (change attributes children).2
    else .element m tag attributes (editAll n change children)
  | .link target m => .link target m

def editAll (n : NodeId)
    (change : OrderedMap String String → List Dom → OrderedMap String String × List Dom) :
    List Dom → List Dom
  | [] => []
  | d :: ds => edit n change d :: editAll n change ds
end

/-- Change the attributes of the topmost element. -/
def withAttrs (f : OrderedMap String String → OrderedMap String String) : Dom → Dom
  | .element n tag attributes children => .element n tag (f attributes) children
  | d => d

@[simp]
theorem withAttrs_id (d : Dom) : d.withAttrs id = d := by
  cases d <;> rfl

theorem withAttrs_withAttrs (f g : OrderedMap String String → OrderedMap String String) (d : Dom) :
    (d.withAttrs f).withAttrs g = d.withAttrs fun m => g (f m) := by
  cases d <;> rfl

@[simp]
theorem root_withAttrs (f : OrderedMap String String → OrderedMap String String) (d : Dom) :
    (d.withAttrs f).root = d.root := by
  cases d <;> rfl

@[simp]
theorem links_withAttrs (f : OrderedMap String String → OrderedMap String String) (d : Dom) :
    (d.withAttrs f).links = d.links := by
  cases d <;> rfl

theorem nodesOf_append : ∀ ds es : List Dom, nodesOf (ds ++ es) = nodesOf ds ++ nodesOf es
  | [], _ => rfl
  | d :: ds, es => by
    rw [List.cons_append, nodesOf, nodesOf, nodesOf_append ds es, List.append_assoc]

theorem linksOf_append : ∀ ds es : List Dom, linksOf (ds ++ es) = linksOf ds ++ linksOf es
  | [], _ => rfl
  | d :: ds, es => by
    rw [List.cons_append, linksOf, linksOf, linksOf_append ds es, List.append_assoc]

theorem htmlOf_append : ∀ ds es : List Dom, htmlOf (ds ++ es) = htmlOf ds ++ htmlOf es
  | [], _ => rfl
  | d :: ds, es => by
    rw [List.cons_append, htmlOf, htmlOf, htmlOf_append ds es, List.cons_append]

theorem mem_nodesOf {n : NodeId} : ∀ {ds : List Dom}, n ∈ nodesOf ds ↔ ∃ d ∈ ds, n ∈ d.nodes
  | [] => by simp [nodesOf]
  | d :: ds => by simp [nodesOf, @mem_nodesOf n ds]

theorem mem_linksOf {l : Link × NodeId} :
    ∀ {ds : List Dom}, l ∈ linksOf ds ↔ ∃ d ∈ ds, l ∈ d.links
  | [] => by simp [linksOf]
  | d :: ds => by simp [linksOf, @mem_linksOf l ds]

@[simp]
theorem root_edit (n : NodeId)
    (change : OrderedMap String String → List Dom → OrderedMap String String × List Dom)
    (d : Dom) : (d.edit n change).root = d.root := by
  cases d with
  | text => rfl
  | link => rfl
  | element m tag attributes children =>
    rw [edit]
    split <;> rfl

theorem root_mem_nodes_edit (n : NodeId)
    (change : OrderedMap String String → List Dom → OrderedMap String String × List Dom)
    {d : Dom} (rooted : d.root ∈ d.nodes) : d.root ∈ (d.edit n change).nodes := by
  cases d with
  | text => exact rooted
  | link => exact rooted
  | element m tag attributes children =>
    rw [edit]
    split
    · exact List.mem_cons_self
    · exact List.mem_cons_self

theorem map_root_editAll (n : NodeId)
    (change : OrderedMap String String → List Dom → OrderedMap String String × List Dom) :
    ∀ ds : List Dom, (editAll n change ds).map root = ds.map root
  | [] => rfl
  | d :: ds => by
    rw [editAll, List.map_cons, List.map_cons, root_edit, map_root_editAll n change ds]

mutual
/-- Changing an element that a tree does not have changes nothing. -/
theorem edit_of_not_mem {n : NodeId}
    {change : OrderedMap String String → List Dom → OrderedMap String String × List Dom} :
    ∀ {d : Dom}, n ∉ d.nodes → d.edit n change = d
  | .text _ _, _ => rfl
  | .link _ _, _ => rfl
  | .element m tag attributes children, absent => by
    rw [nodes, List.mem_cons, not_or] at absent
    rw [edit, if_neg fun same => absent.1 same.symm, editAll_of_not_mem absent.2]

theorem editAll_of_not_mem {n : NodeId}
    {change : OrderedMap String String → List Dom → OrderedMap String String × List Dom} :
    ∀ {ds : List Dom}, n ∉ nodesOf ds → editAll n change ds = ds
  | [], _ => rfl
  | d :: ds, absent => by
    rw [nodesOf, List.mem_append, not_or] at absent
    rw [editAll, edit_of_not_mem absent.1, editAll_of_not_mem absent.2]
end

/-! ## Single elements -/

mutual
/-- The tag, the attributes and the children of an element of a tree. -/
def find? (n : NodeId) : Dom → Option (String × OrderedMap String String × List Dom)
  | .text _ _ | .link _ _ => none
  | .element m tag attributes children =>
    if m = n then some (tag, attributes, children) else findAmong? n children

def findAmong? (n : NodeId) : List Dom → Option (String × OrderedMap String String × List Dom)
  | [] => none
  | d :: ds => find? n d <|> findAmong? n ds
end

@[simp]
theorem find?_root (n : NodeId) (tag : String) (attributes : OrderedMap String String)
    (children : List Dom) :
    (Dom.element n tag attributes children).find? n = some (tag, attributes, children) := by
  rw [find?, if_pos rfl]

@[simp]
theorem edit_root (n : NodeId) (tag : String) (attributes : OrderedMap String String)
    (children : List Dom)
    (change : OrderedMap String String → List Dom → OrderedMap String String × List Dom) :
    (Dom.element n tag attributes children).edit n change =
      .element n tag (change attributes children).1 (change attributes children).2 := by
  rw [edit, if_pos rfl]

mutual
theorem find?_of_not_mem {n : NodeId} : ∀ {d : Dom}, n ∉ d.nodes → d.find? n = none
  | .text _ _, _ => rfl
  | .link _ _, _ => rfl
  | .element m tag attributes children, absent => by
    rw [nodes, List.mem_cons, not_or] at absent
    rw [find?, if_neg fun same => absent.1 same.symm, findAmong?_of_not_mem absent.2]

theorem findAmong?_of_not_mem {n : NodeId} : ∀ {ds : List Dom}, n ∉ nodesOf ds →
    findAmong? n ds = none
  | [], _ => rfl
  | d :: ds, absent => by
    rw [nodesOf, List.mem_append, not_or] at absent
    rw [findAmong?, find?_of_not_mem absent.1, findAmong?_of_not_mem absent.2]
    rfl
end

section Child

variable {m n : NodeId} {tag tag' : String} {attributes attributes' : OrderedMap String String}
  {before behind children : List Dom}

theorem ne_of_child (distinct : (Dom.element m tag attributes
    (before ++ .element n tag' attributes' children :: behind)).nodes.Nodup) : m ≠ n := by
  rintro rfl
  rw [nodes, List.nodup_cons] at distinct
  exact distinct.1 (mem_nodesOf.2 ⟨_, List.mem_append_right _ List.mem_cons_self, List.mem_cons_self⟩)

theorem not_mem_of_child (distinct : (Dom.element m tag attributes
    (before ++ .element n tag' attributes' children :: behind)).nodes.Nodup) :
    n ∉ nodesOf before ∧ n ∉ nodesOf behind := by
  rw [nodes, List.nodup_cons, nodesOf_append, nodesOf] at distinct
  have apart := List.nodup_append.1 distinct.2
  refine ⟨fun mem => ?_, fun mem => ?_⟩
  · exact apart.2.2 n mem n (List.mem_append_left _ List.mem_cons_self) rfl
  · exact (List.nodup_append.1 apart.2.1).2.2 n List.mem_cons_self n mem rfl

theorem findAmong?_append (n : NodeId) : ∀ ds es : List Dom,
    findAmong? n (ds ++ es) = (findAmong? n ds <|> findAmong? n es)
  | [], es => by
    rw [findAmong?]
    rfl
  | d :: ds, es => by
    rw [List.cons_append, findAmong?, findAmong?, findAmong?_append n ds es]
    cases find? n d <;> rfl

theorem editAll_append
    (change : OrderedMap String String → List Dom → OrderedMap String String × List Dom) :
    ∀ ds es : List Dom, editAll n change (ds ++ es) = editAll n change ds ++ editAll n change es
  | [], _ => rfl
  | d :: ds, es => by rw [List.cons_append, editAll, editAll, editAll_append change ds es]; rfl

variable (before) in
/-- A child of the topmost element is found. -/
theorem find?_child (distinct : (Dom.element m tag attributes
    (before ++ .element n tag' attributes' children :: behind)).nodes.Nodup) :
    (Dom.element m tag attributes (before ++ .element n tag' attributes' children :: behind)).find? n =
      some (tag', attributes', children) := by
  rw [find?, if_neg (ne_of_child distinct), findAmong?_append,
    findAmong?_of_not_mem (not_mem_of_child distinct).1, findAmong?, find?_root]
  rfl

variable (before) in
/-- A child of the topmost element is changed in its place. -/
theorem edit_child (distinct : (Dom.element m tag attributes
    (before ++ .element n tag' attributes' children :: behind)).nodes.Nodup)
    (change : OrderedMap String String → List Dom → OrderedMap String String × List Dom) :
    (Dom.element m tag attributes (before ++ .element n tag' attributes' children :: behind)).edit n
        change =
      .element m tag attributes (before ++
        .element n tag' (change attributes' children).1 (change attributes' children).2 :: behind) := by
  rw [edit, if_neg (ne_of_child distinct), editAll_append, editAll,
    editAll_of_not_mem (not_mem_of_child distinct).1,
    editAll_of_not_mem (not_mem_of_child distinct).2, edit_root]

end Child

mutual
/-- Adding children to an element that is there adds their links. -/
theorem mem_links_edit_append {n : NodeId} {xs : List Dom} {l : Link × NodeId} :
    ∀ {d : Dom}, d.find? n ≠ none →
      (l ∈ (d.edit n fun attributes children => (attributes, children ++ xs)).links ↔
        l ∈ d.links ∨ l ∈ linksOf xs)
  | .text _ _, found => absurd rfl found
  | .link _ _, found => absurd rfl found
  | .element m tag attributes children, found => by
    rw [find?] at found
    rw [edit]
    by_cases same : m = n
    · rw [if_pos same, links, links, linksOf_append, List.mem_append]
    · rw [if_neg same] at found
      rw [if_neg same, links, links, mem_linksOf_editAll_append found]

theorem mem_linksOf_editAll_append {n : NodeId} {xs : List Dom} {l : Link × NodeId} :
    ∀ {ds : List Dom}, findAmong? n ds ≠ none →
      (l ∈ linksOf (editAll n (fun attributes children => (attributes, children ++ xs)) ds) ↔
        l ∈ linksOf ds ∨ l ∈ linksOf xs)
  | [], found => absurd rfl found
  | d :: ds, found => by
    rw [editAll, linksOf, linksOf, List.mem_append, List.mem_append]
    by_cases here : find? n d = none
    · have later : findAmong? n ds ≠ none := by
        intro none
        rw [findAmong?, here, none] at found
        exact found rfl
      rw [mem_linksOf_editAll_append later, links_edit_of_absent here]
      tauto
    · rw [mem_links_edit_append here]
      by_cases later : findAmong? n ds = none
      · rw [linksOf_editAll_of_absent later]
        tauto
      · rw [mem_linksOf_editAll_append later]
        tauto

theorem links_edit_of_absent {n : NodeId} {xs : List Dom} :
    ∀ {d : Dom}, d.find? n = none →
      (d.edit n fun attributes children => (attributes, children ++ xs)).links = d.links
  | .text _ _, _ => rfl
  | .link _ _, _ => rfl
  | .element m tag attributes children, absent => by
    rw [find?] at absent
    rw [edit]
    by_cases same : m = n
    · rw [if_pos same] at absent
      cases absent
    · rw [if_neg same] at absent
      rw [if_neg same, links, links, linksOf_editAll_of_absent absent]

theorem linksOf_editAll_of_absent {n : NodeId} {xs : List Dom} :
    ∀ {ds : List Dom}, findAmong? n ds = none →
      linksOf (editAll n (fun attributes children => (attributes, children ++ xs)) ds) = linksOf ds
  | [], _ => rfl
  | d :: ds, absent => by
    rw [findAmong?] at absent
    cases here : find? n d with
    | some e =>
      rw [here] at absent
      cases absent
    | none =>
      rw [here] at absent
      rw [editAll, linksOf, linksOf, links_edit_of_absent here, linksOf_editAll_of_absent absent]
end

/-! ## The nodes of a changed tree -/

section Nodes

variable {n : NodeId}
  {change : OrderedMap String String → List Dom → OrderedMap String String × List Dom}

mutual
/-- A change that adds the nodes `more` below its element adds no other nodes. -/
theorem mem_nodes_edit {more : List NodeId}
    (adds : ∀ attributes children m,
      m ∈ nodesOf (change attributes children).2 → m ∈ nodesOf children ∨ m ∈ more) :
    ∀ {d : Dom} {m : NodeId}, m ∈ (d.edit n change).nodes → m ∈ d.nodes ∨ m ∈ more
  | .text _ _, m, mem => .inl mem
  | .link _ _, m, mem => .inl mem
  | .element k tag attributes children, m, mem => by
    rw [edit] at mem
    rw [nodes, List.mem_cons]
    split at mem
    · rw [nodes, List.mem_cons] at mem
      rcases mem with same | below
      · exact .inl (.inl same)
      · exact (adds attributes children m below).imp_left .inr
    · rw [nodes, List.mem_cons] at mem
      rcases mem with same | below
      · exact .inl (.inl same)
      · exact (mem_nodesOf_editAll adds below).imp_left .inr

theorem mem_nodesOf_editAll {more : List NodeId}
    (adds : ∀ attributes children m,
      m ∈ nodesOf (change attributes children).2 → m ∈ nodesOf children ∨ m ∈ more) :
    ∀ {ds : List Dom} {m : NodeId}, m ∈ nodesOf (editAll n change ds) → m ∈ nodesOf ds ∨ m ∈ more
  | [], m, mem => by cases mem
  | d :: ds, m, mem => by
    rw [editAll, nodesOf, List.mem_append] at mem
    rw [nodesOf, List.mem_append]
    rcases mem with here | later
    · exact (mem_nodes_edit adds here).imp_left .inl
    · exact (mem_nodesOf_editAll adds later).imp_left .inr
end

mutual
/-- A change that adds distinct new nodes below its element keeps the nodes distinct. -/
theorem nodup_nodes_edit {more : List NodeId}
    (adds : ∀ attributes children m,
      m ∈ nodesOf (change attributes children).2 → m ∈ nodesOf children ∨ m ∈ more)
    (distinct : ∀ attributes children, (nodesOf children).Nodup →
      (∀ m ∈ nodesOf children, m ∉ more) → (nodesOf (change attributes children).2).Nodup) :
    ∀ {d : Dom}, d.nodes.Nodup → (∀ m ∈ d.nodes, m ∉ more) → (d.edit n change).nodes.Nodup
  | .text _ _, nodup, _ => nodup
  | .link _ _, nodup, _ => nodup
  | .element k tag attributes children, nodup, apart => by
    rw [nodes, List.nodup_cons] at nodup
    have below : ∀ m ∈ nodesOf children, m ∉ more := fun m hm => apart m (by
      rw [nodes]
      exact List.mem_cons_of_mem _ hm)
    have top : k ∉ more := apart k (by simp [nodes])
    rw [edit]
    split
    · rw [nodes, List.nodup_cons]
      refine ⟨fun mem => ?_, distinct attributes children nodup.2 below⟩
      exact (adds attributes children k mem).elim nodup.1 top
    · rw [nodes, List.nodup_cons]
      refine ⟨fun mem => ?_, nodup_nodesOf_editAll adds distinct nodup.2 below⟩
      exact (mem_nodesOf_editAll adds mem).elim nodup.1 top

theorem nodup_nodesOf_editAll {more : List NodeId}
    (adds : ∀ attributes children m,
      m ∈ nodesOf (change attributes children).2 → m ∈ nodesOf children ∨ m ∈ more)
    (distinct : ∀ attributes children, (nodesOf children).Nodup →
      (∀ m ∈ nodesOf children, m ∉ more) → (nodesOf (change attributes children).2).Nodup) :
    ∀ {ds : List Dom}, (nodesOf ds).Nodup → (∀ m ∈ nodesOf ds, m ∉ more) →
      (nodesOf (editAll n change ds)).Nodup
  | [], nodup, _ => nodup
  | d :: ds, nodup, apart => by
    rw [nodesOf, List.nodup_append] at nodup
    obtain ⟨first, rest, disjoint⟩ := nodup
    have firstApart : ∀ m ∈ d.nodes, m ∉ more := fun m hm =>
      apart m (List.mem_append_left _ hm)
    have restApart : ∀ m ∈ nodesOf ds, m ∉ more := fun m hm =>
      apart m (List.mem_append_right _ hm)
    rw [editAll, nodesOf, List.nodup_append]
    -- the element is in one of the siblings at most, and the others stay as they are
    by_cases here : n ∈ d.nodes
    · have untouched : n ∉ nodesOf ds := fun there => disjoint n here n there rfl
      rw [editAll_of_not_mem untouched]
      refine ⟨nodup_nodes_edit adds distinct first firstApart, rest, fun m hm k hk same => ?_⟩
      subst same
      rcases mem_nodes_edit adds hm with before | added
      · exact disjoint m before m hk rfl
      · exact restApart m hk added
    · rw [edit_of_not_mem here]
      refine ⟨first, nodup_nodesOf_editAll adds distinct rest restApart, fun m hm k hk same => ?_⟩
      subst same
      rcases mem_nodesOf_editAll adds hk with before | added
      · exact disjoint m hm m before rfl
      · exact firstApart m hm added
end

end Nodes

end Dom

/-! ## Single nodes -/

namespace Page

theorem node?_eq_none {p : Page} {n : NodeId} (h : p.size ≤ n.index) : p.node? n = none :=
  Array.getElem?_eq_none h

theorem lt_size_of_node? {p : Page} {n : NodeId} {node : PageNode} (h : p.node? n = some node) :
    n.index < p.size := by
  by_contra large
  rw [node?_eq_none (Nat.le_of_not_lt large)] at h
  cases h

theorem node?_update (p : Page) (n m : NodeId) (f : PageNode → PageNode) :
    (p.update n f).node? m = if m = n then (p.node? n).map f else p.node? m := by
  unfold update node?
  rw [Array.getElem?_modify]
  by_cases same : n.index = m.index
  · rw [if_pos same, if_pos (by cases n; cases m; exact congrArg _ same.symm), same]
  · rw [if_neg same, if_neg fun h => same (by rw [h])]

@[simp]
theorem node?_update_self (p : Page) (n : NodeId) (f : PageNode → PageNode) :
    (p.update n f).node? n = (p.node? n).map f := by rw [node?_update, if_pos rfl]

theorem node?_update_of_ne (p : Page) {n m : NodeId} (f : PageNode → PageNode) (h : m ≠ n) :
    (p.update n f).node? m = p.node? m := by rw [node?_update, if_neg h]

@[simp]
theorem size_update (p : Page) (n : NodeId) (f : PageNode → PageNode) :
    (p.update n f).size = p.size := Array.size_modify

@[simp]
theorem size_create (p : Page) (content : Content) : (p.create content).2.size = p.size + 1 :=
  Array.size_push _

theorem node?_create (p : Page) (content : Content) (m : NodeId) :
    (p.create content).2.node? m =
      if m = ⟨p.size⟩ then some ⟨content, none, []⟩ else p.node? m := by
  unfold create node?
  by_cases same : m = ⟨p.size⟩
  · subst same
    rw [if_pos rfl]
    exact Array.getElem?_push_size
  · rw [if_neg same]
    have other : m.index ≠ p.nodes.size := by
      intro equal
      exact same (by cases m; exact congrArg _ equal)
    rw [Array.getElem?_push, if_neg other]

theorem node?_create_of_lt (p : Page) (content : Content) {m : NodeId} (h : m.index < p.size) :
    (p.create content).2.node? m = p.node? m := by
  rw [node?_create, if_neg]
  intro same
  rw [same] at h
  exact Nat.lt_irrefl _ h

theorem parent?_eq {p : Page} {n : NodeId} {node : PageNode} (h : p.node? n = some node) :
    p.parent? n = node.parent := by
  unfold parent?
  rw [h]
  rfl

theorem children_eq {p : Page} {n : NodeId} {node : PageNode} (h : p.node? n = some node) :
    p.children n = node.children := by
  unfold children
  rw [h]
  rfl

theorem tag?_eq {p : Page} {n : NodeId} {tag : String} {attributes : OrderedMap String String}
    {parent : Option NodeId} {children : List NodeId}
    (h : p.node? n = some ⟨.element tag attributes, parent, children⟩) : p.tag? n = some tag := by
  unfold tag?
  rw [h]
  rfl

theorem lt_size_of_parent? {p : Page} {n m : NodeId} (h : p.parent? n = some m) :
    n.index < p.size := by
  unfold parent? at h
  cases found : p.node? n with
  | none =>
    rw [found] at h
    cases h
  | some node => exact lt_size_of_node? found

/-- A new node has no parent, just as a node that does not exist. -/
theorem parent?_create (p : Page) (content : Content) (m : NodeId) :
    (p.create content).2.parent? m = p.parent? m := by
  by_cases same : m = ⟨p.size⟩
  · have before : p.node? m = none := node?_eq_none (Nat.le_of_eq (by rw [same]))
    unfold parent?
    rw [node?_create, if_pos same, before]
    rfl
  · unfold parent?
    rw [node?_create, if_neg same]

/-- A change that keeps the parent of its node keeps all parents. -/
theorem parent?_update {p : Page} {n : NodeId} {f : PageNode → PageNode}
    (keeps : ∀ node, p.node? n = some node → (f node).parent = node.parent) (m : NodeId) :
    (p.update n f).parent? m = p.parent? m := by
  unfold parent?
  by_cases same : m = n
  · subst same
    rw [node?_update_self]
    cases found : p.node? m with
    | none => rfl
    | some node => exact keeps node found
  · rw [node?_update_of_ne p f same]

/-! ## A tree is there -/

mutual
/-- A tree is on the page, and its topmost node lies where `q` says. -/
def Has (p : Page) (q : Option NodeId) : Dom → Prop
  | .text n content => p.node? n = some ⟨.text content, q, []⟩
  | .element n tag attributes children =>
    p.node? n = some ⟨.element tag attributes, q, children.map Dom.root⟩ ∧
      p.HasAll (some n) children
  | .link _ n => p.parent? n = q

def HasAll (p : Page) (q : Option NodeId) : List Dom → Prop
  | [] => True
  | d :: ds => p.Has q d ∧ p.HasAll q ds
end

variable {p p' : Page}

theorem hasAll_append {q : Option NodeId} : ∀ {ds es : List Dom},
    p.HasAll q (ds ++ es) ↔ p.HasAll q ds ∧ p.HasAll q es
  | [], es => by simp [HasAll]
  | d :: ds, es => by rw [List.cons_append, HasAll, HasAll, hasAll_append, and_assoc]

theorem hasAll_iff {q : Option NodeId} : ∀ {ds : List Dom},
    p.HasAll q ds ↔ ∀ d ∈ ds, p.Has q d
  | [] => by simp [HasAll]
  | d :: ds => by simp [HasAll, hasAll_iff]

mutual
/-- A tree stays where it is when its nodes and the places of its links are left alone. -/
theorem Has.congr {q : Option NodeId} : ∀ {d : Dom},
    (∀ n ∈ d.nodes, p'.node? n = p.node? n) → (∀ l ∈ d.links, p'.parent? l.2 = p.parent? l.2) →
      p.Has q d → p'.Has q d
  | .text n content, same, _, there => by
    rw [Has, same n (by simp [Dom.nodes])]
    exact there
  | .element n tag attributes children, same, places, there => by
    rw [Has] at there
    refine ⟨?_, HasAll.congr (fun m hm => same m ?_) places there.2⟩
    · rw [same n (by simp [Dom.nodes])]
      exact there.1
    · rw [Dom.nodes]
      exact List.mem_cons_of_mem _ hm
  | .link target n, _, places, there => by
    rw [Has, places (target, n) (by simp [Dom.links])]
    exact there

theorem HasAll.congr {q : Option NodeId} : ∀ {ds : List Dom},
    (∀ n ∈ Dom.nodesOf ds, p'.node? n = p.node? n) →
      (∀ l ∈ Dom.linksOf ds, p'.parent? l.2 = p.parent? l.2) → p.HasAll q ds → p'.HasAll q ds
  | [], _, _, _ => trivial
  | d :: ds, same, places, there =>
    ⟨Has.congr (fun n hn => same n (by rw [Dom.nodesOf]; exact List.mem_append_left _ hn))
        (fun l hl => places l (by rw [Dom.linksOf]; exact List.mem_append_left _ hl)) there.1,
      HasAll.congr (fun n hn => same n (by rw [Dom.nodesOf]; exact List.mem_append_right _ hn))
        (fun l hl => places l (by rw [Dom.linksOf]; exact List.mem_append_right _ hl)) there.2⟩
end

theorem Has.root_parent {q : Option NodeId} : ∀ {d : Dom}, p.Has q d → p.parent? d.root = q
  | .text _ _, there => parent?_eq there
  | .element _ _ _ _, there => parent?_eq there.1
  | .link _ _, there => there

mutual
/-- Every node of a tree is a node of the page. -/
theorem Has.exists_node {q : Option NodeId} : ∀ {d : Dom} {n : NodeId}, p.Has q d → n ∈ d.nodes →
    ∃ node, p.node? n = some node
  | .text m content, n, there, mem => by
    rw [Dom.nodes, List.mem_singleton] at mem
    subst mem
    exact ⟨_, there⟩
  | .element m tag attributes children, n, there, mem => by
    rw [Dom.nodes, List.mem_cons] at mem
    rcases mem with rfl | below
    · exact ⟨_, there.1⟩
    · exact HasAll.exists_node there.2 below
  | .link _ _, n, _, mem => by cases mem

theorem HasAll.exists_node {q : Option NodeId} : ∀ {ds : List Dom} {n : NodeId},
    p.HasAll q ds → n ∈ Dom.nodesOf ds → ∃ node, p.node? n = some node
  | [], n, _, mem => by cases mem
  | d :: ds, n, there, mem => by
    rw [Dom.nodesOf, List.mem_append] at mem
    rcases mem with here | later
    · exact Has.exists_node there.1 here
    · exact HasAll.exists_node there.2 later
end

theorem Has.lt_size {q : Option NodeId} {d : Dom} {n : NodeId} (there : p.Has q d)
    (mem : n ∈ d.nodes) : n.index < p.size := by
  obtain ⟨node, found⟩ := there.exists_node mem
  exact lt_size_of_node? found

mutual
/-- The parent of a node of a tree is a node of the tree, unless the node is the topmost. -/
theorem Has.parent_mem {q : Option NodeId} : ∀ {d : Dom} {n : NodeId}, p.Has q d → n ∈ d.nodes →
    (n = d.root ∧ p.parent? n = q) ∨ ∃ m ∈ d.nodes, p.parent? n = some m
  | .text m content, n, there, mem => by
    rw [Dom.nodes, List.mem_singleton] at mem
    subst mem
    exact .inl ⟨rfl, parent?_eq there⟩
  | .element m tag attributes children, n, there, mem => by
    rw [Dom.nodes, List.mem_cons] at mem
    rcases mem with rfl | below
    · exact .inl ⟨rfl, parent?_eq there.1⟩
    · rcases HasAll.parent_mem there.2 below with top | ⟨k, hk, parent⟩
      · exact .inr ⟨m, by simp [Dom.nodes], top⟩
      · refine .inr ⟨k, ?_, parent⟩
        rw [Dom.nodes]
        exact List.mem_cons_of_mem _ hk
  | .link _ _, n, _, mem => by cases mem

theorem HasAll.parent_mem {q : Option NodeId} : ∀ {ds : List Dom} {n : NodeId},
    p.HasAll q ds → n ∈ Dom.nodesOf ds →
      p.parent? n = q ∨ ∃ m ∈ Dom.nodesOf ds, p.parent? n = some m
  | [], n, _, mem => by cases mem
  | d :: ds, n, there, mem => by
    rw [Dom.nodesOf, List.mem_append] at mem
    rcases mem with here | later
    · rcases Has.parent_mem there.1 here with ⟨_, top⟩ | ⟨k, hk, parent⟩
      · exact .inl top
      · refine .inr ⟨k, ?_, parent⟩
        rw [Dom.nodesOf]
        exact List.mem_append_left _ hk
    · rcases HasAll.parent_mem there.2 later with top | ⟨k, hk, parent⟩
      · exact .inl top
      · refine .inr ⟨k, ?_, parent⟩
        rw [Dom.nodesOf]
        exact List.mem_append_right _ hk
end

mutual
/-- A link of a tree lies in a node of the tree, unless it is the whole tree. -/
theorem Has.link_parent {q : Option NodeId} : ∀ {d : Dom} {l : Link × NodeId}, p.Has q d →
    l ∈ d.links → d = .link l.1 l.2 ∨ ∃ m ∈ d.nodes, p.parent? l.2 = some m
  | .text _ _, l, _, mem => by cases mem
  | .element m tag attributes children, l, there, mem => by
    rcases HasAll.link_parent there.2 mem with top | ⟨k, hk, parent⟩
    · exact .inr ⟨m, by simp [Dom.nodes], top⟩
    · refine .inr ⟨k, ?_, parent⟩
      rw [Dom.nodes]
      exact List.mem_cons_of_mem _ hk
  | .link target n, l, _, mem => by
    rw [Dom.links, List.mem_singleton] at mem
    subst mem
    exact .inl rfl

theorem HasAll.link_parent {q : Option NodeId} : ∀ {ds : List Dom} {l : Link × NodeId},
    p.HasAll q ds → l ∈ Dom.linksOf ds →
      p.parent? l.2 = q ∨ ∃ m ∈ Dom.nodesOf ds, p.parent? l.2 = some m
  | [], l, _, mem => by cases mem
  | d :: ds, l, there, mem => by
    rw [Dom.linksOf, List.mem_append] at mem
    rcases mem with here | later
    · rcases Has.link_parent there.1 here with whole | ⟨k, hk, parent⟩
      · have top := there.1.root_parent
        rw [whole] at top
        exact .inl top
      · refine .inr ⟨k, ?_, parent⟩
        rw [Dom.nodesOf]
        exact List.mem_append_left _ hk
    · rcases HasAll.link_parent there.2 later with top | ⟨k, hk, parent⟩
      · exact .inl top
      · refine .inr ⟨k, ?_, parent⟩
        rw [Dom.nodesOf]
        exact List.mem_append_right _ hk
end

mutual
/-- An element of a tree is an element of the page. -/
theorem Has.find {n : NodeId} {tag : String} {attributes : OrderedMap String String}
    {children : List Dom} {q : Option NodeId} : ∀ {d : Dom}, p.Has q d →
    d.find? n = some (tag, attributes, children) →
      n ∈ d.nodes ∧ p.HasAll (some n) children ∧
        ∃ q', p.node? n = some ⟨.element tag attributes, q', children.map Dom.root⟩
  | .text _ _, _, found => by cases found
  | .link _ _, _, found => by cases found
  | .element m tag' attributes' children', there, found => by
    rw [Dom.find?] at found
    rw [Dom.nodes]
    split at found
    · case isTrue same =>
      subst same
      cases found
      exact ⟨List.mem_cons_self, there.2, q, there.1⟩
    · obtain ⟨mem, rest⟩ := HasAll.find there.2 found
      exact ⟨List.mem_cons_of_mem _ mem, rest⟩

theorem HasAll.find {n : NodeId} {tag : String} {attributes : OrderedMap String String}
    {children : List Dom} {q : Option NodeId} : ∀ {ds : List Dom}, p.HasAll q ds →
    Dom.findAmong? n ds = some (tag, attributes, children) →
      n ∈ Dom.nodesOf ds ∧ p.HasAll (some n) children ∧
        ∃ q', p.node? n = some ⟨.element tag attributes, q', children.map Dom.root⟩
  | [], _, found => by cases found
  | d :: ds, there, found => by
    rw [Dom.findAmong?] at found
    rw [Dom.nodesOf]
    cases here : d.find? n with
    | some e =>
      rw [here] at found
      cases found
      obtain ⟨mem, rest⟩ := Has.find there.1 here
      exact ⟨List.mem_append_left _ mem, rest⟩
    | none =>
      rw [here] at found
      obtain ⟨mem, rest⟩ := HasAll.find there.2 found
      exact ⟨List.mem_append_right _ mem, rest⟩
end

/-! ## Changing one element of a tree -/

/-- What a page must do to one element so that a tree with this element is changed by `change`. -/
def Edits (p p' : Page) (n : NodeId)
    (change : OrderedMap String String → List Dom → OrderedMap String String × List Dom)
    (d : Dom) : Prop :=
  ∀ tag attributes q children,
    p.node? n = some ⟨.element tag attributes, q, children.map Dom.root⟩ →
      p.HasAll (some n) children → (∀ m ∈ Dom.nodesOf children, m ∈ d.nodes ∧ m ≠ n) →
        (∀ l ∈ Dom.linksOf children, l ∈ d.links) →
          p'.node? n = some ⟨.element tag (change attributes children).1, q,
            (change attributes children).2.map Dom.root⟩ ∧
          p'.HasAll (some n) (change attributes children).2

mutual
/-- **Changing an element changes the tree at that element.** -/
theorem Has.edit {n : NodeId}
    {change : OrderedMap String String → List Dom → OrderedMap String String × List Dom}
    {whole : Dom} (edits : Edits p p' n change whole)
    (isElement : ∀ content q, p.node? n ≠ some ⟨.text content, q, []⟩)
    (others : ∀ m ∈ whole.nodes, m ≠ n → p'.node? m = p.node? m)
    (places : ∀ l ∈ whole.links, p'.parent? l.2 = p.parent? l.2) {q : Option NodeId} :
    ∀ {d : Dom}, (∀ m ∈ d.nodes, m ∈ whole.nodes) → (∀ l ∈ d.links, l ∈ whole.links) →
      d.nodes.Nodup → p.Has q d → p'.Has q (d.edit n change)
  | .text m content, inside, _, _, there => by
    by_cases same : m = n
    · subst same
      exact absurd there (isElement content q)
    · rw [Dom.edit, Has, others m (inside m (by simp [Dom.nodes])) same]
      exact there
  | .element m tag attributes children, inside, linked, distinct, there => by
    rw [Dom.nodes, List.nodup_cons] at distinct
    have below : ∀ k ∈ Dom.nodesOf children, k ∈ whole.nodes := fun k hk =>
      inside k (by rw [Dom.nodes]; exact List.mem_cons_of_mem _ hk)
    by_cases same : m = n
    · subst same
      rw [Dom.edit, if_pos rfl]
      refine edits tag attributes q children there.1 there.2 (fun k hk => ⟨below k hk, ?_⟩) linked
      intro equal
      exact distinct.1 (equal ▸ hk)
    · rw [Dom.edit, if_neg same]
      refine ⟨?_, HasAll.edit edits isElement others places below linked distinct.2 there.2⟩
      rw [others m (inside m (by simp [Dom.nodes])) same, Dom.map_root_editAll]
      exact there.1
  | .link target m, _, linked, _, there => by
    rw [Dom.edit, Has, places (target, m) (linked _ (by simp [Dom.links]))]
    exact there

theorem HasAll.edit {n : NodeId}
    {change : OrderedMap String String → List Dom → OrderedMap String String × List Dom}
    {whole : Dom} (edits : Edits p p' n change whole)
    (isElement : ∀ content q, p.node? n ≠ some ⟨.text content, q, []⟩)
    (others : ∀ m ∈ whole.nodes, m ≠ n → p'.node? m = p.node? m)
    (places : ∀ l ∈ whole.links, p'.parent? l.2 = p.parent? l.2) {q : Option NodeId} :
    ∀ {ds : List Dom}, (∀ m ∈ Dom.nodesOf ds, m ∈ whole.nodes) →
      (∀ l ∈ Dom.linksOf ds, l ∈ whole.links) → (Dom.nodesOf ds).Nodup → p.HasAll q ds →
        p'.HasAll q (Dom.editAll n change ds)
  | [], _, _, _, _ => trivial
  | d :: ds, inside, linked, distinct, there => by
    rw [Dom.nodesOf] at inside distinct
    rw [Dom.linksOf] at linked
    exact ⟨Has.edit edits isElement others places (fun m hm => inside m (List.mem_append_left _ hm))
        (fun l hl => linked l (List.mem_append_left _ hl)) distinct.of_append_left there.1,
      HasAll.edit edits isElement others places (fun m hm => inside m (List.mem_append_right _ hm))
        (fun l hl => linked l (List.mem_append_right _ hl)) distinct.of_append_right there.2⟩
end

/-! ## Moving a tree -/

theorem node?_link {p : Page} {parent child : NodeId} (ne : child ≠ parent) (m : NodeId) :
    (p.link parent child).node? m =
      if m = parent then (p.node? m).map fun node => { node with children := node.children ++ [child] }
      else if m = child then (p.node? m).map fun node => { node with parent := some parent }
      else p.node? m := by
  unfold link
  by_cases atParent : m = parent
  · rw [if_pos atParent, atParent, node?_update_self, node?_update_of_ne _ _ ne.symm]
  · rw [if_neg atParent, node?_update_of_ne _ _ atParent]
    by_cases atChild : m = child
    · rw [if_pos atChild, atChild, node?_update_self]
    · rw [if_neg atChild, node?_update_of_ne _ _ atChild]

theorem node?_link_parent {p : Page} {parent child : NodeId} (ne : child ≠ parent) :
    (p.link parent child).node? parent =
      (p.node? parent).map fun node => { node with children := node.children ++ [child] } := by
  rw [node?_link ne, if_pos rfl]

theorem node?_link_child {p : Page} {parent child : NodeId} (ne : child ≠ parent) :
    (p.link parent child).node? child =
      (p.node? child).map fun node => { node with parent := some parent } := by
  rw [node?_link ne, if_neg ne, if_pos rfl]

theorem node?_link_of_ne {p : Page} {parent child m : NodeId} (ne : child ≠ parent)
    (notParent : m ≠ parent) (notChild : m ≠ child) :
    (p.link parent child).node? m = p.node? m := by
  rw [node?_link ne, if_neg notParent, if_neg notChild]

/-- Linking a node leaves nodes alone that it is not among, nor the new parent. -/
theorem node?_link_of_notMem {p : Page} {parent child m : NodeId} {nodes : List NodeId}
    (ne : child ≠ parent) (parentOut : parent ∉ nodes) (childOut : child ∉ nodes)
    (mem : m ∈ nodes) : (p.link parent child).node? m = p.node? m := by
  refine node?_link_of_ne ne ?_ ?_
  · rintro rfl
    exact parentOut mem
  · rintro rfl
    exact childOut mem

theorem parent?_link_of_ne {p : Page} {parent child : NodeId} (ne : child ≠ parent) {m : NodeId}
    (other : m ≠ child) : (p.link parent child).parent? m = p.parent? m := by
  unfold parent?
  rw [node?_link ne]
  by_cases atParent : m = parent
  · rw [if_pos atParent]
    cases p.node? m <;> rfl
  · rw [if_neg atParent, if_neg other]

theorem parent?_link_self {p : Page} {parent child : NodeId} (ne : child ≠ parent)
    {node : PageNode} (found : p.node? child = some node) :
    (p.link parent child).parent? child = some parent := by
  unfold parent?
  rw [node?_link_child ne, found]
  rfl

@[simp]
theorem size_link (p : Page) (parent child : NodeId) : (p.link parent child).size = p.size := by
  unfold link
  rw [size_update, size_update]

/-- A node that lies nowhere is appended by linking it. -/
theorem append_eq_ok {p : Page} {parent child : NodeId} {tag : String}
    {attributes : OrderedMap String String} {q : Option NodeId} {children : List NodeId}
    (element : p.node? parent = some ⟨.element tag attributes, q, children⟩)
    (outside : p.contains child parent = false) (free : p.parent? child = none) :
    p.append parent child = .ok (p.link parent child) := by
  have place : p.checkPlace parent child = .ok () := by
    unfold checkPlace
    rw [tag?_eq element, outside]
    rfl
  have detached : p.detach child = p := by
    unfold detach
    rw [free]
  unfold append
  rw [place, detached]
  rfl

/-- A child is removed by taking it out of the tree. -/
theorem remove_eq_ok {p : Page} {parent child : NodeId} (lies : p.parent? child = some parent) :
    p.remove parent child = .ok (p.detach child) := by
  unfold remove checkChild
  rw [if_pos lies]
  rfl

/-- A tree whose topmost node is put elsewhere is the same tree in another place. -/
theorem Has.moved {q q' : Option NodeId} {d : Dom} (rooted : d.root ∈ d.nodes)
    (distinct : d.nodes.Nodup)
    (top : p'.node? d.root = (p.node? d.root).map fun node => { node with parent := q' })
    (others : ∀ m ∈ d.nodes, m ≠ d.root → p'.node? m = p.node? m)
    (places : ∀ l ∈ d.links, p'.parent? l.2 = p.parent? l.2) (there : p.Has q d) :
    p'.Has q' d := by
  cases d with
  | text n content =>
    rw [Has] at there ⊢
    rw [Dom.root] at top
    rw [top, there]
    rfl
  | link target n => cases rooted
  | element n tag attributes children =>
    rw [Dom.root] at top others
    rw [Dom.nodes, List.nodup_cons] at distinct
    refine ⟨?_, there.2.congr (fun m hm => others m ?_ ?_) places⟩
    · rw [top, there.1]
      rfl
    · rw [Dom.nodes]
      exact List.mem_cons_of_mem _ hm
    · intro same
      exact distinct.1 (same ▸ hm)

end Page

end Formwork
