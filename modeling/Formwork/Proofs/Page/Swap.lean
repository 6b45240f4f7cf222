import Mathlib.Data.List.TakeDrop
import Formwork.Proofs.Page.Order

/-!
# Replacing an element by a link

Splicing puts the widget of a field in the place of a marker, away from where it stood before.  In
the tree that has the marker, a link takes the place of the element, and all other links to the
same tree go away (`Dom.swap`).  On the page this is an insertion followed by a removal
(`Page.swap_eq_ok`), and neither is refused when the tree that moves is a later one
(`Page.Holds.swap`).
-/

namespace Formwork

set_option autoImplicit false

namespace Dom

/-! ## Trees with something in the place of an element -/

mutual
/-- Put trees in the place of an element, and nothing in the place of the links to a target. -/
def swap (n : NodeId) (target : Link) (new : List Dom) : Dom → List Dom
  | .text m content => [.text m content]
  | .link target' m => if target' = target then [] else [.link target' m]
  | .element m tag attributes children =>
    if m = n then new else [.element m tag attributes (swapAll n target new children)]

def swapAll (n : NodeId) (target : Link) (new : List Dom) : List Dom → List Dom
  | [] => []
  | d :: ds => swap n target new d ++ swapAll n target new ds
end

section Swap

variable {n : NodeId} {target : Link} {new : List Dom}

theorem swapAll_append : ∀ ds es : List Dom,
    swapAll n target new (ds ++ es) = swapAll n target new ds ++ swapAll n target new es
  | [], _ => rfl
  | d :: ds, es => by
    rw [List.cons_append, swapAll, swapAll, swapAll_append ds es, List.append_assoc]

mutual
/-- Nothing changes where neither the element nor a link to the target is. -/
theorem swap_of_absent : ∀ {d : Dom}, n ∉ d.nodes → (∀ l ∈ d.links, l.1 ≠ target) →
    swap n target new d = [d]
  | .text _ _, _, _ => rfl
  | .link target' m, _, other => by
    rw [swap, if_neg (other (target', m) (List.mem_singleton_self _))]
  | .element m tag attributes children, absent, other => by
    rw [nodes, List.mem_cons, not_or] at absent
    rw [links] at other
    rw [swap, if_neg fun same => absent.1 same.symm, swapAll_of_absent absent.2 other]

theorem swapAll_of_absent : ∀ {ds : List Dom}, n ∉ nodesOf ds →
    (∀ l ∈ linksOf ds, l.1 ≠ target) → swapAll n target new ds = ds
  | [], _, _ => rfl
  | d :: ds, absent, other => by
    rw [nodesOf, List.mem_append, not_or] at absent
    rw [linksOf] at other
    rw [swapAll, swap_of_absent absent.1 fun l hl => other l (List.mem_append_left _ hl),
      swapAll_of_absent absent.2 fun l hl => other l (List.mem_append_right _ hl)]
    rfl
end

mutual
/-- Putting links in the place of an element brings in no nodes. -/
theorem nodesOf_swap (unnumbered : nodesOf new = []) : ∀ d : Dom,
    (nodesOf (swap n target new d)).Sublist d.nodes
  | .text _ _ => by
    rw [swap, nodesOf, nodesOf, List.append_nil]
  | .link target' m => by
    rw [swap]
    split
    · exact List.nil_sublist _
    · exact List.Sublist.refl _
  | .element m tag attributes children => by
    rw [swap, nodes]
    split
    · rw [unnumbered]
      exact List.nil_sublist _
    · rw [nodesOf, nodesOf, List.append_nil, nodes]
      exact (nodesOf_swapAll unnumbered children).cons_cons m

theorem nodesOf_swapAll (unnumbered : nodesOf new = []) : ∀ ds : List Dom,
    (nodesOf (swapAll n target new ds)).Sublist (nodesOf ds)
  | [] => List.nil_sublist _
  | d :: ds => by
    rw [swapAll, nodesOf_append, nodesOf]
    exact (nodesOf_swap unnumbered d).append (nodesOf_swapAll unnumbered ds)
end

mutual
/-- Every link of the new tree was there or was put there. -/
theorem mem_linksOf_swap {l : Link × NodeId} : ∀ {d : Dom}, l ∈ linksOf (swap n target new d) →
    l ∈ d.links ∧ l.1 ≠ target ∨ l ∈ linksOf new
  | .text _ _, mem => by cases mem
  | .link target' m, mem => by
    rw [swap] at mem
    split at mem
    · cases mem
    · case isFalse other =>
      rw [linksOf, linksOf, List.append_nil, links, List.mem_singleton] at mem
      subst mem
      exact .inl ⟨List.mem_singleton_self _, other⟩
  | .element m tag attributes children, mem => by
    rw [swap] at mem
    split at mem
    · exact .inr mem
    · rw [linksOf, linksOf, List.append_nil, links] at mem
      rw [links]
      exact mem_linksOf_swapAll mem

theorem mem_linksOf_swapAll {l : Link × NodeId} : ∀ {ds : List Dom},
    l ∈ linksOf (swapAll n target new ds) → l ∈ linksOf ds ∧ l.1 ≠ target ∨ l ∈ linksOf new
  | [], mem => by cases mem
  | d :: ds, mem => by
    rw [swapAll, linksOf_append, List.mem_append] at mem
    rw [linksOf, List.mem_append]
    rcases mem with here | later
    · exact (mem_linksOf_swap here).imp_left fun h => ⟨.inl h.1, h.2⟩
    · exact (mem_linksOf_swapAll later).imp_left fun h => ⟨.inr h.1, h.2⟩
end

/-- The element is found in one of the siblings at most. -/
theorem findAmong?_cons {c : NodeId} {d : Dom} {ds : List Dom}
    (distinct : (nodesOf (d :: ds)).Nodup) :
    (c ∈ d.nodes ∧ findAmong? c (d :: ds) = d.find? c ∧ findAmong? c ds = none) ∨
      c ∉ d.nodes ∧ findAmong? c (d :: ds) = findAmong? c ds := by
  rw [nodesOf, List.nodup_append] at distinct
  by_cases here : c ∈ d.nodes
  · have absent : findAmong? c ds = none :=
      findAmong?_of_not_mem fun later => distinct.2.2 c here c later rfl
    refine .inl ⟨here, ?_, absent⟩
    rw [findAmong?, absent]
    cases d.find? c <;> rfl
  · refine .inr ⟨here, ?_⟩
    rw [findAmong?, find?_of_not_mem here]
    rfl

mutual
/-- Links to other targets stay, unless they were below the element. -/
theorem mem_linksOf_swap_of_ne {l : Link × NodeId} (other : l.1 ≠ target) : ∀ {d : Dom},
    d.nodes.Nodup →
    (∀ tag attributes children, d.find? n = some (tag, attributes, children) →
      linksOf children = []) → l ∈ d.links → l ∈ linksOf (swap n target new d)
  | .text _ _, _, _, mem => by cases mem
  | .link target' m, _, _, mem => by
    rw [links, List.mem_singleton] at mem
    subst mem
    rw [swap, if_neg other]
    exact List.mem_singleton_self _
  | .element m tag attributes children, distinct, bare, mem => by
    rw [nodes, List.nodup_cons] at distinct
    rw [links] at mem
    rw [find?] at bare
    rw [swap]
    by_cases same : m = n
    · rw [if_pos same] at bare
      rw [bare _ _ _ rfl] at mem
      cases mem
    · rw [if_neg same] at bare ⊢
      rw [linksOf, linksOf, List.append_nil, links]
      exact mem_linksOf_swapAll_of_ne other distinct.2 bare mem

theorem mem_linksOf_swapAll_of_ne {l : Link × NodeId} (other : l.1 ≠ target) : ∀ {ds : List Dom},
    (nodesOf ds).Nodup →
    (∀ tag attributes children, findAmong? n ds = some (tag, attributes, children) →
      linksOf children = []) → l ∈ linksOf ds → l ∈ linksOf (swapAll n target new ds)
  | [], _, _, mem => by cases mem
  | d :: ds, distinct, bare, mem => by
    have split := List.nodup_append.1 (show (d.nodes ++ nodesOf ds).Nodup from distinct)
    have bareHere : ∀ tag attributes children, d.find? n = some (tag, attributes, children) →
        linksOf children = [] := by
      intro tag attributes children found
      refine bare tag attributes children ?_
      rw [findAmong?, found]
      rfl
    have bareLater : ∀ tag attributes children,
        findAmong? n ds = some (tag, attributes, children) → linksOf children = [] := by
      intro tag attributes children found
      rcases findAmong?_cons (c := n) distinct with ⟨_, _, none⟩ | ⟨_, later⟩
      · rw [none] at found
        cases found
      · exact bare tag attributes children (later.trans found)
    rw [swapAll, linksOf_append, List.mem_append]
    rw [linksOf, List.mem_append] at mem
    rcases mem with here | later
    · exact .inl (mem_linksOf_swap_of_ne other split.1 bareHere here)
    · exact .inr (mem_linksOf_swapAll_of_ne other split.2.1 bareLater later)
end

mutual
/-- What is put in the place of an element is there. -/
theorem mem_linksOf_swap_of_new {l : Link × NodeId} (added : l ∈ linksOf new) : ∀ {d : Dom},
    d.find? n ≠ none → l ∈ linksOf (swap n target new d)
  | .text _ _, found => absurd rfl found
  | .link _ _, found => absurd rfl found
  | .element m tag attributes children, found => by
    rw [find?] at found
    rw [swap]
    by_cases same : m = n
    · rw [if_pos same]
      exact added
    · rw [if_neg same] at found ⊢
      rw [linksOf, linksOf, List.append_nil, links]
      exact mem_linksOf_swapAll_of_new added found

theorem mem_linksOf_swapAll_of_new {l : Link × NodeId} (added : l ∈ linksOf new) :
    ∀ {ds : List Dom}, findAmong? n ds ≠ none → l ∈ linksOf (swapAll n target new ds)
  | [], found => absurd rfl found
  | d :: ds, found => by
    rw [swapAll, linksOf_append, List.mem_append]
    by_cases here : d.find? n = none
    · rw [findAmong?, here] at found
      exact .inr (mem_linksOf_swapAll_of_new added found)
    · exact .inl (mem_linksOf_swap_of_new added here)
end

mutual
/-- The other elements are found where they were. -/
theorem findAmong?_swap {c : NodeId} (other : c ≠ n) (new' : findAmong? c new = none) :
    ∀ {d : Dom}, d.nodes.Nodup →
    (∀ tag attributes children, d.find? n = some (tag, attributes, children) →
      c ∉ nodesOf children) →
    findAmong? c (swap n target new d) =
      (d.find? c).map fun e => (e.1, e.2.1, swapAll n target new e.2.2)
  | .text _ _, _, _ => rfl
  | .link target' m, _, _ => by
    rw [swap]
    split <;> rfl
  | .element m tag attributes children, distinct, kept => by
    rw [nodes, List.nodup_cons] at distinct
    rw [find?] at kept
    rw [swap, find?]
    by_cases same : m = n
    · rw [if_pos same] at kept ⊢
      have notTop : m ≠ c := fun eq => other (eq.symm.trans same)
      rw [new', if_neg notTop, findAmong?_of_not_mem (kept _ _ _ rfl)]
      rfl
    · rw [if_neg same] at kept ⊢
      rw [findAmong?, findAmong?, find?]
      by_cases top : m = c
      · rw [if_pos top, if_pos top]
        rfl
      · rw [if_neg top, if_neg top, findAmong?_swapAll other new' distinct.2 kept]
        cases findAmong? c children <;> rfl

theorem findAmong?_swapAll {c : NodeId} (other : c ≠ n) (new' : findAmong? c new = none) :
    ∀ {ds : List Dom}, (nodesOf ds).Nodup →
    (∀ tag attributes children, findAmong? n ds = some (tag, attributes, children) →
      c ∉ nodesOf children) →
    findAmong? c (swapAll n target new ds) =
      (findAmong? c ds).map fun e => (e.1, e.2.1, swapAll n target new e.2.2)
  | [], _, _ => rfl
  | d :: ds, distinct, kept => by
    have split := List.nodup_append.1 (show (d.nodes ++ nodesOf ds).Nodup from distinct)
    have keptHere : ∀ tag attributes children, d.find? n = some (tag, attributes, children) →
        c ∉ nodesOf children := by
      intro tag attributes children found
      refine kept tag attributes children ?_
      rw [findAmong?, found]
      rfl
    have keptLater : ∀ tag attributes children,
        findAmong? n ds = some (tag, attributes, children) → c ∉ nodesOf children := by
      intro tag attributes children found
      rcases findAmong?_cons (c := n) distinct with ⟨_, _, none⟩ | ⟨_, later⟩
      · rw [none] at found
        cases found
      · exact kept tag attributes children (later.trans found)
    rw [swapAll, findAmong?_append, findAmong?_swap other new' split.1 keptHere,
      findAmong?_swapAll other new' split.2.1 keptLater, findAmong?]
    cases d.find? c <;> rfl
end

end Swap

section Find

variable {n c : NodeId} {tag : String} {attributes : OrderedMap String String}
  {children : List Dom}

mutual
/-- The nodes below an element of a tree are nodes of the tree. -/
theorem nodes_of_find? : ∀ {d : Dom}, d.find? n = some (tag, attributes, children) →
    (n :: nodesOf children).Sublist d.nodes
  | .text _ _, found => nomatch found
  | .link _ _, found => nomatch found
  | .element m tag' attributes' children', found => by
    rw [find?] at found
    rw [nodes]
    split at found
    · case isTrue same =>
      subst same
      cases found
      exact List.Sublist.refl _
    · exact (nodes_of_findAmong? found).cons m

theorem nodes_of_findAmong? : ∀ {ds : List Dom},
    findAmong? n ds = some (tag, attributes, children) →
      (n :: nodesOf children).Sublist (nodesOf ds)
  | [], found => nomatch found
  | d :: ds, found => by
    rw [findAmong?] at found
    rw [nodesOf]
    cases here : d.find? n with
    | some e =>
      rw [here] at found
      cases found
      exact (nodes_of_find? here).trans (List.sublist_append_left _ _)
    | none =>
      rw [here] at found
      exact (nodes_of_findAmong? found).trans (List.sublist_append_right _ _)
end

mutual
/-- The links below an element of a tree are links of the tree. -/
theorem links_of_find? : ∀ {d : Dom}, d.find? n = some (tag, attributes, children) →
    ∀ l ∈ linksOf children, l ∈ d.links
  | .text _ _, found => nomatch found
  | .link _ _, found => nomatch found
  | .element m tag' attributes' children', found => by
    rw [find?] at found
    rw [links]
    split at found
    · cases found
      exact fun _ hl => hl
    · exact links_of_findAmong? found

theorem links_of_findAmong? : ∀ {ds : List Dom},
    findAmong? n ds = some (tag, attributes, children) →
      ∀ l ∈ linksOf children, l ∈ linksOf ds
  | [], found => nomatch found
  | d :: ds, found => by
    rw [findAmong?] at found
    rw [linksOf]
    cases here : d.find? n with
    | some e =>
      rw [here] at found
      cases found
      exact fun l hl => List.mem_append_left _ (links_of_find? here l hl)
    | none =>
      rw [here] at found
      exact fun l hl => List.mem_append_right _ (links_of_findAmong? found l hl)
end

mutual
/-- What is found below an element of a tree is found in the tree. -/
theorem find?_trans {e : String × OrderedMap String String × List Dom} : ∀ {d : Dom},
    d.nodes.Nodup → d.find? n = some (tag, attributes, children) →
      findAmong? c children = some e → d.find? c = some e
  | .text _ _, _, found, _ => nomatch found
  | .link _ _, _, found, _ => nomatch found
  | .element m tag' attributes' children', distinct, found, inner => by
    rw [nodes, List.nodup_cons] at distinct
    obtain ⟨t, a, cs⟩ := e
    rw [find?] at found ⊢
    by_cases same : m = n
    · rw [if_pos same] at found
      cases found
      have below := (nodes_of_findAmong? inner).subset List.mem_cons_self
      rw [if_neg, inner]
      rintro rfl
      exact distinct.1 below
    · rw [if_neg same] at found
      have deep := findAmong?_trans distinct.2 found inner
      have below := (nodes_of_findAmong? deep).subset List.mem_cons_self
      rw [if_neg, deep]
      rintro rfl
      exact distinct.1 below

theorem findAmong?_trans {e : String × OrderedMap String String × List Dom} : ∀ {ds : List Dom},
    (nodesOf ds).Nodup → findAmong? n ds = some (tag, attributes, children) →
      findAmong? c children = some e → findAmong? c ds = some e
  | [], _, found, _ => nomatch found
  | d :: ds, distinct, found, inner => by
    have split := List.nodup_append.1 (show (d.nodes ++ nodesOf ds).Nodup from distinct)
    rcases findAmong?_cons (c := n) distinct with ⟨_, here, _⟩ | ⟨_, later⟩
    · rw [here] at found
      rw [findAmong?, find?_trans split.1 found inner]
      rfl
    · rw [later] at found
      have deep := findAmong?_trans split.2.1 found inner
      obtain ⟨t, a, cs⟩ := e
      have below := (nodes_of_findAmong? deep).subset List.mem_cons_self
      rw [findAmong?, find?_of_not_mem fun mem => split.2.2 c mem c below rfl, deep]
      rfl
end

/-- A child of an element of a tree, which is not the topmost one. -/
theorem findAmong?_of_child {top q : NodeId} {tag' tag'' : String}
    {attributes' attributes'' : OrderedMap String String} {kids behind inner : List Dom}
    (before : List Dom) (distinct : (element top tag attributes kids).nodes.Nodup)
    (found : (element top tag attributes kids).find? q =
      some (tag', attributes', before ++ .element n tag'' attributes'' inner :: behind)) :
    top ≠ n ∧ q ≠ n ∧ findAmong? n kids = some (tag'', attributes'', inner) := by
  have distinctQ : (element q tag' attributes'
      (before ++ .element n tag'' attributes'' inner :: behind)).nodes.Nodup :=
    distinct.sublist (nodes_of_find? found)
  have notOwn := ne_of_child distinctQ
  have child := find?_child before distinctQ
  rw [find?, if_neg notOwn] at child
  have notTop : top ≠ n := by
    rintro rfl
    have below := (nodes_of_findAmong? child).subset List.mem_cons_self
    rw [find?] at found
    have up := (List.nodup_cons.1 distinct).1
    split at found
    · cases found
      exact up below
    · exact up ((nodes_of_findAmong? found).subset (List.mem_cons_of_mem _ below))
  have whole := find?_trans distinct found child
  rw [find?, if_neg notTop] at whole
  exact ⟨notTop, notOwn, whole⟩

end Find

end Dom

namespace Page

/-! ## The new tree on the page -/

/-- What a page must be like so that trees of a page `p` with the nodes `S` and the links `T` have
`new` in the place of the element `n` and nothing in the place of the links to `target`. -/
structure Swaps (p p' : Page) (n : NodeId) (target : Link) (new : List Dom)
    (roots : NodeId → List NodeId) (S : NodeId → Prop) (T : Link × NodeId → Prop) : Prop where
  isElement : ∀ content q, p.node? n ≠ some ⟨.text content, q, []⟩
  atElement : roots n = new.map Dom.root
  atNode : ∀ m, S m → m ≠ n → roots m = [m]
  atLink : ∀ l, T l → roots l.2 = if l.1 = target then [] else [l.2]
  node : ∀ m node, S m → m ≠ n → p.node? m = some node →
    (∀ c ∈ node.children, p.parent? c = some m) →
    p'.node? m = some { node with children := node.children.flatMap roots }
  places : ∀ l, T l → l.1 ≠ target → p'.parent? l.2 = p.parent? l.2
  new : p'.HasAll (p.parent? n) new

section Swaps

variable {p p' : Page} {n : NodeId} {target : Link} {new : List Dom}
  {roots : NodeId → List NodeId} {S : NodeId → Prop} {T : Link × NodeId → Prop}

theorem Swaps.map_root (h : Swaps p p' n target new roots S T) {q : Option NodeId} :
    ∀ {ds : List Dom}, (∀ m ∈ Dom.nodesOf ds, S m) → (∀ l ∈ Dom.linksOf ds, T l) →
      p.HasAll q ds → (Dom.swapAll n target new ds).map Dom.root = (ds.map Dom.root).flatMap roots
  | [], _, _, _ => rfl
  | d :: ds, inside, linked, there => by
    rw [Dom.nodesOf] at inside
    rw [Dom.linksOf] at linked
    have rest := h.map_root (fun m hm => inside m (List.mem_append_right _ hm))
      (fun l hl => linked l (List.mem_append_right _ hl)) there.2
    rw [Dom.swapAll, List.map_append, rest, List.map_cons, List.flatMap_cons]
    congr 1
    cases d with
    | text m content =>
      have mem := inside m (List.mem_append_left _ (List.mem_singleton_self _))
      refine (h.atNode m mem ?_).symm
      rintro rfl
      exact h.isElement content q there.1
    | link target' m =>
      have mem := linked (target', m) (List.mem_append_left _ (List.mem_singleton_self _))
      rw [Dom.swap, Dom.root, h.atLink _ mem]
      split <;> rfl
    | element m tag attributes children =>
      have mem := inside m (List.mem_append_left _ List.mem_cons_self)
      rw [Dom.swap, Dom.root]
      split
      · case isTrue same =>
        rw [same, h.atElement]
      · case isFalse other =>
        exact (h.atNode m mem other).symm

theorem HasAll.root_parent {q : Option NodeId} {ds : List Dom} (there : p.HasAll q ds) :
    ∀ c ∈ ds.map Dom.root, p.parent? c = q := by
  intro c mem
  obtain ⟨d, hd, rfl⟩ := List.mem_map.1 mem
  exact (hasAll_iff.1 there d hd).root_parent

mutual
/-- **The trees of a page after an element was replaced.** -/
theorem Swaps.has (h : Swaps p p' n target new roots S T) {q : Option NodeId} : ∀ {d : Dom},
    (∀ m ∈ d.nodes, S m) → (∀ l ∈ d.links, T l) → p.Has q d →
      p'.HasAll q (Dom.swap n target new d)
  | .text m content, inside, _, there => by
    have other : m ≠ n := by
      rintro rfl
      exact h.isElement content q there
    have same := h.node m _ (inside m (List.mem_singleton_self _)) other there nofun
    exact ⟨same, trivial⟩
  | .link target' m, _, linked, there => by
    rw [Dom.swap]
    split
    · trivial
    · case isFalse other =>
      exact ⟨(h.places _ (linked _ (List.mem_singleton_self _)) other).trans there, trivial⟩
  | .element m tag attributes children, inside, linked, there => by
    rw [Dom.nodes] at inside
    rw [Dom.swap]
    split
    · case isTrue same =>
      have place : p.parent? m = q := there.root_parent
      rw [← place, same]
      exact h.new
    · case isFalse other =>
      have below : ∀ k ∈ Dom.nodesOf children, S k := fun k hk =>
        inside k (List.mem_cons_of_mem _ hk)
      refine ⟨⟨?_, h.hasAll below linked there.2⟩, trivial⟩
      rw [h.map_root below linked there.2]
      exact h.node m _ (inside m List.mem_cons_self) other there.1 there.2.root_parent

theorem Swaps.hasAll (h : Swaps p p' n target new roots S T) {q : Option NodeId} :
    ∀ {ds : List Dom}, (∀ m ∈ Dom.nodesOf ds, S m) → (∀ l ∈ Dom.linksOf ds, T l) →
      p.HasAll q ds → p'.HasAll q (Dom.swapAll n target new ds)
  | [], _, _, _ => trivial
  | d :: ds, inside, linked, there => by
    rw [Dom.nodesOf] at inside
    rw [Dom.linksOf] at linked
    rw [Dom.swapAll]
    exact hasAll_append.2
      ⟨h.has (fun m hm => inside m (List.mem_append_left _ hm))
        (fun l hl => linked l (List.mem_append_left _ hl)) there.1,
      h.hasAll (fun m hm => inside m (List.mem_append_right _ hm))
        (fun l hl => linked l (List.mem_append_right _ hl)) there.2⟩
end

end Swaps

/-! ## Inserting and removing -/

/-- Taking a node out of the tree it lies in changes the node and its parent. -/
theorem node?_detach {p : Page} {n : NodeId} (ne : p.parent? n ≠ some n) (m : NodeId) :
    (p.detach n).node? m =
      if m = n then (p.node? m).map fun node => { node with parent := none }
      else if p.parent? n = some m then
        (p.node? m).map fun node => { node with children := node.children.filter (· ≠ n) }
      else p.node? m := by
  cases place : p.parent? n with
  | none =>
    have same : p.detach n = p := by
      unfold detach
      rw [place]
    rw [same, if_neg (fun h => nomatch h : ¬ none = some m)]
    by_cases here : m = n
    · subst here
      rw [if_pos rfl]
      unfold parent? at place
      cases found : p.node? m with
      | none => rfl
      | some node =>
        rw [found] at place
        obtain ⟨content, parent, children⟩ := node
        cases place
        rfl
    · rw [if_neg here]
  | some q =>
    have moved : p.detach n = (p.update n fun node => { node with parent := none }).update q
        fun node => { node with children := node.children.filter (· ≠ n) } := by
      unfold detach
      rw [place]
    rw [moved]
    have other : q ≠ n := fun same => ne (place.trans (congrArg some same))
    by_cases atNode : m = n
    · subst atNode
      rw [if_pos rfl, node?_update_of_ne _ _ other.symm, node?_update_self]
    · rw [if_neg atNode]
      by_cases atParent : m = q
      · subst atParent
        rw [if_pos rfl, node?_update_self, node?_update_of_ne _ _ atNode]
      · rw [if_neg fun same => atParent (Option.some.inj same).symm,
          node?_update_of_ne _ _ atParent, node?_update_of_ne _ _ atNode]

@[simp]
theorem size_detach (p : Page) (n : NodeId) : (p.detach n).size = p.size := by
  unfold detach
  split
  · rfl
  · rw [size_update, size_update]

theorem parent?_detach {p : Page} {n : NodeId} (ne : p.parent? n ≠ some n) (m : NodeId) :
    (p.detach n).parent? m = if m = n then none else p.parent? m := by
  unfold parent?
  rw [node?_detach ne]
  split
  · cases p.node? m <;> rfl
  · split
    · cases p.node? m <;> rfl
    · rfl

theorem filter_ne_of_not_mem {α : Type} [DecidableEq α] {n : α} {cs : List α} (absent : n ∉ cs) :
    cs.filter (· ≠ n) = cs := by
  refine List.filter_eq_self.2 fun c mem => decide_eq_true ?_
  rintro rfl
  exact absent mem

/-- A node whose children know it loses the node that is taken out, if it is one of them. -/
theorem node?_detach_of_known {p : Page} {n m : NodeId} {node : PageNode} (ne : p.parent? n ≠ some n)
    (other : m ≠ n) (found : p.node? m = some node)
    (known : ∀ c ∈ node.children, p.parent? c = some m) :
    (p.detach n).node? m = some { node with children := node.children.filter (· ≠ n) } := by
  rw [node?_detach ne, if_neg other, found]
  split
  · rfl
  · case isFalse elsewhere => rw [filter_ne_of_not_mem fun mem => elsewhere (known n mem)]

/-- What becomes of a child when one node takes the place of another. -/
def inPlace (n w c : NodeId) : List NodeId := if c = n then [w] else if c = w then [] else [c]

theorem flatMap_inPlace {n w : NodeId} : ∀ {cs : List NodeId}, n ∉ cs →
    cs.flatMap (inPlace n w) = cs.filter (· ≠ w)
  | [], _ => rfl
  | c :: cs, absent => by
    rw [List.mem_cons, not_or] at absent
    rw [List.flatMap_cons, flatMap_inPlace absent.2, inPlace, if_neg (Ne.symm absent.1)]
    by_cases same : c = w
    · rw [if_pos same, List.filter_cons_of_neg (by simpa using same)]
      rfl
    · rw [if_neg same, List.filter_cons_of_pos (by simpa using same)]
      rfl

theorem flatMap_gone (n : NodeId) : ∀ cs : List NodeId,
    cs.flatMap (fun c => if c = n then [] else [c]) = cs.filter (· ≠ n)
  | [] => rfl
  | c :: cs => by
    rw [List.flatMap_cons, flatMap_gone n cs]
    by_cases same : c = n
    · rw [if_pos same, List.filter_cons_of_neg (by simpa using same)]
      rfl
    · rw [if_neg same, List.filter_cons_of_pos (by simpa using same)]
      rfl

theorem span_ne {n : NodeId} : ∀ {a b : List NodeId}, n ∉ a →
    (a ++ n :: b).span (· ≠ n) = (a, n :: b)
  | a, b, absent => by
    rw [List.span_eq_takeWhile_dropWhile]
    have all : ∀ c ∈ a, decide (c ≠ n) = true := by
      intro c mem
      refine decide_eq_true ?_
      rintro rfl
      exact absent mem
    rw [List.takeWhile_append_of_pos all, List.dropWhile_append_of_pos all,
      List.takeWhile_cons_of_neg (by simp), List.dropWhile_cons_of_neg (by simp), List.append_nil]

section InsertBefore

variable {p : Page} {q w n : NodeId} {tag : String} {attributes : OrderedMap String String}
  {place : Option NodeId} {a b : List NodeId}

/-- **A node is put before a child of another**, which it may have been a child of before. -/
theorem insertBefore_eq_ok
    (element : p.node? q = some ⟨.element tag attributes, place, a ++ n :: b⟩) (before : n ∉ a)
    (below : ∀ c ∈ a ++ n :: b, p.parent? c = some q) (ne : w ≠ n) (notParent : w ≠ q)
    (loop : p.parent? w ≠ some w) (outside : p.contains w q = false) :
    ∃ p₁, p.insertBefore q w n = .ok p₁ ∧ p₁.size = p.size ∧ ∀ m, p₁.node? m =
      if m = q then
        some ⟨.element tag attributes, place, a.filter (· ≠ w) ++ w :: n :: b.filter (· ≠ w)⟩
      else if m = w then (p.node? w).map fun node => { node with parent := some q }
      else (p.detach w).node? m := by
  have rest : (p.detach w).node? q = some ⟨.element tag attributes, place,
      a.filter (· ≠ w) ++ n :: b.filter (· ≠ w)⟩ := by
    rw [node?_detach_of_known loop notParent.symm element below, List.filter_append,
      List.filter_cons_of_pos (by simpa using ne.symm)]
  have before' : n ∉ a.filter (· ≠ w) := fun mem => before (List.mem_of_mem_filter mem)
  have put : (p.detach w).putBefore q w n = .ok (((p.detach w).update w fun node =>
      { node with parent := some q }).update q fun node =>
        { node with children := a.filter (· ≠ w) ++ w :: n :: b.filter (· ≠ w) }) := by
    unfold putBefore
    rw [children_eq rest, span_ne before']
    rfl
  have allowed : p.checkPlace q w = .ok () := by
    unfold checkPlace
    rw [tag?_eq element, outside]
    rfl
  have known : p.checkChild q n = .ok () :=
    if_pos (below n (List.mem_append_right _ List.mem_cons_self))
  have run : p.insertBefore q w n = (p.detach w).putBefore q w n := by
    unfold insertBefore
    rw [known, if_neg ne, allowed]
    rfl
  refine ⟨_, run.trans put, ?_, fun m => ?_⟩
  · rw [size_update, size_update, size_detach]
  · by_cases atParent : m = q
    · subst atParent
      rw [if_pos rfl, node?_update_self, node?_update_of_ne _ _ notParent.symm, rest]
      rfl
    · rw [if_neg atParent, node?_update_of_ne _ _ atParent]
      by_cases atNode : m = w
      · subst atNode
        rw [if_pos rfl, node?_update_self, node?_detach loop, if_pos rfl]
        cases p.node? m <;> rfl
      · rw [if_neg atNode, node?_update_of_ne _ _ atNode]

/-- **A node takes the place of another**: it is put before it, and the other node is removed. -/
theorem swap_eq_ok
    (element : p.node? q = some ⟨.element tag attributes, place, a ++ n :: b⟩)
    (before : n ∉ a) (behind : n ∉ b) (below : ∀ c ∈ a ++ n :: b, p.parent? c = some q)
    (ne : w ≠ n) (notParent : w ≠ q) (notOwn : n ≠ q) (loop : p.parent? w ≠ some w)
    (outside : p.contains w q = false) :
    ∃ p₁ p₂, p.insertBefore q w n = .ok p₁ ∧ p₁.remove q n = .ok p₂ ∧ p₂.size = p.size ∧
      p₂.node? w = ((p.node? w).map fun node => { node with parent := some q }) ∧
      (∀ m, m ≠ n → m ≠ w → m ≠ q → p.parent? w ≠ some m → p₂.node? m = p.node? m) ∧
      (∀ m, m ≠ n → m ≠ w → p₂.parent? m = p.parent? m) ∧
      ∀ m node, m ≠ n → m ≠ w → p.node? m = some node →
        (∀ c ∈ node.children, p.parent? c = some m) →
        p₂.node? m = some { node with children := node.children.flatMap (inPlace n w) } := by
  obtain ⟨p₁, run, size, node₁⟩ :=
    insertBefore_eq_ok element before below ne notParent loop outside
  have lies : p.parent? n = some q := below n (List.mem_append_right _ List.mem_cons_self)
  have parent₁ : ∀ m, m ≠ w → p₁.parent? m = p.parent? m := by
    intro m notNew
    have detached := parent?_detach loop m
    rw [if_neg notNew] at detached
    rw [← detached]
    unfold parent?
    rw [node₁, if_neg notNew]
    split
    · case isTrue here =>
      rw [here, node?_detach_of_known loop notParent.symm element below]
      rfl
    · rfl
  have lies₁ : p₁.parent? n = some q := (parent₁ n ne.symm).trans lies
  have loop₁ : p₁.parent? n ≠ some n := by
    rw [lies₁]
    exact fun same => notOwn (Option.some.inj same).symm
  have node₂ : ∀ m, m ≠ n → m ≠ q → (p₁.detach n).node? m = p₁.node? m := by
    intro m notGone notHere
    rw [node?_detach loop₁, if_neg notGone, lies₁,
      if_neg fun same => notHere (Option.some.inj same).symm]
  refine ⟨p₁, p₁.detach n, run, remove_eq_ok lies₁, (size_detach ..).trans size, ?_, ?_, ?_, ?_⟩
  · rw [node₂ w ne notParent, node₁, if_neg notParent, if_pos rfl]
  · intro m notGone notNew notHere notFormer
    rw [node₂ m notGone notHere, node₁, if_neg notHere, if_neg notNew, node?_detach loop,
      if_neg notNew, if_neg notFormer]
  · intro m notGone notNew
    rw [parent?_detach loop₁, if_neg notGone, parent₁ m notNew]
  · intro m node notGone notNew found known
    by_cases here : m = q
    · subst here
      cases element.symm.trans found
      rw [node?_detach loop₁, if_neg notGone, lies₁, if_pos rfl, node₁, if_pos rfl,
        List.flatMap_append, List.flatMap_cons, flatMap_inPlace before, flatMap_inPlace behind,
        inPlace, if_pos rfl]
      have gone : (a.filter (· ≠ w) ++ w :: n :: b.filter (· ≠ w)).filter (· ≠ n) =
          a.filter (· ≠ w) ++ ([w] ++ b.filter (· ≠ w)) := by
        rw [List.filter_append, List.filter_cons_of_pos (by simpa using ne),
          List.filter_cons_of_neg (by simp),
          filter_ne_of_not_mem fun mem => before (List.mem_of_mem_filter mem),
          filter_ne_of_not_mem fun mem => behind (List.mem_of_mem_filter mem)]
        rfl
      exact congrArg (fun cs => some (PageNode.mk (.element tag attributes) place cs)) gone
    · have absent : n ∉ node.children := fun mem =>
        here (Option.some.inj ((known n mem).symm.trans lies))
      rw [node₂ m notGone here, node₁, if_neg here, if_neg notNew,
        node?_detach_of_known loop notNew found known, flatMap_inPlace absent]

end InsertBefore

/-! A child of an element of a tree is known by where its element is found: -/

section Child

variable {p p' : Page} {place : Option NodeId} {top n q w : NodeId} {tag tag' tag'' : String}
  {attributes attributes' attributes'' : OrderedMap String String}
  {kids before behind inner : List Dom} {target : Link}
  (there : p.Has place (.element top tag attributes kids))
  (distinct : (Dom.element top tag attributes kids).nodes.Nodup) (before : List Dom)
  (found : (Dom.element top tag attributes kids).find? q =
    some (tag', attributes', before ++ .element n tag'' attributes'' inner :: behind))

include there distinct found in
theorem Has.child_mem : q ∈ (Dom.element top tag attributes kids).nodes ∧
    n ∈ (Dom.element top tag attributes kids).nodes ∧ p.parent? n = some q := by
  obtain ⟨hq, below, _⟩ := there.find found
  have atChild := (Dom.findAmong?_of_child before distinct found).2.2
  refine ⟨hq, List.mem_cons_of_mem _ ((Dom.nodes_of_findAmong? atChild).subset List.mem_cons_self),
    below.root_parent n ?_⟩
  rw [List.map_append]
  exact List.mem_append_right _ List.mem_cons_self

include there distinct found in
theorem Has.child_ne_text (content : String) (q' : Option NodeId) :
    p.node? n ≠ some ⟨.text content, q', []⟩ := by
  intro text
  have atChild := (Dom.findAmong?_of_child before distinct found).2.2
  obtain ⟨_, _, _, element⟩ := there.2.find atChild
  cases element.symm.trans text

include there distinct found in
/-- The page after a node took the place of an element: other nodes lose the node that moved. -/
theorem Has.swaps (known : ∃ node, p.node? w = some node)
    (outside : ∀ m ∈ (Dom.element top tag attributes kids).nodes, m ≠ w)
    (links : ∀ l ∈ (Dom.element top tag attributes kids).links,
      l.2 ≠ n ∧ (l.1 = target ↔ l.2 = w))
    (moved : p'.node? w = (p.node? w).map fun node => { node with parent := some q })
    (parents : ∀ m, m ≠ n → m ≠ w → p'.parent? m = p.parent? m)
    (nodes : ∀ m node, m ≠ n → m ≠ w → p.node? m = some node →
      (∀ c ∈ node.children, p.parent? c = some m) →
      p'.node? m = some { node with children := node.children.flatMap (inPlace n w) }) :
    Swaps p p' n target [.link target w] (inPlace n w)
      (· ∈ (Dom.element top tag attributes kids).nodes)
      (· ∈ (Dom.element top tag attributes kids).links) := by
  constructor
  case isElement => exact there.child_ne_text distinct before found
  case atElement => exact if_pos rfl
  case atNode =>
    intro m hm other
    rw [inPlace, if_neg other, if_neg (outside m hm)]
  case atLink =>
    intro l hl
    rw [inPlace, if_neg (links l hl).1]
    simp only [(links l hl).2]
  case node => exact fun m node hm other => nodes m node other (outside m hm)
  case places =>
    exact fun l hl other => parents _ (links l hl).1 fun same => other ((links l hl).2.2 same)
  case new =>
    rw [(there.child_mem distinct before found).2.2]
    refine ⟨?_, trivial⟩
    obtain ⟨node, here⟩ := known
    rw [Has]
    unfold parent?
    rw [moved, here]
    rfl

end Child

namespace Holds

variable {base p : Page} {L : Layout} {k : Owner} {place place' : Option NodeId}
  {top n q : NodeId} {tag tag' tag'' : String}
  {attributes attributes' attributes'' : OrderedMap String String}
  {kids before behind inner : List Dom} {target : Link} {x : Dom}

/-- A link stands for no node of the tree that it is in. -/
theorem link_ne (h : Holds base p L) (order : L.Ordered) (hk : L k = some ⟨place, x⟩)
    {l : Link × NodeId} (hl : l ∈ x.links) (inside : l.1.isShown = false) : l.2 ∉ x.nodes := by
  intro mem
  obtain ⟨s, hs, root, rank⟩ := order.linked hk hl inside
  have ne : k ≠ .tree l.1 := by
    rintro rfl
    exact Nat.lt_irrefl _ rank
  exact h.apart hk hs ne l.2 mem (root ▸ h.rooted hs)

/-- Links to other targets stand for other nodes. -/
theorem link_eq_iff (h : Holds base p L) (order : L.Ordered) {r : Region} (hk : L k = some r)
    {l : Link × NodeId} (hl : l ∈ r.dom.links) (inside : l.1.isShown = false)
    (hj : L (.tree target) = some ⟨place', x⟩) : l.1 = target ↔ l.2 = x.root := by
  obtain ⟨s, hs, root, _⟩ := order.linked hk hl inside
  constructor
  · rintro rfl
    rw [hj] at hs
    cases hs
    exact root.symm
  · intro same
    by_contra other
    have ne : Owner.tree l.1 ≠ .tree target := by simpa using other
    have mem : x.root ∈ s.dom.nodes := by
      rw [← same, ← root]
      exact h.rooted hs
    exact h.apart hs hj ne x.root mem (h.rooted hj)

section Child

variable (h : Holds base p L) (order : L.Ordered)
  (hk : L k = some ⟨place, .element top tag attributes kids⟩)
  (inside : ∀ l ∈ Dom.linksOf kids, l.1.isShown = false) (before : List Dom)
  (found : (Dom.element top tag attributes kids).find? q =
    some (tag', attributes', before ++ .element n tag'' attributes'' inner :: behind))

include h order hk found in
/-- No link stands for an element, apart from those to trees outside of the layout. -/
theorem link_ne_child {i : Owner} {s : Region} {l : Link × NodeId} (hi : L i = some s)
    (hl : l ∈ s.dom.links) (outside : l.1.isShown = false ∨ i ≠ k) : l.2 ≠ n := by
  obtain ⟨hq, hn, parent⟩ := (h.has hk).child_mem (h.distinct hk) before found
  rintro rfl
  by_cases here : i = k
  · subst here
    cases hk.symm.trans hi
    exact h.link_ne order hk hl (outside.resolve_right fun other => other rfl) hn
  · obtain ⟨m, hm, parent'⟩ := h.link_parent hi hl
    cases parent.symm.trans parent'
    exact h.apart hi hk here q hm hq

include h order hk inside found in
/-- An element is not among the topmost nodes of its siblings. -/
theorem child_not_mem_roots {ys : List Dom}
    (part : ∀ y ∈ ys, y ∈ before ++ .element n tag'' attributes'' inner :: behind)
    (fresh : n ∉ Dom.nodesOf ys) : n ∉ ys.map Dom.root := by
  intro mem
  obtain ⟨y, hy, root⟩ := List.mem_map.1 mem
  cases y with
  | link target' m =>
    have link : (target', m) ∈ (Dom.element top tag attributes kids).links :=
      Dom.links_of_find? found _ (Dom.mem_linksOf.2 ⟨_, part _ hy, List.mem_singleton_self _⟩)
    exact h.link_ne_child order hk before found hk link (.inl (inside _ link)) root
  | text m content =>
    exact fresh (Dom.mem_nodesOf.2 ⟨_, hy, root ▸ List.mem_singleton_self _⟩)
  | element m _ _ _ => exact fresh (Dom.mem_nodesOf.2 ⟨_, hy, root ▸ List.mem_cons_self⟩)

end Child

section Swap

variable (h : Holds base p L) (order : L.Ordered)
  (hk : L k = some ⟨place, .element top tag attributes kids⟩)
  (hj : L (.tree target) = some ⟨place', x⟩)
  (within : ∀ m, place' = some m → (target, x.root) ∈ Dom.linksOf kids)

include h hk hj within in
/-- The tree that moves lay in the tree that it is moved in, or nowhere. -/
theorem former_mem {m : NodeId} (parent : p.parent? x.root = some m) :
    m ∈ (Dom.element top tag attributes kids).nodes := by
  have place : p.parent? x.root = place' := (h.has hj).root_parent
  rw [place] at parent
  obtain ⟨m', mem, parent'⟩ := h.link_parent hk (l := (target, x.root)) (within m parent)
  rw [place, parent] at parent'
  cases parent'
  exact mem

include h order in
/-- The layout in which a tree has the place of an element is ordered. -/
theorem ordered_swap
    (hk : L k = some ⟨place, .element top tag attributes kids⟩)
    (hj : L (.tree target) = some ⟨place', x⟩) (later : k.rank < (Owner.tree target).rank)
    (found : Dom.findAmong? n kids = some (tag', attributes', inner))
    (bare : Dom.linksOf inner = []) (q : NodeId) :
    Layout.Ordered (Function.update (Function.update L (.tree target) (some ⟨some q, x⟩)) k
      (some ⟨place, .element top tag attributes
        (Dom.swapAll n target [.link target x.root] kids)⟩)) := by
  have distinct : (Dom.nodesOf kids).Nodup := (List.nodup_cons.1 (h.distinct hk)).2
  refine order.relink hk hj later rfl (fun l hl => ?_) ?_ fun l hl other => ?_
  · exact (Dom.mem_linksOf_swapAll hl).imp And.left List.mem_singleton.1
  · refine Dom.mem_linksOf_swapAll_of_new (List.mem_singleton_self _) ?_
    rw [found]
    exact nofun
  · refine Dom.mem_linksOf_swapAll_of_ne other distinct ?_ hl
    intro tag attributes children found'
    cases found.symm.trans found'
    exact bare

include h order hk hj in
/-- The page after a later tree took the place of an element: other nodes lose the node that moved. -/
theorem swaps {p' : Page} (inside : ∀ l ∈ Dom.linksOf kids, l.1.isShown = false)
    (found : (Dom.element top tag attributes kids).find? q =
      some (tag', attributes', before ++ .element n tag'' attributes'' inner :: behind))
    (ne : Owner.tree target ≠ k)
    (moved : p'.node? x.root = (p.node? x.root).map fun node => { node with parent := some q })
    (parents : ∀ m, m ≠ n → m ≠ x.root → p'.parent? m = p.parent? m)
    (nodes : ∀ m node, m ≠ n → m ≠ x.root → p.node? m = some node →
      (∀ c ∈ node.children, p.parent? c = some m) →
      p'.node? m = some { node with children := node.children.flatMap (inPlace n x.root) }) :
    Swaps p p' n target [.link target x.root] (inPlace n x.root)
      (· ∈ (Dom.element top tag attributes kids).nodes)
      (· ∈ (Dom.element top tag attributes kids).links) := by
  refine (h.has hk).swaps (h.distinct hk) before found ((h.has hj).exists_node (h.rooted hj)) ?_
    (fun l hl => ⟨?_, h.link_eq_iff order hk hl (inside l hl) hj⟩) moved parents nodes
  · rintro m hm rfl
    exact h.apart hj hk ne _ (h.rooted hj) hm
  · exact h.link_ne_child order hk before found hk hl (.inl (inside l hl))

include h order hk hj within in
/-- **A later tree takes the place of an element** of an earlier one, which links to it from there
and from nowhere else. -/
theorem swap (inside : ∀ l ∈ Dom.linksOf kids, l.1.isShown = false)
    (found : (Dom.element top tag attributes kids).find? q =
      some (tag', attributes', before ++ .element n tag'' attributes'' inner :: behind))
    (bare : Dom.linksOf inner = []) (later : k.rank < (Owner.tree target).rank) :
    ∃ p₁ p₂ L', p.insertBefore q x.root n = .ok p₁ ∧ p₁.remove q n = .ok p₂ ∧
      Holds base p₂ L' ∧ L'.Ordered ∧ L' (.tree target) = some ⟨some q, x⟩ ∧
      L' k = some ⟨place, .element top tag attributes
        (Dom.swapAll n target [.link target x.root] kids)⟩ ∧
      ∀ i, i ≠ .tree target → i ≠ k → L' i = L i := by
  have ne : Owner.tree target ≠ k := by
    rintro rfl
    exact Nat.lt_irrefl _ later
  have distinct := h.distinct hk
  obtain ⟨notTop, notOwn, atN⟩ := Dom.findAmong?_of_child before distinct found
  obtain ⟨hq, hn, parent⟩ := (h.has hk).child_mem (h.distinct hk) before found
  have rooted : x.root ∈ x.nodes := h.rooted hj
  have outside : ∀ m ∈ (Dom.element top tag attributes kids).nodes, m ≠ x.root := by
    rintro m hm rfl
    exact h.apart hj hk ne _ rooted hm
  have former : ∀ {m}, p.parent? x.root = some m →
      m ∈ (Dom.element top tag attributes kids).nodes := h.former_mem hk hj within
  obtain ⟨_, there, _, element⟩ := (h.has hk).find found
  have lies := there.root_parent
  have distinctQ : (Dom.element q tag' attributes'
      (before ++ .element n tag'' attributes'' inner :: behind)).nodes.Nodup :=
    distinct.sublist (Dom.nodes_of_find? found)
  have single := Dom.not_mem_of_child distinctQ
  rw [List.map_append] at element lies
  obtain ⟨p₁, p₂, run₁, run₂, size, moved, untouched, parents, nodes⟩ := swap_eq_ok element
    (h.child_not_mem_roots order hk inside before found
      (fun y hy => List.mem_append_left _ hy) single.1)
    (h.child_not_mem_roots order hk inside before found
      (fun y hy => List.mem_append_right _ (List.mem_cons_of_mem _ hy)) single.2)
    lies (outside n hn).symm (outside q hq).symm notOwn.symm
    (fun loop => outside _ (former loop) rfl) (h.outside order hk hj later hq)
  have swaps := h.swaps order hk hj inside found ne moved parents nodes
  have places : ∀ i s, i ≠ k → L i = some s → ∀ l ∈ s.dom.links,
      p₂.parent? l.2 = p.parent? l.2 := by
    intro i s other hi l hl
    refine parents _ (h.link_ne_child order hk before found hi hl (.inr other)) fun same => ?_
    obtain ⟨m, hm, up⟩ := h.link_parent hi hl
    rw [same] at up
    exact h.apart hi hk other m hm (former up)
  have fewer : (Dom.nodesOf (Dom.swapAll n target [.link target x.root] kids)).Sublist
      (Dom.nodesOf kids) := Dom.nodesOf_swapAll rfl kids
  have still : ∀ m, m ≠ x.root → m ∉ (Dom.element top tag attributes kids).nodes →
      p₂.node? m = p.node? m := by
    intro m notRoot apart
    refine untouched m ?_ notRoot ?_ fun up => apart (former up)
    · rintro rfl
      exact apart hn
    · rintro rfl
      exact apart hq
  refine ⟨p₁, p₂, _, run₁, run₂, h.replaceMoved hj hk ne ?_ places (Nat.le_of_eq size.symm) ?_ ?_
    ?_ ?_ ?_, h.ordered_swap order hk hj later atN bare q, ?_, Function.update_self .., ?_⟩
  · intro m free free'
    refine still m ?_ free'
    rintro rfl
    exact free rooted
  · exact (h.has hj).moved rooted (h.distinct hj) moved
      (fun m hm notRoot => still m notRoot (h.apart hj hk ne m hm)) (places _ _ ne hj)
  · have all := swaps.has (fun _ hm => hm) (fun _ hl => hl) (h.has hk)
    rw [Dom.swap, if_neg notTop] at all
    exact all.1
  · exact distinct.sublist (fewer.cons_cons top)
  · exact List.mem_cons_self
  · exact fun m hm => (fewer.cons_cons top).subset hm
  · rw [Function.update_of_ne ne, Function.update_self]
  · intro i notTarget notK
    rw [Function.update_of_ne notK, Function.update_of_ne notTarget]

end Swap

/-- **The only child of an element is thrown away.** -/
theorem clear (h : Holds base p L) (order : L.Ordered)
    (hk : L k = some ⟨place, .element top tag attributes kids⟩)
    (inside : ∀ l ∈ Dom.linksOf kids, l.1.isShown = false)
    (other : ∀ l ∈ Dom.linksOf kids, l.1 ≠ target)
    (found : (Dom.element top tag attributes kids).find? q =
      some (tag', attributes', [.element n tag'' attributes'' inner])) :
    Holds base (p.clear q) (Function.update L k
      (some ⟨place, .element top tag attributes (Dom.swapAll n target [] kids)⟩)) := by
  have distinct := h.distinct hk
  obtain ⟨_, _, _, element⟩ := (h.has hk).find found
  obtain ⟨notTop, notOwn, _⟩ := Dom.findAmong?_of_child [] distinct found
  obtain ⟨hq, hn, parent⟩ := (h.has hk).child_mem distinct [] found
  have cleared : p.clear q = p.detach n := by
    unfold Page.clear
    rw [children_eq element, List.map_singleton, List.foldl_cons, List.foldl_nil, Dom.root,
      remove_eq_ok parent]
    rfl
  have loop : p.parent? n ≠ some n := by
    rw [parent]
    exact fun same => notOwn (Option.some.inj same)
  have parents : ∀ m, m ≠ n → (p.detach n).parent? m = p.parent? m := fun m notGone =>
    (parent?_detach loop m).trans (if_neg notGone)
  have notElement : ∀ l ∈ (Dom.element top tag attributes kids).links, l.2 ≠ n := fun l hl =>
    h.link_ne_child order hk [] found hk hl (.inl (inside l hl))
  have swaps : Swaps p (p.detach n) n target [] (fun c => if c = n then [] else [c])
      (· ∈ (Dom.element top tag attributes kids).nodes)
      (· ∈ (Dom.element top tag attributes kids).links) := by
    constructor
    case isElement => exact (h.has hk).child_ne_text distinct [] found
    case atElement => exact if_pos rfl
    case atNode => exact fun m _ notGone => if_neg notGone
    case atLink =>
      intro l hl
      rw [if_neg (notElement l hl), if_neg (other l hl)]
    case node =>
      intro m node _ notGone found' known
      rw [node?_detach_of_known loop notGone found' known, flatMap_gone]
    case places => exact fun l hl _ => parents l.2 (notElement l hl)
    case new => trivial
  have fewer : (Dom.nodesOf (Dom.swapAll n target [] kids)).Sublist (Dom.nodesOf kids) :=
    Dom.nodesOf_swapAll rfl kids
  rw [cleared]
  refine h.replaceOne k _ ?_ ?_ (Nat.le_of_eq (size_detach p n).symm) ?_
    (distinct.sublist (fewer.cons_cons top)) List.mem_cons_self
    fun m hm => .inr ⟨_, hk, (fewer.cons_cons top).subset hm⟩
  · intro m _ free
    have notHere := free _ hk
    rw [node?_detach loop, if_neg, if_neg]
    · rw [parent]
      rintro same
      cases same
      exact notHere hq
    · rintro rfl
      exact notHere hn
  · exact fun j s ne hs l hl => parents l.2 (h.link_ne_child order hk [] found hs hl (.inr ne))
  · have all := swaps.has (fun _ hm => hm) (fun _ hl => hl) (h.has hk)
    rw [Dom.swap, if_neg notTop] at all
    exact all.1

end Holds

end Page

end Formwork
