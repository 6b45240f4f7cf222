import Formwork.Proofs.Page.Layout

/-!
# Changes of a page, tree by tree

What the operations on pages do to the trees of a layout: a new element is a tree of its own; an
attribute is set in the tree that has the element; a tree is moved below an element of another,
where it either becomes part of that tree or is linked to; content is put into an element that
had none, or is thrown away.
-/

namespace Formwork

set_option autoImplicit false

namespace Page.Holds

variable {base p : Page} {L : Layout}

/-! ## New elements -/

/-- A new element is a tree of its own. -/
theorem create (h : Holds base p L) (k : Owner) (tag : String)
    (attributes : OrderedMap String String) :
    Holds base (p.create (.element tag attributes)).2
      (Function.update L k (some ⟨none, .element ⟨p.size⟩ tag attributes []⟩)) := by
  refine h.replaceOne k _ ?_ ?_ ?_ ?_ ?_ ?_ ?_
  · intro n hn _
    exact node?_create_of_lt p _ hn
  · intro j s _ _ l _
    exact parent?_create p _ l.2
  · rw [size_create]
    exact Nat.le_succ _
  · refine ⟨?_, trivial⟩
    rw [node?_create, if_pos rfl]
    rfl
  · exact List.nodup_singleton _
  · exact List.mem_singleton_self _
  · intro n hn
    rw [Dom.nodes, Dom.nodesOf, List.mem_singleton] at hn
    exact .inl (Nat.le_of_eq (by rw [hn]))

/-! ## Changing one element -/

/-- **A change at one element** of a tree changes that tree at the element and nothing else.  The
change may bring in new nodes. -/
theorem edit (h : Holds base p L) {k : Owner} {r : Region} (hk : L k = some r) {n : NodeId}
    {tag : String} {attributes : OrderedMap String String} {children : List Dom}
    (found : r.dom.find? n = some (tag, attributes, children))
    {change : OrderedMap String String → List Dom → OrderedMap String String × List Dom}
    {p' : Page} (more : List NodeId)
    (grows : p.size ≤ p'.size)
    (others : ∀ m : NodeId, m.index < p.size → m ≠ n → p'.node? m = p.node? m)
    (parent : p'.parent? n = p.parent? n)
    (edits : Edits p p' n change r.dom)
    (new : ∀ m ∈ more, p.size ≤ m.index)
    (adds : ∀ attributes children m,
      m ∈ Dom.nodesOf (change attributes children).2 → m ∈ Dom.nodesOf children ∨ m ∈ more)
    (distinct : ∀ attributes children, (Dom.nodesOf children).Nodup →
      (∀ m ∈ Dom.nodesOf children, m ∉ more) → (Dom.nodesOf (change attributes children).2).Nodup) :
    Holds base p' (Function.update L k (some { r with dom := r.dom.edit n change })) := by
  obtain ⟨hn, _, q, element⟩ := (h.has hk).find found
  have isElement : ∀ content q, p.node? n ≠ some ⟨.text content, q, []⟩ := by
    intro content q' same
    rw [element] at same
    cases same
  have places : ∀ j s, L j = some s → ∀ l ∈ s.dom.links, p'.parent? l.2 = p.parent? l.2 := by
    intro j s hj l hl
    obtain ⟨m, _, below⟩ := h.link_parent hj hl
    by_cases same : l.2 = n
    · rw [same]
      exact parent
    · unfold parent?
      rw [others l.2 (lt_size_of_parent? below) same]
  have apart : ∀ m ∈ r.dom.nodes, m ∉ more := by
    intro m hm mem
    exact absurd (h.lt_size hk hm) (Nat.not_lt_of_le (new m mem))
  refine h.replaceOne k _ ?_ (fun j s _ hs => places j s hs) grows ?_ ?_ ?_ ?_
  · intro m hm outside
    refine others m hm fun same => ?_
    subst same
    exact outside r hk hn
  · exact (h.has hk).edit edits isElement (fun m hm => others m (h.lt_size hk hm)) (places k r hk)
      (fun _ hm => hm) (fun _ hl => hl) (h.distinct hk)
  · exact Dom.nodup_nodes_edit adds distinct (h.distinct hk) apart
  · show (r.dom.edit n change).root ∈ (r.dom.edit n change).nodes
    rw [Dom.root_edit]
    exact Dom.root_mem_nodes_edit n change (h.rooted hk)
  · intro m hm
    rcases Dom.mem_nodes_edit adds hm with before | added
    · exact .inr ⟨r, hk, before⟩
    · exact .inl (new m added)

/-- A change of attributes that an element allows. -/
theorem updateAttrs (h : Holds base p L) {k : Owner} {r : Region} (hk : L k = some r)
    {n : NodeId} {tag : String} {attributes : OrderedMap String String} {children : List Dom}
    (found : r.dom.find? n = some (tag, attributes, children))
    (f : OrderedMap String String → OrderedMap String String) :
    Holds base (p.updateAttrs n f) (Function.update L k
      (some { r with dom := r.dom.edit n fun attributes children => (f attributes, children) })) := by
  have parent : ∀ m, (p.updateAttrs n f).parent? m = p.parent? m := by
    refine parent?_update fun node _ => ?_
    cases node.content <;> rfl
  refine h.edit hk found [] (Nat.le_of_eq (size_update ..).symm)
    (fun m _ ne => node?_update_of_ne p _ ne) (parent n) ?_ (fun _ hm => nomatch hm) ?_ ?_
  · intro tag attributes q children there below inside linked
    refine ⟨?_, below.congr (fun m hm => node?_update_of_ne p _ (inside m hm).2)
      (fun l _ => parent l.2)⟩
    unfold Page.updateAttrs
    rw [node?_update_self, there]
    rfl
  · exact fun _ _ _ hm => .inl hm
  · exact fun _ _ nodup _ => nodup

/-! ## Moving a tree below an element -/

section Append

variable {j k : Owner} {r : Region} {x : Dom} {n : NodeId} {tag : String}
  {attributes : OrderedMap String String} {q : Option NodeId} {children : List NodeId}
  {below : List Dom}

theorem root_ne (h : Holds base p L) (hk : L k = some r) (hn : n ∈ r.dom.nodes)
    {place : Option NodeId} (hj : L j = some ⟨place, x⟩) (ne : j ≠ k) : x.root ≠ n := by
  intro same
  have mem : x.root ∈ x.nodes := h.rooted hj
  exact h.apart hj hk ne x.root mem (same ▸ hn)

/-- No link stands for a node that lies nowhere. -/
theorem link_ne_root (h : Holds base p L) (hj : L j = some ⟨none, x⟩) {i : Owner} {s : Region}
    (hi : L i = some s) {l : Link × NodeId} (hl : l ∈ s.dom.links) : l.2 ≠ x.root := by
  intro same
  obtain ⟨m, _, parent⟩ := h.link_parent hi hl
  have free : p.parent? x.root = none := (h.has hj).root_parent
  rw [same, free] at parent
  cases parent

/-- Linking a free node below an element leaves the links of all trees where they are. -/
theorem places_link (h : Holds base p L) (hk : L k = some r) (hn : n ∈ r.dom.nodes)
    (hj : L j = some ⟨none, x⟩) (ne : j ≠ k) {i : Owner} {s : Region} (hi : L i = some s) :
    ∀ l ∈ s.dom.links, (p.link n x.root).parent? l.2 = p.parent? l.2 := by
  intro l hl
  exact parent?_link_of_ne (h.root_ne hk hn hj ne) (h.link_ne_root hj hi hl)

/-- The tree of a free node that is linked below an element lies there. -/
theorem has_link (h : Holds base p L) (hk : L k = some r) (hn : n ∈ r.dom.nodes)
    (hj : L j = some ⟨none, x⟩) (ne : j ≠ k) : (p.link n x.root).Has (some n) x := by
  have other := h.root_ne hk hn hj ne
  refine (h.has hj).moved (h.rooted hj) (h.distinct hj) ?_ ?_ (h.places_link hk hn hj ne hj)
  · exact node?_link_child other
  · intro m hm notRoot
    refine node?_link_of_ne other ?_ notRoot
    rintro rfl
    exact h.apart hj hk ne m hm hn

/-- What linking a free node does to the tree that has the element. -/
theorem edits_link (h : Holds base p L) (hk : L k = some r) (hn : n ∈ r.dom.nodes)
    (hj : L j = some ⟨none, x⟩) (ne : j ≠ k) {y : Dom} (sameRoot : y.root = x.root)
    (there : (p.link n x.root).Has (some n) y) :
    Edits p (p.link n x.root) n (fun attributes children => (attributes, children ++ [y]))
      r.dom := by
  intro tag attributes q children found below inside linked
  have other := h.root_ne hk hn hj ne
  refine ⟨?_, hasAll_append.2 ⟨below.congr (fun m hm => ?_) (fun l hl => ?_), there, trivial⟩⟩
  · rw [node?_link_parent other, found, List.map_append, List.map_singleton, sameRoot]
    rfl
  · obtain ⟨mem, notElement⟩ := inside m hm
    exact node?_link_of_ne other notElement (h.root_ne hk mem hj ne).symm
  · exact h.places_link hk hn hj ne hk l (linked l hl)

/-- The change that linking a free node makes to the tree that has the element, when `y` is what
the tree gets there. -/
theorem has_edit_link (h : Holds base p L) (hk : L k = some r) (hn : n ∈ r.dom.nodes)
    (hj : L j = some ⟨none, x⟩) (ne : j ≠ k)
    (element : p.node? n = some ⟨.element tag attributes, q, children⟩)
    {y : Dom} (sameRoot : y.root = x.root) (there : (p.link n x.root).Has (some n) y) :
    (p.link n x.root).Has r.place
      (r.dom.edit n fun attributes children => (attributes, children ++ [y])) := by
  have other := h.root_ne hk hn hj ne
  refine (h.has hk).edit (h.edits_link hk hn hj ne sameRoot there) ?_ ?_
    (h.places_link hk hn hj ne hk) (fun _ hm => hm) (fun _ hl => hl) (h.distinct hk)
  · intro content place found
    rw [element] at found
    cases found
  · intro m hm notElement
    exact node?_link_of_ne other notElement (h.root_ne hk hm hj ne).symm

/-- Linking a free node touches the tree of the node and that of the element only. -/
theorem untouched_link (h : Holds base p L) (hk : L k = some r) (hn : n ∈ r.dom.nodes)
    (hj : L j = some ⟨none, x⟩) (ne : j ≠ k) {m : NodeId} (outside : m ∉ x.nodes)
    (outside' : m ∉ r.dom.nodes) : (p.link n x.root).node? m = p.node? m := by
  refine node?_link_of_ne (h.root_ne hk hn hj ne) ?_ ?_
  · rintro rfl
    exact outside' hn
  · rintro rfl
    exact outside (h.rooted hj)

/-- **A tree that lies nowhere becomes part of another tree** when its topmost node is appended to
an element of that tree. -/
theorem appendTree (h : Holds base p L) (hk : L k = some r)
    (found : r.dom.find? n = some (tag, attributes, below))
    (hj : L j = some ⟨none, x⟩) (ne : j ≠ k)
    (outside : p.contains x.root n = false) :
    ∃ p', p.append n x.root = .ok p' ∧ p'.size = p.size ∧
      Holds base p' (Function.update (Function.update L j none) k
        (some { r with dom := r.dom.edit n fun attributes children =>
          (attributes, children ++ [x]) })) := by
  obtain ⟨hn, _, q, element⟩ := (h.has hk).find found
  have only : ∀ i s, (i = j ∨ i = k) →
      Function.update (Function.update L j none) k
        (some { r with dom := r.dom.edit n fun attributes children =>
          (attributes, children ++ [x]) }) i = some s →
      i = k ∧ s = { r with dom := r.dom.edit n fun attributes children =>
          (attributes, children ++ [x]) } := by
    rintro i s (rfl | rfl) hs
    · rw [Function.update_of_ne ne, Function.update_self] at hs
      cases hs
    · rw [Function.update_self] at hs
      cases hs
      exact ⟨rfl, rfl⟩
  have adds : ∀ (attributes : OrderedMap String String) (children : List Dom) (m : NodeId),
      m ∈ Dom.nodesOf (attributes, children ++ [x]).2 →
        m ∈ Dom.nodesOf children ∨ m ∈ x.nodes := by
    intro attributes children m hm
    rw [Dom.nodesOf_append, List.mem_append] at hm
    exact hm.imp_right fun there => by simpa [Dom.nodesOf] using there
  refine ⟨_, append_eq_ok element outside (h.has hj).root_parent, size_link _ _ _, ?_⟩
  refine h.replace (fun i => i = j ∨ i = k) ?_ ?_ ?_ (Nat.le_of_eq (size_link ..).symm)
    ?_ ?_ ?_ ?_ ?_
  · intro i hi
    rw [not_or] at hi
    rw [Function.update_of_ne hi.2, Function.update_of_ne hi.1]
  · exact fun m _ outside => h.untouched_link hk hn hj ne (outside j _ (.inl rfl) hj)
      (outside k r (.inr rfl) hk)
  · exact fun i s _ hs => h.places_link hk hn hj ne hs
  · intro i s hi hs
    obtain ⟨_, rfl⟩ := only i s hi hs
    exact h.has_edit_link hk hn hj ne element rfl (h.has_link hk hn hj ne)
  · intro i s hi hs
    obtain ⟨_, rfl⟩ := only i s hi hs
    refine Dom.nodup_nodes_edit adds ?_ (h.distinct hk) (h.apart hk hj ne.symm)
    intro attributes children nodup apart
    rw [Dom.nodesOf_append, Dom.nodesOf, Dom.nodesOf, List.append_nil, List.nodup_append]
    exact ⟨nodup, h.distinct hj, fun m hm m' hm' same => apart m hm (same ▸ hm')⟩
  · intro i s hi hs
    obtain ⟨_, rfl⟩ := only i s hi hs
    show (r.dom.edit n _).root ∈ (r.dom.edit n _).nodes
    rw [Dom.root_edit]
    exact Dom.root_mem_nodes_edit n _ (h.rooted hk)
  · intro i s hi hs m hm
    obtain ⟨_, rfl⟩ := only i s hi hs
    rcases Dom.mem_nodes_edit adds hm with before | added
    · exact .inr ⟨k, r, .inr rfl, hk, before⟩
    · exact .inr ⟨j, _, .inl rfl, hj, added⟩
  · intro i i' s s' hi hi' hs hs' ne'
    obtain ⟨rfl, _⟩ := only i s hi hs
    obtain ⟨rfl, _⟩ := only i' s' hi' hs'
    exact absurd rfl ne'

/-- **A tree that lies nowhere is linked to from another tree** when its topmost node is appended
to an element of that tree. -/
theorem appendLink (h : Holds base p L) (hk : L k = some r)
    (found : r.dom.find? n = some (tag, attributes, below))
    (hj : L j = some ⟨none, x⟩) (ne : j ≠ k)
    (outside : p.contains x.root n = false) (target : Link) :
    ∃ p', p.append n x.root = .ok p' ∧ p'.size = p.size ∧
      Holds base p' (Function.update (Function.update L j (some ⟨some n, x⟩)) k
        (some { r with dom := r.dom.edit n fun attributes children =>
          (attributes, children ++ [.link target x.root]) })) := by
  obtain ⟨hn, _, q, element⟩ := (h.has hk).find found
  have adds : ∀ (attributes : OrderedMap String String) (children : List Dom) (m : NodeId),
      m ∈ Dom.nodesOf (attributes, children ++ [Dom.link target x.root]).2 →
        m ∈ Dom.nodesOf children ∨ m ∈ [] := by
    intro attributes children m hm
    rw [Dom.nodesOf_append, List.mem_append] at hm
    exact hm
  have within : ∀ m ∈ (r.dom.edit n fun attributes children =>
      (attributes, children ++ [Dom.link target x.root])).nodes, m ∈ r.dom.nodes := fun m hm =>
    (Dom.mem_nodes_edit adds hm).elim id fun none => nomatch none
  have lies : (p.link n x.root).Has (some n) (.link target x.root) :=
    (h.has_link hk hn hj ne).root_parent
  refine ⟨_, append_eq_ok element outside (h.has hj).root_parent, size_link _ _ _,
    h.replaceMoved hj hk ne (fun m => h.untouched_link hk hn hj ne)
      (fun i s _ hs => h.places_link hk hn hj ne hs) (Nat.le_of_eq (size_link ..).symm)
      (h.has_link hk hn hj ne) (h.has_edit_link hk hn hj ne element rfl lies) ?_ ?_ within⟩
  · refine Dom.nodup_nodes_edit adds ?_ (h.distinct hk) fun _ _ none => nomatch none
    intro attributes children nodup _
    rw [Dom.nodesOf_append]
    exact List.nodup_append.2 ⟨nodup, List.nodup_nil, fun _ _ _ none => nomatch none⟩
  · show (r.dom.edit n _).root ∈ (r.dom.edit n _).nodes
    rw [Dom.root_edit]
    exact Dom.root_mem_nodes_edit n _ (h.rooted hk)

end Append

end Page.Holds

end Formwork
