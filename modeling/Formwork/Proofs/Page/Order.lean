import Formwork.Proofs.Page.Import

/-!
# The order of a layout

Trees are linked from the inside out: the tree of a field is linked to from the tree of an older
field, or from that of the panel.  `Layout.Ordered` says so for a layout: what a tree links to is
there and comes later, and a tree that lies somewhere is linked to from an earlier one.  So a tree
contains nothing that comes before it, and appending a later tree to an earlier one is never
refused.
-/

namespace Formwork

set_option autoImplicit false

/-- Whether a link stands for a tree outside of the layout. -/
def Link.isShown : Link → Bool
  | .shown _ => true
  | _ => false

/-- The place of an owner in the order: the panel, then the fields by number, each followed by the
panel it shows and the tree that is being made for its content. -/
def Owner.rank : Owner → Nat
  | .panel => 0
  | .tree (.shown f) => 2 * f.index + 3
  | .tree target => 2 * target.field.index + 2
  | .loose i => 2 * i + 3

/-- Links go from earlier to later trees, and every tree that lies somewhere is linked to. -/
structure Layout.Ordered (L : Layout) : Prop where
  linked : ∀ {k r target n}, L k = some r → (target, n) ∈ r.dom.links → target.isShown = false →
    ∃ s, L (.tree target) = some s ∧ s.dom.root = n ∧ k.rank < (Owner.tree target).rank
  placed : ∀ {k r q}, L k = some r → r.place = some q →
    ∃ target j s, k = .tree target ∧ L j = some s ∧ (target, r.dom.root) ∈ s.dom.links ∧
      j.rank < k.rank

namespace Layout.Ordered

variable {L : Layout} {j k : Owner} {r : Region}

theorem empty : Layout.Ordered fun _ => none where
  linked h := nomatch h
  placed h := nomatch h

/-- A new tree that lies nowhere and links to nothing in the layout. -/
theorem addShowing (h : L.Ordered) (absent : L k = none) {d : Dom}
    (showing : ∀ l ∈ d.links, l.1.isShown = true) :
    Ordered (Function.update L k (some ⟨none, d⟩)) := by
  have old : ∀ {i s}, L i = some s → Function.update L k (some ⟨none, d⟩) i = some s := by
    intro i s hi
    rw [Function.update_of_ne, hi]
    rintro rfl
    rw [absent] at hi
    cases hi
  constructor
  · intro i s target n hi hl outside
    by_cases same : i = k
    · subst same
      rw [Function.update_self] at hi
      cases hi
      cases outside.symm.trans (showing _ hl)
    · rw [Function.update_of_ne same] at hi
      obtain ⟨t, ht, rest⟩ := h.linked hi hl outside
      exact ⟨t, old ht, rest⟩
  · intro i s q hi place
    by_cases same : i = k
    · subst same
      rw [Function.update_self] at hi
      cases hi
      cases place
    · rw [Function.update_of_ne same] at hi
      obtain ⟨target, j, t, eq, ht, rest⟩ := h.placed hi place
      exact ⟨target, j, t, eq, old ht, rest⟩

/-- A new tree that lies nowhere and links to nothing. -/
theorem add (h : L.Ordered) (absent : L k = none) {d : Dom} (unlinked : d.links = []) :
    Ordered (Function.update L k (some ⟨none, d⟩)) := by
  refine h.addShowing absent fun l hl => ?_
  rw [unlinked] at hl
  cases hl

/-- A panel that is shown leaves the layout, when it links to nothing but parts of its own. -/
theorem forget (h : L.Ordered) {f : FieldId}
    (own : ∀ r, L (.tree (.shown f)) = some r → ∀ l ∈ r.dom.links, l.1 = .shown f) :
    Ordered (Function.update L (.tree (.shown f)) none) := by
  have old : ∀ {i s}, Function.update L (.tree (.shown f)) none i = some s →
      i ≠ .tree (.shown f) ∧ L i = some s := by
    intro i s hi
    by_cases same : i = .tree (.shown f)
    · subst same
      rw [Function.update_self] at hi
      cases hi
    · rw [Function.update_of_ne same] at hi
      exact ⟨same, hi⟩
  constructor
  · intro i s target n hi hl outside
    obtain ⟨_, hi⟩ := old hi
    obtain ⟨t, ht, rest⟩ := h.linked hi hl outside
    refine ⟨t, (Function.update_of_ne ?_ ..).trans ht, rest⟩
    rintro same
    cases same
    cases outside
  · intro i s q hi place
    obtain ⟨other, hi⟩ := old hi
    obtain ⟨target, j, t, rfl, ht, hl, order⟩ := h.placed hi place
    refine ⟨target, j, t, rfl, (Function.update_of_ne ?_ ..).trans ht, hl, order⟩
    rintro rfl
    exact other (congrArg Owner.tree (own t ht _ hl))

/-- A tree that changes neither its place nor its topmost node nor its links. -/
theorem change (h : L.Ordered) (hk : L k = some r) {d : Dom} (root : d.root = r.dom.root)
    (links : ∀ l, l ∈ d.links ↔ l ∈ r.dom.links) :
    Ordered (Function.update L k (some { r with dom := d })) := by
  have region : ∀ {i s}, Function.update L k (some { r with dom := d }) i = some s →
      ∃ t, L i = some t ∧ s.place = t.place ∧ s.dom.root = t.dom.root ∧
        ∀ l, l ∈ s.dom.links ↔ l ∈ t.dom.links := by
    intro i s hi
    by_cases same : i = k
    · subst same
      rw [Function.update_self] at hi
      cases hi
      exact ⟨r, hk, rfl, root, links⟩
    · rw [Function.update_of_ne same] at hi
      exact ⟨s, hi, rfl, rfl, fun _ => Iff.rfl⟩
  have region' : ∀ {i t}, L i = some t → ∃ s,
      Function.update L k (some { r with dom := d }) i = some s ∧ s.dom.root = t.dom.root ∧
        ∀ l, l ∈ s.dom.links ↔ l ∈ t.dom.links := by
    intro i t hi
    by_cases same : i = k
    · subst same
      rw [hk] at hi
      cases hi
      exact ⟨_, Function.update_self .., root, links⟩
    · exact ⟨t, by rw [Function.update_of_ne same, hi], rfl, fun _ => Iff.rfl⟩
  constructor
  · intro i s target n hi hl outside
    obtain ⟨t, ht, _, _, same⟩ := region hi
    obtain ⟨u, hu, root', order⟩ := h.linked ht ((same _).1 hl) outside
    obtain ⟨v, hv, root'', _⟩ := region' hu
    exact ⟨v, hv, root''.trans root', order⟩
  · intro i s q hi place
    obtain ⟨t, ht, place', root', _⟩ := region hi
    obtain ⟨target, j, u, eq, hu, hl, order⟩ := h.placed ht (place'.symm.trans place)
    obtain ⟨v, hv, _, same⟩ := region' hu
    exact ⟨target, j, v, eq, hv, (same _).2 (root' ▸ hl), order⟩

/-- A later tree is moved below an earlier one, which links to it from there; links to others stay. -/
theorem relink (h : L.Ordered) (hk : L k = some r) {target : Link} {x : Dom} {n : NodeId}
    {place : Option NodeId} (hj : L (.tree target) = some ⟨place, x⟩)
    (order : k.rank < (Owner.tree target).rank) {d : Dom} (root : d.root = r.dom.root)
    (links : ∀ l ∈ d.links, l ∈ r.dom.links ∨ l = (target, x.root))
    (linked : (target, x.root) ∈ d.links)
    (others : ∀ l ∈ r.dom.links, l.1 ≠ target → l ∈ d.links) :
    Ordered (Function.update (Function.update L (.tree target) (some ⟨some n, x⟩)) k
      (some { r with dom := d })) := by
  have ne : Owner.tree target ≠ k := by
    rintro rfl
    exact Nat.lt_irrefl _ order
  generalize changed : Function.update (Function.update L (.tree target) (some ⟨some n, x⟩)) k
      (some { r with dom := d }) = L'
  have atK : L' k = some { r with dom := d } := by
    rw [← changed, Function.update_self]
  have atTarget : L' (.tree target) = some ⟨some n, x⟩ := by
    rw [← changed, Function.update_of_ne ne, Function.update_self]
  have elsewhere : ∀ {i}, i ≠ .tree target → i ≠ k → L' i = L i := by
    intro i notTarget notK
    rw [← changed, Function.update_of_ne notK, Function.update_of_ne notTarget]
  -- every tree keeps its topmost node, and its links to other trees
  have kept : ∀ {i s}, L i = some s → ∃ s', L' i = some s' ∧ s'.dom.root = s.dom.root ∧
      ∀ l ∈ s.dom.links, l.1 ≠ target → l ∈ s'.dom.links := by
    intro i s hi
    by_cases here : i = k
    · subst here
      cases hk.symm.trans hi
      exact ⟨_, atK, root, others⟩
    · by_cases there : i = .tree target
      · subst there
        cases hj.symm.trans hi
        exact ⟨_, atTarget, rfl, fun _ hl _ => hl⟩
      · exact ⟨s, (elsewhere there here).trans hi, rfl, fun _ hl _ => hl⟩
  -- every tree was there, in its place but for the one that is moved, and has one new link at most
  have old : ∀ {i s}, L' i = some s → ∃ s', L i = some s' ∧ s.dom.root = s'.dom.root ∧
      (i ≠ .tree target → s.place = s'.place) ∧
        ∀ l ∈ s.dom.links, l ∈ s'.dom.links ∨ i = k ∧ l = (target, x.root) := by
    intro i s hi
    by_cases here : i = k
    · subst here
      cases atK.symm.trans hi
      exact ⟨r, hk, root, fun _ => rfl, fun l hl => (links l hl).imp_right fun new => ⟨rfl, new⟩⟩
    · by_cases there : i = .tree target
      · subst there
        cases atTarget.symm.trans hi
        exact ⟨_, hj, rfl, fun other => absurd rfl other, fun _ hl => .inl hl⟩
      · exact ⟨s, (elsewhere there here).symm.trans hi, rfl, fun _ => rfl, fun _ hl => .inl hl⟩
  constructor
  · intro i s target' m hi hl outside
    obtain ⟨t, ht, _, _, before⟩ := old hi
    rcases before _ hl with own | ⟨rfl, new⟩
    · obtain ⟨u, hu, root', order'⟩ := h.linked ht own outside
      obtain ⟨v, hv, root'', _⟩ := kept hu
      exact ⟨v, hv, root''.trans root', order'⟩
    · cases new
      exact ⟨_, atTarget, rfl, order⟩
  · intro i s q hi lies
    by_cases there : i = .tree target
    · subst there
      cases atTarget.symm.trans hi
      exact ⟨target, k, _, rfl, atK, linked, order⟩
    · obtain ⟨t, ht, root', place', _⟩ := old hi
      obtain ⟨target', j, u, rfl, hu, hl, order'⟩ := h.placed ht ((place' there).symm.trans lies)
      obtain ⟨v, hv, _, stay⟩ := kept hu
      rw [← root'] at hl
      exact ⟨target', j, v, rfl, hv, stay _ hl fun same => there (congrArg Owner.tree same), order'⟩

/-- A later tree that lay nowhere is linked to from an earlier one. -/
theorem link (h : L.Ordered) (hk : L k = some r) {target : Link} {x : Dom} {n : NodeId}
    (hj : L (.tree target) = some ⟨none, x⟩) (order : k.rank < (Owner.tree target).rank) {d : Dom}
    (root : d.root = r.dom.root)
    (links : ∀ l, l ∈ d.links ↔ l ∈ r.dom.links ∨ l = (target, x.root)) :
    Ordered (Function.update (Function.update L (.tree target) (some ⟨some n, x⟩)) k
      (some { r with dom := d })) :=
  h.relink hk hj order root (fun l => (links l).1) ((links _).2 (.inr rfl))
    fun l hl _ => (links l).2 (.inl hl)

/-- A tree without an owner becomes part of an earlier one. -/
theorem merge (h : L.Ordered) (hk : L k = some r) {i : Nat} {x : Dom}
    (hi : L (.loose i) = some ⟨none, x⟩) (order : k.rank < (Owner.loose i).rank) {d : Dom}
    (root : d.root = r.dom.root)
    (links : ∀ l, l ∈ d.links ↔ l ∈ r.dom.links ∨ l ∈ x.links) :
    Ordered (Function.update (Function.update L (.loose i) none) k (some { r with dom := d })) := by
  have ne : (Owner.loose i) ≠ k := by
    rintro rfl
    exact Nat.lt_irrefl _ order
  have atK : Function.update (Function.update L (.loose i) none) k (some { r with dom := d }) k =
      some { r with dom := d } := Function.update_self ..
  have elsewhere : ∀ {j}, j ≠ k → j ≠ .loose i →
      Function.update (Function.update L (.loose i) none) k (some { r with dom := d }) j = L j := by
    intro j notK notLoose
    rw [Function.update_of_ne notK, Function.update_of_ne notLoose]
  have gone : Function.update (Function.update L (.loose i) none) k (some { r with dom := d })
      (.loose i) = none := by
    rw [Function.update_of_ne ne, Function.update_self]
  -- a region is an old one that kept its place, and its links are old ones
  have region : ∀ {j s}, Function.update (Function.update L (.loose i) none) k
      (some { r with dom := d }) j = some s →
      ∃ t, L j = some t ∧ s.place = t.place ∧ s.dom.root = t.dom.root ∧
        ∀ l ∈ s.dom.links, ∃ j' u, L j' = some u ∧ l ∈ u.dom.links ∧ j.rank ≤ j'.rank := by
    intro j s hj
    by_cases same : j = k
    · subst same
      rw [atK] at hj
      cases hj
      refine ⟨r, hk, rfl, root, fun l hl => ?_⟩
      rcases (links l).1 hl with own | added
      · exact ⟨j, r, hk, own, Nat.le_refl _⟩
      · exact ⟨_, _, hi, added, Nat.le_of_lt order⟩
    · by_cases there : j = .loose i
      · subst there
        rw [gone] at hj
        cases hj
      · rw [elsewhere same there] at hj
        exact ⟨s, hj, rfl, rfl, fun l hl => ⟨j, s, hj, hl, Nat.le_refl _⟩⟩
  constructor
  · intro j s target m hj hl outside
    obtain ⟨_, _, _, _, old⟩ := region hj
    obtain ⟨j', u, hu, hl', le⟩ := old _ hl
    obtain ⟨v, hv, root', order'⟩ := h.linked hu hl' outside
    by_cases same : Owner.tree target = k
    · subst same
      rw [hk] at hv
      cases hv
      exact ⟨_, atK, root.trans root', Nat.lt_of_le_of_lt le order'⟩
    · exact ⟨v, by rw [elsewhere same nofun, hv], root', Nat.lt_of_le_of_lt le order'⟩
  · intro j s q hj place
    obtain ⟨t, ht, place', root', _⟩ := region hj
    obtain ⟨target, j', u, eq, hu, hl, order'⟩ := h.placed ht (place'.symm.trans place)
    rw [← root'] at hl
    by_cases same : j' = k
    · subst same
      rw [hk] at hu
      cases hu
      exact ⟨target, j', _, eq, atK, (links _).2 (.inl hl), order'⟩
    · by_cases there : j' = .loose i
      · subst there
        rw [hi] at hu
        cases hu
        exact ⟨target, k, _, eq, atK, (links _).2 (.inr hl), Nat.lt_trans order order'⟩
      · exact ⟨target, j', u, eq, by rw [elsewhere same there, hu], hl, order'⟩

end Layout.Ordered

namespace Page.Holds

variable {base p : Page} {L : Layout}

/-- A later tree does not contain the nodes of an earlier one. -/
theorem outside (h : Holds base p L) (order : L.Ordered) {j k : Owner} {r s : Region}
    (hk : L k = some r) (hj : L j = some s) (later : k.rank < j.rank) {n : NodeId}
    (hn : n ∈ r.dom.nodes) : p.contains s.dom.root n = false := by
  refine h.contains_eq_false (fun i => i.rank ≤ k.rank) ?_ (Nat.le_refl _) hk hn ?_
  · intro i t q hi ht place
    obtain ⟨target, j', u, _, hu, hl, order'⟩ := order.placed ht place
    obtain ⟨m, hm, parent⟩ := h.link_parent hu hl
    have above : p.parent? t.dom.root = some q := by rw [(h.has ht).root_parent, place]
    rw [above] at parent
    cases parent
    exact ⟨j', u, Nat.le_of_lt (Nat.lt_of_lt_of_le order' hi), hu, hm⟩
  · intro i t hi ht mem
    have ne : j ≠ i := by
      rintro rfl
      exact absurd hi (Nat.not_le_of_lt later)
    exact h.apart hj ht ne s.dom.root (h.rooted hj) mem

variable {k : Owner} {place : Option NodeId} {d x : Dom} {n : NodeId} {tag : String}
  {attributes : OrderedMap String String} {below : List Dom}

/-- **A later tree is put below an element of an earlier one**, which links to it from there. -/
theorem hang (h : Holds base p L) (order : L.Ordered) {target : Link}
    (hk : L k = some ⟨place, d⟩) (found : d.find? n = some (tag, attributes, below))
    (hj : L (.tree target) = some ⟨none, x⟩) (later : k.rank < (Owner.tree target).rank) :
    ∃ p' L', p.append n x.root = .ok p' ∧ Holds base p' L' ∧ L'.Ordered ∧
      L' (.tree target) = some ⟨some n, x⟩ ∧
      L' k = some ⟨place, d.edit n fun attributes children =>
        (attributes, children ++ [.link target x.root])⟩ ∧
      ∀ i, i ≠ .tree target → i ≠ k → L' i = L i := by
  have ne : Owner.tree target ≠ k := by
    rintro rfl
    exact Nat.lt_irrefl _ later
  obtain ⟨p', run, _, linked⟩ := h.appendLink hk found hj ne
    (h.outside order hk hj later ((h.has hk).find found).1) target
  refine ⟨p', _, run, linked, ?_, ?_, Function.update_self .., ?_⟩
  · refine order.link hk hj later (Dom.root_edit ..) fun l => ?_
    have there : d.find? n ≠ none := by
      rw [found]
      exact nofun
    refine (Dom.mem_links_edit_append there).trans ?_
    simp only [Dom.linksOf, Dom.links, List.append_nil, List.mem_singleton]
  · rw [Function.update_of_ne ne, Function.update_self]
  · intro i notTarget notK
    rw [Function.update_of_ne notK, Function.update_of_ne notTarget]

/-- **A tree without an owner becomes part of an earlier one.** -/
theorem absorb (h : Holds base p L) (order : L.Ordered) {i : Nat}
    (hk : L k = some ⟨place, d⟩) (found : d.find? n = some (tag, attributes, below))
    (hj : L (.loose i) = some ⟨none, x⟩) (later : k.rank < (Owner.loose i).rank) :
    ∃ p' L', p.append n x.root = .ok p' ∧ Holds base p' L' ∧ L'.Ordered ∧
      L' (.loose i) = none ∧
      L' k = some ⟨place, d.edit n fun attributes children => (attributes, children ++ [x])⟩ ∧
      ∀ j, j ≠ .loose i → j ≠ k → L' j = L j := by
  have ne : Owner.loose i ≠ k := by
    rintro rfl
    exact Nat.lt_irrefl _ later
  obtain ⟨p', run, _, merged⟩ := h.appendTree hk found hj ne
    (h.outside order hk hj later ((h.has hk).find found).1)
  refine ⟨p', _, run, merged, ?_, ?_, Function.update_self .., ?_⟩
  · refine order.merge hk hj later (Dom.root_edit ..) fun l => ?_
    have there : d.find? n ≠ none := by
      rw [found]
      exact nofun
    refine (Dom.mem_links_edit_append there).trans ?_
    simp only [Dom.linksOf, List.append_nil]
  · rw [Function.update_of_ne ne, Function.update_self]
  · intro j notLoose notK
    rw [Function.update_of_ne notK, Function.update_of_ne notLoose]

end Page.Holds

end Formwork
