import Mathlib.Logic.Function.Basic
import Formwork.Proofs.Page.Dom

/-!
# Layouts of a page

A page that is being built on holds several trees at once: the tree of the panel, the widgets of
its fields, and trees that were begun and have no owner yet.  A *layout* lists them by owner and
says of each where its topmost node lies.  `Page.Holds` says that a page has the trees of a
layout, that no two of them share a node, and that nothing older than the layout was touched.

A change of a page is described by the regions it changes (`Page.Holds.replace`): the others are
as they were.  A node is put below another only when it does not contain it already, and whether
it does can be read off the layout (`Page.Holds.contains_eq_false`).
-/

namespace Formwork

set_option autoImplicit false

/-- Whose tree a tree is. -/
inductive Owner where
  /-- The panel as a whole. -/
  | panel
  /-- Whoever links to it. -/
  | tree (target : Link)
  /-- Nobody yet. -/
  | loose (i : Nat)
  deriving DecidableEq, Repr

/-- A tree and the node that its topmost node lies in. -/
structure Region where
  place : Option NodeId
  dom : Dom

/-- The trees of a page by their owners. -/
abbrev Layout := Owner → Option Region

namespace Page

/-- The page has the trees of a layout, apart from one another, on top of an older page. -/
structure Holds (base p : Page) (L : Layout) : Prop where
  grown : base.size ≤ p.size
  old : ∀ n : NodeId, n.index < base.size → p.node? n = base.node? n
  fresh : ∀ {k r}, L k = some r → ∀ n ∈ r.dom.nodes, base.size ≤ n.index
  has : ∀ {k r}, L k = some r → p.Has r.place r.dom
  distinct : ∀ {k r}, L k = some r → r.dom.nodes.Nodup
  rooted : ∀ {k r}, L k = some r → r.dom.root ∈ r.dom.nodes
  apart : ∀ {j k r s}, L j = some r → L k = some s → j ≠ k → ∀ n ∈ r.dom.nodes, n ∉ s.dom.nodes

/-- A page with more nodes, on which the older ones are as they were. -/
structure Grows (p p' : Page) : Prop where
  size : p.size ≤ p'.size
  old : ∀ n : NodeId, n.index < p.size → p'.node? n = p.node? n

namespace Grows

variable {p p' p'' : Page}

theorem refl (p : Page) : p.Grows p := ⟨Nat.le_refl _, fun _ _ => rfl⟩

/-- A tree without links stays. -/
theorem has (h : p.Grows p') {q : Option NodeId} {d : Dom} (has : p.Has q d)
    (unlinked : d.links = []) : p'.Has q d := by
  refine has.congr (fun n hn => h.old n (has.lt_size hn)) fun l hl => ?_
  rw [unlinked] at hl
  cases hl

end Grows

theorem Holds.grows {base p : Page} {L : Layout} (h : Holds base p L) : base.Grows p :=
  ⟨h.grown, h.old⟩

/-- A page holds nothing on top of itself. -/
theorem Holds.empty (base : Page) : Holds base base fun _ => none where
  grown := Nat.le_refl _
  old _ _ := rfl
  fresh h := nomatch h
  has h := nomatch h
  distinct h := nomatch h
  rooted h := nomatch h
  apart h := nomatch h

namespace Holds

variable {base p p' : Page} {L L' : Layout}

theorem lt_size {k : Owner} {r : Region} (h : Holds base p L) (hk : L k = some r) {n : NodeId}
    (hn : n ∈ r.dom.nodes) : n.index < p.size := (h.has hk).lt_size hn

/-- **A change inside some regions.**  The regions of the owners in `K` are replaced; nodes
outside of them are left alone, and the new regions use their nodes and new ones only. -/
theorem replace (h : Holds base p L) (K : Owner → Prop)
    (same : ∀ k, ¬ K k → L' k = L k)
    (untouched : ∀ n : NodeId, n.index < p.size →
      (∀ k r, K k → L k = some r → n ∉ r.dom.nodes) → p'.node? n = p.node? n)
    (places : ∀ k r, ¬ K k → L k = some r → ∀ l ∈ r.dom.links, p'.parent? l.2 = p.parent? l.2)
    (grows : p.size ≤ p'.size)
    (has : ∀ k r, K k → L' k = some r → p'.Has r.place r.dom)
    (distinct : ∀ k r, K k → L' k = some r → r.dom.nodes.Nodup)
    (rooted : ∀ k r, K k → L' k = some r → r.dom.root ∈ r.dom.nodes)
    (inside : ∀ k r, K k → L' k = some r → ∀ n ∈ r.dom.nodes,
      p.size ≤ n.index ∨ ∃ j s, K j ∧ L j = some s ∧ n ∈ s.dom.nodes)
    (apart : ∀ j k r s, K j → K k → L' j = some r → L' k = some s → j ≠ k →
      ∀ n ∈ r.dom.nodes, n ∉ s.dom.nodes) :
    Holds base p' L' := by
  -- a node of a region that stays is no node of a region that is replaced
  have outside : ∀ {j k r s}, ¬ K j → K k → L j = some r → L' k = some s →
      ∀ n ∈ r.dom.nodes, n ∉ s.dom.nodes := by
    intro j k r s hj hk hr hs n hn mem
    rcases inside k s hk hs n mem with new | ⟨i, t, hi, ht, held⟩
    · exact absurd (h.lt_size hr hn) (Nat.not_lt_of_le new)
    · exact h.apart hr ht (fun eq => hj (eq ▸ hi)) n hn held
  refine ⟨Nat.le_trans h.grown grows, ?_, ?_, ?_, ?_, ?_, ?_⟩
  · intro n old
    rw [untouched n (Nat.lt_of_lt_of_le old h.grown), h.old n old]
    intro k r _ hr hn
    exact absurd old (Nat.not_lt_of_le (h.fresh hr n hn))
  · intro k r hr n hn
    by_cases hk : K k
    · rcases inside k r hk hr n hn with new | ⟨j, s, _, hs, held⟩
      · exact Nat.le_trans h.grown new
      · exact h.fresh hs n held
    · rw [same k hk] at hr
      exact h.fresh hr n hn
  · intro k r hr
    by_cases hk : K k
    · exact has k r hk hr
    · rw [same k hk] at hr
      refine (h.has hr).congr (fun n hn => untouched n (h.lt_size hr hn) ?_) (places k r hk hr)
      intro j s hj hs
      exact h.apart hr hs (fun eq => hk (eq ▸ hj)) n hn
  · intro k r hr
    by_cases hk : K k
    · exact distinct k r hk hr
    · rw [same k hk] at hr
      exact h.distinct hr
  · intro k r hr
    by_cases hk : K k
    · exact rooted k r hk hr
    · rw [same k hk] at hr
      exact h.rooted hr
  · intro j k r s hr hs ne
    by_cases hj : K j
    · by_cases hk : K k
      · exact apart j k r s hj hk hr hs ne
      · rw [same k hk] at hs
        exact fun n hn mem => outside hk hj hs hr n mem hn
    · rw [same j hj] at hr
      by_cases hk : K k
      · exact outside hj hk hr hs
      · rw [same k hk] at hs
        exact h.apart hr hs ne

/-- A change inside the region of one owner. -/
theorem replaceOne (h : Holds base p L) (k : Owner) (r : Region)
    (untouched : ∀ n : NodeId, n.index < p.size →
      (∀ s, L k = some s → n ∉ s.dom.nodes) → p'.node? n = p.node? n)
    (places : ∀ j s, j ≠ k → L j = some s → ∀ l ∈ s.dom.links, p'.parent? l.2 = p.parent? l.2)
    (grows : p.size ≤ p'.size) (has : p'.Has r.place r.dom) (distinct : r.dom.nodes.Nodup)
    (rooted : r.dom.root ∈ r.dom.nodes)
    (inside : ∀ n ∈ r.dom.nodes, p.size ≤ n.index ∨ ∃ s, L k = some s ∧ n ∈ s.dom.nodes) :
    Holds base p' (Function.update L k (some r)) := by
  have only : ∀ {s}, Function.update L k (some r) k = some s → s = r := by
    intro s hs
    rw [Function.update_self] at hs
    exact (Option.some.inj hs).symm
  refine h.replace (· = k) (fun j hj => Function.update_of_ne hj ..) ?_
    (fun j s hj => places j s hj) grows ?_ ?_ ?_ ?_ ?_
  · intro n hn outside
    exact untouched n hn fun s hs => outside k s rfl hs
  · rintro j s rfl hs
    rw [only hs]
    exact has
  · rintro j s rfl hs
    rw [only hs]
    exact distinct
  · rintro j s rfl hs
    rw [only hs]
    exact rooted
  · rintro j s rfl hs n hn
    rw [only hs] at hn
    exact (inside n hn).imp_right fun ⟨t, ht, mem⟩ => ⟨j, t, rfl, ht, mem⟩
  · rintro i j s t rfl rfl _ _ ne
    exact absurd rfl ne

/-- A tree is moved into another one: it keeps its nodes, and the other one gets none. -/
theorem replaceMoved (h : Holds base p L) {j k : Owner} {place q : Option NodeId} {x : Dom}
    {r s : Region} (hj : L j = some ⟨place, x⟩) (hk : L k = some r) (ne : j ≠ k)
    (untouched : ∀ n : NodeId, n ∉ x.nodes → n ∉ r.dom.nodes → p'.node? n = p.node? n)
    (places : ∀ i t, i ≠ k → L i = some t → ∀ l ∈ t.dom.links, p'.parent? l.2 = p.parent? l.2)
    (grows : p.size ≤ p'.size) (moved : p'.Has q x) (has : p'.Has s.place s.dom)
    (distinct : s.dom.nodes.Nodup) (rooted : s.dom.root ∈ s.dom.nodes)
    (within : ∀ n ∈ s.dom.nodes, n ∈ r.dom.nodes) :
    Holds base p' (Function.update (Function.update L j (some ⟨q, x⟩)) k (some s)) := by
  have only : ∀ {i t}, i = j ∨ i = k →
      Function.update (Function.update L j (some ⟨q, x⟩)) k (some s) i = some t →
        i = j ∧ t = ⟨q, x⟩ ∨ i = k ∧ t = s := by
    rintro i t (rfl | rfl) ht
    · rw [Function.update_of_ne ne, Function.update_self] at ht
      exact .inl ⟨rfl, (Option.some.inj ht).symm⟩
    · rw [Function.update_self] at ht
      exact .inr ⟨rfl, (Option.some.inj ht).symm⟩
  refine h.replace (fun i => i = j ∨ i = k) ?_ ?_ ?_ grows ?_ ?_ ?_ ?_ ?_
  · intro i hi
    rw [not_or] at hi
    rw [Function.update_of_ne hi.2, Function.update_of_ne hi.1]
  · exact fun n _ outside => untouched n (outside j _ (.inl rfl) hj) (outside k r (.inr rfl) hk)
  · exact fun i t hi => places i t fun same => hi (.inr same)
  · intro i t hi ht
    rcases only hi ht with ⟨_, rfl⟩ | ⟨_, rfl⟩
    · exact moved
    · exact has
  · intro i t hi ht
    rcases only hi ht with ⟨_, rfl⟩ | ⟨_, rfl⟩
    · exact (h.distinct hj : x.nodes.Nodup)
    · exact distinct
  · intro i t hi ht
    rcases only hi ht with ⟨_, rfl⟩ | ⟨_, rfl⟩
    · exact (h.rooted hj : x.root ∈ x.nodes)
    · exact rooted
  · intro i t hi ht n hn
    rcases only hi ht with ⟨_, rfl⟩ | ⟨_, rfl⟩
    · exact .inr ⟨j, _, .inl rfl, hj, hn⟩
    · exact .inr ⟨k, r, .inr rfl, hk, within n hn⟩
  · intro i i' t t' hi hi' ht ht' other n hn hn'
    rcases only hi ht with ⟨rfl, rfl⟩ | ⟨rfl, rfl⟩ <;>
      rcases only hi' ht' with ⟨rfl, rfl⟩ | ⟨rfl, rfl⟩
    · exact other rfl
    · exact h.apart hj hk ne n hn (within n hn')
    · exact h.apart hk hj ne.symm n (within n hn) hn'
    · exact other rfl

/-- The node a link stands for is a node of the page, and lies in the tree of the link. -/
theorem link_parent (h : Holds base p L) {k : Owner} {r : Region} (hk : L k = some r)
    {l : Link × NodeId} (hl : l ∈ r.dom.links) : ∃ m ∈ r.dom.nodes, p.parent? l.2 = some m := by
  rcases (h.has hk).link_parent hl with whole | inner
  · have rooted := h.rooted hk
    rw [whole] at rooted
    cases rooted
  · exact inner

/-- The trees of a layout stay when the page grows. -/
theorem grow (h : Holds base p L) (grows : p.Grows p') : Holds base p' L := by
  refine h.replace (fun _ => False) (fun _ _ => rfl) (fun n hn _ => grows.old n hn) ?_ grows.size
    ?_ ?_ ?_ ?_ ?_
  · intro k r _ hk l hl
    obtain ⟨m, _, parent⟩ := h.link_parent hk hl
    unfold Page.parent?
    rw [grows.old _ (Page.lt_size_of_parent? parent)]
  all_goals
    intros
    contradiction

/-- A tree that is on the page already gets an owner. -/
theorem enlist (h : Holds base p L) {k : Owner} {q : Option NodeId} {d : Dom} (absent : L k = none)
    (has : p.Has q d) (distinct : d.nodes.Nodup) (rooted : d.root ∈ d.nodes)
    (fresh : ∀ n ∈ d.nodes, base.size ≤ n.index)
    (apart : ∀ j r, L j = some r → ∀ n ∈ r.dom.nodes, n ∉ d.nodes) :
    Holds base p (Function.update L k (some ⟨q, d⟩)) := by
  have cases_ : ∀ {j s}, Function.update L k (some ⟨q, d⟩) j = some s →
      j = k ∧ s = ⟨q, d⟩ ∨ L j = some s := by
    intro j s hj
    by_cases same : j = k
    · subst same
      rw [Function.update_self] at hj
      cases hj
      exact .inl ⟨rfl, rfl⟩
    · rw [Function.update_of_ne same] at hj
      exact .inr hj
  refine ⟨h.grown, h.old, ?_, ?_, ?_, ?_, ?_⟩
  · intro j s hj
    rcases cases_ hj with ⟨rfl, rfl⟩ | old
    · exact fresh
    · exact h.fresh old
  · intro j s hj
    rcases cases_ hj with ⟨rfl, rfl⟩ | old
    · exact has
    · exact h.has old
  · intro j s hj
    rcases cases_ hj with ⟨rfl, rfl⟩ | old
    · exact distinct
    · exact h.distinct old
  · intro j s hj
    rcases cases_ hj with ⟨rfl, rfl⟩ | old
    · exact rooted
    · exact h.rooted old
  · intro i j r s hi hj ne
    rcases cases_ hi with ⟨rfl, rfl⟩ | oldI <;> rcases cases_ hj with ⟨rfl, rfl⟩ | oldJ
    · exact absurd rfl ne
    · exact fun n hn mem => apart j s oldJ n mem hn
    · exact apart i r oldI
    · exact h.apart oldI oldJ ne

/-- A tree loses its owner. -/
theorem forget (h : Holds base p L) (k : Owner) : Holds base p (Function.update L k none) := by
  have old : ∀ {j s}, Function.update L k none j = some s → L j = some s := by
    intro j s hj
    by_cases same : j = k
    · subst same
      rw [Function.update_self] at hj
      cases hj
    · rwa [Function.update_of_ne same] at hj
  exact ⟨h.grown, h.old, fun hj => h.fresh (old hj), fun hj => h.has (old hj),
    fun hj => h.distinct (old hj), fun hj => h.rooted (old hj),
    fun hi hj ne => h.apart (old hi) (old hj) ne⟩

/-! ## Where a node can be put -/

/-- Following parents stays in a set that contains the parent of each of its nodes. -/
theorem mem_of_mem_lineage {p : Page} {S : NodeId → Prop}
    (closed : ∀ n m, S n → p.parent? n = some m → S m) :
    ∀ (steps : Nat) {n a : NodeId}, S n → a ∈ p.lineageUpTo steps n → S a
  | 0, _, _, _, mem => by cases mem
  | steps + 1, n, a, hn, mem => by
    rw [lineageUpTo, List.mem_cons] at mem
    rcases mem with rfl | above
    · exact hn
    · cases parent : p.parent? n with
      | none =>
        rw [parent] at above
        cases above
      | some m =>
        rw [parent] at above
        exact mem_of_mem_lineage closed steps (closed n m hn parent) above

/-- A node outside of some regions, each of which lies in another of them or nowhere, contains
none of their nodes. -/
theorem contains_eq_false (h : Holds base p L) (K : Owner → Prop)
    (closed : ∀ k r q, K k → L k = some r → r.place = some q →
      ∃ j s, K j ∧ L j = some s ∧ q ∈ s.dom.nodes)
    {k : Owner} {r : Region} {n a : NodeId} (hk : K k) (hr : L k = some r) (hn : n ∈ r.dom.nodes)
    (outside : ∀ j s, K j → L j = some s → a ∉ s.dom.nodes) : p.contains a n = false := by
  unfold contains
  refine decide_eq_false fun mem => ?_
  have reached : ∃ j s, K j ∧ L j = some s ∧ a ∈ s.dom.nodes := by
    refine mem_of_mem_lineage (S := fun m => ∃ j s, K j ∧ L j = some s ∧ m ∈ s.dom.nodes) ?_ _
      ⟨k, r, hk, hr, hn⟩ mem
    rintro m m' ⟨j, s, hj, hs, hm⟩ parent
    rcases (h.has hs).parent_mem hm with ⟨_, top⟩ | ⟨m'', inner, parent'⟩
    · rw [top] at parent
      exact closed j s m' hj hs parent
    · rw [parent'] at parent
      cases parent
      exact ⟨j, s, hj, hs, inner⟩
  obtain ⟨j, s, hj, hs, ha⟩ := reached
  exact outside j s hj hs ha

end Holds

end Page

end Formwork
