import Mathlib.Data.List.Perm.Subperm
import Formwork.Proofs.Page.Dom

/-!
# Reading a page

Writing out a node descends as many levels as the page has nodes.  That is enough for every tree in
which no node lies below itself (`Dom.Apart`): the nodes from the topmost one down to another are
distinct, so there are never more of them than nodes of the page.
-/

namespace Formwork

set_option autoImplicit false

/-! ## Markup -/

namespace Html

/-- The start tag of an element of a page. -/
def openMarkup (tag : String) (attributes : OrderedMap String String) : String :=
  "<" ++ tag ++ String.join
    (attributes.toList.map fun e => Markup.Escape.attr .double e.1 e.2) ++ ">"

mutual
/-- A tree without links as markup. -/
def markup : Html → String
  | .text content => Markup.Escape.text content
  | .element tag attributes children =>
    openMarkup tag attributes ++ markupOf children ++ "</" ++ tag ++ ">"
  | .link _ => ""

/-- Trees without links as markup. -/
def markupOf : List Html → String
  | [] => ""
  | h :: hs => h.markup ++ markupOf hs
end

end Html

/-! ## Nodes below themselves -/

namespace Dom

mutual
/-- No node of a tree lies below itself or is one of those above the tree. -/
def Apart (above : List NodeId) : Dom → Prop
  | .text n _ => n ∉ above
  | .element n _ _ children => n ∉ above ∧ ApartAll (n :: above) children
  | .link _ n => n ∉ above

/-- No node of some trees lies below itself or is one of those above them. -/
def ApartAll (above : List NodeId) : List Dom → Prop
  | [] => True
  | d :: ds => d.Apart above ∧ ApartAll above ds
end

mutual
/-- There may be other nodes above a tree. -/
theorem Apart.append {more : List NodeId} : ∀ {d : Dom} {above : List NodeId}, d.links = [] →
    d.Apart above → (∀ n ∈ d.nodes, n ∉ more) → d.Apart (above ++ more)
  | .text n _, above, _, apart, outside => by
    rw [Apart] at apart ⊢
    rw [List.mem_append, not_or]
    exact ⟨apart, outside n (by simp [nodes])⟩
  | .element n _ _ children, above, unlinked, apart, outside => by
    rw [Apart] at apart ⊢
    rw [links] at unlinked
    refine ⟨?_, ApartAll.append unlinked apart.2 fun m hm => ?_⟩
    · rw [List.mem_append, not_or]
      exact ⟨apart.1, outside n (by simp [nodes])⟩
    · exact outside m (by simp [nodes, hm])
  | .link _ _, _, unlinked, _, _ => by cases unlinked

theorem ApartAll.append {more : List NodeId} : ∀ {ds : List Dom} {above : List NodeId},
    linksOf ds = [] → ApartAll above ds → (∀ n ∈ nodesOf ds, n ∉ more) →
      ApartAll (above ++ more) ds
  | [], _, _, _, _ => trivial
  | d :: ds, above, unlinked, apart, outside => by
    rw [linksOf, List.append_eq_nil_iff] at unlinked
    rw [ApartAll] at apart ⊢
    exact ⟨Apart.append unlinked.1 apart.1 fun n hn => outside n (by simp [nodesOf, hn]),
      ApartAll.append unlinked.2 apart.2 fun n hn => outside n (by simp [nodesOf, hn])⟩
end

end Dom

/-! ## Writing out -/

namespace Page

variable {p : Page}

/-- Distinct nodes of a page are at most as many as the page has. -/
theorem length_le_size {ns : List NodeId} (distinct : ns.Nodup)
    (inside : ∀ n ∈ ns, n.index < p.size) : ns.length ≤ p.size := by
  have numbers : (ns.map NodeId.index).Nodup := by
    refine distinct.map fun a b same => ?_
    cases a
    cases b
    cases same
    rfl
  have among : ns.map NodeId.index ⊆ List.range p.size := by
    intro i hi
    obtain ⟨n, hn, rfl⟩ := List.mem_map.1 hi
    exact List.mem_range.2 (inside n hn)
  have short := (List.subperm_of_subset numbers among).length_le
  rw [List.length_map, List.length_range] at short
  exact short

mutual
/-- **A tree is written out** when there are levels for all nodes that are not above it. -/
theorem markupUpTo_eq : ∀ {d : Dom} {q : Option NodeId} {above : List NodeId} {levels : Nat},
    p.Has q d → d.links = [] → d.Apart above → above.Nodup → (∀ n ∈ above, n.index < p.size) →
      p.size ≤ levels + above.length → p.markupUpTo levels d.root = d.html.markup
  | .text n content, q, above, levels, there, _, apart, distinct, inside, enough => by
    rw [Has] at there
    have within := length_le_size (p := p) (List.nodup_cons.2 ⟨apart, distinct⟩) (by
      intro m hm
      rcases List.mem_cons.1 hm with rfl | old
      · exact lt_size_of_node? there
      · exact inside m old)
    rw [List.length_cons] at within
    obtain ⟨levels, rfl⟩ : ∃ k, levels = k + 1 := ⟨levels - 1, by omega⟩
    rw [Dom.root, markupUpTo, there, Dom.html, Html.markup]
  | .element n tag attributes children, q, above, levels, there, unlinked, apart, distinct, inside,
      enough => by
    rw [Has] at there
    rw [Dom.Apart] at apart
    have distinct' := List.nodup_cons.2 ⟨apart.1, distinct⟩
    have inside' : ∀ m ∈ n :: above, m.index < p.size := by
      intro m hm
      rcases List.mem_cons.1 hm with rfl | old
      · exact lt_size_of_node? there.1
      · exact inside m old
    have within := length_le_size distinct' inside'
    rw [List.length_cons] at within
    obtain ⟨levels, rfl⟩ : ∃ k, levels = k + 1 := ⟨levels - 1, by omega⟩
    have levelsBelow : p.size ≤ levels + (n :: above).length := by
      rw [List.length_cons]
      omega
    have below := markupUpTo_all there.2 unlinked apart.2 distinct' inside' levelsBelow
    rw [Dom.root, markupUpTo, there.1]
    dsimp only
    rw [below, Dom.html, Html.markup, Html.openMarkup]
  | .link _ _, _, _, _, _, unlinked, _, _, _, _ => by cases unlinked

theorem markupUpTo_all : ∀ {ds : List Dom} {q : Option NodeId} {above : List NodeId}
    {levels : Nat}, p.HasAll q ds → Dom.linksOf ds = [] → Dom.ApartAll above ds → above.Nodup →
      (∀ n ∈ above, n.index < p.size) → p.size ≤ levels + above.length →
        String.join ((ds.map Dom.root).map (p.markupUpTo levels)) = Html.markupOf (Dom.htmlOf ds)
  | [], _, _, _, _, _, _, _, _, _ => rfl
  | d :: ds, q, above, levels, there, unlinked, apart, distinct, inside, enough => by
    rw [HasAll] at there
    rw [Dom.linksOf, List.append_eq_nil_iff] at unlinked
    rw [Dom.ApartAll] at apart
    have first := markupUpTo_eq there.1 unlinked.1 apart.1 distinct inside enough
    have rest := markupUpTo_all there.2 unlinked.2 apart.2 distinct inside enough
    rw [List.map_cons, List.map_cons, String.join_cons, first, rest, Dom.htmlOf, Html.markupOf]
end

/-- **The content of an element** as markup. -/
theorem innerMarkup_eq {q : Option NodeId} {n : NodeId} {tag : String}
    {attributes : OrderedMap String String} {kids : List Dom}
    (there : p.Has q (.element n tag attributes kids))
    (unlinked : Dom.linksOf kids = []) (apart : (Dom.element n tag attributes kids).Apart []) :
    p.innerMarkup n = Html.markupOf (Dom.htmlOf kids) := by
  rw [Has] at there
  rw [Dom.Apart] at apart
  unfold innerMarkup
  rw [there.1]
  refine markupUpTo_all there.2 unlinked apart.2 (List.nodup_singleton n) ?_ (Nat.le_add_right _ _)
  intro m hm
  rw [List.mem_singleton.1 hm]
  exact lt_size_of_node? there.1

end Page

end Formwork
