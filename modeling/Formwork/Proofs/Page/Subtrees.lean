import Formwork.Proofs.Page.Effects
import Formwork.Proofs.Page.Walks

/-!
# What is shown of a node lies below it

A node is written out by descending to its children, so what is shown of it depends on the nodes below
it (`Page.Within`) and on nothing else: a page on which these are what they were, with the children they
had, shows the same (`Forest.outerMarkup_congr`, `Forest.innerMarkup_congr`,
`Forest.textContent_congr`).  Where the node itself lies does not matter.

New content is read back as the trees it was made of (`Forest.innerMarkup_setMarkupOrText`,
`Forest.textContent_setText`).
-/

namespace Formwork

set_option autoImplicit false

namespace Page

/-- The nodes below a node, and the node itself. -/
inductive Within (p : Page) (x : NodeId) : NodeId → Prop where
  | self : Within p x x
  | child {n c : NodeId} : Within p x n → c ∈ p.children n → Within p x c

/-- A page shows of a node what another shows: the nodes below it are the same and are what they
were. -/
def Shares (p p' : Page) (x : NodeId) : Prop :=
  ∀ n, p.Within x n → p'.content? n = p.content? n ∧ p'.children n = p.children n

variable {p p' : Page} {x n c : NodeId}

theorem Within.trans (h : p.Within x n) (h' : p.Within n c) : p.Within x c := by
  induction h' with
  | self => exact h
  | child _ mem ih => exact .child ih mem

theorem Within.known (h : p.Forest) (known : x.index < p.size) (within : p.Within x n) :
    n.index < p.size := by
  cases within with
  | self => exact known
  | child _ mem => exact lt_size_of_parent? ((h.agree _ _).1 mem)

/-- Pages that agree on what lies below a node have the same nodes below it. -/
theorem Shares.within (same : p.Shares p' x) (h : p'.Within x n) : p.Within x n := by
  induction h with
  | self => exact .self
  | child _ mem ih => exact .child ih (by rwa [(same _ ih).2] at mem)

theorem Shares.of_within (same : p.Shares p' x) (h : p.Within x n) : p.Shares p' n :=
  fun m within => same m (h.trans within)

/-- A node on a page that has grown. -/
theorem Grows.shares (grows : p.Grows p') (h : p.Forest) (known : x.index < p.size) :
    p.Shares p' x := by
  intro n within
  have known := within.known h known
  unfold content? children
  rw [grows.old n known]
  exact ⟨rfl, rfl⟩

/-! ## Nodes and their content -/

theorem node?_of_content? {content : Content} (is : p.content? n = some content) :
    p.node? n = some ⟨content, p.parent? n, p.children n⟩ := by
  unfold content? at is
  unfold parent? children
  cases found : p.node? n with
  | none =>
    rw [found] at is
    cases is
  | some node =>
    rw [found] at is
    cases is
    rfl

theorem content?_eq {node : PageNode} (found : p.node? n = some node) :
    p.content? n = some node.content := by
  unfold content?
  rw [found]
  rfl

theorem exists_content? (known : n.index < p.size) : ∃ content, p.content? n = some content := by
  obtain ⟨node, found⟩ := exists_node? known
  exact ⟨_, content?_eq found⟩

theorem exists_element (element : p.tag? n ≠ none) :
    ∃ tag attributes, p.content? n = some (.element tag attributes) := by
  obtain ⟨content, is⟩ := exists_content? (lt_size_of_tag? element)
  cases content with
  | element tag attributes => exact ⟨tag, attributes, is⟩
  | text content =>
    refine absurd ?_ element
    unfold tag?
    rw [node?_of_content? is]
    rfl

/-! ## Writing out -/

section Render

variable {leaf : String → String} {wrap : String → OrderedMap String String → String → String}
  {ns : List NodeId} {s t : String}

/-- Nodes are written out in one way. -/
theorem Renders.unique (h : p.Renders leaf wrap ns s) (h' : p.Renders leaf wrap ns t) : t = s := by
  induction h generalizing t with
  | nil =>
    cases h'
    rfl
  | text found _ ih =>
    cases h' with
    | text found' rest =>
      cases found.symm.trans found'
      rw [ih rest]
    | element found' => cases found.symm.trans found'
  | element found _ _ ihKids ih =>
    cases h' with
    | text found' => cases found.symm.trans found'
    | element found' kids rest =>
      cases found.symm.trans found'
      rw [ihKids kids, ih rest]

/-- Nodes are written out on another page as they are on this one, if it has the same below them. -/
theorem Renders.congr (h : p.Renders leaf wrap ns s) (same : ∀ n ∈ ns, p.Shares p' n) :
    p'.Renders leaf wrap ns s := by
  induction h with
  | nil => exact .nil
  | @text n _ _ _ _ _ found _ ih =>
    obtain ⟨content, -⟩ := same n List.mem_cons_self n .self
    rw [content?_eq found] at content
    exact .text (node?_of_content? content) (ih fun m mem => same m (List.mem_cons_of_mem _ mem))
  | @element n _ _ _ _ _ _ _ found _ _ ihKids ih =>
    obtain ⟨content, children⟩ := same n List.mem_cons_self n .self
    rw [content?_eq found] at content
    have there := node?_of_content? content
    rw [children, children_eq found] at there
    refine .element there (ihKids fun c mem => ?_)
      (ih fun m mem => same m (List.mem_cons_of_mem _ mem))
    exact (same n List.mem_cons_self).of_within (.child .self (by rwa [children_eq found]))

/-- A tree that is there is written out as the tree it is. -/
theorem Renders.inner (h : p.Renders leaf wrap [n] s) {tag : String}
    {attributes : OrderedMap String String} (is : p.content? n = some (.element tag attributes)) :
    ∃ inner, p.Renders leaf wrap (p.children n) inner ∧ s = wrap tag attributes inner := by
  have there := node?_of_content? is
  cases h with
  | text found => cases there.symm.trans found
  | element found kids rest =>
    cases there.symm.trans found
    cases rest
    exact ⟨_, kids, String.append_empty⟩

end Render

namespace Forest

theorem renders_outerMarkup (h : p.Forest) (known : n.index < p.size) :
    p.Renders Markup.Escape.text wrapMarkup [n] (p.outerMarkup n) := by
  unfold outerMarkup
  rw [markupUpTo_eq_renderUpTo]
  exact h.renders_size known

theorem renders_textContent (h : p.Forest) (known : n.index < p.size) :
    p.Renders id (fun _ _ inner => inner) [n] (p.textContent n) := by
  unfold textContent
  rw [textUpTo_eq_renderUpTo]
  exact h.renders_size known

theorem renders_innerMarkup (h : p.Forest) (element : p.tag? n ≠ none) :
    p.Renders Markup.Escape.text wrapMarkup (p.children n) (p.innerMarkup n) := by
  obtain ⟨tag, attributes, is⟩ := exists_element element
  have inner : p.innerMarkup n = String.join ((p.children n).map p.outerMarkup) := by
    unfold innerMarkup
    rw [node?_of_content? is]
  rw [inner]
  exact .all fun c mem => h.renders_outerMarkup (lt_size_of_parent? ((h.agree n c).1 mem))

variable (h : p.Forest) (h' : p'.Forest)
include h h'

theorem outerMarkup_congr (known : x.index < p.size) (same : p.Shares p' x) :
    p'.outerMarkup x = p.outerMarkup x := by
  obtain ⟨content, is⟩ := exists_content? known
  have there := (same x .self).1.trans is
  refine (Renders.congr (h.renders_outerMarkup known) ?_).unique
    (h'.renders_outerMarkup (lt_size_of_node? (node?_of_content? there)))
  intro n mem
  rwa [List.mem_singleton.1 mem]

theorem textContent_congr (known : x.index < p.size) (same : p.Shares p' x) :
    p'.textContent x = p.textContent x := by
  obtain ⟨content, is⟩ := exists_content? known
  have there := (same x .self).1.trans is
  refine (Renders.congr (h.renders_textContent known) ?_).unique
    (h'.renders_textContent (lt_size_of_node? (node?_of_content? there)))
  intro n mem
  rwa [List.mem_singleton.1 mem]

theorem innerMarkup_congr (known : x.index < p.size) (same : p.Shares p' x) :
    p'.innerMarkup x = p.innerMarkup x := by
  obtain ⟨content, is⟩ := exists_content? known
  obtain ⟨content', children⟩ := same x .self
  have there := node?_of_content? (content'.trans is)
  unfold innerMarkup
  rw [there, node?_of_content? is, children]
  cases content with
  | text content => rfl
  | element tag attributes =>
    refine congrArg String.join (List.map_congr_left fun c mem => ?_)
    exact h.outerMarkup_congr h' (lt_size_of_parent? ((h.agree x c).1 mem))
      (same.of_within (.child .self mem))

end Forest

end Page

/-! ## Content as it was made -/

namespace Html

variable (leaf : String → String) (wrap : String → OrderedMap String String → String → String)

mutual
/-- A tree without links written out. -/
def written : Html → String
  | .text content => leaf content
  | .element tag attributes children => wrap tag attributes (writtenOf children)
  | .link _ => ""

/-- Trees without links written out one behind the other. -/
def writtenOf : List Html → String
  | [] => ""
  | h :: hs => h.written ++ writtenOf hs
end

end Html

/-- A text is written out as the text it is. -/
theorem Html.writtenOf_textNodes (content : String) :
    Html.writtenOf id (fun _ _ inner => inner) (Html.ofNodes (Page.textNodes content)) = content := by
  unfold Page.textNodes
  split
  · case isTrue blank => rw [blank]; rfl
  · exact String.append_empty

namespace Page

variable {p : Page} {n : NodeId} {leaf : String → String}
  {wrap : String → OrderedMap String String → String → String}

mutual
/-- A tree that is there is written out as the tree that it is. -/
theorem Has.renders {q : Option NodeId} : ∀ {d : Dom}, p.Has q d → d.links = [] →
    p.Renders leaf wrap [d.root] (d.html.written leaf wrap)
  | .text n content, there, _ => by
    rw [Has] at there
    rw [Dom.html, Html.written, ← String.append_empty (s := leaf content)]
    exact .text there .nil
  | .element n tag attributes children, there, unlinked => by
    rw [Has] at there
    rw [Dom.html, Html.written, ← String.append_empty (s := wrap ..)]
    exact .element there.1 (HasAll.renders there.2 unlinked) .nil
  | .link _ _, _, unlinked => by cases unlinked

theorem HasAll.renders {q : Option NodeId} : ∀ {ds : List Dom}, p.HasAll q ds →
    Dom.linksOf ds = [] →
      p.Renders leaf wrap (ds.map Dom.root) (Html.writtenOf leaf wrap (Dom.htmlOf ds))
  | [], _, _ => .nil
  | d :: ds, there, unlinked => by
    rw [Dom.linksOf, List.append_eq_nil_iff] at unlinked
    exact (Has.renders there.1 unlinked.1).append (HasAll.renders there.2 unlinked.2)
end

theorem setText_eq_importNodes (element : p.tag? n ≠ none) (content : String) :
    p.setText n content = (p.clear n).importNodes n (textNodes content) := by
  unfold setText textNodes
  rw [if_neg fun none => element (Option.isNone_iff_eq_none.1 none)]
  dsimp only
  by_cases blank : content = ""
  · rw [if_pos blank, if_pos blank, importNodes]
  · rw [if_neg blank, if_neg blank, importNodes, importNodes, importNode]

theorem setMarkupOrText_eq_importNodes (element : p.tag? n ≠ none) (html : String) :
    p.setMarkupOrText n html = (p.clear n).importNodes n (nodesOrText html) := by
  unfold setMarkupOrText setMarkup readMarkup nodesOrText
  rw [if_neg fun none => element (Option.isNone_iff_eq_none.1 none)]
  cases Markup.parseFragment html with
  | ok nodes => rfl
  | error e => exact setText_eq_importNodes element html

namespace Forest

/-- New content in place of the old one changes no node that was there but for its children. -/
theorem content?_replaced (h : p.Forest) (element : p.tag? n ≠ none) (ms : List Markup.Node)
    {m : NodeId} (known : m.index < p.size) :
    ((p.clear n).importNodes n ms).content? m = p.content? m := by
  obtain ⟨_, size, _⟩ := h.clear n
  have imported := imported_nodes ms (size.symm ▸ lt_size_of_tag? element : n.index < (p.clear n).size)
  rw [← h.content?_clear n m]
  unfold content?
  by_cases same : m = n
  · subst same
    rw [imported.below]
    cases (p.clear m).node? m <;> rfl
  · rw [imported.others m (size.symm ▸ known) same]

/-- Markup that is put in place of the content of an element becomes its only trees, whose nodes are
new. -/
theorem replaced (h : p.Forest) (element : p.tag? n ≠ none) (ms : List Markup.Node) :
    ((p.clear n).importNodes n ms).Forest ∧
      ((p.clear n).importNodes n ms).size = p.size + Markup.countOf ms ∧
      ((p.clear n).importNodes n ms).children n = (Dom.ofNodes p.size ms).map Dom.root ∧
      ((p.clear n).importNodes n ms).HasAll (some n) (Dom.ofNodes p.size ms) := by
  obtain ⟨cleared, size, tags⟩ := h.clear n
  have known : n.index < (p.clear n).size := by
    rw [size]
    exact lt_size_of_tag? element
  have imported := imported_nodes ms known
  have none : (p.clear n).children n = [] := by rw [h.children_clear, if_pos rfl]
  obtain ⟨node, found⟩ := exists_node? known
  have below := imported.below
  rw [children_eq found] at none
  rw [found, Option.map_some, none, List.nil_append] at below
  rw [← size]
  exact ⟨(cleared.importNodes ms (by rwa [tags])).1, imported.size, children_eq below, imported.has⟩

/-- Markup that is put in place of the content of an element is written out as the trees it becomes. -/
theorem renders_replaced (h : p.Forest) (element : p.tag? n ≠ none) (ms : List Markup.Node) :
    ((p.clear n).importNodes n ms).Forest ∧
      ((p.clear n).importNodes n ms).Renders leaf wrap (((p.clear n).importNodes n ms).children n)
        (Html.writtenOf leaf wrap (Html.ofNodes ms)) := by
  obtain ⟨forest, _, children, has⟩ := h.replaced element ms
  rw [children, ← Dom.htmlOf_ofNodes p.size ms]
  exact ⟨forest, has.renders (Dom.linksOf_ofNodes _ ms)⟩

/-- Setting markup changes no node that was there but for its children. -/
theorem content?_setMarkupOrText (h : p.Forest) (element : p.tag? n ≠ none) (html : String)
    {m : NodeId} (known : m.index < p.size) : (p.setMarkupOrText n html).content? m = p.content? m := by
  rw [setMarkupOrText_eq_importNodes element]
  exact h.content?_replaced element _ known

/-- **Markup is read back** as the trees it became, whatever the element held before. -/
theorem innerMarkup_setMarkupOrText (h : p.Forest) (element : p.tag? n ≠ none) (html : String) :
    (p.setMarkupOrText n html).innerMarkup n =
      Html.writtenOf Markup.Escape.text wrapMarkup (Html.ofNodes (nodesOrText html)) := by
  obtain ⟨forest, written⟩ := h.renders_replaced element (nodesOrText html)
  rw [setMarkupOrText_eq_importNodes element]
  refine written.unique (forest.renders_innerMarkup ?_)
  rwa [tag?_congr (h.content?_replaced element _ (lt_size_of_tag? element))]

/-- **A text is read back** as it was set. -/
theorem textContent_setText (h : p.Forest) (element : p.tag? n ≠ none) (content : String) :
    (p.setText n content).textContent n = content := by
  obtain ⟨forest, written⟩ := @renders_replaced p n id (fun _ _ inner => inner) h element
    (textNodes content)
  obtain ⟨tag, attributes, is⟩ := exists_element element
  rw [setText_eq_importNodes element]
  have there := (h.content?_replaced element (textNodes content) (lt_size_of_tag? element)).trans is
  obtain ⟨inner, kids, shown⟩ := (forest.renders_textContent
    (lt_size_of_node? (node?_of_content? there))).inner there
  rw [shown, written.unique kids]
  exact Html.writtenOf_textNodes content

end Forest

end Page

end Formwork
