import Formwork.Proofs.Markup.Joined
import Formwork.Proofs.Page.DocumentOrder
import Formwork.Proofs.Page.Settled

/-!
# Copying content by its markup

The content of an element is read as nodes of markup, with its texts cut as they lie on the page
(`Page.Reads`).  These nodes are settled, and the element is written out as they are, so that its markup
can be read back when nothing on the page keeps it from being markup: names have to be qualified names,
texts and values may only hold characters that may occur in markup (`Content.Writable`).

What is read back are the same nodes with their texts joined.  Set as the content of an element, of the
one it was read from, of one above or below it or of any other, they become new nodes that are numbered
in document order, and are written out and read as text as the old content was (`Reached.copied`).
-/

namespace Formwork

set_option autoImplicit false

open Markup (Node IsQualifiedName IsMarkupText)

/-- What a node is can be written as markup that is read back. -/
def Content.Writable : Content → Prop
  | .element tag attributes => IsQualifiedName tag ∧
      ∀ a ∈ attributes.toList, IsQualifiedName a.1 ∧ IsMarkupText a.2
  | .text content => IsMarkupText content

instance : ∀ content : Content, Decidable content.Writable
  | .text content => inferInstanceAs (Decidable (IsMarkupText content))
  | .element tag attributes => inferInstanceAs (Decidable (IsQualifiedName tag ∧
      ∀ a ∈ attributes.toList, IsQualifiedName a.1 ∧ IsMarkupText a.2))

namespace Markup

/-! ## Settled nodes -/

/-- The tag of an element of a page. -/
def Tag.ofPage (tag : String) (attributes : OrderedMap String String) : Tag :=
  ⟨tag, tag, attributes.toList.map fun a => .plain a.1 a.2⟩

theorem Tag.settled_eq (t : Tag) : t.settled = .ofPage t.qname t.plainAttributes := rfl

theorem Tag.plainAttributes_ofPage (tag : String) (attributes : OrderedMap String String) :
    (Tag.ofPage tag attributes).plainAttributes = attributes := by
  have same : (Tag.ofPage tag attributes).attributes.map (fun a => (a.qname, a.value)) =
      attributes.toList := by
    simp [ofPage, Attribute.plain, Function.comp_def]
  unfold plainAttributes
  rw [same, OrderedMap.ofList_toList]

/-- The tag of an element of a page is settled. -/
theorem Tag.settled_ofPage (tag : String) (attributes : OrderedMap String String) :
    (Tag.ofPage tag attributes).settled = .ofPage tag attributes := by
  rw [settled_eq, plainAttributes_ofPage]
  rfl

/-- Joining texts leaves nodes settled. -/
theorem Node.settledAll_joinedAll : ∀ ns : List Node,
    settledAll (joinedAll ns) = joinedAll (settledAll ns)
  | [] => rfl
  | .text content :: ns => by
    rw [joinedAll, joined, cons,
      map_consText settledAll rfl (fun _ _ => rfl) fun _ _ _ => ⟨_, _, rfl⟩, settledAll_joinedAll ns]
    rfl
  | .element tag children :: ns => by
    rw [joinedAll, joined, cons, settledAll, settled, settledAll_joinedAll children,
      settledAll_joinedAll ns]
    rfl

end Markup

mutual
/-- The text of a tree of markup is the text of its node. -/
theorem Html.written_ofNode : ∀ n : Node,
    (Html.ofNode n).written id (fun _ _ inner => inner) = n.allText
  | .text _ => rfl
  | .element _ children => Html.writtenOf_ofNodes children

theorem Html.writtenOf_ofNodes : ∀ ns : List Node,
    Html.writtenOf id (fun _ _ inner => inner) (Html.ofNodes ns) = Markup.allTextOf ns
  | [] => rfl
  | n :: ns => by
    rw [Html.ofNodes, Html.writtenOf, Html.written_ofNode n, Html.writtenOf_ofNodes ns, Markup.allTextOf]
end

namespace Page

/-! ## Reading a page as nodes of markup -/

/-- Nodes with what lies below them, read as nodes of markup. -/
inductive Reads (p : Page) : List NodeId → List Node → Prop where
  | nil : Reads p [] []
  | text {n : NodeId} {ns : List NodeId} {ms : List Node} {content : String} :
      p.content? n = some (.text content) → Reads p ns ms → Reads p (n :: ns) (.text content :: ms)
  | element {n : NodeId} {ns : List NodeId} {ms inner : List Node} {tag : String}
      {attributes : OrderedMap String String} : p.content? n = some (.element tag attributes) →
      Reads p (p.children n) inner → Reads p ns ms →
      Reads p (n :: ns) (.element (.ofPage tag attributes) inner :: ms)

variable {p p' : Page} {m n k : NodeId} {ns ks : List NodeId} {ms : List Node}

namespace Reads

theorem append {ns' : List NodeId} {ms' : List Node} (h : p.Reads ns ms) (h' : p.Reads ns' ms') :
    p.Reads (ns ++ ns') (ms ++ ms') := by
  induction h with
  | nil => exact h'
  | text is _ ih => exact .text is ih
  | element is inner _ _ ih => exact .element is inner ih

/-- What is read is settled. -/
theorem settledAll (h : p.Reads ns ms) : Node.settledAll ms = ms := by
  induction h with
  | nil => rfl
  | text _ _ ih => rw [Node.settledAll, Node.settled, ih]
  | element _ _ _ ihInner ih =>
    rw [Node.settledAll, Node.settled, ihInner, ih, Markup.Tag.settled_ofPage]

/-- Nodes are written out as they are read. -/
theorem renders {leaf : String → String}
    {wrap : String → OrderedMap String String → String → String} (h : p.Reads ns ms) :
    p.Renders leaf wrap ns (Html.writtenOf leaf wrap (Html.ofNodes ms)) := by
  induction h with
  | nil => exact .nil
  | text is _ ih => exact .text (node?_of_content? is) ih
  | element is _ _ ihInner ih =>
    rw [Html.ofNodes, Html.ofNode, Html.writtenOf, Html.written, Markup.Tag.plainAttributes_ofPage]
    exact .element (node?_of_content? is) ihInner ih

/-- What is read can be written when every node that it was read from can be. -/
theorem writableAll (h : p.Reads ns ms)
    (good : ∀ n ∈ ns, ∀ k, p.Within n k → ∀ content ∈ p.content? k, content.Writable) :
    Node.WritableAll ms := by
  induction h with
  | nil => trivial
  | text is _ ih =>
    refine ⟨good _ List.mem_cons_self _ .self _ is, ih fun n mem => ?_⟩
    exact good n (List.mem_cons_of_mem _ mem)
  | @element n _ _ _ _ attributes is _ _ ihInner ih =>
    obtain ⟨name, attributes⟩ := good n List.mem_cons_self n .self _ is
    refine ⟨⟨name, fun a mem => ?_, ihInner fun c mem k within => ?_⟩,
      ih fun n mem => good n (List.mem_cons_of_mem _ mem)⟩
    · obtain ⟨entry, listed, rfl⟩ := List.mem_map.1 mem
      exact attributes entry listed
    · exact good n List.mem_cons_self k ((Within.child .self mem).trans within)

end Reads

/-- What can be listed can be read. -/
theorem Lists.exists_reads (h : p.Lists ns ks) (known : ∀ n ∈ ns, n.index < p.size) (forest : p.Forest) :
    ∃ ms, p.Reads ns ms := by
  induction h with
  | nil => exact ⟨[], .nil⟩
  | @node n ns _ _ _ _ ihInner ih =>
    obtain ⟨inner, below⟩ := ihInner fun c mem => lt_size_of_parent? ((forest.agree n c).1 mem)
    obtain ⟨ms, behind⟩ := ih fun m mem => known m (List.mem_cons_of_mem _ mem)
    obtain ⟨content, is⟩ := exists_content? (known n List.mem_cons_self)
    cases content with
    | text content => exact ⟨_, .text is behind⟩
    | element tag attributes => exact ⟨_, .element is below behind⟩

/-! ## Trees that are there -/

theorem Lists.unique {ks' : List NodeId} (h : p.Lists ns ks) (h' : p.Lists ns ks') : ks' = ks := by
  induction h generalizing ks' with
  | nil =>
    cases h'
    rfl
  | node _ _ ihInner ih =>
    cases h' with
    | node inner behind => rw [ihInner inner, ih behind]

mutual
theorem Has.lists_reads {q : Option NodeId} {number : Nat} : ∀ {m : Node},
    p.Has q (Dom.ofNode number m) →
      p.Lists [(Dom.ofNode number m).root] (Dom.ofNode number m).nodes ∧
        p.Reads [(Dom.ofNode number m).root] [m.settled]
  | .text content, there => by
    rw [Dom.ofNode, Has] at there
    refine ⟨?_, .text (content?_eq there) .nil⟩
    have leaf : p.Lists (p.children ⟨number⟩) [] := by
      rw [children_eq there]
      exact .nil
    exact .node leaf .nil
  | .element tag children, there => by
    rw [Dom.ofNode, Has] at there
    obtain ⟨lists, reads⟩ := HasAll.lists_reads there.2
    have below := (children_eq there.1).symm
    dsimp only at below
    rw [below] at lists reads
    refine ⟨?_, .element (content?_eq there.1) reads .nil⟩
    rw [Dom.ofNode, Dom.nodes, ← List.append_nil (Dom.nodesOf _)]
    exact .node lists .nil

/-- Trees of markup that are there are listed and read as what they are. -/
theorem HasAll.lists_reads {q : Option NodeId} {number : Nat} : ∀ {ms : List Node},
    p.HasAll q (Dom.ofNodes number ms) →
      p.Lists ((Dom.ofNodes number ms).map Dom.root) (Dom.nodesOf (Dom.ofNodes number ms)) ∧
        p.Reads ((Dom.ofNodes number ms).map Dom.root) (Node.settledAll ms)
  | [], _ => ⟨.nil, .nil⟩
  | m :: ms, there => by
    obtain ⟨lists, reads⟩ := Has.lists_reads there.1
    obtain ⟨lists', reads'⟩ := HasAll.lists_reads there.2
    exact ⟨lists.append lists', reads.append reads'⟩
end

namespace Forest

/-- The content of an element can be read. -/
theorem exists_reads (h : p.Forest) (n : NodeId) : ∃ ms, p.Reads (p.children n) ms :=
  (h.lists_below n).exists_reads (fun c mem => lt_size_of_parent? ((h.agree n c).1 mem)) h

/-- An element is written out as its content is read. -/
theorem toList_innerMarkup (h : p.Forest) (element : p.tag? n ≠ none)
    (reads : p.Reads (p.children n) ms) : (p.innerMarkup n).toList = Node.charsOf .double ms := by
  rw [reads.renders.unique (h.renders_innerMarkup element), Html.toList_writtenOf_ofNodes,
    reads.settledAll]

theorem textContent_eq (h : p.Forest) (element : p.tag? n ≠ none)
    (reads : p.Reads (p.children n) ms) : p.textContent n = Markup.allTextOf ms := by
  obtain ⟨tag, attributes, is⟩ := exists_element element
  obtain ⟨inner, kids, shown⟩ := (h.renders_textContent (lt_size_of_tag? element)).inner is
  rw [shown, reads.renders.unique kids, Html.writtenOf_ofNodes]

/-- **The markup of an element is read back** as the nodes of its content with their texts joined. -/
theorem parseFragment_innerMarkup (h : p.Forest) (element : p.tag? n ≠ none)
    (reads : p.Reads (p.children n) ms) (writable : Node.WritableAll ms) :
    Markup.parseFragment (p.innerMarkup n) = .ok (Node.joinedAll ms) := by
  have written : (p.innerMarkup n).toList = Node.charsOf .double (Node.joinedAll ms) := by
    rw [h.toList_innerMarkup element reads, Node.charsOf_joinedAll]
  rw [Markup.parseFragment_charsOf writable.joinedAll (Node.partedAll_joinedAll ms) .double written,
    Node.asWrittenAll_joinedAll]
  conv_lhs => rw [← reads.settledAll, Node.asWrittenAll_settledAll, reads.settledAll]

/-- Settled nodes that replace the content of an element are listed with new numbers in document order,
and are read as what they are. -/
theorem lists_reads_setNodes (h : p.Forest) (element : p.tag? m ≠ none)
    (settled : Node.settledAll ms = ms) :
    (p.setNodes m ms).Forest ∧ (p.setNodes m ms).tag? m ≠ none ∧
      (p.setNodes m ms).below m =
        (List.range' p.size ((p.setNodes m ms).size - p.size)).map NodeId.mk ∧
      (p.setNodes m ms).Reads ((p.setNodes m ms).children m) ms := by
  obtain ⟨forest, size, children, has⟩ := h.replaced element ms
  obtain ⟨lists, reads⟩ := has.lists_reads
  have content := h.content?_replaced element ms (lt_size_of_tag? element)
  unfold setNodes
  rw [← children] at lists reads
  refine ⟨forest, by rwa [tag?_congr content], ?_, by rwa [settled] at reads⟩
  rw [lists.unique (forest.lists_below m), Dom.nodesOf_ofNodes, size, Nat.add_sub_cancel_left]

end Forest

/-- **Content is copied by its markup**, on any page that can be reached and from any element to any
other, above or below it or itself, when all names below the first one are qualified names and all its
texts and values may occur in markup.  Setting the markup is not refused; it is read back as it was set,
and so is the text.  All nodes below the element are new then, and numbered in document order; they are
the old ones with adjacent texts joined and empty ones dropped. -/
theorem Reached.copied (reached : p.Reached) (source : p.tag? n ≠ none) (target : p.tag? m ≠ none)
    (writable : ∀ k, p.Below n k → ∀ content ∈ p.content? k, content.Writable) :
    ∃ p', exec (PageM.setMarkup m (p.innerMarkup n)) p = (.ok ⟨⟩, p') ∧
      p'.innerMarkup m = p.innerMarkup n ∧ p'.textContent m = p.textContent n ∧
      p'.below m = (List.range' p.size (p'.size - p.size)).map NodeId.mk ∧
      ∃ ms, p.Reads (p.children n) ms ∧ p'.Reads (p'.children m) (Node.joinedAll ms) := by
  have h := reached.forest
  obtain ⟨ms, reads⟩ := h.exists_reads n
  have good := reads.writableAll fun c mem k within => writable k ⟨c, mem, within⟩
  have settled : Node.settledAll (Node.joinedAll ms) = Node.joinedAll ms := by
    rw [Node.settledAll_joinedAll, reads.settledAll]
  obtain ⟨forest, element, numbers, reads'⟩ := h.lists_reads_setNodes target settled
  refine ⟨p.setNodes m (Node.joinedAll ms), ?_, ?_, ?_, numbers, ms, reads, reads'⟩
  · rw [PageM.exec_setMarkup]
    unfold Page.setMarkup readMarkup
    rw [if_neg fun none => target (Option.isNone_iff_eq_none.1 none),
      h.parseFragment_innerMarkup source reads good]
    rfl
  · rw [← String.toList_inj, forest.toList_innerMarkup element reads',
      h.toList_innerMarkup source reads, Node.charsOf_joinedAll]
  · rw [forest.textContent_eq element reads', h.textContent_eq source reads, Node.allTextOf_joinedAll]

/-- A paragraph in a box, with a text that is cut into three. -/
def cutText : List Operation :=
  [.createElement "div", .createElement "p", .createText "a", .createText "", .createText "b&",
   .setAttr ⟨1⟩ "id" "x>1", .append ⟨1⟩ ⟨2⟩, .append ⟨1⟩ ⟨3⟩, .append ⟨1⟩ ⟨4⟩, .append ⟨0⟩ ⟨1⟩]

/-- The content of the box is copied into the paragraph. -/
theorem Reached.copied_inwards : ∃ p',
    exec (PageM.setMarkup ⟨1⟩ "<p id=\"x&gt;1\">ab&amp;</p>") (afterAll cutText) = (.ok ⟨⟩, p') ∧
      p'.innerMarkup ⟨1⟩ = "<p id=\"x&gt;1\">ab&amp;</p>" ∧ p'.textContent ⟨1⟩ = "ab&" := by
  have reached : (afterAll cutText).Reached := reached_afterAll (by decide +kernel)
  have writable : ∀ k ∈ (afterAll cutText).below ⟨0⟩, ∀ content ∈ (afterAll cutText).content? k,
      content.Writable := by decide +kernel
  have markup : (afterAll cutText).innerMarkup ⟨0⟩ = "<p id=\"x&gt;1\">ab&amp;</p>" := by
    decide +kernel
  have text : (afterAll cutText).textContent ⟨0⟩ = "ab&" := by decide +kernel
  obtain ⟨p', set, shown, read, _⟩ := reached.copied (n := ⟨0⟩) (m := ⟨1⟩) (by decide +kernel)
    (by decide +kernel) fun k below => writable k (reached.forest.mem_below.2 below)
  rw [markup] at set shown
  exact ⟨p', set, shown, read.trans text⟩

end Page

end Formwork
