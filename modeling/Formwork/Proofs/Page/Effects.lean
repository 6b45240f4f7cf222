import Formwork.Proofs.OrderedMap
import Formwork.Proofs.Page.Import
import Formwork.Proofs.Page.Forest

/-!
# What changes do to children and attributes

A change to a forest is told by two views of it: the children of every node, and what every node is.
Moving nodes changes children only: a node that is taken out is missing among the children of every
node, a node that is appended comes last among those of its new parent.  Setting attributes changes what
one node is.

Appending is refused when the node contains its new parent; a node without children contains no other
(`Forest.append_leaf`).
-/

namespace Formwork

set_option autoImplicit false

namespace Page

variable {p p' : Page} {n m q c : NodeId} {name key value : String}

/-! ## What a node is -/

/-- What a node is: an element with its attributes, or text. -/
def content? (p : Page) (n : NodeId) : Option Content := (p.node? n).map PageNode.content

theorem tag?_congr (same : p'.content? n = p.content? n) : p'.tag? n = p.tag? n := by
  unfold content? at same
  unfold tag?
  rw [same]

theorem attr?_congr (same : p'.content? n = p.content? n) (name : String) :
    p'.attr? n name = p.attr? n name := by
  unfold content? at same
  unfold attr?
  rw [same]

theorem content?_update {f : PageNode → PageNode}
    (keeps : ∀ node, (f node).content = node.content) (m : NodeId) :
    (p.update n f).content? m = p.content? m := by
  unfold content?
  by_cases same : m = n
  · subst same
    rw [node?_update_self, Option.map_map]
    exact Option.map_congr fun node _ => keeps node
  · rw [node?_update_of_ne p f same]

theorem content?_detach (p : Page) (n m : NodeId) : (p.detach n).content? m = p.content? m := by
  unfold detach
  split
  · rfl
  · refine (content?_update ?_ m).trans (content?_update ?_ m) <;> exact fun _ => rfl

theorem content?_link (p : Page) (q c m : NodeId) : (p.link q c).content? m = p.content? m := by
  unfold link
  refine (content?_update ?_ m).trans (content?_update ?_ m) <;> exact fun _ => rfl

theorem content?_place (p : Page) (q c : NodeId) (cs : List NodeId) (m : NodeId) :
    (p.place q c cs).content? m = p.content? m := by
  refine (content?_update ?_ m).trans (content?_update ?_ m) <;> exact fun _ => rfl

theorem content?_append (run : p.append q c = .ok p') (m : NodeId) :
    p'.content? m = p.content? m := by
  obtain ⟨-, rfl⟩ := append_ok run
  exact (content?_link _ q c m).trans (content?_detach p c m)

theorem content?_create (content : Content) (known : m.index < p.size) :
    (p.create content).2.content? m = p.content? m := by
  unfold content?
  rw [node?_create_of_lt p content known]

/-! ## Attributes -/

theorem content?_updateAttrs_of_ne (f : OrderedMap String String → OrderedMap String String)
    (other : m ≠ n) : (p.updateAttrs n f).content? m = p.content? m := by
  unfold updateAttrs content?
  rw [node?_update_of_ne _ _ other]

@[simp]
theorem children_updateAttrs (p : Page) (n : NodeId)
    (f : OrderedMap String String → OrderedMap String String) (m : NodeId) :
    (p.updateAttrs n f).children m = p.children m := by
  refine children_update (fun node _ => ?_) m
  obtain ⟨content, place, below⟩ := node
  cases content <;> rfl

@[simp]
theorem parent?_updateAttrs (p : Page) (n : NodeId)
    (f : OrderedMap String String → OrderedMap String String) (m : NodeId) :
    (p.updateAttrs n f).parent? m = p.parent? m := by
  refine parent?_update (fun node _ => ?_) m
  obtain ⟨content, place, below⟩ := node
  cases content <;> rfl

@[simp]
theorem size_updateAttrs (p : Page) (n : NodeId)
    (f : OrderedMap String String → OrderedMap String String) : (p.updateAttrs n f).size = p.size :=
  size_update ..

/-- The attributes of an element that were changed. -/
theorem attr?_updateAttrs (f : OrderedMap String String → OrderedMap String String)
    (element : p.tag? n ≠ none) (name : String) : ∃ attributes, p.attr? n name = attributes.get? name ∧
      (p.updateAttrs n f).attr? n name = (f attributes).get? name := by
  unfold tag? at element
  unfold updateAttrs attr?
  rw [node?_update_self]
  cases found : p.node? n with
  | none =>
    rw [found] at element
    exact absurd rfl element
  | some node =>
    rw [found] at element
    obtain ⟨content, place, below⟩ := node
    cases content with
    | element tag attributes => exact ⟨attributes, rfl, rfl⟩
    | text content => exact absurd rfl element

theorem attr?_setAttr_self (element : p.tag? n ≠ none) (name value : String) :
    (p.setAttr n name value).attr? n name = some value := by
  obtain ⟨attributes, _, after⟩ :=
    attr?_updateAttrs (fun attributes => attributes.insert name value) element name
  exact after.trans (OrderedMap.get?_insert_self ..)

theorem attr?_setFlag_self (element : p.tag? n ≠ none) (name : String) (on : Bool) :
    (p.setFlag n name on).attr? n name = if on then some name else none := by
  cases on with
  | true => exact attr?_setAttr_self element name name
  | false =>
    obtain ⟨attributes, _, after⟩ :=
      attr?_updateAttrs (fun attributes => attributes.erase name) element name
    refine after.trans ?_
    rw [OrderedMap.get?_erase, if_pos rfl]
    rfl

/-- A change at one node is not seen at another, nor in an attribute that it keeps. -/
theorem attr?_updateAttrs_eq (f : OrderedMap String String → OrderedMap String String)
    (keeps : m = n → ∀ attributes, (f attributes).get? key = attributes.get? key) :
    (p.updateAttrs n f).attr? m key = p.attr? m key := by
  by_cases same : m = n
  · subst same
    unfold updateAttrs attr?
    rw [node?_update_self]
    cases found : p.node? m with
    | none => rfl
    | some node =>
      obtain ⟨content, place, below⟩ := node
      cases content with
      | element tag attributes => exact keeps rfl attributes
      | text content => rfl
  · exact attr?_congr (content?_updateAttrs_of_ne _ same) key

/-- An attribute set at one node is not seen at another, nor in another attribute. -/
theorem attr?_setAttr_of_ne (other : m ≠ n ∨ key ≠ name) :
    (p.setAttr n name value).attr? m key = p.attr? m key :=
  attr?_updateAttrs_eq _ fun same _ =>
    OrderedMap.get?_insert_of_ne _ _ (Ne.symm (other.resolve_left fun ne => ne same))

theorem attr?_setFlag_of_ne {on : Bool} (other : m ≠ n ∨ key ≠ name) :
    (p.setFlag n name on).attr? m key = p.attr? m key := by
  cases on with
  | true => exact attr?_setAttr_of_ne other
  | false =>
    refine attr?_updateAttrs_eq _ fun same attributes => ?_
    rw [OrderedMap.get?_erase, if_neg (Ne.symm (other.resolve_left fun ne => ne same))]

/-! ## Moving nodes -/

namespace Forest

/-- A node that was appended comes last among the children of its parent, and is no longer among those of
any other node. -/
theorem children_append (h : p.Forest) (run : p.append q c = .ok p') (m : NodeId) :
    p'.children m = (p.children m).filter (· ≠ c) ++ if m = q then [c] else [] := by
  obtain ⟨asked, rfl⟩ := append_ok run
  obtain ⟨element, ns, up, outside⟩ := h.of_checkPlace asked
  have ne : c ≠ q := by
    rintro rfl
    exact outside up.self_mem
  rw [← h.children_detach, children_link ne (by rw [size_detach]; exact lt_size_of_tag? element)]
  split
  · case isTrue there => rw [there]
  · case isFalse => rw [List.append_nil]

theorem size_append (run : p.append q c = .ok p') : p'.size = p.size := by
  obtain ⟨-, rfl⟩ := append_ok run
  rw [size_link, size_detach]

/-- A node is appended to every element that does not lie in it. -/
theorem exists_append (h : p.Forest) (element : p.tag? q ≠ none) {ns : List NodeId}
    (up : p.Ascends q ns) (outside : c ∉ ns) : ∃ p', p.append q c = .ok p' := by
  have asked : p.checkPlace q c = .ok () := by
    unfold checkPlace
    rw [h.contains_eq up, if_neg (fun text => element (Option.isNone_iff_eq_none.1 text)),
      if_neg (fun inside => outside (of_decide_eq_true inside))]
  refine ⟨(p.detach c).link q c, ?_⟩
  unfold Page.append
  rw [asked]
  rfl

/-- A node without children is appended to every other element. -/
theorem append_leaf (h : p.Forest) (element : p.tag? q ≠ none) (leaf : p.children c = [])
    (other : c ≠ q) : ∃ p', p.append q c = .ok p' := by
  obtain ⟨ns, up⟩ := h.rises q
  refine h.exists_append element up fun mem => ?_
  -- above the element only parents of nodes are met
  have above : ∀ {n ns}, p.Ascends n ns → c ≠ n → c ∉ ns := by
    intro n ns up
    induction up with
    | top => exact fun ne mem => ne (List.mem_singleton.1 mem)
    | @step n q _ lies _ ih =>
      intro ne mem
      rcases List.mem_cons.1 mem with rfl | mem
      · exact ne rfl
      · refine ih ?_ mem
        rintro rfl
        have listed := (h.agree c n).2 lies
        rw [leaf] at listed
        cases listed
  exact above up other mem

/-- Nodes are taken out one after the other. -/
theorem detachAll (h : p.Forest) : ∀ ns : List NodeId, (ns.foldl Page.detach p).Forest ∧
    (∀ m, (ns.foldl Page.detach p).children m = (p.children m).filter (· ∉ ns)) ∧
      ∀ m, (ns.foldl Page.detach p).content? m = p.content? m := by
  intro ns
  induction ns generalizing p with
  | nil => exact ⟨h, fun _ => (List.filter_eq_self.2 fun _ _ => rfl).symm, fun _ => rfl⟩
  | cons n ns ih =>
    obtain ⟨forest, children, contents⟩ := ih (h.detach n)
    refine ⟨forest, fun m => ?_, fun m => (contents m).trans (content?_detach p n m)⟩
    rw [List.foldl_cons, children, h.children_detach, List.filter_filter]
    refine List.filter_congr fun b _ => ?_
    simp [Bool.and_comm]

/-- A node is cleared by taking out its children. -/
theorem clear_eq (h : p.Forest) (n : NodeId) :
    p.clear n = (p.children n).foldl Page.detach p := by
  have steps : ∀ (cs : List NodeId) {p : Page}, p.Forest → cs.Nodup →
      (∀ c ∈ cs, p.parent? c = some n) →
      cs.foldl (fun p c => (p.remove n c).toOption.getD p) p = cs.foldl Page.detach p := by
    intro cs
    induction cs with
    | nil => exact fun _ _ _ => rfl
    | cons c cs ih =>
      intro p h distinct lie
      obtain ⟨first, rest⟩ := List.nodup_cons.1 distinct
      have taken : (p.remove n c).toOption.getD p = p.detach c := by
        unfold remove checkChild
        rw [if_pos (lie c List.mem_cons_self)]
        rfl
      rw [List.foldl_cons, List.foldl_cons, taken]
      refine ih (h.detach c) rest fun b mem => ?_
      rw [h.parent?_detach, if_neg]
      · exact lie b (List.mem_cons_of_mem _ mem)
      · rintro rfl
        exact first mem
  exact steps _ h (h.distinct n) fun c mem => (h.agree n c).1 mem

/-- A node is a child of one node only. -/
theorem eq_of_mem_children (h : p.Forest) (mem : c ∈ p.children n) (mem' : c ∈ p.children m) : n = m :=
  Option.some.inj (((h.agree n c).1 mem).symm.trans ((h.agree m c).1 mem'))

/-- Clearing a node leaves the children of the others alone. -/
theorem children_clear (h : p.Forest) (n m : NodeId) :
    (p.clear n).children m = if m = n then [] else p.children m := by
  rw [h.clear_eq, (h.detachAll _).2.1]
  by_cases same : m = n
  · subst same
    rw [if_pos rfl]
    exact List.filter_eq_nil_iff.2 fun c mem => by simpa using mem
  · rw [if_neg same]
    exact List.filter_eq_self.2 fun c mem => decide_eq_true fun mem' =>
      same (h.eq_of_mem_children mem mem')

theorem content?_clear (h : p.Forest) (n m : NodeId) :
    (p.clear n).content? m = p.content? m := by
  rw [h.clear_eq]
  exact (h.detachAll _).2.2 m

end Forest

/-! ## Content -/

namespace Forest

/-- Setting a text forgets no node. -/
theorem size_le_setText (h : p.Forest) (n : NodeId) (content : String) :
    p.size ≤ (p.setText n content).size := by
  have cleared := h.clear n
  unfold Page.setText
  split
  · exact Nat.le_of_eq (size_update ..).symm
  · dsimp only
    rw [← cleared.2.1]
    split
    · exact Nat.le_refl _
    · rw [size_link]
      exact Nat.le_of_lt (Nat.lt_of_lt_of_eq (Nat.lt_succ_self _) (size_create _ _).symm)

theorem setMarkupOrText (h : p.Forest) (n : NodeId) (html : String) :
    (p.setMarkupOrText n html).Forest := by
  unfold Page.setMarkupOrText
  cases run : p.setMarkup n html with
  | ok p' => exact h.setMarkup run
  | error e => exact h.setText n html

theorem size_le_setMarkupOrText (h : p.Forest) (n : NodeId) (html : String) :
    p.size ≤ (p.setMarkupOrText n html).size := by
  unfold Page.setMarkupOrText Page.setMarkup readMarkup
  split
  · case h_1 p' run =>
    by_cases text : (p.tag? n).isNone = true
    · rw [if_pos text] at run
      cases run
    · rw [if_neg text] at run
      cases read : Markup.parseFragment html with
      | error e =>
        rw [read] at run
        cases run
      | ok nodes =>
        rw [read] at run
        cases run
        obtain ⟨cleared, size, tags⟩ := h.clear n
        rw [← size]
        refine (cleared.importNodes nodes ?_).2.size_le
        rw [tags]
        exact fun none => text (by rw [none]; rfl)
  · exact h.size_le_setText n html

end Forest

/-! ## A new element with a text -/

/-- The text of an element without children. -/
theorem setText_of_leaf (h : p.Forest) (element : p.tag? n ≠ none) (leaf : p.children n = [])
    (content : String) : Extends p (p.setText n content) ∧
      (∀ m, m ≠ n → (p.setText n content).children m = p.children m) ∧
      ∀ m, m.index < p.size → (p.setText n content).content? m = p.content? m := by
  obtain ⟨tag, isElement⟩ := Option.ne_none_iff_exists'.1 element
  have grown := (h.importNodes (textNodes content) element).2
  rw [setText_eq isElement leaf]
  refine ⟨grown, ?_, ?_⟩
  · intro m other
    unfold textNodes
    split
    · rfl
    · have ne : (⟨p.size⟩ : NodeId) ≠ n := by
        rintro rfl
        exact Nat.lt_irrefl _ (lt_size_of_tag? element)
      show ((p.create (.text content)).2.link n ⟨p.size⟩).children m = p.children m
      rw [← children_create p (.text content) m]
      unfold children
      rw [node?_link ne, if_neg other]
      split
      · cases (p.create (.text content)).2.node? m <;> rfl
      · rfl
  · intro m known
    unfold textNodes
    split
    · rfl
    · exact (content?_link _ n _ m).trans (content?_create _ known)

end Page

end Formwork
