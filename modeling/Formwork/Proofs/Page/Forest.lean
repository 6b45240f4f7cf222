import Formwork.Proofs.Page.Read
import Formwork.Proofs.Page.Steps
import Formwork.Proofs.Page.Swap

/-!
# A page is an ordered forest

Every node records its parent and its children.  On a page that is made by the operations on pages
the two agree, no node is listed twice, texts have no children, and following parents from any node
ends at a node that lies nowhere (`Page.Forest`).

An operation puts a node somewhere in two steps: the node is taken out of its place, and then it is
hung into the new one.  Either step keeps the forest (`Forest.detach`, `Forest.hang`); hanging does so
because the new parent was found not to lie below the node.
-/

namespace Formwork

set_option autoImplicit false

namespace Page

/-! ## Following parents -/

/-- From a node one comes to its parent, to the parent of that, and so on up to a node that lies
nowhere; the nodes are listed in this order. -/
inductive Ascends (p : Page) : NodeId → List NodeId → Prop where
  | top {n : NodeId} : p.parent? n = none → Ascends p n [n]
  | step {n q : NodeId} {ns : List NodeId} :
      p.parent? n = some q → Ascends p q ns → Ascends p n (n :: ns)

namespace Ascends

variable {p p' : Page} {m n : NodeId} {ms ns : List NodeId}

theorem unique (h : p.Ascends n ns) (h' : p.Ascends n ms) : ms = ns := by
  induction h generalizing ms with
  | top nowhere =>
    cases h' with
    | top => rfl
    | step lies => cases nowhere.symm.trans lies
  | step lies _ ih =>
    cases h' with
    | top nowhere => cases nowhere.symm.trans lies
    | step lies' above =>
      cases lies.symm.trans lies'
      rw [ih above]

/-- Leaving the parents of the passed nodes alone leaves the way alone. -/
theorem congr (h : p.Ascends n ns) (same : ∀ m ∈ ns, p'.parent? m = p.parent? m) :
    p'.Ascends n ns := by
  induction h with
  | top nowhere => exact .top ((same _ List.mem_cons_self).trans nowhere)
  | step lies _ ih =>
    exact .step ((same _ List.mem_cons_self).trans lies)
      (ih fun m mem => same m (List.mem_cons_of_mem _ mem))

/-- The way from a node that is passed is the rest of the way. -/
theorem of_mem (h : p.Ascends n ns) (mem : m ∈ ns) : ∃ ms, p.Ascends m ms ∧ ms <:+ ns := by
  induction h with
  | top nowhere =>
    cases List.mem_singleton.1 mem
    exact ⟨_, .top nowhere, List.suffix_refl _⟩
  | step lies above ih =>
    rcases List.mem_cons.1 mem with rfl | mem
    · exact ⟨_, .step lies above, List.suffix_refl _⟩
    · obtain ⟨ms, rest, short⟩ := ih mem
      exact ⟨ms, rest, short.trans (List.suffix_cons ..)⟩

/-- No node is passed twice. -/
theorem nodup (h : p.Ascends n ns) : ns.Nodup := by
  induction h with
  | top => exact List.nodup_singleton _
  | step lies above ih =>
    refine List.nodup_cons.2 ⟨fun mem => ?_, ih⟩
    -- the way from the node would be a part of itself
    obtain ⟨ms, again, short⟩ := above.of_mem mem
    have le := short.length_le
    rw [(step lies above).unique again, List.length_cons] at le
    exact Nat.not_succ_le_self _ le

theorem self_mem (h : p.Ascends n ns) : n ∈ ns := by
  cases h <;> exact List.mem_cons_self

/-- The walk upwards finds the whole way when it takes enough steps. -/
theorem lineageUpTo_eq (h : p.Ascends n ns) {steps : Nat} (enough : ns.length ≤ steps) :
    p.lineageUpTo steps n = ns := by
  induction h generalizing steps with
  | top nowhere =>
    obtain ⟨steps, rfl⟩ := Nat.exists_eq_add_of_le' enough
    rw [List.length_singleton, lineageUpTo, nowhere]
    rfl
  | step lies _ ih =>
    obtain ⟨steps, rfl⟩ := Nat.exists_eq_add_of_le' enough
    rw [List.length_cons, ← Nat.add_assoc, lineageUpTo, lies]
    exact congrArg _ (ih (Nat.le_add_left _ _))

end Ascends

/-! ## Forests -/

/-- Parents and children agree, no child is listed twice, texts have no children, and following
parents comes to an end. -/
structure Forest (p : Page) : Prop where
  agree : ∀ q c, c ∈ p.children q ↔ p.parent? c = some q
  distinct : ∀ q, (p.children q).Nodup
  bare : ∀ n, p.tag? n = none → p.children n = []
  rises : ∀ n, ∃ ns, p.Ascends n ns

theorem lt_size_of_tag? {p : Page} {n : NodeId} (element : p.tag? n ≠ none) :
    n.index < p.size := by
  by_contra large
  unfold tag? at element
  rw [node?_eq_none (Nat.le_of_not_lt large)] at element
  exact element rfl

theorem lt_size_of_mem_children {p : Page} {q c : NodeId} (mem : c ∈ p.children q) :
    q.index < p.size := by
  by_contra large
  unfold children at mem
  rw [node?_eq_none (Nat.le_of_not_lt large)] at mem
  cases mem

namespace Forest

variable {p p' : Page} {q c n : NodeId} {ns : List NodeId}

theorem lt_size_of_parent (h : p.Forest) (lies : p.parent? c = some q) : q.index < p.size :=
  lt_size_of_mem_children ((h.agree q c).2 lies)

/-- One comes to nodes of the page only. -/
theorem lt_size (h : p.Forest) (up : p.Ascends n ns) (known : n.index < p.size) :
    ∀ m ∈ ns, m.index < p.size := by
  induction up with
  | top =>
    intro m mem
    cases List.mem_singleton.1 mem
    exact known
  | step lies _ ih =>
    intro m mem
    rcases List.mem_cons.1 mem with rfl | mem
    · exact known
    · exact ih (h.lt_size_of_parent lies) m mem

theorem length_le_size (h : p.Forest) (up : p.Ascends n ns) (known : n.index < p.size) :
    ns.length ≤ p.size :=
  Page.length_le_size up.nodup (h.lt_size up known)

/-- The walk upwards is long enough. -/
theorem lineage_eq (h : p.Forest) (up : p.Ascends n ns) : p.lineage n = ns := by
  refine up.lineageUpTo_eq ?_
  cases up with
  | top => exact Nat.succ_le_succ (Nat.zero_le _)
  | step lies above =>
    exact Nat.succ_le_succ (h.length_le_size above (h.lt_size_of_parent lies))

theorem contains_eq (h : p.Forest) (up : p.Ascends n ns) (a : NodeId) :
    p.contains a n = decide (a ∈ ns) := by
  unfold contains
  rw [h.lineage_eq up]

/-! ## Changes that move nothing -/

theorem empty : Page.empty.Forest where
  agree _ _ := ⟨nofun, nofun⟩
  distinct _ := List.nodup_nil
  bare _ _ := rfl
  rises n := ⟨[n], .top rfl⟩

/-- A change that keeps all parents and children, and no parent of which becomes a text. -/
theorem congr (h : p.Forest) (parents : ∀ n, p'.parent? n = p.parent? n)
    (children : ∀ n, p'.children n = p.children n)
    (bare : ∀ n, p'.tag? n = none → p.children n = []) : p'.Forest where
  agree q c := by rw [children, parents, h.agree]
  distinct q := by
    rw [children]
    exact h.distinct q
  bare n text := by rw [children, bare n text]
  rises n := by
    obtain ⟨ns, up⟩ := h.rises n
    exact ⟨ns, up.congr fun m _ => parents m⟩

end Forest

theorem children_create (p : Page) (content : Content) (n : NodeId) :
    (p.create content).2.children n = p.children n := by
  unfold children
  rw [node?_create]
  split
  · case isTrue new =>
    rw [node?_eq_none (Nat.le_of_eq (congrArg NodeId.index new).symm)]
    rfl
  · rfl

theorem tag?_create_of_lt (p : Page) (content : Content) {n : NodeId} (known : n.index < p.size) :
    (p.create content).2.tag? n = p.tag? n := by
  unfold tag?
  rw [node?_create_of_lt p content known]

/-- A change that keeps the children of its node keeps all children. -/
theorem children_update {p : Page} {n : NodeId} {f : PageNode → PageNode}
    (keeps : ∀ node, p.node? n = some node → (f node).children = node.children) (m : NodeId) :
    (p.update n f).children m = p.children m := by
  unfold children
  by_cases same : m = n
  · subst same
    rw [node?_update_self]
    cases found : p.node? m with
    | none => rfl
    | some node => exact keeps node found
  · rw [node?_update_of_ne p f same]

/-- A change that leaves an element what it is keeps all tags. -/
theorem tag?_update {p : Page} {n : NodeId} {f : PageNode → PageNode}
    (keeps : ∀ node, p.node? n = some node → (f node).content = node.content) (m : NodeId) :
    (p.update n f).tag? m = p.tag? m := by
  unfold tag?
  by_cases same : m = n
  · subst same
    rw [node?_update_self]
    cases found : p.node? m with
    | none => rfl
    | some node => rw [Option.map_some, Option.map_some, Option.map_some, keeps node found]
  · rw [node?_update_of_ne p f same]

theorem tag?_updateAttrs (p : Page) (n : NodeId)
    (f : OrderedMap String String → OrderedMap String String) (m : NodeId) :
    (p.updateAttrs n f).tag? m = p.tag? m := by
  unfold updateAttrs tag?
  by_cases same : m = n
  · subst same
    rw [node?_update_self]
    cases p.node? m with
    | none => rfl
    | some node =>
      obtain ⟨content, place, below⟩ := node
      cases content <;> rfl
  · rw [node?_update_of_ne _ _ same]

theorem tag?_detach (p : Page) (n m : NodeId) : (p.detach n).tag? m = p.tag? m := by
  unfold detach
  split
  · rfl
  · refine (tag?_update ?_ m).trans (tag?_update ?_ m) <;> exact fun _ _ => rfl

theorem tag?_link (p : Page) (q c m : NodeId) : (p.link q c).tag? m = p.tag? m := by
  unfold link
  refine (tag?_update ?_ m).trans (tag?_update ?_ m) <;> exact fun _ _ => rfl

theorem parent?_eq_none {p : Page} {n : NodeId} (unknown : p.size ≤ n.index) :
    p.parent? n = none := by
  unfold parent?
  rw [node?_eq_none unknown]
  rfl

theorem exists_node? {p : Page} {n : NodeId} (known : n.index < p.size) :
    ∃ node, p.node? n = some node :=
  ⟨p.nodes[n.index], Array.getElem?_eq_getElem known⟩

/-! ## Nodes below an element -/

section Place

variable {p p' : Page} {q c : NodeId}

theorem parent?_link (ne : c ≠ q) (known : c.index < p.size) (m : NodeId) :
    (p.link q c).parent? m = if m = c then some q else p.parent? m := by
  obtain ⟨node, found⟩ := exists_node? known
  split
  · case isTrue same => rw [same, parent?_link_self ne found]
  · case isFalse other => exact parent?_link_of_ne ne other

theorem children_link (ne : c ≠ q) (known : q.index < p.size) (m : NodeId) :
    (p.link q c).children m = if m = q then p.children q ++ [c] else p.children m := by
  obtain ⟨node, found⟩ := exists_node? known
  unfold children
  rw [node?_link ne]
  by_cases there : m = q
  · rw [if_pos there, if_pos there, there, found]
    rfl
  · rw [if_neg there, if_neg there]
    split
    · cases p.node? m <;> rfl
    · rfl

/-- A node gets its place below an element with the children that the element has then. -/
def place (p : Page) (q c : NodeId) (cs : List NodeId) : Page :=
  (p.update c fun node => { node with parent := some q }).update q fun node =>
    { node with children := cs }

theorem size_place (p : Page) (q c : NodeId) (cs : List NodeId) : (p.place q c cs).size = p.size := by
  unfold place
  rw [size_update, size_update]

/-- Putting a node before another finds the other one and splits the children there. -/
theorem putBefore_ok {r : NodeId} (run : p.putBefore q c r = .ok p') :
    ∃ front back, p.children q = front ++ r :: back ∧
      p' = p.place q c (front ++ c :: r :: back) := by
  unfold Page.putBefore at run
  rw [List.span_eq_takeWhile_dropWhile] at run
  dsimp only at run
  cases found : (p.children q).dropWhile (· ≠ r) with
  | nil =>
    rw [found] at run
    cases run
  | cons b back =>
    have here : b = r := by
      have stops := List.head?_dropWhile_not (· ≠ r) (p.children q)
      rw [found] at stops
      simpa using stops
    subst here
    rw [found] at run
    cases run
    refine ⟨_, back, ?_, rfl⟩
    rw [← found, List.takeWhile_append_dropWhile]

/-- A node that is appended is taken out of its place and linked. -/
theorem append_ok (run : p.append q c = .ok p') :
    p.checkPlace q c = .ok () ∧ p' = (p.detach c).link q c := by
  unfold Page.append at run
  cases asked : p.checkPlace q c with
  | error e =>
    rw [asked] at run
    cases run
  | ok u =>
    rw [asked] at run
    cases run
    exact ⟨rfl, rfl⟩

/-- A node that is inserted before another is taken out of its place first; before itself it stays where
it is. -/
theorem insertBefore_ok {r : NodeId} (run : p.insertBefore q c r = .ok p') : c = r ∧ p' = p ∨
    c ≠ r ∧ p.checkPlace q c = .ok () ∧ (p.detach c).putBefore q c r = .ok p' := by
  unfold Page.insertBefore at run
  cases child : p.checkChild q r with
  | error e =>
    rw [child] at run
    cases run
  | ok u =>
    rw [child] at run
    change (if c = r then .ok p else p.checkPlace q c >>= fun _ =>
      (p.detach c).putBefore q c r) = Except.ok p' at run
    by_cases same : c = r
    · rw [if_pos same] at run
      cases run
      exact .inl ⟨same, rfl⟩
    · rw [if_neg same] at run
      cases asked : p.checkPlace q c with
      | error e =>
        rw [asked] at run
        cases run
      | ok u =>
        rw [asked] at run
        exact .inr ⟨same, rfl, run⟩

/-- Only a child of a node is removed from it. -/
theorem remove_ok (run : p.remove q c = .ok p') : p.parent? c = some q ∧ p' = p.detach c := by
  unfold Page.remove checkChild at run
  by_cases lies : p.parent? c = some q
  · rw [if_pos lies] at run
    cases run
    exact ⟨lies, rfl⟩
  · rw [if_neg lies] at run
    cases run

theorem parent?_place (known : c.index < p.size) (cs : List NodeId) (m : NodeId) :
    (p.place q c cs).parent? m = if m = c then some q else p.parent? m := by
  obtain ⟨node, found⟩ := exists_node? known
  refine (parent?_update ?_ m).trans ?_
  · exact fun _ _ => rfl
  unfold parent?
  by_cases same : m = c
  · rw [if_pos same, same, node?_update_self, found]
    rfl
  · rw [if_neg same, node?_update_of_ne _ _ same]

theorem children_place (ne : c ≠ q) (known : q.index < p.size) (cs : List NodeId) (m : NodeId) :
    (p.place q c cs).children m = if m = q then cs else p.children m := by
  obtain ⟨node, found⟩ := exists_node? known
  by_cases there : m = q
  · unfold children place
    rw [if_pos there, there, node?_update_self, node?_update_of_ne _ _ ne.symm, found]
    rfl
  · have kept : (p.update c fun node => { node with parent := some q }).children m =
        p.children m := by
      refine children_update ?_ m
      exact fun _ _ => rfl
    rw [if_neg there, ← kept]
    unfold children place
    rw [node?_update_of_ne _ _ there]

end Place

namespace Forest

variable {p p' : Page} {q c n : NodeId} {ns : List NodeId}

theorem create (h : p.Forest) (content : Content) : (p.create content).2.Forest := by
  refine h.congr (parent?_create p content) (children_create p content) fun n text => ?_
  by_cases known : n.index < p.size
  · exact h.bare n ((tag?_create_of_lt p content known).symm.trans text)
  · unfold children
    rw [node?_eq_none (Nat.le_of_not_lt known)]
    rfl

theorem updateAttrs (h : p.Forest) (n : NodeId)
    (f : OrderedMap String String → OrderedMap String String) : (p.updateAttrs n f).Forest := by
  refine h.congr (parent?_update fun node _ => ?_) (children_update fun node _ => ?_)
    fun m text => h.bare m ((tag?_updateAttrs p n f m).symm.trans text)
  · obtain ⟨content, place, below⟩ := node
    cases content <;> rfl
  · obtain ⟨content, place, below⟩ := node
    cases content <;> rfl

/-- A text that becomes another text. -/
theorem rewrite (h : p.Forest) (text : p.tag? n = none) (content : String) :
    (p.update n fun node => { node with content := .text content }).Forest := by
  refine h.congr (parent?_update fun _ _ => rfl) (children_update fun _ _ => rfl) fun m text' => ?_
  by_cases same : m = n
  · exact same ▸ h.bare n text
  · refine h.bare m ?_
    unfold tag? at text' ⊢
    rwa [node?_update_of_ne _ _ same] at text'

/-! ## Taking a node out -/

theorem parent?_ne_self (h : p.Forest) (n : NodeId) : p.parent? n ≠ some n := by
  intro lies
  obtain ⟨ns, up⟩ := h.rises n
  have twice := (Ascends.step lies up).nodup
  exact (List.nodup_cons.1 twice).1 up.self_mem

theorem parent?_detach (h : p.Forest) (n m : NodeId) :
    (p.detach n).parent? m = if m = n then none else p.parent? m :=
  Page.parent?_detach (h.parent?_ne_self n) m

theorem children_detach (h : p.Forest) (n m : NodeId) :
    (p.detach n).children m = (p.children m).filter (· ≠ n) := by
  have loop := h.parent?_ne_self n
  have untouched : p.parent? n ≠ some m → (p.children m).filter (· ≠ n) = p.children m := by
    exact fun elsewhere => filter_ne_of_not_mem fun mem => elsewhere ((h.agree m n).1 mem)
  by_cases here : m = n
  · subst here
    rw [untouched loop]
    unfold children
    rw [node?_detach loop, if_pos rfl]
    cases p.node? m <;> rfl
  · by_cases parent : p.parent? n = some m
    · unfold children
      rw [node?_detach loop, if_neg here, if_pos parent]
      cases p.node? m <;> rfl
    · rw [untouched parent]
      unfold children
      rw [node?_detach loop, if_neg here, if_neg parent]

/-- **Taking a node out** of the tree it lies in keeps the forest. -/
theorem detach (h : p.Forest) (n : NodeId) : (p.detach n).Forest where
  agree q c := by
    rw [h.children_detach, h.parent?_detach, List.mem_filter, h.agree]
    by_cases same : c = n
    · simp [same]
    · simp [same]
  distinct q := by
    rw [h.children_detach]
    exact (h.distinct q).filter _
  bare m text := by
    rw [tag?_detach] at text
    rw [h.children_detach, h.bare m text]
    rfl
  rises m := by
    obtain ⟨ns, up⟩ := h.rises m
    -- the way from below the node ends at the node now
    induction up with
    | top nowhere =>
      refine ⟨_, .top ?_⟩
      rw [h.parent?_detach, nowhere, ite_self]
    | @step m q ns lies _ ih =>
      by_cases same : m = n
      · exact ⟨_, .top (by rw [h.parent?_detach, if_pos same])⟩
      · obtain ⟨ms, up⟩ := ih
        exact ⟨_, .step (by rw [h.parent?_detach, if_neg same, lies]) up⟩

/-! ## Hanging a node below another -/

/-- **Hanging a node** that lies nowhere below an element that does not lie below it: the element gets
a child more at some place. -/
theorem hang (h : p.Forest) (free : p.parent? c = none) (element : p.tag? q ≠ none)
    (up : p.Ascends q ns) (outside : c ∉ ns) {front back : List NodeId}
    (before : p.children q = front ++ back)
    (parents : ∀ m, p'.parent? m = if m = c then some q else p.parent? m)
    (children : ∀ m, p'.children m = if m = q then front ++ c :: back else p.children m)
    (tags : ∀ m, p'.tag? m = p.tag? m) : p'.Forest := by
  have absent : ∀ m, c ∉ p.children m := fun m mem => by
    have lies := (h.agree m c).1 mem
    rw [free] at lies
    cases lies
  have absent' : c ∉ front ++ back := before ▸ absent q
  -- the way up from the element is the old one
  have above : p'.Ascends q ns := up.congr fun m mem => by
    rw [parents, if_neg]
    rintro rfl
    exact outside mem
  constructor
  · intro m b
    rw [children, parents]
    by_cases new : b = c
    · subst new
      rw [if_pos rfl]
      by_cases there : m = q
      · simp [there]
      · rw [if_neg there]
        exact ⟨fun mem => absurd mem (absent m), fun same => absurd (Option.some.inj same).symm there⟩
    · rw [if_neg new, ← h.agree]
      by_cases there : m = q
      · rw [if_pos there, there, before, List.mem_append, List.mem_cons, List.mem_append]
        simp [new]
      · rw [if_neg there]
  · intro m
    rw [children]
    split
    · have distinct := h.distinct q
      rw [before] at distinct
      exact (List.nodup_middle).2 (List.nodup_cons.2 ⟨absent', distinct⟩)
    · exact h.distinct m
  · intro m text
    rw [tags] at text
    rw [children, if_neg, h.bare m text]
    rintro rfl
    exact element text
  · intro m
    obtain ⟨ms, way⟩ := h.rises m
    induction way with
    | @top m nowhere =>
      by_cases same : m = c
      · exact ⟨_, .step (by rw [parents, if_pos same]) above⟩
      · exact ⟨_, .top (by rw [parents, if_neg same, nowhere])⟩
    | @step m b _ lies _ ih =>
      have other : m ≠ c := by
        rintro rfl
        rw [free] at lies
        cases lies
      obtain ⟨ks, rest⟩ := ih
      exact ⟨_, .step (by rw [parents, if_neg other, lies]) rest⟩

/-- A free node is hung behind the children of an element. -/
theorem link (h : p.Forest) (free : p.parent? c = none) (known : c.index < p.size)
    (element : p.tag? q ≠ none) (up : p.Ascends q ns) (outside : c ∉ ns) : (p.link q c).Forest := by
  have ne : c ≠ q := by
    rintro rfl
    exact outside up.self_mem
  refine h.hang free element up outside (List.append_nil _).symm (parent?_link ne known)
    (fun m => ?_) (tag?_link p q c)
  rw [children_link ne (lt_size_of_tag? element)]

/-- What is asked before a node is put below another: the other one is an element, and it does not
lie below the node. -/
theorem of_checkPlace (h : p.Forest) (asked : p.checkPlace q c = .ok ()) :
    p.tag? q ≠ none ∧ ∃ ns, p.Ascends q ns ∧ c ∉ ns := by
  obtain ⟨ns, up⟩ := h.rises q
  unfold checkPlace at asked
  rw [h.contains_eq up] at asked
  by_cases text : (p.tag? q).isNone = true
  · rw [if_pos text] at asked
    cases asked
  · by_cases inside : c ∈ ns
    · rw [if_neg text, if_pos (decide_eq_true inside)] at asked
      cases asked
    · exact ⟨fun none => text (by rw [none]; rfl), ns, up, inside⟩

/-- A node that may be put somewhere still may when it was taken out of its place. -/
theorem place_detach (h : p.Forest) (asked : p.checkPlace q c = .ok ()) :
    (p.detach c).parent? c = none ∧ (p.detach c).tag? q ≠ none ∧
      ∃ ns, (p.detach c).Ascends q ns ∧ c ∉ ns := by
  obtain ⟨element, ns, up, outside⟩ := h.of_checkPlace asked
  refine ⟨?_, ?_, ns, up.congr fun m mem => ?_, outside⟩
  · rw [h.parent?_detach, if_pos rfl]
  · rwa [tag?_detach]
  · rw [h.parent?_detach, if_neg]
    rintro rfl
    exact outside mem

theorem append (h : p.Forest) (known : c.index < p.size) (run : p.append q c = .ok p') :
    p'.Forest := by
  obtain ⟨asked, rfl⟩ := append_ok run
  obtain ⟨free, element, ns, up, outside⟩ := h.place_detach asked
  exact (h.detach c).link free (by rwa [size_detach]) element up outside

/-- A free node is hung before a child of an element. -/
theorem putBefore (h : p.Forest) (free : p.parent? c = none) (known : c.index < p.size)
    (element : p.tag? q ≠ none) (up : p.Ascends q ns) (outside : c ∉ ns)
    (run : p.putBefore q c n = .ok p') : p'.Forest := by
  have ne : c ≠ q := by
    rintro rfl
    exact outside up.self_mem
  obtain ⟨front, back, listed, rfl⟩ := putBefore_ok run
  refine h.hang free element up outside listed (parent?_place known _)
    (children_place ne (lt_size_of_tag? element) _) fun m => ?_
  refine (tag?_update ?_ m).trans (tag?_update ?_ m) <;> exact fun _ _ => rfl

/-! ## Replacing content -/

/-- Taking the children away one by one. -/
theorem clear (h : p.Forest) (n : NodeId) :
    (p.clear n).Forest ∧ (p.clear n).size = p.size ∧ ∀ m, (p.clear n).tag? m = p.tag? m := by
  unfold Page.clear
  generalize p.children n = cs
  induction cs generalizing p with
  | nil => exact ⟨h, rfl, fun _ => rfl⟩
  | cons c cs ih =>
    rw [List.foldl_cons]
    have step : (p.remove n c).toOption.getD p = p.detach c ∨
        (p.remove n c).toOption.getD p = p := by
      unfold remove checkChild
      split
      · exact .inl rfl
      · exact .inr rfl
    rcases step with taken | refused
    · obtain ⟨forest, size, tags⟩ := ih (h.detach c)
      rw [taken]
      exact ⟨forest, by rw [size, size_detach], fun m => by rw [tags, tag?_detach]⟩
    · rw [refused]
      exact ih h

end Forest

/-- A page that has grown: old nodes lie where they lay and are what they were. -/
structure Extends (p p' : Page) : Prop where
  size_le : p.size ≤ p'.size
  parent : ∀ m : NodeId, m.index < p.size → p'.parent? m = p.parent? m
  tag : ∀ m : NodeId, m.index < p.size → p'.tag? m = p.tag? m

namespace Extends

variable {p p' p'' : Page}

theorem refl (p : Page) : Extends p p := ⟨Nat.le_refl _, fun _ _ => rfl, fun _ _ => rfl⟩

theorem trans (h : Extends p p') (h' : Extends p' p'') : Extends p p'' where
  size_le := Nat.le_trans h.size_le h'.size_le
  parent m known := (h'.parent m (Nat.lt_of_lt_of_le known h.size_le)).trans (h.parent m known)
  tag m known := (h'.tag m (Nat.lt_of_lt_of_le known h.size_le)).trans (h.tag m known)

theorem create (p : Page) (content : Content) : Extends p (p.create content).2 where
  size_le := Nat.le_of_lt (by rw [size_create]; exact Nat.lt_succ_self _)
  parent m _ := parent?_create p content m
  tag m known := tag?_create_of_lt p content known

/-- Linking a node that is new moves no old node. -/
theorem link (h : Extends p p') {q c : NodeId} (ne : c ≠ q) (new : p.size ≤ c.index) :
    Extends p (p'.link q c) where
  size_le := by
    rw [size_link]
    exact h.size_le
  parent m known := by
    have other : m ≠ c := by
      rintro rfl
      exact Nat.not_lt.2 new known
    exact (parent?_link_of_ne ne other).trans (h.parent m known)
  tag m known := (tag?_link p' q c m).trans (h.tag m known)

end Extends

namespace Forest

variable {p p' : Page} {n : NodeId}

/-- A new node is linked below an old one, whatever was put below the new one in between. -/
theorem link_new (h : p.Forest) (h' : p'.Forest) (grown : Extends p p')
    (free : p'.parent? ⟨p.size⟩ = none) (known : p.size < p'.size) (element : p.tag? n ≠ none) :
    (p'.link n ⟨p.size⟩).Forest ∧ Extends p (p'.link n ⟨p.size⟩) := by
  obtain ⟨ns, up⟩ := h.rises n
  have old := h.lt_size up (lt_size_of_tag? element)
  have outside : (⟨p.size⟩ : NodeId) ∉ ns := fun mem => Nat.lt_irrefl _ (old _ mem)
  have ne : (⟨p.size⟩ : NodeId) ≠ n := by
    rintro rfl
    exact outside up.self_mem
  refine ⟨h'.link free known ?_ (up.congr fun m mem => grown.parent m (old m mem)) outside,
    grown.link ne (Nat.le_refl _)⟩
  rwa [grown.tag n (lt_size_of_tag? element)]

mutual
/-- Importing markup below an element keeps the forest. -/
theorem importNode : ∀ (m : Markup.Node) {p : Page} {n : NodeId}, p.Forest → p.tag? n ≠ none →
    (p.importNode n m).Forest ∧ Extends p (p.importNode n m)
  | .text content, p, n, h, element => by
    have known : p.size < (p.create (.text content)).2.size := by
      rw [size_create]
      exact Nat.lt_succ_self _
    exact h.link_new (h.create (.text content)) (.create p _)
      ((parent?_create p _ _).trans (parent?_eq_none (Nat.le_refl _))) known element
  | .element tag children, p, n, h, element => by
    have created : p.importNode n (.element tag children) =
        ((p.create (.element tag.qname tag.plainAttributes)).2.importNodes ⟨p.size⟩
          children).link n ⟨p.size⟩ := rfl
    have made := h.create (.element tag.qname tag.plainAttributes)
    have grown := Extends.create p (.element tag.qname tag.plainAttributes)
    have free := (parent?_create p (.element tag.qname tag.plainAttributes) ⟨p.size⟩).trans
      (parent?_eq_none (Nat.le_refl _))
    have new : (p.create (.element tag.qname tag.plainAttributes)).2.tag? ⟨p.size⟩ ≠ none := by
      unfold tag?
      rw [node?_create, if_pos rfl]
      exact nofun
    rw [created]
    generalize (p.create (.element tag.qname tag.plainAttributes)).2 = p' at made grown free new
    obtain ⟨filled, grown'⟩ := importNodes children made new
    have known := lt_size_of_tag? new
    refine h.link_new filled (grown.trans grown') ?_ (Nat.lt_of_lt_of_le known grown'.size_le) element
    rw [grown'.parent _ known, free]

theorem importNodes : ∀ (ms : List Markup.Node) {p : Page} {n : NodeId}, p.Forest →
    p.tag? n ≠ none → (p.importNodes n ms).Forest ∧ Extends p (p.importNodes n ms)
  | [], p, _, h, _ => ⟨h, .refl p⟩
  | m :: ms, p, n, h, element => by
    obtain ⟨first, grown⟩ := importNode m h element
    obtain ⟨rest, grown'⟩ := importNodes ms first
      (by rwa [grown.tag n (lt_size_of_tag? element)])
    exact ⟨rest, grown.trans grown'⟩
end

theorem setMarkup (h : p.Forest) {html : String} (run : p.setMarkup n html = .ok p') :
    p'.Forest := by
  unfold Page.setMarkup readMarkup at run
  by_cases text : (p.tag? n).isNone = true
  · rw [if_pos text] at run
    cases run
  · rw [if_neg text] at run
    cases read : Markup.parseFragment html with
    | error e =>
      rw [read] at run
      cases run
    | ok nodes =>
      rw [read] at run
      cases run
      obtain ⟨cleared, _, tags⟩ := h.clear n
      refine (importNodes nodes cleared ?_).1
      rw [tags]
      exact fun none => text (by rw [none]; rfl)

theorem setText (h : p.Forest) (n : NodeId) (content : String) : (p.setText n content).Forest := by
  unfold Page.setText
  by_cases text : (p.tag? n).isNone = true
  · rw [if_pos text]
    exact h.rewrite (Option.isNone_iff_eq_none.1 text) content
  · rw [if_neg text]
    obtain ⟨cleared, _, tags⟩ := h.clear n
    dsimp only
    by_cases blank : content = ""
    · rw [if_pos blank]
      exact cleared
    · have element : (p.clear n).tag? n ≠ none := by
        rw [tags]
        exact fun none => text (by rw [none]; rfl)
      rw [if_neg blank]
      exact (importNode (.text content) cleared element).1

end Forest

end Page

end Formwork
