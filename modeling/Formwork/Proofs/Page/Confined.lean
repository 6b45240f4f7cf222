import Formwork.Proofs.Page.Layout
import Formwork.Proofs.Page.Steps
import Formwork.Proofs.Page.Subtrees

/-!
# Changes that stay above an older page

A page that rests on an older one (`Page.Rests`) has all of its nodes, as they were, and more.  Since
both are forests, no new node is a child of an old one nor has an old one as a child
(`Rests.new_iff`), so whatever is done to new nodes leaves the older page alone
(`Rests.of_views`).

`Page.Alters` is about the nodes that a change names, old or new: those in `into` may get other
attributes and other children, and nothing else happens to the nodes that were there.  What is shown of
a node stays as it was if none of these lies below it (`Alters.shares`).

`Page.Confined` is about a change above an older page, and says what it gave to nodes: children and
values only to the nodes in `into`.  Every operation of a page is confined when the nodes it names are
new; one that moves no old node is so because it alters only these (`Alters.confined`).
-/

namespace Formwork

set_option autoImplicit false

namespace Page

/-- A page on top of an older one, whose nodes are as they were. -/
structure Rests (base p : Page) : Prop where
  ground : base.Forest
  forest : p.Forest
  grows : base.Grows p

/-- A change of a page that rests on `base`: the nodes of `base` are left alone, elements stay elements,
and only nodes in `into` get children or another value. -/
structure Confined (base : Page) (into : NodeId → Prop) (p p' : Page) : Prop where
  rests : base.Rests p'
  size : p.size ≤ p'.size
  tag : ∀ n : NodeId, n.index < p.size → p'.tag? n = p.tag? n
  fewer : ∀ n : NodeId, n.index < p.size → ¬ into n → ∀ c ∈ p'.children n, c ∈ p.children n
  value : ∀ n : NodeId, n.index < p.size → ¬ into n → p'.attr? n "value" = p.attr? n "value"

/-- Nothing is given to any node. -/
def nowhere (_ : NodeId) : Prop := False

variable {base p p' p'' : Page} {into into' : NodeId → Prop} {n m q c : NodeId}

/-! ## Old nodes and new ones -/

theorem Grows.trans (h : p.Grows p') (h' : p'.Grows p'') : p.Grows p'' where
  size := Nat.le_trans h.size h'.size
  old n known := (h'.old n (Nat.lt_of_lt_of_le known h.size)).trans (h.old n known)

/-- A node is told by what it is, its parent and its children. -/
theorem node?_congr (known : n.index < p.size) (content : p'.content? n = p.content? n)
    (parent : p'.parent? n = p.parent? n) (children : p'.children n = p.children n) :
    p'.node? n = p.node? n := by
  obtain ⟨what, is⟩ := exists_content? known
  rw [node?_of_content? is, node?_of_content? (content.trans is), parent, children]

/-- A new element is one. -/
theorem tag?_createElement (p : Page) (tag : String) :
    (p.createElement tag).2.tag? ⟨p.size⟩ ≠ none := by
  unfold tag? createElement
  rw [node?_create, if_pos rfl]
  exact nofun

/-- A node with the same parent among all lists of children has the same parent. -/
theorem Forest.parent?_congr (h : p.Forest) (h' : p'.Forest)
    (same : ∀ q, n ∈ p'.children q ↔ n ∈ p.children q) : p'.parent? n = p.parent? n := by
  refine Option.ext fun q => ?_
  rw [← h.agree, ← h'.agree, same]

namespace Rests

/-- A page rests on itself. -/
theorem refl (h : p.Forest) : p.Rests p := ⟨h, h, .refl p⟩

/-- Old nodes have old children, and new nodes new ones. -/
theorem new_iff (h : base.Rests p) (mem : c ∈ p.children q) :
    base.size ≤ c.index ↔ base.size ≤ q.index := by
  refine not_iff_not.1 ?_
  rw [Nat.not_le, Nat.not_le]
  constructor
  · intro old
    have lies := (h.forest.agree q c).1 mem
    unfold parent? at lies
    rw [h.grows.old c old] at lies
    exact h.ground.lt_size_of_parent lies
  · intro old
    unfold children at mem
    rw [h.grows.old q old] at mem
    exact lt_size_of_parent? ((h.ground.agree q c).1 mem)

theorem new_of_parent (h : base.Rests p) (lies : p.parent? c = some q) :
    base.size ≤ c.index ↔ base.size ≤ q.index := h.new_iff ((h.forest.agree q c).2 lies)

/-- What lies below a new node is new. -/
theorem new_of_within (h : base.Rests p) (new : base.size ≤ q.index) (within : p.Within q n) :
    base.size ≤ n.index := by
  induction within with
  | self => exact new
  | child _ mem ih => exact (h.new_iff mem).2 ih

/-- **The older page is left alone** by a change that leaves what its nodes are and their children
alone, and puts none of its nodes anywhere. -/
theorem of_views (h : base.Rests p) (forest : p'.Forest) (size : p.size ≤ p'.size)
    (content : ∀ n : NodeId, n.index < base.size → p'.content? n = p.content? n)
    (children : ∀ n : NodeId, n.index < base.size → p'.children n = p.children n)
    (kept : ∀ q c : NodeId, c.index < base.size → c ∈ p'.children q → c ∈ p.children q) :
    base.Rests p' := by
  refine ⟨h.ground, forest, Nat.le_trans h.grows.size size, fun n old => ?_⟩
  rw [← h.grows.old n old]
  have known := Nat.lt_of_lt_of_le old h.grows.size
  refine node?_congr known (content n old) (h.forest.parent?_congr forest fun q => ?_)
    (children n old)
  refine ⟨kept q n old, fun mem => ?_⟩
  have above : q.index < base.size := by
    rw [← Nat.not_le, ← h.new_iff mem, Nat.not_le]
    exact old
  rwa [children q above]

end Rests

/-! ## Changes of single nodes -/

/-- A change of the nodes in `into`, and of new ones: every other node is what it was and has the
children it had, and no node that was there is put anywhere. -/
structure Alters (into : NodeId → Prop) (p p' : Page) : Prop where
  forest : p'.Forest
  size : p.size ≤ p'.size
  tag : ∀ n : NodeId, n.index < p.size → p'.tag? n = p.tag? n
  content : ∀ n : NodeId, n.index < p.size → ¬ into n → p'.content? n = p.content? n
  children : ∀ n : NodeId, n.index < p.size → ¬ into n → p'.children n = p.children n
  kept : ∀ q c : NodeId, c.index < p.size → c ∈ p'.children q → c ∈ p.children q

namespace Alters

theorem refl (h : p.Forest) : Alters into p p :=
  ⟨h, Nat.le_refl _, fun _ _ => rfl, fun _ _ _ => rfl, fun _ _ _ => rfl, fun _ _ _ mem => mem⟩

/-- A page that has grown. -/
theorem of_grows (h : p.Forest) (forest : p'.Forest) (grows : p.Grows p') : Alters into p p' where
  forest := forest
  size := grows.size
  tag n known := by unfold tag?; rw [grows.old n known]
  content n known _ := by unfold content?; rw [grows.old n known]
  children n known _ := by unfold Page.children; rw [grows.old n known]
  kept q c known mem := by
    have lies := (forest.agree q c).1 mem
    unfold parent? at lies
    rw [grows.old c known] at lies
    exact (h.agree q c).2 lies

theorem updateAttrs (h : Alters into p p') (here : into n)
    (f : OrderedMap String String → OrderedMap String String) :
    Alters into p (p'.updateAttrs n f) where
  forest := h.forest.updateAttrs n f
  size := Nat.le_trans h.size (Nat.le_of_eq (size_updateAttrs ..).symm)
  tag m known := (tag?_updateAttrs p' n f m).trans (h.tag m known)
  content m known other := by
    rw [content?_updateAttrs_of_ne f (by rintro rfl; exact other here), h.content m known other]
  children m known other := (children_updateAttrs p' n f m).trans (h.children m known other)
  kept q c known mem := h.kept q c known (by rwa [children_updateAttrs] at mem)

theorem setFlag (h : Alters into p p') (here : into n) (name : String) (on : Bool) :
    Alters into p (p'.setFlag n name on) := by
  cases on <;> exact h.updateAttrs here _

theorem clear (h : Alters into p p') (here : into n) : Alters into p (p'.clear n) := by
  obtain ⟨forest, size, tags⟩ := h.forest.clear n
  refine ⟨forest, size.symm ▸ h.size, fun m known => (tags m).trans (h.tag m known),
    fun m known other => (h.forest.content?_clear n m).trans (h.content m known other),
    fun m known other => ?_, fun q c known mem => ?_⟩
  · rw [h.forest.children_clear, if_neg (by rintro rfl; exact other here), h.children m known other]
  · rw [h.forest.children_clear] at mem
    split at mem
    · cases mem
    · exact h.kept q c known mem

theorem importNodes (h : Alters into p p') (here : into n) (element : p'.tag? n ≠ none)
    (ms : List Markup.Node) : Alters into p (p'.importNodes n ms) := by
  obtain ⟨forest, extends_⟩ := h.forest.importNodes ms element
  have imported := imported_nodes ms (lt_size_of_tag? element)
  have old : ∀ {m : NodeId}, m.index < p.size → m.index < p'.size := fun known =>
    Nat.lt_of_lt_of_le known h.size
  have others : ∀ m : NodeId, m.index < p.size → ¬ into m →
      (p'.importNodes n ms).node? m = p'.node? m := fun m known other =>
    imported.others m (old known) (by rintro rfl; exact other here)
  refine ⟨forest, Nat.le_trans h.size extends_.size_le,
    fun m known => (extends_.tag m (old known)).trans (h.tag m known), fun m known other => ?_,
    fun m known other => ?_, fun q c known mem => h.kept q c known ?_⟩
  · rw [← h.content m known other]
    unfold content?
    rw [others m known other]
  · rw [← h.children m known other]
    unfold Page.children
    rw [others m known other]
  · rwa [forest.agree, extends_.parent c (old known), ← h.forest.agree] at mem

theorem setNodes (h : Alters into p p') (here : into n) (element : p'.tag? n ≠ none)
    (ms : List Markup.Node) : Alters into p (p'.setNodes n ms) :=
  (h.clear here).importNodes here (by rwa [(h.forest.clear n).2.2]) ms

theorem setText (h : Alters into p p') (here : into n) (element : p'.tag? n ≠ none)
    (content : String) : Alters into p (p'.setText n content) := by
  rw [setText_eq_importNodes element]
  exact h.setNodes here element _

theorem setMarkupOrText (h : Alters into p p') (here : into n) (element : p'.tag? n ≠ none)
    (html : String) : Alters into p (p'.setMarkupOrText n html) := by
  rw [setMarkupOrText_eq_importNodes element]
  exact h.setNodes here element _

/-- A new node is put below one that is changed. -/
theorem append (h : Alters into p p') (forest : p.Forest) (here : into q) (new : p.size ≤ c.index)
    (known : c.index < p'.size) (run : p'.append q c = .ok p'') : Alters into p p'' where
  forest := h.forest.append known run
  size := Nat.le_trans h.size (Nat.le_of_eq (Forest.size_append run).symm)
  tag n old := (tag?_congr (content?_append run n)).trans (h.tag n old)
  content n old other := (content?_append run n).trans (h.content n old other)
  children n old other := by
    rw [h.forest.children_append run, if_neg (by rintro rfl; exact other here), List.append_nil,
      h.children n old other]
    refine List.filter_eq_self.2 fun b mem => decide_eq_true ?_
    rintro rfl
    exact Nat.not_lt.2 new (lt_size_of_parent? ((forest.agree n b).1 mem))
  kept m b old mem := by
    rw [h.forest.children_append run, List.mem_append] at mem
    rcases mem with there | joined
    · exact h.kept m b old (List.mem_of_mem_filter there)
    · split at joined
      · rw [List.mem_singleton.1 joined] at old
        exact absurd old (Nat.not_lt.2 new)
      · cases joined

/-- What lay below a node may be gone, but nothing that was there has come below it. -/
theorem within (h : Alters into p p') (old : n.index < p.size) (below : p'.Within q n) :
    p.Within q n := by
  induction below with
  | self => exact .self
  | child _ mem ih =>
    have there := h.kept _ _ old mem
    exact .child (ih (lt_size_of_mem_children there)) there

/-- What is shown of a node stays, if no node below it is changed. -/
theorem shares (h : Alters into p p') (forest : p.Forest) (known : q.index < p.size)
    (spared : ∀ n, p.Within q n → ¬ into n) : p.Shares p' q := fun n below =>
  ⟨h.content n (below.known forest known) (spared n below),
    h.children n (below.known forest known) (spared n below)⟩

end Alters

/-! ## Changes above an older page -/

/-- A change of new nodes leaves an older page alone. -/
theorem Alters.confined (h : Alters into p p') (rests : base.Rests p)
    (new : ∀ n, into n → base.size ≤ n.index) : Confined base into p p' where
  rests := by
    have old : ∀ {n : NodeId}, n.index < base.size → n.index < p.size ∧ ¬ into n := fun known =>
      ⟨Nat.lt_of_lt_of_le known rests.grows.size, fun is => Nat.not_le.2 known (new _ is)⟩
    exact rests.of_views h.forest h.size (fun n known => h.content n (old known).1 (old known).2)
      (fun n known => h.children n (old known).1 (old known).2)
      fun q c known => h.kept q c (old known).1
  size := h.size
  tag := h.tag
  fewer n known other c mem := by rwa [h.children n known other] at mem
  value n known other := attr?_congr (h.content n known other) "value"

namespace Confined

theorem refl (h : base.Rests p) : Confined base into p p :=
  ⟨h, Nat.le_refl _, fun _ _ => rfl, fun _ _ _ _ mem => mem, fun _ _ _ => rfl⟩

theorem mono (h : Confined base into p p') (wider : ∀ n, into n → into' n) :
    Confined base into' p p' :=
  ⟨h.rests, h.size, h.tag, fun n known outside => h.fewer n known fun mem => outside (wider n mem),
    fun n known outside => h.value n known fun mem => outside (wider n mem)⟩

theorem trans (h : Confined base into p p') (h' : Confined base into p' p'') :
    Confined base into p p'' where
  rests := h'.rests
  size := Nat.le_trans h.size h'.size
  tag n known := (h'.tag n (Nat.lt_of_lt_of_le known h.size)).trans (h.tag n known)
  fewer n known outside c mem :=
    h.fewer n known outside c (h'.fewer n (Nat.lt_of_lt_of_le known h.size) outside c mem)
  value n known outside :=
    (h'.value n (Nat.lt_of_lt_of_le known h.size) outside).trans (h.value n known outside)

theorem of_nowhere (h : Confined base nowhere p p') : Confined base into p p' :=
  h.mono fun _ => False.elim

/-- A change of one new node. -/
theorem of_alters (h : base.Rests p) (new : base.size ≤ n.index)
    (change : Alters (· = n) p p → Alters (· = n) p p') : Confined base (· = n) p p' :=
  (change (.refl h.forest)).confined h fun _ is => is ▸ new

/-- An element stays an element. -/
theorem element (h : Confined base into p p') (is : p.tag? n ≠ none) : p'.tag? n ≠ none := by
  rwa [h.tag n (lt_size_of_tag? is)]

/-- A page that has grown. -/
theorem of_grows (h : base.Rests p) (forest : p'.Forest) (grows : p.Grows p') :
    Confined base nowhere p p' :=
  (Alters.of_grows h.forest forest grows).confined h fun _ => False.elim

theorem create (h : base.Rests p) (content : Content) :
    Confined base nowhere p (p.create content).2 :=
  of_grows h (h.forest.create content)
    ⟨Nat.le_of_lt (Nat.lt_of_lt_of_eq (Nat.lt_succ_self _) (size_create p content).symm),
      fun _ known => node?_create_of_lt p content known⟩

/-! ## Attributes -/

theorem updateAttrs (h : base.Rests p) (new : base.size ≤ n.index)
    (f : OrderedMap String String → OrderedMap String String) :
    Confined base (· = n) p (p.updateAttrs n f) :=
  of_alters h new fun start => start.updateAttrs rfl f

theorem setAttr (h : base.Rests p) (new : base.size ≤ n.index) {name : String} (value : String)
    (other : name ≠ "value") : Confined base nowhere p (p.setAttr n name value) :=
  { updateAttrs h new _ with
    fewer := fun m _ _ c mem => by rwa [Page.setAttr, children_updateAttrs] at mem
    value := fun _ _ _ => attr?_setAttr_of_ne (.inr other.symm) }

theorem setFlag (h : base.Rests p) (new : base.size ≤ n.index) {name : String} (on : Bool)
    (other : name ≠ "value") : Confined base nowhere p (p.setFlag n name on) := by
  cases on with
  | true => exact setAttr h new name other
  | false =>
    have erased : Confined base (· = n) p (p.removeAttr n name) := updateAttrs h new _
    exact { erased with
      fewer := fun m _ _ c mem => by
        rwa [Page.setFlag, if_neg Bool.false_ne_true, removeAttr, children_updateAttrs] at mem
      value := fun _ _ _ => attr?_setFlag_of_ne (.inr other.symm) }

/-! ## Moving nodes -/

theorem detach (h : base.Rests p) (new : base.size ≤ n.index) :
    Confined base nowhere p (p.detach n) where
  rests := by
    refine h.of_views (h.forest.detach n) (Nat.le_of_eq (size_detach p n).symm)
      (fun m _ => content?_detach p n m) (fun m old => ?_) fun q c _ mem => ?_
    · rw [h.forest.children_detach]
      refine List.filter_eq_self.2 fun c mem => decide_eq_true ?_
      rintro rfl
      exact absurd ((h.new_iff mem).1 new) (Nat.not_le.2 old)
    · rw [h.forest.children_detach] at mem
      exact List.mem_of_mem_filter mem
  size := Nat.le_of_eq (size_detach p n).symm
  tag m _ := tag?_detach p n m
  fewer m _ _ c mem := by
    rw [h.forest.children_detach] at mem
    exact List.mem_of_mem_filter mem
  value m _ _ := attr?_congr (content?_detach p n m) "value"

/-- A node that is put below another: the children are those that were there, and the node. -/
theorem hang (h : base.Rests p) (new : base.size ≤ q.index) (new' : base.size ≤ c.index)
    (forest : p'.Forest) (size : p'.size = p.size) (tag : ∀ n, p'.tag? n = p.tag? n)
    (content : ∀ n, p'.content? n = p.content? n)
    (others : ∀ n, n ≠ q → p'.children n = (p.children n).filter (· ≠ c))
    (own : ∀ b ∈ p'.children q, b = c ∨ b ∈ p.children q) : Confined base (· = q) p p' where
  rests := by
    refine h.of_views forest (Nat.le_of_eq size.symm) (fun n _ => content n) (fun n old => ?_)
      fun n b old mem => ?_
    · rw [others n (by rintro rfl; omega)]
      refine List.filter_eq_self.2 fun b mem => decide_eq_true ?_
      rintro rfl
      exact absurd ((h.new_iff mem).1 new') (Nat.not_le.2 old)
    · by_cases same : n = q
      · subst same
        rcases own b mem with rfl | there
        · exact absurd new' (Nat.not_le.2 old)
        · exact there
      · rw [others n same] at mem
        exact List.mem_of_mem_filter mem
  size := Nat.le_of_eq size.symm
  tag n _ := tag n
  fewer n _ other b mem := by
    rw [others n other] at mem
    exact List.mem_of_mem_filter mem
  value n _ _ := attr?_congr (content n) "value"

theorem append (h : base.Rests p) (new : base.size ≤ q.index) (new' : base.size ≤ c.index)
    (known : c.index < p.size) (run : p.append q c = .ok p') : Confined base (· = q) p p' := by
  refine hang h new new' (h.forest.append known run) (Forest.size_append run)
    (fun n => tag?_congr (content?_append run n)) (content?_append run) (fun n other => ?_) ?_
  · rw [h.forest.children_append run, if_neg other, List.append_nil]
  · intro b mem
    rw [h.forest.children_append run, if_pos rfl, List.mem_append, List.mem_singleton] at mem
    exact mem.symm.imp id List.mem_of_mem_filter

/-- All children of a node are taken away. -/
theorem clear (h : base.Rests p) (new : base.size ≤ n.index) :
    Confined base nowhere p (p.clear n) :=
  { of_alters h new fun start => start.clear rfl with
    fewer := fun m _ _ c mem => by
      rw [h.forest.children_clear] at mem
      split at mem
      · cases mem
      · exact mem
    value := fun m _ _ => attr?_congr (h.forest.content?_clear n m) "value" }

/-- A free node that is put before another stands between the children that were there. -/
theorem hang_putBefore (new : q ≠ c) (known : q.index < p.size) {r : NodeId}
    (run : p.putBefore q c r = .ok p') : p'.size = p.size ∧ (∀ n, p'.content? n = p.content? n) ∧
      (∀ n, n ≠ q → p'.children n = p.children n) ∧
      ∀ b ∈ p'.children q, b = c ∨ b ∈ p.children q := by
  obtain ⟨front, back, listed, rfl⟩ := putBefore_ok run
  refine ⟨size_place .., content?_place _ _ _ _, fun n other => ?_, fun b mem => ?_⟩
  · rw [children_place new.symm known, if_neg other]
  · rw [children_place new.symm known, if_pos rfl] at mem
    rw [listed]
    simp only [List.mem_append, List.mem_cons] at mem ⊢
    tauto

/-- A node that is put before another. -/
theorem insertBefore (h : base.Rests p) (new : base.size ≤ q.index) (new' : base.size ≤ c.index)
    (known : c.index < p.size) {r : NodeId} (run : p.insertBefore q c r = .ok p') :
    Confined base (· = q) p p' := by
  rcases insertBefore_ok run with ⟨_, rfl⟩ | ⟨_, asked, run⟩
  · exact refl h
  · obtain ⟨free, element, ns, up, outside⟩ := h.forest.place_detach asked
    have forest := (h.forest.detach c).putBefore free (by rwa [size_detach]) element up outside run
    have ne : q ≠ c := by
      rintro rfl
      exact outside up.self_mem
    obtain ⟨size, content, others, own⟩ := hang_putBefore ne (lt_size_of_tag? element) run
    refine hang h new new' forest (size.trans (size_detach p c))
      (fun n => (tag?_congr (content n)).trans (tag?_detach p c n))
      (fun n => (content n).trans (content?_detach p c n)) (fun n other => ?_) fun b mem => ?_
    · rw [others n other, h.forest.children_detach]
    · refine (own b mem).imp id fun there => ?_
      rw [h.forest.children_detach] at there
      exact List.mem_of_mem_filter there

/-- A node that is put before another, or is left behind when this comes to nothing. -/
theorem exec_insertBefore (h : base.Rests p) (new : base.size ≤ q.index)
    (new' : base.size ≤ c.index) (known : c.index < p.size) (r : NodeId) :
    Confined base (· = q) p (exec (PageM.insertBefore q c r) p).2 := by
  rcases PageM.exec_insertBefore q c r p with whole | ⟨_, _, _, e, _, _, late⟩
  · rw [whole]
    cases run : p.insertBefore q c r with
    | ok p' => exact insertBefore h new new' known run
    | error e => exact refl h
  · rw [late]
    exact of_nowhere (detach h new')

theorem exec_append (h : base.Rests p) (new : base.size ≤ q.index) (new' : base.size ≤ c.index)
    (known : c.index < p.size) : Confined base (· = q) p (exec (PageM.append q c) p).2 := by
  rw [PageM.exec_append]
  cases run : p.append q c with
  | ok p' => exact append h new new' known run
  | error e => exact refl h

theorem exec_remove (h : base.Rests p) (new : base.size ≤ c.index) :
    Confined base nowhere p (exec (PageM.remove q c) p).2 := by
  rw [PageM.exec_remove]
  unfold Page.remove
  cases p.checkChild q c with
  | ok u => exact detach h new
  | error e => exact refl h

/-! ## New content -/

/-- New content in place of the old one. -/
theorem setNodes (h : base.Rests p) (new : base.size ≤ n.index) (element : p.tag? n ≠ none)
    (ms : List Markup.Node) : Confined base (· = n) p (p.setNodes n ms) :=
  of_alters h new fun start => start.setNodes rfl element ms

theorem setText (h : base.Rests p) (new : base.size ≤ n.index) (element : p.tag? n ≠ none)
    (content : String) : Confined base (· = n) p (p.setText n content) :=
  of_alters h new fun start => start.setText rfl element content

theorem setMarkupOrText (h : base.Rests p) (new : base.size ≤ n.index) (element : p.tag? n ≠ none)
    (html : String) : Confined base (· = n) p (p.setMarkupOrText n html) :=
  of_alters h new fun start => start.setMarkupOrText rfl element html

end Confined

end Page

end Formwork
