import Formwork.Proofs.Page.Operations
import Formwork.Proofs.Page.Subtrees

/-!
# Document order

In a document a node comes before everything below it, and of two siblings the earlier one comes with
all that lies below it before the later one (`Page.Precedes`).  On a forest this is an order: no node
comes before a node that comes before it (`Forest.precedes_asymm`).  The nodes below a node are listed
in document order, each once (`Page.Lists`, `Forest.lists_below`).

A search by identifier goes from a node to its first child and then from sibling to sibling.  The walk
over the siblings meets the children as they are listed (`Page.Visits`), the search answers with the
first node in document order that has the identifier, and no other answer can be derived
(`Reached.searches_first`).
-/

namespace Formwork

set_option autoImplicit false

namespace Page

/-- A node lies below another, at any depth. -/
def Below (p : Page) (a n : NodeId) : Prop := ∃ c ∈ p.children a, p.Within c n

/-- One node comes before another in document order: the other lies below it, or the two lie in
siblings, the earlier one in the earlier sibling. -/
inductive Precedes (p : Page) : NodeId → NodeId → Prop where
  | above {m n : NodeId} : p.Below m n → Precedes p m n
  | aside {q c d m n : NodeId} : [c, d].Sublist (p.children q) → p.Within c m → p.Within d n →
      Precedes p m n

/-- Nodes with everything below them, each before what lies below it. -/
inductive Lists (p : Page) : List NodeId → List NodeId → Prop where
  | nil : Lists p [] []
  | node {n : NodeId} {ns inner rest : List NodeId} : Lists p (p.children n) inner →
      Lists p ns rest → Lists p (n :: ns) (n :: (inner ++ rest))

/-- A walk from a node to its next sibling, to the next one of that, and so on. -/
inductive Visits (p : Page) : Option NodeId → List NodeId → Prop where
  | done : Visits p none []
  | next {c : NodeId} {cs : List NodeId} : Visits p (p.nextSibling? c) cs →
      Visits p (some c) (c :: cs)

variable {p : Page} {a b c d m n q root : NodeId} {ns ms inner : List NodeId} {id : String}

/-! ## Nodes below a node -/

theorem Below.of_child (within : p.Within a n) (mem : c ∈ p.children n) : p.Below a c := by
  induction within generalizing c with
  | self => exact ⟨c, mem, .self⟩
  | child _ inner ih =>
    obtain ⟨d, there, below⟩ := ih inner
    exact ⟨d, there, below.child mem⟩

/-- A node in another is that one, or it lies below it. -/
theorem within_iff : p.Within a n ↔ n = a ∨ p.Below a n := by
  constructor
  · rintro (_ | ⟨within, mem⟩)
    · exact .inl rfl
    · exact .inr (.of_child within mem)
  · rintro (rfl | ⟨c, mem, within⟩)
    · exact .self
    · exact (Within.child .self mem).trans within

theorem Below.within (below : p.Below a n) : p.Within a n := within_iff.2 (.inr below)

theorem Below.trans_within (below : p.Below a n) (within : p.Within n m) : p.Below a m := by
  obtain ⟨c, mem, inner⟩ := below
  exact ⟨c, mem, inner.trans within⟩

/-- The way up from a node passes the nodes that it lies in. -/
theorem Within.ascends (h : p.Forest) (up : p.Ascends a ns) (within : p.Within a n) :
    ∃ ms, p.Ascends n (ms ++ ns) := by
  induction within with
  | self => exact ⟨[], up⟩
  | child _ mem ih =>
    obtain ⟨ms, way⟩ := ih
    exact ⟨_ :: ms, .step ((h.agree _ _).1 mem) way⟩

namespace Forest

/-- No node lies below itself. -/
theorem not_below_self (h : p.Forest) (n : NodeId) : ¬p.Below n n := by
  rintro ⟨c, mem, within⟩
  obtain ⟨ns, up⟩ := h.rises n
  obtain ⟨ms, again⟩ := within.ascends h (.step ((h.agree n c).1 mem) up)
  have longer := congrArg List.length (again.unique up)
  rw [List.length_append, List.length_cons] at longer
  omega

/-- Of two nodes that have a node in common, one lies in the other. -/
theorem within_or_within (h : p.Forest) (inA : p.Within a n) (inB : p.Within b n) :
    p.Within a b ∨ p.Within b a := by
  induction inA with
  | self => exact .inr inB
  | child inA mem ih =>
    cases inB with
    | self => exact .inl (inA.child mem)
    | child inB mem' =>
      have same := ((h.agree _ _).1 mem).symm.trans ((h.agree _ _).1 mem')
      exact ih (Option.some.inj same ▸ inB)

/-- A child does not lie in its siblings. -/
theorem eq_of_within_sibling (h : p.Forest) (memC : c ∈ p.children q) (memD : d ∈ p.children q)
    (within : p.Within c d) : c = d := by
  cases within with
  | self => rfl
  | child within mem =>
    have same := ((h.agree _ _).1 mem).symm.trans ((h.agree _ _).1 memD)
    rw [Option.some.inj same] at within
    exact absurd (Below.of_child within memC) (h.not_below_self c)

/-- Siblings have no node in common. -/
theorem sibling_eq (h : p.Forest) (memC : c ∈ p.children q) (memD : d ∈ p.children q)
    (inC : p.Within c n) (inD : p.Within d n) : c = d := by
  rcases h.within_or_within inC inD with within | within
  · exact h.eq_of_within_sibling memC memD within
  · exact (h.eq_of_within_sibling memD memC within).symm

end Forest

/-! ## Document order is an order -/

/-- A list without repetitions has one order. -/
theorem not_sublist_swap {l : List NodeId} (distinct : l.Nodup) (cd : [c, d].Sublist l) :
    ¬[d, c].Sublist l := by
  intro dc
  have ordered : ∀ {x y : NodeId}, [x, y].Sublist l → l.idxOf x < l.idxOf y := by
    intro x y sub
    obtain ⟨front, back, rfl, there, below⟩ := List.cons_sublist_iff.1 sub
    have absent : y ∉ front := fun mem =>
      (List.nodup_append.1 distinct).2.2 y mem y (below.subset List.mem_cons_self) rfl
    rw [List.idxOf_append_of_mem there, List.idxOf_append_of_notMem absent]
    exact Nat.lt_of_lt_of_le (List.idxOf_lt_length_of_mem there) (Nat.le_add_right ..)
  exact Nat.lt_asymm (ordered cd) (ordered dc)

namespace Forest

theorem ne_of_pair (h : p.Forest) (pair : [c, d].Sublist (p.children q)) : c ≠ d := by
  rintro rfl
  have twice := (h.distinct q).sublist pair
  simp at twice

/-- Nothing lies in both of two siblings. -/
theorem not_within_pair (h : p.Forest) (pair : [c, d].Sublist (p.children q)) (inC : p.Within c n) :
    ¬p.Within d n := fun inD =>
  h.ne_of_pair pair (h.sibling_eq (pair.subset List.mem_cons_self)
    (pair.subset (List.mem_cons_of_mem _ List.mem_cons_self)) inC inD)

/-- Two pairs of siblings that hold the same nodes in either order are children of one node. -/
theorem not_below_pair (h : p.Forest) {q' c' d' : NodeId} (pair : [c, d].Sublist (p.children q))
    (pair' : [d', c'].Sublist (p.children q')) (inC : p.Within c m) (inD : p.Within d n)
    (inC' : p.Within c' m) (inD' : p.Within d' n) : ¬p.Below q q' := by
  rintro ⟨e, mem, within⟩
  -- the child that the other pair lies in would be either one of this pair
  have first := h.sibling_eq mem (pair.subset List.mem_cons_self)
    ((within.child (pair'.subset (List.mem_cons_of_mem _ List.mem_cons_self))).trans inC') inC
  have second := h.sibling_eq mem (pair.subset (List.mem_cons_of_mem _ List.mem_cons_self))
    ((within.child (pair'.subset List.mem_cons_self)).trans inD') inD
  exact h.ne_of_pair pair (first.symm.trans second)

/-- **Document order has no cycles**: a node does not come before one that comes before it. -/
theorem precedes_asymm (h : p.Forest) (before : p.Precedes m n) : ¬p.Precedes n m := by
  intro behind
  cases before with
  | above below =>
    cases behind with
    | above below' => exact h.not_below_self _ (below.trans_within below'.within)
    | aside pair inC inD => exact h.not_within_pair pair inC (inD.trans below.within)
  | @aside q c d _ _ pair inC inD =>
    cases behind with
    | above below => exact h.not_within_pair pair inC (inD.trans below.within)
    | @aside q' d' c' _ _ pair' inD' inC' =>
      have memC := pair.subset List.mem_cons_self
      have memC' := pair'.subset (List.mem_cons_of_mem _ List.mem_cons_self)
      have holds : p.Within q m := (Within.child .self memC).trans inC
      have holds' : p.Within q' m := (Within.child .self memC').trans inC'
      have same : q = q' := by
        rcases h.within_or_within holds holds' with within | within
        · rcases within_iff.1 within with same | below
          · exact same.symm
          · exact absurd below (h.not_below_pair pair pair' inC inD inC' inD')
        · rcases within_iff.1 within with same | below
          · exact same
          · exact absurd below (h.not_below_pair pair' pair inD' inC' inD inC)
      subst same
      have first := h.sibling_eq memC memC' inC inC'
      have second := h.sibling_eq (pair.subset (List.mem_cons_of_mem _ List.mem_cons_self))
        (pair'.subset List.mem_cons_self) inD inD'
      subst first second
      exact not_sublist_swap (h.distinct q) pair pair'

end Forest

/-! ## Listing what lies below a node -/

theorem children_eq_nil (unknown : p.size ≤ n.index) : p.children n = [] := by
  unfold children
  rw [node?_eq_none unknown]
  rfl

theorem below_eq_nil (bare : p.children n = []) : p.below n = [] := by
  unfold below
  cases p.size with
  | zero => rfl
  | succ levels => rw [belowUpTo, bare, List.flatMap_nil]

namespace Lists

theorem append {ns' ms' : List NodeId} (h : p.Lists ns ms) (h' : p.Lists ns' ms') :
    p.Lists (ns ++ ns') (ms ++ ms') := by
  induction h with
  | nil => exact h'
  | node inner _ _ ih =>
    rw [List.cons_append, List.cons_append, List.append_assoc]
    exact .node inner ih

/-- Nodes are listed one by one. -/
theorem all {f : NodeId → List NodeId} : ∀ {ns : List NodeId},
    (∀ n ∈ ns, p.Lists (p.children n) (f n)) → p.Lists ns (ns.flatMap fun n => n :: f n)
  | [], _ => .nil
  | n :: ns, each => by
    rw [List.flatMap_cons, List.cons_append]
    exact .node (each n List.mem_cons_self) (all fun m mem => each m (List.mem_cons_of_mem _ mem))

/-- The nodes that are listed are those that lie in the nodes asked for. -/
theorem mem_iff (h : p.Lists ns ms) : m ∈ ms ↔ ∃ n ∈ ns, p.Within n m := by
  induction h with
  | nil => simp
  | node _ _ ihInner ih =>
    rw [List.mem_cons, List.mem_append, ihInner, ih, List.exists_mem_cons_iff, within_iff, or_assoc]
    rfl

/-- Siblings with what lies below them are listed in document order. -/
theorem pairwise (h : p.Lists ns ms) {before : List NodeId}
    (listed : p.children q = before ++ ns) : ms.Pairwise p.Precedes := by
  induction h generalizing q before with
  | nil => exact .nil
  | @node n ns inner rest lists lists' ihInner ih =>
    have behind : p.children q = (before ++ [n]) ++ ns := by rw [listed, List.append_assoc]; rfl
    have pair : ∀ d ∈ ns, [n, d].Sublist (p.children q) := fun d mem => by
      rw [listed]
      exact ((List.singleton_sublist.2 mem).cons_cons n).trans (List.sublist_append_right ..)
    have later : ∀ k ∈ rest, ∀ m, p.Within n m → p.Precedes m k := fun k mem m within => by
      obtain ⟨d, among, inner⟩ := lists'.mem_iff.1 mem
      exact .aside (pair d among) within inner
    refine List.pairwise_cons.2 ⟨fun k mem => ?_, List.pairwise_append.2
      ⟨ihInner (List.nil_append _).symm, ih behind, fun m mem k mem' => ?_⟩⟩
    · rcases List.mem_append.1 mem with mem | mem
      · exact .above (lists.mem_iff.1 mem)
      · exact later k mem n .self
    · exact later k mem' m (Below.within (lists.mem_iff.1 mem))

end Lists

namespace Forest

/-- A listing ends, when there are levels for the nodes that are not above it. -/
theorem lists_belowUpTo (h : p.Forest) : ∀ (levels : Nat) {n : NodeId} {ns : List NodeId},
    p.Ascends n ns → n.index < p.size → p.size < levels + ns.length →
      p.Lists (p.children n) (p.belowUpTo levels n)
  | 0, n, ns, up, known, enough => by
    have short := h.length_le_size up known
    omega
  | levels + 1, n, ns, up, known, enough => by
    refine Lists.all fun c mem => ?_
    obtain ⟨up', known'⟩ := h.ascends_child up mem
    exact lists_belowUpTo h levels up' known' (by rw [List.length_cons]; omega)

/-- The nodes below a node are listed in document order. -/
theorem lists_below (h : p.Forest) (n : NodeId) : p.Lists (p.children n) (p.below n) := by
  by_cases known : n.index < p.size
  · obtain ⟨ns, up⟩ := h.rises n
    have some : 0 < ns.length := List.length_pos_of_mem up.self_mem
    exact h.lists_belowUpTo p.size up known (by omega)
  · have bare := children_eq_nil (Nat.le_of_not_lt known)
    rw [bare, below_eq_nil bare]
    exact .nil

theorem mem_below (h : p.Forest) : n ∈ p.below root ↔ p.Below root n := (h.lists_below root).mem_iff

theorem pairwise_below (h : p.Forest) (n : NodeId) : (p.below n).Pairwise p.Precedes :=
  (h.lists_below n).pairwise (List.nil_append _).symm

end Forest

/-! ## Searching -/

/-- A search has one answer. -/
theorem Searches.unique {start answer answer' : Option NodeId} (h : p.Searches id start answer)
    (h' : p.Searches id start answer') : answer' = answer := by
  induction h generalizing answer' with
  | none =>
    cases h'
    rfl
  | here found =>
    cases h' with
    | here => rfl
    | inside other | next other => exact absurd found other
  | inside other _ ih =>
    cases h' with
    | here found => exact absurd found other
    | inside _ inner => exact ih inner
    | next _ inner => cases ih inner
  | next other _ _ ihInner ih =>
    cases h' with
    | here found => exact absurd found other
    | inside _ inner => cases ihInner inner
    | next _ _ behind => exact ih behind

theorem Visits.unique {start : Option NodeId} (h : p.Visits start ns) (h' : p.Visits start ms) :
    ms = ns := by
  induction h generalizing ms with
  | done =>
    cases h'
    rfl
  | next _ ih =>
    cases h' with
    | next behind => rw [ih behind]

namespace Forest

/-- The walk over the siblings behind some children meets the rest of the children. -/
theorem visits_siblings (h : p.Forest) : ∀ {before rest : List NodeId},
    p.children q = before ++ rest → p.Visits rest.head? rest
  | _, [], _ => .done
  | before, c :: rest, listed => by
    refine .next ?_
    have behind : p.children q = (before ++ [c]) ++ rest := by
      rw [listed, List.append_assoc]
      rfl
    rw [h.nextSibling?_eq listed]
    exact visits_siblings h behind

theorem visits_children (h : p.Forest) (n : NodeId) : p.Visits (p.firstChild? n) (p.children n) :=
  h.visits_siblings (List.nil_append _).symm

/-- A search below any node ends, with the answer of the page. -/
theorem searches (h : p.Forest) (root : NodeId) (id : String) :
    p.Searches id (p.firstChild? root) (p.byId? root id) := by
  by_cases known : root.index < p.size
  · exact h.searches_byId id known
  · have bare := children_eq_nil (Nat.le_of_not_lt known)
    unfold firstChild? byId?
    rw [bare, below_eq_nil bare]
    exact .none

/-- What is found is the first of the nodes below that have the identifier. -/
theorem precedes_of_byId? (h : p.Forest) (found : p.byId? root id = some n) (below : p.Below root m)
    (named : p.attr? m "id" = some id) : m = n ∨ p.Precedes n m := by
  obtain ⟨-, before, behind, listed, none⟩ := List.find?_eq_some_iff_append.1 found
  have mem := h.mem_below.2 below
  have ordered := h.pairwise_below root
  rw [listed] at mem ordered
  rcases List.mem_append.1 mem with mem | mem
  · have skipped := none m mem
    simp [named] at skipped
  · rcases List.mem_cons.1 mem with same | mem
    · exact .inl same
    · exact .inr (List.rel_of_pairwise_cons (List.pairwise_append.1 ordered).2.1 mem)

end Forest

/-- **Searching by identifier**, on any page that can be reached: going from a node to its first child
and from sibling to sibling comes to an end, with one answer, the one of the page.  It is the node
below the root that has the identifier and comes before all others that have it in document order;
there is no answer when no node below the root has it.  The walk over siblings that the search is made
of meets the children of a node in the order they are listed in. -/
theorem Reached.searches_first (reached : p.Reached) (root : NodeId) (id : String) :
    (∀ answer, p.Searches id (p.firstChild? root) answer ↔ answer = p.byId? root id) ∧
    (∀ n, p.byId? root id = some n ↔ p.Below root n ∧ p.attr? n "id" = some id ∧
      ∀ m, p.Below root m → p.attr? m "id" = some id → m = n ∨ p.Precedes n m) ∧
    (p.byId? root id = none ↔ ∀ m, p.Below root m → p.attr? m "id" ≠ some id) ∧
    ∀ n cs, p.Visits (p.firstChild? n) cs ↔ cs = p.children n := by
  have forest := reached.forest
  have has : ∀ {n}, p.byId? root id = some n → p.Below root n ∧ p.attr? n "id" = some id := by
    intro n found
    have named := List.find?_some found
    exact ⟨forest.mem_below.1 (List.mem_of_find?_eq_some found), of_decide_eq_true named⟩
  have missing : p.byId? root id = none ↔ ∀ m, p.Below root m → p.attr? m "id" ≠ some id := by
    unfold byId?
    rw [List.find?_eq_none]
    simp only [forest.mem_below, decide_eq_true_eq]
  refine ⟨fun answer => ⟨fun search => (forest.searches root id).unique search, ?_⟩,
    fun n => ⟨fun found => ⟨(has found).1, (has found).2,
      fun m below named => forest.precedes_of_byId? found below named⟩, ?_⟩, missing,
    fun n cs => ⟨fun walk => (forest.visits_children n).unique walk, ?_⟩⟩
  · rintro rfl
    exact forest.searches root id
  · rintro ⟨below, named, first⟩
    cases found : p.byId? root id with
    | none => exact absurd named (missing.1 found n below)
    | some m =>
      -- two nodes that both come first are one
      rcases forest.precedes_of_byId? found below named with same | before
      · rw [same]
      · rcases first m (has found).1 (has found).2 with same | behind
        · rw [same]
        · exact absurd behind (forest.precedes_asymm before)
  · rintro rfl
    exact forest.visits_children n

/-- A name that is given to a node and, later in the document, to one that lies less deep. -/
def namedTwice : List Operation :=
  [.createElement "div", .setMarkup ⟨0⟩ "<p><b id='x'/></p>", .createElement "i",
   .setAttr ⟨3⟩ "id" "x", .append ⟨0⟩ ⟨3⟩]

theorem Reached.searches_first_named : (afterAll namedTwice).byId? ⟨0⟩ "x" = some ⟨2⟩ ∧
    (afterAll namedTwice).Precedes ⟨2⟩ ⟨3⟩ ∧
    (afterAll namedTwice).Visits (some ⟨1⟩) [⟨1⟩, ⟨3⟩] := by
  have reached : (afterAll namedTwice).Reached := reached_afterAll (by decide +kernel)
  obtain ⟨-, found, -, walks⟩ := reached.searches_first ⟨0⟩ "x"
  have answer : (afterAll namedTwice).byId? ⟨0⟩ "x" = some ⟨2⟩ := by decide +kernel
  have below : (afterAll namedTwice).Below ⟨0⟩ ⟨3⟩ := ⟨⟨3⟩, by decide +kernel, .self⟩
  refine ⟨answer, ?_, ?_⟩
  · rcases ((found ⟨2⟩).1 answer).2.2 ⟨3⟩ below (by decide +kernel) with same | before
    · cases same
    · exact before
  · have walk := (walks ⟨0⟩ [⟨1⟩, ⟨3⟩]).2 (by decide +kernel)
    rwa [show (afterAll namedTwice).firstChild? ⟨0⟩ = some ⟨1⟩ by decide +kernel] at walk

end Page

end Formwork
