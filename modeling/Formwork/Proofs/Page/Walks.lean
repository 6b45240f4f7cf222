import Formwork.Proofs.Page.Forest

/-!
# Walks over a page come to an end

A walk over a page goes from parent to parent, or from children to their children, and nothing in the
nodes says that it ends.  The walks are stated here without a bound, as what there is to do at each
node: climbing (`Page.Climbs`), searching by first children and next siblings (`Page.Searches`), and
writing out (`Page.Renders`).  A derivation is a walk that has ended.  On a forest every walk ends, and
the bounded walks of a page, which give up after as many levels as there are nodes, have its answer.
-/

namespace Formwork

set_option autoImplicit false

namespace Page

/-! ## Upwards -/

/-- Whether a node lies in `a` or is it, found by going from parent to parent. -/
inductive Climbs (p : Page) (a : NodeId) : NodeId → Bool → Prop where
  | found : Climbs p a a true
  | up {n q : NodeId} {answer : Bool} :
      n ≠ a → p.parent? n = some q → Climbs p a q answer → Climbs p a n answer
  | top {n : NodeId} : n ≠ a → p.parent? n = none → Climbs p a n false

theorem Ascends.climbs {p : Page} {n : NodeId} {ns : List NodeId} (up : p.Ascends n ns)
    (a : NodeId) : p.Climbs a n (decide (a ∈ ns)) := by
  induction up with
  | @top n nowhere =>
    by_cases same : n = a
    · subst same
      simpa using Climbs.found
    · simpa [Ne.symm same] using Climbs.top same nowhere
  | @step n q ns lies _ ih =>
    by_cases same : n = a
    · subst same
      simpa using Climbs.found
    · simpa [Ne.symm same] using Climbs.up same lies ih

/-! ## From sibling to sibling -/

/-- The first element with an identifier among a node, its later siblings and everything below them:
each sibling is looked at, then its first child and what follows that, then the next sibling. -/
inductive Searches (p : Page) (id : String) : Option NodeId → Option NodeId → Prop where
  | none : Searches p id .none .none
  | here {c : NodeId} : p.attr? c "id" = some id → Searches p id (some c) (some c)
  | inside {c m : NodeId} : p.attr? c "id" ≠ some id → Searches p id (p.firstChild? c) (some m) →
      Searches p id (some c) (some m)
  | next {c : NodeId} {answer : Option NodeId} : p.attr? c "id" ≠ some id →
      Searches p id (p.firstChild? c) .none → Searches p id (p.nextSibling? c) answer →
      Searches p id (some c) answer

/-! ## Downwards -/

/-- Nodes written out one behind the other: a text as `leaf` says, an element as `wrap` says of its
tag, its attributes and its children written out. -/
inductive Renders (p : Page) (leaf : String → String)
    (wrap : String → OrderedMap String String → String → String) : List NodeId → String → Prop where
  | nil : Renders p leaf wrap [] ""
  | text {n : NodeId} {ns kids : List NodeId} {content rest : String} {place : Option NodeId} :
      p.node? n = some ⟨.text content, place, kids⟩ → Renders p leaf wrap ns rest →
      Renders p leaf wrap (n :: ns) (leaf content ++ rest)
  | element {n : NodeId} {ns kids : List NodeId} {tag inner rest : String}
      {attributes : OrderedMap String String} {place : Option NodeId} :
      p.node? n = some ⟨.element tag attributes, place, kids⟩ → Renders p leaf wrap kids inner →
      Renders p leaf wrap ns rest →
      Renders p leaf wrap (n :: ns) (wrap tag attributes inner ++ rest)

section Render

variable (p : Page) (leaf : String → String)
  (wrap : String → OrderedMap String String → String → String)

/-- A node written out, for at most so many levels. -/
def renderUpTo : Nat → NodeId → String
  | 0, _ => ""
  | levels + 1, n =>
    match p.node? n with
    | none => ""
    | some ⟨.text content, _, _⟩ => leaf content
    | some ⟨.element tag attributes, _, kids⟩ =>
      wrap tag attributes (String.join (kids.map (renderUpTo levels)))

variable {p leaf wrap}

theorem Renders.append {ns ms : List NodeId} {s t : String} (h : p.Renders leaf wrap ns s)
    (h' : p.Renders leaf wrap ms t) : p.Renders leaf wrap (ns ++ ms) (s ++ t) := by
  induction h with
  | nil => simpa using h'
  | text found _ ih =>
    rw [String.append_assoc]
    exact .text found ih
  | element found inner _ _ ih =>
    rw [String.append_assoc]
    exact .element found inner ih

/-- Nodes are written out one by one. -/
theorem Renders.all {f : NodeId → String} : ∀ {ns : List NodeId},
    (∀ n ∈ ns, p.Renders leaf wrap [n] (f n)) → p.Renders leaf wrap ns (String.join (ns.map f))
  | [], _ => .nil
  | n :: ns, each => by
    rw [List.map_cons, String.join_cons]
    exact (each n List.mem_cons_self).append
      (Renders.all fun m mem => each m (List.mem_cons_of_mem _ mem))

end Render

/-- The tags of an element around its content. -/
def wrapMarkup (tag : String) (attributes : OrderedMap String String) (inner : String) : String :=
  Html.openMarkup tag attributes ++ inner ++ "</" ++ tag ++ ">"

theorem markupUpTo_eq_renderUpTo (p : Page) : ∀ levels : Nat,
    p.markupUpTo levels = p.renderUpTo Markup.Escape.text wrapMarkup levels
  | 0 => rfl
  | levels + 1 => by
    funext n
    rw [markupUpTo, renderUpTo, markupUpTo_eq_renderUpTo p levels]
    rfl

theorem textUpTo_eq_renderUpTo (p : Page) : ∀ levels : Nat,
    p.textUpTo levels = p.renderUpTo id (fun _ _ inner => inner) levels
  | 0 => rfl
  | levels + 1 => by
    funext n
    rw [textUpTo, renderUpTo, textUpTo_eq_renderUpTo p levels]
    rfl

/-- The next sibling is the one that is listed next. -/
theorem nextSibling?_eq_of_not_mem {p : Page} {q c : NodeId} {before behind : List NodeId}
    (lies : p.parent? c = some q) (listed : p.children q = before ++ c :: behind)
    (absent : c ∉ before) : p.nextSibling? c = behind.head? := by
  have passed : ∀ b ∈ before, decide (b ≠ c) = true := by
    intro b mem
    refine decide_eq_true ?_
    rintro rfl
    exact absent mem
  unfold nextSibling?
  rw [lies, Option.bind_some, listed, List.dropWhile_append_of_pos passed,
    List.dropWhile_cons_of_neg (by simp)]
  cases behind <;> rfl

namespace Forest

variable {p : Page} {n q c : NodeId} {ns : List NodeId}

/-- Climbing from any node ends. -/
theorem climbs_contains (h : p.Forest) (a n : NodeId) : p.Climbs a n (p.contains a n) := by
  obtain ⟨ns, up⟩ := h.rises n
  rw [h.contains_eq up]
  exact up.climbs a

theorem nextSibling?_eq (h : p.Forest) {before behind : List NodeId}
    (listed : p.children q = before ++ c :: behind) : p.nextSibling? c = behind.head? := by
  have distinct := h.distinct q
  rw [listed] at distinct
  exact nextSibling?_eq_of_not_mem ((h.agree q c).1 (by simp [listed])) listed fun mem =>
    (List.nodup_append.1 distinct).2.2 c mem c List.mem_cons_self rfl

/-- Children are below their parent: there are levels left for them. -/
theorem ascends_child (h : p.Forest) (up : p.Ascends n ns) (mem : c ∈ p.children n) :
    p.Ascends c (c :: ns) ∧ c.index < p.size :=
  ⟨.step ((h.agree n c).1 mem) up, lt_size_of_parent? ((h.agree n c).1 mem)⟩

/-- A search among some of the last siblings ends, when there are levels for the nodes that are not
above them. -/
theorem searches_siblings (h : p.Forest) (id : String) : ∀ (levels : Nat) {q : NodeId}
    {ns before rest : List NodeId}, p.Ascends q ns → q.index < p.size →
      p.size < levels + 1 + ns.length → p.children q = before ++ rest →
        p.Searches id rest.head?
          ((rest.flatMap fun c => c :: p.belowUpTo levels c).find? fun n => p.attr? n "id" = some id)
  | levels, q, ns, before, [], _, _, _, _ => .none
  | levels, q, ns, before, c :: rest, up, known, enough, listed => by
    have mem : c ∈ p.children q := by simp [listed]
    obtain ⟨up', known'⟩ := h.ascends_child up mem
    have short := h.length_le_size up' known'
    rw [List.length_cons] at short
    have behind : p.children q = (before ++ [c]) ++ rest := by simp [listed]
    have further := searches_siblings h id levels up known enough behind
    rw [← h.nextSibling?_eq listed] at further
    -- what lies below the first sibling
    have inner : p.Searches id (p.firstChild? c)
        ((p.belowUpTo levels c).find? fun n => p.attr? n "id" = some id) := by
      cases levels with
      | zero => omega
      | succ levels =>
        exact searches_siblings h id levels up' known' (by rw [List.length_cons]; omega)
          (List.nil_append _).symm
    rw [List.head?_cons, List.flatMap_cons, List.cons_append]
    by_cases same : p.attr? c "id" = some id
    · rw [List.find?_cons_of_pos (by simpa using same)]
      exact .here same
    · rw [List.find?_cons_of_neg (by simpa using same), List.find?_append]
      cases found : (p.belowUpTo levels c).find? fun n => p.attr? n "id" = some id with
      | none =>
        rw [found] at inner
        exact .next same inner further
      | some m =>
        rw [found] at inner
        exact .inside same inner
  termination_by levels _ _ _ rest => (levels, rest.length)

/-- **Searching below a node** ends. -/
theorem searches_byId (h : p.Forest) (id : String) (known : n.index < p.size) :
    p.Searches id (p.firstChild? n) (p.byId? n id) := by
  obtain ⟨ns, up⟩ := h.rises n
  have short := h.length_le_size up known
  have some : 0 < ns.length := List.length_pos_of_mem up.self_mem
  obtain ⟨levels, size⟩ : ∃ levels, p.size = levels + 1 := ⟨p.size - 1, by omega⟩
  unfold byId? below
  rw [size]
  exact h.searches_siblings id levels up known (by omega) (List.nil_append _).symm

variable {leaf : String → String} {wrap : String → OrderedMap String String → String → String}

/-- **Writing out a node** ends. -/
theorem renders (h : p.Forest) : ∀ (levels : Nat) {n : NodeId} {ns : List NodeId},
    p.Ascends n ns → n.index < p.size → p.size < levels + ns.length →
      p.Renders leaf wrap [n] (p.renderUpTo leaf wrap levels n)
  | 0, n, ns, up, known, enough => by
    have short := h.length_le_size up known
    omega
  | levels + 1, n, ns, up, known, enough => by
    obtain ⟨node, found⟩ := exists_node? known
    obtain ⟨content, place, kids⟩ := node
    rw [renderUpTo, found]
    cases content with
    | text content =>
      dsimp only
      rw [← String.append_empty (s := leaf content)]
      exact .text found .nil
    | element tag attributes =>
      dsimp only
      have inner : p.Renders leaf wrap kids
          (String.join (kids.map (p.renderUpTo leaf wrap levels))) := by
        refine .all fun c mem => ?_
        obtain ⟨up', known'⟩ := h.ascends_child up (by rwa [children_eq found])
        exact renders h levels up' known' (by rw [List.length_cons]; omega)
      rw [← String.append_empty (s := wrap ..)]
      exact .element found inner .nil

theorem renders_size (h : p.Forest) (known : n.index < p.size) :
    p.Renders leaf wrap [n] (p.renderUpTo leaf wrap p.size n) := by
  obtain ⟨ns, up⟩ := h.rises n
  have some : 0 < ns.length := List.length_pos_of_mem up.self_mem
  exact h.renders p.size up known (by omega)

end Forest

end Page

end Formwork
