import Mathlib.Data.List.TakeWhile
import Formwork.Proofs.Page.Walks

/-!
# Histories of a page

A page starts without nodes and is changed by operations, each of which names nodes that the page has
(`Page.Reached`).  An operation that is refused counts like any other: what it leaves is the page that
it had reached when it was refused.

**Forests.**  Every page that can be reached is an ordered forest, so walks over it end
(`Page.forest_of_reached`).

**Refusals.**  On such a page a refused operation leaves everything as it was
(`Page.unchanged_of_refused`).  Inserting a node before another takes the node out of its place before
it looks for the other one among the children; it is found there, because it lies below its parent and
is not the node that was taken out.
-/

namespace Formwork

set_option autoImplicit false

/-- A change to a page. -/
inductive Operation where
  | createElement (tag : String)
  | createText (content : String)
  | setAttr (n : NodeId) (name value : String)
  | removeAttr (n : NodeId) (name : String)
  | append (parent child : NodeId)
  | insertBefore (parent child reference : NodeId)
  | remove (parent child : NodeId)
  | detach (n : NodeId)
  | clear (n : NodeId)
  | setMarkup (n : NodeId) (html : String)
  | setText (n : NodeId) (content : String)

namespace Operation

/-- What an operation does to the page. -/
def perform : Operation → PageM Unit
  | createElement tag => modify fun p => (p.createElement tag).2
  | createText content => modify fun p => (p.createText content).2
  | setAttr n name value => PageM.setAttr n name value
  | removeAttr n name => modify fun p => p.removeAttr n name
  | append parent child => PageM.append parent child
  | insertBefore parent child reference => PageM.insertBefore parent child reference
  | remove parent child => PageM.remove parent child
  | detach n => PageM.detach n
  | clear n => PageM.clear n
  | setMarkup n html => PageM.setMarkup n html
  | setText n content => PageM.setText n content

/-- The nodes that an operation names. -/
def nodes : Operation → List NodeId
  | createElement _ | createText _ => []
  | setAttr n _ _ | removeAttr n _ | detach n | clear n | setMarkup n _ | setText n _ => [n]
  | append parent child | remove parent child => [parent, child]
  | insertBefore parent child reference => [parent, child, reference]

/-- The page behind an operation, whether it was refused or not. -/
def after (op : Operation) (p : Page) : Page := (exec op.perform p).2

end Operation

namespace Page

/-- The pages that operations make, one after the other, of the page without nodes. -/
inductive Reached : Page → Prop where
  | empty : Reached .empty
  | step {p : Page} (op : Operation) : Reached p → (∀ n ∈ op.nodes, n.index < p.size) →
      Reached (op.after p)

variable {p p' : Page}

namespace Forest

theorem allOrNothing (h : p.Forest) {change : Except PageError Page}
    (accepted : ∀ p', change = .ok p' → p'.Forest) : (p.allOrNothing change).2.Forest := by
  cases change with
  | error e => exact h
  | ok p' => exact accepted p' rfl

/-- Inserting a node keeps the forest, even where it is refused late. -/
theorem insertBefore (h : p.Forest) {q c n : NodeId} (known : c.index < p.size) :
    (exec (PageM.insertBefore q c n) p).2.Forest := by
  rcases PageM.exec_insertBefore q c n p with whole | ⟨_, _, _, e, _, _, late⟩
  · rw [whole]
    refine h.allOrNothing fun p' run => ?_
    rcases insertBefore_ok run with ⟨_, rfl⟩ | ⟨_, asked, run⟩
    · exact h
    · obtain ⟨free, element, ns, up, outside⟩ := h.place_detach asked
      exact (h.detach c).putBefore free (by rwa [size_detach]) element up outside run
  · rw [late]
    exact h.detach c

/-- **One operation** keeps the forest. -/
theorem after (h : p.Forest) (op : Operation) (known : ∀ n ∈ op.nodes, n.index < p.size) :
    (op.after p).Forest := by
  unfold Operation.after
  cases op with
  | createElement tag => exact h.create _
  | createText content => exact h.create _
  | setAttr n name value => exact h.updateAttrs n _
  | removeAttr n name => exact h.updateAttrs n _
  | append parent child =>
    rw [Operation.perform, PageM.exec_append]
    exact h.allOrNothing fun _ run => h.append (known child (by simp [Operation.nodes])) run
  | insertBefore parent child reference =>
    exact h.insertBefore (known child (by simp [Operation.nodes]))
  | remove parent child =>
    rw [Operation.perform, PageM.exec_remove]
    refine h.allOrNothing fun p' run => ?_
    obtain ⟨-, rfl⟩ := remove_ok run
    exact h.detach child
  | detach n => exact h.detach n
  | clear n => exact (h.clear n).1
  | setMarkup n html =>
    rw [Operation.perform, PageM.exec_setMarkup]
    exact h.allOrNothing fun _ run => h.setMarkup run
  | setText n content => exact h.setText n content

/-- A child that is looked for is found, unless it is the node that was just taken out. -/
theorem exists_putBefore (h : p.Forest) {q c n : NodeId} (child : p.checkChild q n = .ok ())
    (ne : c ≠ n) : ∃ p', (p.detach c).putBefore q c n = .ok p' := by
  have lies : p.parent? n = some q := by
    unfold checkChild at child
    by_contra elsewhere
    rw [if_neg elsewhere] at child
    cases child
  have mem : n ∈ (p.detach c).children q := by
    rw [h.children_detach, List.mem_filter]
    exact ⟨(h.agree q n).2 lies, decide_eq_true ne.symm⟩
  have found : ((p.detach c).children q).dropWhile (· ≠ n) ≠ [] := by
    intro none
    have passed := List.dropWhile_eq_nil_iff.1 none n mem
    simp at passed
  unfold Page.putBefore
  rw [List.span_eq_takeWhile_dropWhile]
  dsimp only
  rw [if_neg (by rwa [List.isEmpty_iff])]
  exact ⟨_, rfl⟩

end Forest

theorem Reached.forest (h : p.Reached) : p.Forest := by
  induction h with
  | empty => exact .empty
  | step op _ known ih => exact ih.after op known

/-- **Every page is an ordered forest**: parents and children agree, no child is listed twice, texts
have no children, and following parents ends at a node that lies nowhere.  So from every node of it
climbing, searching by identifier, writing out and reading the text come to an end, with the answers
that the page gives. -/
theorem forest_of_reached (reached : p.Reached) :
    p.Forest ∧ ∀ n : NodeId, n.index < p.size →
      (∀ a, p.Climbs a n (p.contains a n)) ∧
      (∀ id, p.Searches id (p.firstChild? n) (p.byId? n id)) ∧
      p.Renders Markup.Escape.text wrapMarkup [n] (p.outerMarkup n) ∧
      p.Renders id (fun _ _ inner => inner) [n] (p.textContent n) := by
  have forest := reached.forest
  refine ⟨forest, fun n known => ⟨fun a => forest.climbs_contains a n,
    fun id => forest.searches_byId id known, ?_, ?_⟩⟩
  · unfold outerMarkup
    rw [markupUpTo_eq_renderUpTo]
    exact forest.renders_size known
  · unfold textContent
    rw [textUpTo_eq_renderUpTo]
    exact forest.renders_size known

/-- Operations one after the other, on the page without nodes. -/
def afterAll (ops : List Operation) : Page := ops.foldl (fun p op => op.after p) .empty

/-- Whether operations name nodes that are there when it is their turn. -/
def namesKnown (p : Page) : List Operation → Bool
  | [] => true
  | op :: ops => (op.nodes.all fun n => n.index < p.size) && (op.after p).namesKnown ops

theorem Reached.foldl_after : ∀ {ops : List Operation} {p : Page}, p.Reached → p.namesKnown ops = true →
    (ops.foldl (fun p op => op.after p) p).Reached
  | [], _, reached, _ => reached
  | op :: ops, p, reached, known => by
    obtain ⟨first, rest⟩ := (Bool.and_eq_true _ _).mp known
    have there : ∀ n ∈ op.nodes, n.index < p.size := fun n mem =>
      of_decide_eq_true (List.all_eq_true.1 first n mem)
    exact (reached.step op there).foldl_after rest

theorem reached_afterAll {ops : List Operation} (known : Page.empty.namesKnown ops = true) :
    (afterAll ops).Reached := Reached.empty.foldl_after known

/-- Two elements are filled, one is moved into the other, and the other one cannot be moved into it. -/
def movedAround : List Operation :=
  [.createElement "ul", .setMarkup ⟨0⟩ "<li id='a'>x</li><li/>", .createElement "p",
   .insertBefore ⟨0⟩ ⟨4⟩ ⟨3⟩, .append ⟨4⟩ ⟨0⟩, .insertBefore ⟨0⟩ ⟨3⟩ ⟨1⟩]

theorem reached_movedAround : (afterAll movedAround).Reached := reached_afterAll (by decide +kernel)

theorem forest_of_reached_moved : (afterAll movedAround).Forest ∧
    (afterAll movedAround).Searches "a" (some ⟨3⟩) (some ⟨1⟩) := by
  obtain ⟨forest, walks⟩ := forest_of_reached reached_movedAround
  have search := (walks ⟨0⟩ (by decide +kernel)).2.1 "a"
  rw [show (afterAll movedAround).firstChild? ⟨0⟩ = some ⟨3⟩ by decide +kernel,
    show (afterAll movedAround).byId? ⟨0⟩ "a" = some ⟨1⟩ by decide +kernel] at search
  exact ⟨forest, search⟩

/-- **A refused operation changes nothing.**  Where the node to insert before is a child and not the
node itself, and the node may be put below that parent, the child is still found when the node has left
its place. -/
theorem unchanged_of_refused (reached : p.Reached) :
    (∀ (op : Operation) (e : PageError), (exec op.perform p).1 = .error e → op.after p = p) ∧
      ∀ parent child reference : NodeId, p.checkChild parent reference = .ok () →
        child ≠ reference → p.checkPlace parent child = .ok () →
          ∃ p', (p.detach child).putBefore parent child reference = .ok p' := by
  have forest := reached.forest
  have whole : ∀ {change : Except PageError Page} {e : PageError},
      (p.allOrNothing change).1 = .error e → (p.allOrNothing change).2 = p := by
    intro change e refused
    cases change <;> cases refused
    rfl
  refine ⟨fun op e refused => ?_, fun _ _ _ known ne _ => forest.exists_putBefore known ne⟩
  unfold Operation.after
  cases op with
  | append parent child =>
    rw [Operation.perform, PageM.exec_append] at refused ⊢
    exact whole refused
  | remove parent child =>
    rw [Operation.perform, PageM.exec_remove] at refused ⊢
    exact whole refused
  | setMarkup n html =>
    rw [Operation.perform, PageM.exec_setMarkup] at refused ⊢
    exact whole refused
  | insertBefore parent child reference =>
    rw [Operation.perform] at refused ⊢
    rcases PageM.exec_insertBefore parent child reference p with all | ⟨known, ne, _, _, late, _⟩
    · rw [all] at refused ⊢
      exact whole refused
    · obtain ⟨p', put⟩ := forest.exists_putBefore known ne
      rw [put] at late
      cases late
  | _ => cases refused

/-- An element cannot be put into its own child. -/
theorem unchanged_of_refused_loop :
    (exec (Operation.insertBefore ⟨1⟩ ⟨0⟩ ⟨2⟩).perform (afterAll movedAround)).1 =
        .error .insideItself ∧
      (Operation.insertBefore ⟨1⟩ ⟨0⟩ ⟨2⟩).after (afterAll movedAround) = afterAll movedAround := by
  have refused : (exec (Operation.insertBefore ⟨1⟩ ⟨0⟩ ⟨2⟩).perform (afterAll movedAround)).1 =
      .error .insideItself := by decide +kernel
  exact ⟨refused, (unchanged_of_refused reached_movedAround).1 _ _ refused⟩

end Page

end Formwork
