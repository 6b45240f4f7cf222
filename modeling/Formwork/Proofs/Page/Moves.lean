import Formwork.Proofs.Page.Effects
import Formwork.Proofs.Page.Operations

/-!
# Moving a node edits lists of children

A node that is appended, put before another or removed leaves the list it was in and gets into another
one or into none.  It is the only node that is moved: without it every list of children is what it was
(`Page.Moves`).  So each of the three operations is an edit of lists: the former list without the node,
then the node at the end, or right before the other one, or not at all (`Reached.moves`).

Taking a node out of its place leaves out every occurrence of it in the list.  A list of children has no
repetitions, so this is the one there is (`Forest.filter_children`).
-/

namespace Formwork

set_option autoImplicit false

namespace Page

variable {p d p' : Page} {n q c r : NodeId}

/-- A node has left its place for one below `place`, or for none.  All nodes are what they were and all
others lie where they lay; the list of the former parent is the old one without the node; apart from the
node every list is the old one, and a list of a node that is neither parent is untouched. -/
structure Moves (p : Page) (c : NodeId) (place : Option NodeId) (p' : Page) : Prop where
  size : p'.size = p.size
  content : ∀ n, p'.content? n = p.content? n
  parent : ∀ n, p'.parent? n = if n = c then place else p.parent? n
  left : ∀ q, p.parent? c = some q → place ≠ some q → p'.children q = (p.children q).erase c
  rest : ∀ n, (p'.children n).erase c = (p.children n).erase c
  others : ∀ n, p.parent? c ≠ some n → place ≠ some n → p'.children n = p.children n

namespace Forest

/-- Leaving out every occurrence of a node leaves out the one there is. -/
theorem filter_children (h : p.Forest) (q c : NodeId) :
    (p.children q).filter (· ≠ c) = (p.children q).erase c := by
  rw [(h.distinct q).erase_eq_filter]
  refine List.filter_congr fun b _ => ?_
  simp [bne, beq_eq_decide]

theorem children_detach_eq (h : p.Forest) (c q : NodeId) :
    (p.detach c).children q = (p.children q).erase c := by
  rw [h.children_detach, h.filter_children]

/-- Leaving out a node that is not among the children leaves them as they are. -/
theorem erase_children (h : p.Forest) (elsewhere : p.parent? c ≠ some n) :
    (p.children n).erase c = p.children n :=
  List.erase_of_not_mem fun mem => elsewhere ((h.agree n c).1 mem)

theorem moves_detach (h : p.Forest) (c : NodeId) : p.Moves c none (p.detach c) where
  size := size_detach p c
  content := content?_detach p c
  parent := h.parent?_detach c
  left q _ _ := h.children_detach_eq c q
  rest n := by
    rw [h.children_detach_eq, List.erase_of_not_mem (h.distinct n).not_mem_erase]
  others n elsewhere _ := by rw [h.children_detach_eq, h.erase_children elsewhere]

/-- A node that was taken out of its place is hung below an element. -/
theorem moves_hang (h : p.Forest) {front back : List NodeId} (size : p'.size = (p.detach c).size)
    (content : ∀ n, p'.content? n = (p.detach c).content? n)
    (parent : ∀ n, p'.parent? n = if n = c then some q else (p.detach c).parent? n)
    (children : ∀ n, p'.children n = if n = q then front ++ c :: back else (p.detach c).children n)
    (before : (p.detach c).children q = front ++ back) : p.Moves c (some q) p' := by
  have out := h.moves_detach c
  have absent : c ∉ front := fun mem => by
    have there : c ∈ (p.children q).erase c := by
      rw [← h.children_detach_eq, before]
      exact List.mem_append_left _ mem
    exact (h.distinct q).not_mem_erase there
  constructor
  · exact size.trans out.size
  · exact fun n => (content n).trans (out.content n)
  · intro n
    rw [parent, out.parent]
    split <;> rfl
  · intro q' lies elsewhere
    rw [children, if_neg fun same => elsewhere (by rw [same])]
    exact out.left q' lies nofun
  · intro n
    rw [children]
    split
    · case isTrue there =>
      rw [List.erase_append_right _ absent, List.erase_cons_head, ← before, there,
        h.children_detach_eq]
    · exact out.rest n
  · intro n elsewhere elsewhere'
    rw [children, if_neg fun same => elsewhere' (by rw [same])]
    exact out.others n elsewhere nofun

/-- Appending a node puts it behind the other children. -/
theorem moves_append (h : p.Forest) (known : c.index < p.size) (run : p.append q c = .ok p') :
    p.Moves c (some q) p' ∧ p'.children q = (p.children q).erase c ++ [c] := by
  obtain ⟨asked, rfl⟩ := append_ok run
  obtain ⟨-, element, ns, up, outside⟩ := h.place_detach asked
  have ne : c ≠ q := by
    rintro rfl
    exact outside up.self_mem
  have listed := children_link ne (lt_size_of_tag? element)
  refine ⟨h.moves_hang (size_link ..) (content?_link _ q c)
    (parent?_link ne (by rwa [size_detach])) listed (List.append_nil _).symm, ?_⟩
  rw [listed, if_pos rfl, h.children_detach_eq]

/-- Inserting a node puts it right before the other one. -/
theorem moves_insertBefore (h : p.Forest) (known : c.index < p.size)
    (run : p.insertBefore q c r = .ok p') : (c = r → p' = p) ∧ (c ≠ r → p.Moves c (some q) p' ∧
      ∃ front back, (p.children q).erase c = front ++ r :: back ∧
        p'.children q = front ++ c :: r :: back) := by
  rcases insertBefore_ok run with ⟨same, rfl⟩ | ⟨other, asked, run⟩
  · exact ⟨fun _ => rfl, fun other => absurd same other⟩
  · refine ⟨fun same => absurd same other, fun _ => ?_⟩
    obtain ⟨-, element, ns, up, outside⟩ := h.place_detach asked
    have ne : c ≠ q := by
      rintro rfl
      exact outside up.self_mem
    obtain ⟨front, back, before, rfl⟩ := putBefore_ok run
    have listed := children_place ne (lt_size_of_tag? element) (front ++ c :: r :: back)
    refine ⟨h.moves_hang (size_place ..) (content?_place _ q c _)
      (parent?_place (by rwa [size_detach]) _) listed before, front, back, ?_, ?_⟩
    · rw [← h.children_detach_eq, before]
    · rw [listed, if_pos rfl]

/-- Removing a node leaves the list without it. -/
theorem moves_remove (h : p.Forest) (run : p.remove q c = .ok p') :
    p.parent? c = some q ∧ p.Moves c none p' ∧ p'.children q = (p.children q).erase c := by
  obtain ⟨lies, rfl⟩ := remove_ok run
  exact ⟨lies, h.moves_detach c, h.children_detach_eq c q⟩

end Forest

/-- **Moving a node edits lists of children**, on any page that can be reached.  A node that is appended
comes behind the children that its new parent had without it; one that is inserted comes right before
the other one in that list, and inserting a node before itself changes nothing; one that is removed was
a child, and is missing.  The node leaves its former parent, and everything else stays. -/
theorem Reached.moves (reached : p.Reached) (q c r : NodeId) (known : c.index < p.size) :
    (∀ p', exec (PageM.append q c) p = (.ok ⟨⟩, p') →
      p.Moves c (some q) p' ∧ p'.children q = (p.children q).erase c ++ [c]) ∧
    (∀ p', exec (PageM.insertBefore q c r) p = (.ok ⟨⟩, p') →
      (c = r → p' = p) ∧ (c ≠ r → p.Moves c (some q) p' ∧
        ∃ front back, (p.children q).erase c = front ++ r :: back ∧
          p'.children q = front ++ c :: r :: back)) ∧
    (∀ p', exec (PageM.remove q c) p = (.ok ⟨⟩, p') →
      p.parent? c = some q ∧ p.Moves c none p' ∧ p'.children q = (p.children q).erase c) := by
  have forest := reached.forest
  refine ⟨fun p' done => ?_, fun p' done => ?_, fun p' done => ?_⟩
  · rw [PageM.exec_append] at done
    exact forest.moves_append known (ok_of_allOrNothing done)
  · exact forest.moves_insertBefore known (PageM.ok_of_exec_insertBefore done)
  · rw [PageM.exec_remove] at done
    exact forest.moves_remove (ok_of_allOrNothing done)

/-- An element with three children. -/
def threeBelow : List Operation := [.createElement "ul", .setMarkup ⟨0⟩ "<a/><b/><c/>"]

theorem Reached.moves_second :
    (exec (PageM.append ⟨0⟩ ⟨2⟩) (afterAll threeBelow)).2.children ⟨0⟩ = [⟨1⟩, ⟨3⟩, ⟨2⟩] ∧
    (∃ front back, [⟨1⟩, ⟨3⟩] = front ++ (⟨1⟩ : NodeId) :: back ∧
      (exec (PageM.insertBefore ⟨0⟩ ⟨2⟩ ⟨1⟩) (afterAll threeBelow)).2.children ⟨0⟩ =
        front ++ ⟨2⟩ :: ⟨1⟩ :: back) ∧
    (exec (PageM.remove ⟨0⟩ ⟨2⟩) (afterAll threeBelow)).2.parent? ⟨2⟩ = none := by
  have reached : (afterAll threeBelow).Reached := reached_afterAll (by decide +kernel)
  have done : ∀ {change : PageM PUnit}, (exec change (afterAll threeBelow)).1 = .ok ⟨⟩ →
      exec change (afterAll threeBelow) = (.ok ⟨⟩, (exec change (afterAll threeBelow)).2) :=
    fun accepted => Prod.ext accepted rfl
  have former : ((afterAll threeBelow).children ⟨0⟩).erase ⟨2⟩ = [⟨1⟩, ⟨3⟩] := by decide +kernel
  obtain ⟨append, insert, remove⟩ := reached.moves ⟨0⟩ ⟨2⟩ ⟨1⟩ (by decide +kernel)
  have last := (append _ (done (by decide +kernel))).2
  have between := ((insert _ (done (by decide +kernel))).2 (by decide)).2
  have out := (remove _ (done (by decide +kernel))).2.1.parent ⟨2⟩
  rw [former] at last between
  exact ⟨last, between, out⟩

end Page

end Formwork
