import Formwork.Page.Build
import Formwork.Proofs.Step

/-!
# Changes to a page as steps

A change that may be refused is a function from pages to pages, and it is also a sequence of steps on
the page that is there.  The two agree on every change that is accepted.  A refusal is another matter:
the function has no page to show, but steps leave the page that they had reached.  Here it is seen
that appending, removing and setting markup ask everything before they touch the page, so that a
refusal leaves the page as it was (`exec_append`, `exec_remove`, `exec_setMarkup`).  Inserting asks
once more behind the first change (`exec_insertBefore`).
-/

namespace Formwork

set_option autoImplicit false

/-- What a change to a page leaves that is made as a whole or not at all. -/
def Page.allOrNothing (p : Page) : Except PageError Page → Except PageError PUnit × Page
  | .ok p' => (.ok ⟨⟩, p')
  | .error e => (.error e, p)

/-- What was made as a whole was accepted. -/
theorem Page.ok_of_allOrNothing {p p' : Page} {change : Except PageError Page}
    (made : p.allOrNothing change = (.ok ⟨⟩, p')) : change = .ok p' := by
  cases change with
  | ok whole =>
    cases made
    rfl
  | error e => cases made

namespace PageM

variable {α : Type}

@[simp]
theorem exec_ask (question : Page → Except PageError α) (p : Page) :
    exec (ask question) p = (question p, p) := by
  unfold ask
  rw [exec_bind_ok (exec_get p)]
  cases question p <;> rfl

@[simp]
theorem exec_detach (n : NodeId) (p : Page) : exec (detach n) p = (.ok ⟨⟩, p.detach n) := rfl

theorem exec_attempt (change : Page → Except PageError Page) (p : Page) :
    exec (attempt change) p = p.allOrNothing (change p) := by
  unfold attempt
  rw [exec_bind, exec_ask]
  cases change p <;> rfl

theorem exec_append (parent child : NodeId) (p : Page) :
    exec (append parent child) p = p.allOrNothing (p.append parent child) := by
  unfold append Page.append
  rw [exec_bind, exec_ask]
  cases p.checkPlace parent child <;> rfl

theorem exec_remove (parent child : NodeId) (p : Page) :
    exec (remove parent child) p = p.allOrNothing (p.remove parent child) := by
  unfold remove Page.remove
  rw [exec_bind, exec_ask]
  cases p.checkChild parent child <;> rfl

theorem exec_setMarkup (n : NodeId) (html : String) (p : Page) :
    exec (setMarkup n html) p = p.allOrNothing (p.setMarkup n html) := by
  unfold setMarkup Page.setMarkup
  rw [exec_bind, exec_ask]
  cases p.readMarkup n html <;> rfl

theorem exec_append_of_ok {parent child : NodeId} {p p' : Page}
    (accepted : p.append parent child = .ok p') :
    exec (append parent child) p = (.ok ⟨⟩, p') := by
  rw [exec_append, accepted]
  rfl

theorem exec_remove_of_ok {parent child : NodeId} {p p' : Page}
    (accepted : p.remove parent child = .ok p') :
    exec (remove parent child) p = (.ok ⟨⟩, p') := by
  rw [exec_remove, accepted]
  rfl

/-- A node is inserted as a whole or not at all, unless the reference is missed where it is looked
for last: behind the change that took the node from its former place. -/
theorem exec_insertBefore (parent child reference : NodeId) (p : Page) :
    exec (insertBefore parent child reference) p =
        p.allOrNothing (p.insertBefore parent child reference) ∨
      p.checkChild parent reference = .ok () ∧ child ≠ reference ∧
        p.checkPlace parent child = .ok () ∧
        ∃ e, (p.detach child).putBefore parent child reference = .error e ∧
          p.insertBefore parent child reference = .error e ∧
          exec (insertBefore parent child reference) p = (.error e, p.detach child) := by
  unfold insertBefore Page.insertBefore
  rw [exec_bind, exec_ask]
  cases p.checkChild parent reference with
  | error e => exact .inl rfl
  | ok asked =>
    by_cases same : child = reference
    · rw [if_pos same, if_pos same]
      exact .inl rfl
    · rw [if_neg same, if_neg same]
      dsimp only
      rw [exec_bind, exec_ask]
      cases p.checkPlace parent child with
      | error e => exact .inl rfl
      | ok asked' =>
        dsimp only
        rw [exec_bind_ok (exec_detach child p), exec_attempt]
        show _ = p.allOrNothing ((p.detach child).putBefore parent child reference) ∨ _
        cases late : (p.detach child).putBefore parent child reference with
        | ok p' => exact .inl rfl
        | error e => exact .inr ⟨rfl, same, rfl, e, rfl, rfl, rfl⟩

/-- A node that can be inserted is inserted step by step. -/
theorem exec_insertBefore_of_ok {parent child reference : NodeId} {p p' : Page}
    (accepted : p.insertBefore parent child reference = .ok p') :
    exec (insertBefore parent child reference) p = (.ok ⟨⟩, p') := by
  rcases exec_insertBefore parent child reference p with whole | ⟨_, _, _, e, _, refused, _⟩
  · rw [whole, accepted]
    rfl
  · rw [accepted] at refused
    cases refused

/-- A node that was inserted step by step can be inserted. -/
theorem ok_of_exec_insertBefore {parent child reference : NodeId} {p p' : Page}
    (made : exec (insertBefore parent child reference) p = (.ok ⟨⟩, p')) :
    p.insertBefore parent child reference = .ok p' := by
  rcases exec_insertBefore parent child reference p with whole | ⟨_, _, _, e, _, _, late⟩
  · rw [whole] at made
    exact Page.ok_of_allOrNothing made
  · rw [late] at made
    cases made

end PageM

end Formwork
