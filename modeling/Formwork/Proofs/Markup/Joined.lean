import Formwork.Proofs.Markup.Roundtrip

/-!
# Siblings whose texts are cut anywhere

Written markup does not show where one text ends and the next begins, and an empty text leaves no
trace in it.  So siblings are read back with adjacent texts joined and empty ones dropped, at every
depth (`parseFragment_markupOf`).
-/

namespace Formwork.Markup

set_option autoImplicit false

namespace Node

/-- A text in front of joined siblings. -/
def consText (content : String) : List Node → List Node
  | .text more :: ns => .text (content ++ more) :: ns
  | ns => if content = "" then ns else .text content :: ns

/-- A node in front of joined siblings. -/
def cons : Node → List Node → List Node
  | .text content, ns => consText content ns
  | .element tag children, ns => .element tag children :: ns

mutual
/-- A node below which adjacent texts are joined and empty ones are dropped. -/
def joined : Node → Node
  | .text content => .text content
  | .element tag children => .element tag (joinedAll children)

/-- Siblings among and below which adjacent texts are joined and empty ones are dropped. -/
def joinedAll : List Node → List Node
  | [] => []
  | n :: ns => n.joined.cons (joinedAll ns)
end

/-- A text in front is a new sibling, joins the first one, or adds nothing. -/
theorem consText_cases (content : String) (ns : List Node) :
    (∃ more rest, ns = .text more :: rest ∧
        consText content ns = .text (content ++ more) :: rest) ∨
      (∀ n ∈ ns.head?, n.isText = false) ∧
        consText content ns = if content = "" then ns else .text content :: ns := by
  cases ns with
  | nil => exact .inr ⟨nofun, rfl⟩
  | cons n rest =>
    cases n with
    | text more => exact .inl ⟨more, rest, rfl, rfl⟩
    | element tag children =>
      refine .inr ⟨?_, rfl⟩
      intro n head
      cases head
      rfl

theorem charsOf_consText (quote : Quote) (content : String) (ns : List Node) :
    charsOf quote (consText content ns) = charsOf quote (.text content :: ns) := by
  rcases consText_cases content ns with ⟨more, rest, rfl, joined⟩ | ⟨_, added⟩
  · rw [joined]
    simp [charsOf, chars]
  · rw [added]
    split
    · case isTrue nothing =>
      subst nothing
      rfl
    · rfl

/-- Joining texts does not show in the markup. -/
theorem charsOf_joinedAll (quote : Quote) : ∀ ns : List Node,
    charsOf quote (joinedAll ns) = charsOf quote ns
  | [] => rfl
  | .text content :: ns => by
    rw [joinedAll, joined, cons, charsOf_consText, charsOf, charsOf_joinedAll quote ns, charsOf]
  | .element tag children :: ns => by
    rw [joinedAll, joined, cons, charsOf, charsOf, chars, chars, charsOf_joinedAll quote children,
      charsOf_joinedAll quote ns]

theorem WritableAll.consText {content : String} {ns : List Node} (good : IsMarkupText content)
    (h : WritableAll ns) : WritableAll (consText content ns) := by
  rcases consText_cases content ns with ⟨more, rest, rfl, joined⟩ | ⟨_, added⟩
  · rw [joined]
    refine ⟨fun c mem => ?_, h.2⟩
    rw [String.toList_append, List.mem_append] at mem
    exact mem.elim (good c) (h.1 c)
  · rw [added]
    split
    · exact h
    · exact ⟨good, h⟩

theorem WritableAll.joinedAll : ∀ {ns : List Node}, WritableAll ns → WritableAll (joinedAll ns)
  | [], _ => trivial
  | .text _ :: _, ⟨good, rest⟩ => WritableAll.consText good (joinedAll rest)
  | .element _ _ :: _, ⟨⟨name, attributes, content⟩, rest⟩ =>
    ⟨⟨name, attributes, joinedAll content⟩, joinedAll rest⟩

theorem PartedAll.consText {content : String} {ns : List Node} (h : PartedAll ns) :
    PartedAll (consText content ns) := by
  rcases consText_cases content ns with ⟨more, rest, rfl, joined⟩ | ⟨other, added⟩
  · rw [joined]
    refine ⟨fun nothing => h.1 ?_, h.2⟩
    rw [String.append_eq_empty_iff] at nothing
    exact nothing.2
  · rw [added]
    split
    · exact h
    · case isFalse something => exact ⟨something, fun _ => other, h⟩

/-- Joined siblings have no text that is empty or next to another one. -/
theorem partedAll_joinedAll : ∀ ns : List Node, PartedAll (joinedAll ns)
  | [] => trivial
  | .text _ :: ns => (partedAll_joinedAll ns).consText
  | .element _ children :: ns => ⟨partedAll_joinedAll children, nofun, partedAll_joinedAll ns⟩

/-- What is done to siblings one by one, and does nothing to texts, is done to joined ones alike. -/
theorem map_consText (f : List Node → List Node) (nil : f [] = [])
    (text : ∀ content ns, f (.text content :: ns) = .text content :: f ns)
    (element : ∀ tag children ns, ∃ tag' children',
      f (.element tag children :: ns) = .element tag' children' :: f ns)
    (content : String) (ns : List Node) : f (consText content ns) = consText content (f ns) := by
  have added : ∀ ns, f (if content = "" then ns else .text content :: ns) =
      if content = "" then f ns else .text content :: f ns := by
    intro ns
    split
    · rfl
    · exact text content ns
  cases ns with
  | nil =>
    have none := added []
    rw [nil] at none ⊢
    exact none
  | cons n ns =>
    cases n with
    | text more => rw [consText, text, text, consText]
    | element tag children =>
      obtain ⟨tag', children', same⟩ := element tag children ns
      have behind := added (.element tag children :: ns)
      rw [same] at behind ⊢
      exact behind

/-- Joining texts changes no name. -/
theorem asWrittenAll_joinedAll : ∀ ns : List Node,
    asWrittenAll (joinedAll ns) = joinedAll (asWrittenAll ns)
  | [] => rfl
  | .text content :: ns => by
    rw [joinedAll, joined, cons,
      map_consText asWrittenAll rfl (fun _ _ => rfl) fun _ _ _ => ⟨_, _, rfl⟩, asWrittenAll_joinedAll ns]
    rfl
  | .element tag children :: ns => by
    rw [joinedAll, joined, cons, asWrittenAll, asWritten, asWrittenAll_joinedAll children,
      asWrittenAll_joinedAll ns]
    rfl

theorem allTextOf_consText (content : String) (ns : List Node) :
    allTextOf (consText content ns) = content ++ allTextOf ns := by
  rcases consText_cases content ns with ⟨more, rest, rfl, joined⟩ | ⟨_, added⟩
  · rw [joined, allTextOf, allText, allTextOf, allText, String.append_assoc]
  · rw [added]
    split
    · case isTrue nothing => rw [nothing, String.empty_append]
    · rfl

/-- Joining texts does not show in the text. -/
theorem allTextOf_joinedAll : ∀ ns : List Node, allTextOf (joinedAll ns) = allTextOf ns
  | [] => rfl
  | .text content :: ns => by
    rw [joinedAll, joined, cons, allTextOf_consText, allTextOf_joinedAll ns]
    rfl
  | .element tag children :: ns => by
    rw [joinedAll, joined, cons, allTextOf, allTextOf, allText, allText, allTextOf_joinedAll children,
      allTextOf_joinedAll ns]

end Node

theorem markupOf_append : ∀ ns ms : List Node, markupOf (ns ++ ms) = markupOf ns ++ markupOf ms
  | [], _ => String.empty_append.symm
  | n :: ns, ms => by
    rw [List.cons_append, markupOf, markupOf, markupOf_append ns ms, String.append_assoc]

/-- **Siblings are read back** from their markup with their texts joined and every URI replaced by
the written name. -/
theorem parseFragment_markupOf {ns : List Node} (writable : Node.WritableAll ns) :
    parseFragment (markupOf ns) = .ok (Node.joinedAll (Node.asWrittenAll ns)) := by
  rw [← Node.asWrittenAll_joinedAll]
  refine parseFragment_charsOf writable.joinedAll (Node.partedAll_joinedAll ns) .single ?_
  rw [Node.toList_markupOf, Node.charsOf_joinedAll]

end Formwork.Markup
