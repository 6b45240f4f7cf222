import Formwork.Proofs.Template.Nested

/-!
# The markup that stays around widgets

When widgets take the place of markers, the rest of the markup stays (`Placeholders.keptMarkup`).
What was settled is that markup with the widgets in it (`Placeholders.markupWith_settle`), provided
that no two markers stand for one field; and without its widgets it always is
(`Placeholders.markupOf_settle`).  Where texts are cut, and what names stand for, does not show in
it.
-/

namespace Formwork

set_option autoImplicit false

/-! ## Trees with links as markup -/

namespace Html

mutual
/-- A tree as markup, with something written for each of its links. -/
def markupWith (w : Link → String) : Html → String
  | .text content => Markup.Escape.text content
  | .element tag attributes children =>
    openMarkup tag attributes ++ markupOfWith w children ++ "</" ++ tag ++ ">"
  | .link target => w target

/-- Trees as markup, with something written for each of their links. -/
def markupOfWith (w : Link → String) : List Html → String
  | [] => ""
  | h :: hs => h.markupWith w ++ markupOfWith w hs
end

variable {w : Link → String}

mutual
theorem markupWith_of_unlinked : ∀ {h : Html}, h.targets = [] → h.markupWith w = h.markup
  | .text _, _ => rfl
  | .element _ _ children, unlinked => by
    rw [markupWith, markup, @markupOfWith_of_unlinked children unlinked]
  | .link _, unlinked => by cases unlinked

/-- Nothing is written for links where there are none. -/
theorem markupOfWith_of_unlinked : ∀ {hs : List Html}, targetsOf hs = [] →
    markupOfWith w hs = markupOf hs
  | [], _ => rfl
  | h :: hs, unlinked => by
    rw [targetsOf, List.append_eq_nil_iff] at unlinked
    rw [markupOfWith, markupOf, markupWith_of_unlinked unlinked.1,
      markupOfWith_of_unlinked unlinked.2]
end

mutual
theorem markupWith_nothing : ∀ h : Html, h.markupWith (fun _ => "") = h.markup
  | .text _ => rfl
  | .element _ _ children => by rw [markupWith, markup, markupOfWith_nothing children]
  | .link _ => rfl

/-- Trees without their links. -/
theorem markupOfWith_nothing : ∀ hs : List Html, markupOfWith (fun _ => "") hs = markupOf hs
  | [] => rfl
  | h :: hs => by rw [markupOfWith, markupOf, markupWith_nothing h, markupOfWith_nothing hs]
end

theorem markupOfWith_append (hs hs' : List Html) :
    markupOfWith w (hs ++ hs') = markupOfWith w hs ++ markupOfWith w hs' := by
  induction hs with
  | nil => exact String.empty_append.symm
  | cons h hs ih => rw [List.cons_append, markupOfWith, markupOfWith, ih, String.append_assoc]

theorem markupOfWith_singleton (h : Html) : markupOfWith w [h] = h.markupWith w := String.append_empty

/-! ### Widgets that go away -/

mutual
theorem markupOf_without (f : FieldId) : ∀ h : Html, markupOf (without f h) = h.markup
  | .text content => String.append_empty
  | .link target => by
    rw [without]
    split <;> rfl
  | .element tag attributes children => by
    rw [without, markupOf, markupOf, markup, markup, markupOf_withoutAll f children,
      String.append_empty]

theorem markupOf_withoutAll (f : FieldId) : ∀ hs : List Html,
    markupOf (withoutAll f hs) = markupOf hs
  | [] => rfl
  | h :: hs => by
    rw [withoutAll, ← markupOfWith_nothing, markupOfWith_append, markupOfWith_nothing,
      markupOfWith_nothing, markupOf_without f h, markupOf_withoutAll f hs, markupOf]
end

/-- Widgets that go away change no markup around them. -/
theorem markupOf_withoutEach (fs : List FieldId) (hs : List Html) :
    markupOf (withoutEach fs hs) = markupOf hs := by
  induction fs generalizing hs with
  | nil => rfl
  | cons f fs ih => exact (ih _).trans (markupOf_withoutAll f hs)

mutual
theorem without_of_absent {f : FieldId} : ∀ {h : Html}, .widget f ∉ h.targets → without f h = [h]
  | .text _, _ => rfl
  | .element _ _ children, absent => by rw [without, @withoutAll_of_absent _ children absent]
  | .link target, absent => by
    have other : target ≠ .widget f := fun same => absent (List.mem_singleton.2 same.symm)
    rw [without, if_neg other]

theorem withoutAll_of_absent {f : FieldId} : ∀ {hs : List Html}, .widget f ∉ targetsOf hs →
    withoutAll f hs = hs
  | [], _ => rfl
  | h :: hs, absent => by
    rw [targetsOf, List.mem_append, not_or] at absent
    rw [withoutAll, without_of_absent absent.1, withoutAll_of_absent absent.2,
      List.singleton_append]
end

/-- Widgets go away only where they are. -/
theorem withoutEach_of_absent : ∀ {fs : List FieldId} {hs : List Html},
    (∀ f ∈ fs, .widget f ∉ targetsOf hs) → withoutEach fs hs = hs
  | [], _, _ => rfl
  | f :: fs, hs, absent => by
    have first : withoutEach (f :: fs) hs = withoutEach fs (withoutAll f hs) := rfl
    rw [first, withoutAll_of_absent (absent f List.mem_cons_self)]
    exact withoutEach_of_absent fun g mem => absent g (List.mem_cons_of_mem _ mem)

/-- The markup of an element around some markup. -/
def around (tag : Markup.Tag) (content : String) : String :=
  openMarkup tag.qname tag.plainAttributes ++ content ++ "</" ++ tag.qname ++ ">"

theorem length_around (tag : Markup.Tag) (content : String) :
    content.length + 1 ≤ (around tag content).length := by
  unfold around
  simp only [String.length_append, show "</".length = 2 from rfl]
  omega

end Html

/-! ## What stays -/

namespace Placeholders

variable (placeholders : Placeholders) (w : FieldId → String)

mutual
/-- A node of markup with something written in the place of its outermost markers. -/
def keptMarkup : Markup.Node → String
  | .text content => Markup.Escape.text content
  | .element tag children =>
    match placeholders.fieldOf? tag with
    | some f => w f
    | none => Html.around tag (keptMarkupOf children)

/-- Siblings with something written in the place of their outermost markers. -/
def keptMarkupOf : List Markup.Node → String
  | [] => ""
  | n :: ns => keptMarkup n ++ keptMarkupOf ns
end

variable {placeholders w}

mutual
theorem exists_of_mem_targets_settleNode {target : Link} : ∀ {n : Markup.Node},
    target ∈ Html.targetsOf (placeholders.settleNode n) →
      ∃ f ∈ placeholders.markedIn n, target = .widget f
  | .text _, mem => by cases mem
  | .element tag children, mem => by
    rw [settleNode] at mem
    rw [markedIn]
    cases marker : placeholders.fieldOf? tag with
    | some f =>
      rw [marker] at mem
      exact ⟨f, List.mem_singleton_self _, List.mem_singleton.1 mem⟩
    | none =>
      rw [marker, Html.targetsOf, Html.targets, Html.targetsOf, List.append_nil] at mem
      exact exists_of_mem_targets_settle mem

/-- What was settled links to the widgets of its markers only. -/
theorem exists_of_mem_targets_settle {target : Link} : ∀ {ns : List Markup.Node},
    target ∈ Html.targetsOf (placeholders.settle ns) →
      ∃ f ∈ placeholders.markedAmong ns, target = .widget f
  | [], mem => by cases mem
  | n :: ns, mem => by
    rw [settle, Html.targetsOf_append, List.mem_append] at mem
    rw [markedAmong]
    rcases mem with here | later
    · obtain ⟨f, marked, same⟩ :=
        exists_of_mem_targets_settleNode (Html.mem_targetsOf_withoutEach _ here)
      exact ⟨f, List.mem_append_left _ marked, same⟩
    · obtain ⟨f, marked, same⟩ := exists_of_mem_targets_settle later
      exact ⟨f, List.mem_append_right _ marked, same⟩
end

mutual
theorem markupWith_settleNode {w : Link → String} : ∀ {n : Markup.Node},
    (placeholders.markedIn n).Nodup → Html.markupOfWith w (placeholders.settleNode n) =
      placeholders.keptMarkup (fun f => w (.widget f)) n
  | .text _, _ => Html.markupOfWith_singleton _
  | .element tag children, distinct => by
    rw [markedIn] at distinct
    rw [settleNode, keptMarkup]
    cases marker : placeholders.fieldOf? tag with
    | some f => exact Html.markupOfWith_singleton _
    | none =>
      rw [marker] at distinct
      dsimp only
      rw [Html.markupOfWith_singleton, Html.markupWith, markupWith_settle distinct, Html.around]

/-- **What was settled** is the markup that stays with the widgets in it, when its markers stand for
different fields. -/
theorem markupWith_settle {w : Link → String} : ∀ {ns : List Markup.Node},
    (placeholders.markedAmong ns).Nodup → Html.markupOfWith w (placeholders.settle ns) =
      placeholders.keptMarkupOf (fun f => w (.widget f)) ns
  | [], _ => rfl
  | n :: ns, distinct => by
    rw [markedAmong, List.nodup_append] at distinct
    obtain ⟨first, rest, apart⟩ := distinct
    have whole : Html.withoutEach (placeholders.markedAmong ns) (placeholders.settleNode n) =
        placeholders.settleNode n := by
      refine Html.withoutEach_of_absent fun f later here => ?_
      obtain ⟨g, marked, same⟩ := exists_of_mem_targets_settleNode here
      cases same
      exact apart f marked f later rfl
    rw [settle, whole, Html.markupOfWith_append, markupWith_settleNode first, markupWith_settle rest,
      keptMarkupOf]
end

mutual
theorem markupOf_settleNode : ∀ n : Markup.Node,
    Html.markupOf (placeholders.settleNode n) = placeholders.keptMarkup (fun _ => "") n
  | .text _ => String.append_empty
  | .element tag children => by
    rw [settleNode, keptMarkup]
    cases placeholders.fieldOf? tag with
    | some field => rfl
    | none =>
      dsimp only
      rw [Html.markupOf, Html.markupOf, Html.markup, markupOf_settle children, String.append_empty,
        Html.around]

/-- **Without its widgets**, what was settled is the markup that stays. -/
theorem markupOf_settle : ∀ ns : List Markup.Node,
    Html.markupOf (placeholders.settle ns) = placeholders.keptMarkupOf (fun _ => "") ns
  | [] => rfl
  | n :: ns => by
    rw [settle, ← Html.markupOfWith_nothing, Html.markupOfWith_append, Html.markupOfWith_nothing,
      Html.markupOfWith_nothing, Html.markupOf_withoutEach, markupOf_settleNode n,
      markupOf_settle ns, keptMarkupOf]
end

/-! ### What does not show -/

theorem keptMarkupOf_append (ns ms : List Markup.Node) :
    placeholders.keptMarkupOf w (ns ++ ms) =
      placeholders.keptMarkupOf w ns ++ placeholders.keptMarkupOf w ms := by
  induction ns with
  | nil => exact String.empty_append.symm
  | cons n ns ih => rw [List.cons_append, keptMarkupOf, keptMarkupOf, ih, String.append_assoc]

theorem markedAmong_append (ns ms : List Markup.Node) :
    placeholders.markedAmong (ns ++ ms) =
      placeholders.markedAmong ns ++ placeholders.markedAmong ms := by
  induction ns with
  | nil => rfl
  | cons n ns ih => rw [List.cons_append, markedAmong, markedAmong, ih, List.append_assoc]

/-- A text in front of joined siblings shows as a text, and marks nothing. -/
theorem kept_consText (content : String) (ns : List Markup.Node) :
    placeholders.keptMarkupOf w (Markup.Node.consText content ns) =
        Markup.Escape.text content ++ placeholders.keptMarkupOf w ns ∧
      placeholders.markedAmong (Markup.Node.consText content ns) = placeholders.markedAmong ns := by
  rcases Markup.Node.consText_cases content ns with ⟨more, rest, rfl, joined⟩ | ⟨_, added⟩
  · have escaped : Markup.Escape.text (content ++ more) =
        Markup.Escape.text content ++ Markup.Escape.text more := by
      simp [Markup.Escape.text]
    rw [joined]
    refine ⟨?_, rfl⟩
    rw [keptMarkupOf, keptMarkupOf, keptMarkup, keptMarkup, escaped, String.append_assoc]
  · rw [added]
    split
    · case isTrue nothing =>
      subst nothing
      exact ⟨String.empty_append.symm, rfl⟩
    · exact ⟨rfl, rfl⟩

/-- Joining texts changes no markup and no marker. -/
theorem kept_joinedAll : ∀ ns : List Markup.Node,
    placeholders.keptMarkupOf w (Markup.Node.joinedAll ns) = placeholders.keptMarkupOf w ns ∧
      placeholders.markedAmong (Markup.Node.joinedAll ns) = placeholders.markedAmong ns
  | [] => ⟨rfl, rfl⟩
  | .text content :: ns => by
    obtain ⟨markup, marked⟩ := kept_joinedAll ns
    obtain ⟨markup', marked'⟩ :=
      @kept_consText placeholders w content (Markup.Node.joinedAll ns)
    rw [Markup.Node.joinedAll, Markup.Node.joined, Markup.Node.cons, markup', marked', markup, marked]
    exact ⟨rfl, rfl⟩
  | .element tag children :: ns => by
    obtain ⟨markup, marked⟩ := kept_joinedAll ns
    obtain ⟨below, belowMarked⟩ := kept_joinedAll children
    rw [Markup.Node.joinedAll, Markup.Node.joined, Markup.Node.cons, keptMarkupOf, keptMarkupOf,
      keptMarkup, keptMarkup, below, markup, markedAmong, markedAmong, markedIn, markedIn,
      belowMarked, marked]
    exact ⟨rfl, rfl⟩

/-- An element is known by the value of its attribute `id`. -/
theorem fieldOf?_eq (tag : Markup.Tag) :
    placeholders.fieldOf? tag = (tag.plainAttributes.get? "id").bind placeholders.get? := rfl

/-- Names do not matter for the markup. -/
theorem plainAttributes_asWritten (tag : Markup.Tag) :
    tag.asWritten.plainAttributes = tag.plainAttributes := by
  simp [Markup.Tag.plainAttributes, Markup.Tag.asWritten, Markup.Attribute.asWritten,
    Markup.Attribute.plain, Function.comp_def]

mutual
theorem kept_asWritten : ∀ n : Markup.Node,
    placeholders.keptMarkup w n.asWritten = placeholders.keptMarkup w n ∧
      placeholders.markedIn n.asWritten = placeholders.markedIn n
  | .text _ => ⟨rfl, rfl⟩
  | .element tag children => by
    obtain ⟨markup, marked⟩ := kept_asWrittenAll children
    have around : ∀ content, Html.around tag.asWritten content = Html.around tag content := by
      intro content
      unfold Html.around
      rw [plainAttributes_asWritten]
      rfl
    rw [Markup.Node.asWritten, keptMarkup, keptMarkup, markedIn, markedIn, fieldOf?_eq, fieldOf?_eq,
      plainAttributes_asWritten, markup, marked, around]
    exact ⟨rfl, rfl⟩

theorem kept_asWrittenAll : ∀ ns : List Markup.Node,
    placeholders.keptMarkupOf w (Markup.Node.asWrittenAll ns) = placeholders.keptMarkupOf w ns ∧
      placeholders.markedAmong (Markup.Node.asWrittenAll ns) = placeholders.markedAmong ns
  | [] => ⟨rfl, rfl⟩
  | n :: ns => by
    obtain ⟨markup, marked⟩ := kept_asWritten n
    obtain ⟨markup', marked'⟩ := kept_asWrittenAll ns
    rw [Markup.Node.asWrittenAll, keptMarkupOf, keptMarkupOf, markup, markup', markedAmong,
      markedAmong, marked, marked']
    exact ⟨rfl, rfl⟩
end

/-- **What sketches leave in the content around them** is read with the same markup and the same
markers. -/
theorem kept_readOf (isPart : FieldId → Bool) (start : Nat) (xs : List Sketch) :
    placeholders.keptMarkupOf w (Sketch.readOf isPart start xs) =
        placeholders.keptMarkupOf w (Sketch.markedOf isPart start xs) ∧
      placeholders.markedAmong (Sketch.readOf isPart start xs) =
        placeholders.markedAmong (Sketch.markedOf isPart start xs) := by
  obtain ⟨markup, marked⟩ := @kept_joinedAll placeholders w
    (Markup.Node.asWrittenAll (Sketch.markedOf isPart start xs))
  obtain ⟨markup', marked'⟩ := @kept_asWrittenAll placeholders w (Sketch.markedOf isPart start xs)
  exact ⟨markup.trans markup', marked.trans marked'⟩

end Placeholders

end Formwork
