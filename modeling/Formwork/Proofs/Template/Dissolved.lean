import Formwork.Proofs.Markup.Joined
import Formwork.Proofs.Template.Identifiers

/-!
# The markup that a template keeps

Compiling takes an element apart: some elements become composites, others leave their content only,
and the rest is written out around its content.  The tags that are written before and behind the
content are decided on separately, and between them stands whatever the content has become.

All text of a template, that of its composites included, is nevertheless the markup of a tree: of the
one in which each element that is registered or reserved is replaced by its content
(`Template.text_compile`).  What is missing is what the tags of these elements would have been
(`Markup.Node.length_unwrapped`), so nothing is missing exactly if there are none.
-/

namespace Formwork

set_option autoImplicit false

/-! ## Trees without some of their elements -/

namespace Markup

mutual
/-- A node in which elements with some tags have given way to their content. -/
def Node.unwrapped (drops : Tag → Bool) : Node → List Node
  | .text content => [.text content]
  | .element tag children =>
    if drops tag then unwrappedAll drops children else [.element tag (unwrappedAll drops children)]

/-- Siblings in which elements with some tags have given way to their content. -/
def unwrappedAll (drops : Tag → Bool) : List Node → List Node
  | [] => []
  | n :: ns => n.unwrapped drops ++ unwrappedAll drops ns
end

/-- The element of a tag without its content. -/
def Tag.emptied (tag : Tag) : Node := .element tag []

theorem Tag.length_emptied_pos (tag : Tag) : 0 < tag.emptied.markup.length := by
  have last : ">".length = 1 := rfl
  rw [emptied, Node.markup, String.length_append, closeMarkup, String.length_append ("</" ++ _), last]
  exact Nat.succ_pos _

mutual
/-- **What is missing** from the markup of a node are the tags of the elements that have given way. -/
theorem Node.length_unwrapped (drops : Tag → Bool) : ∀ n : Node,
    n.markup.length = (markupOf (n.unwrapped drops)).length +
      (markupOf ((n.tags.filter drops).map Tag.emptied)).length
  | .text content => by simp [Node.unwrapped, Node.markup, markupOf, Node.tags]
  | .element tag children => by
    have inner := length_unwrappedAll drops children
    rw [Node.markup, String.length_append, String.length_append, Node.unwrapped, Node.tags]
    by_cases dropped : drops tag = true
    · rw [if_pos dropped, List.filter_cons_of_pos dropped, List.map_cons, markupOf, Tag.emptied,
        Node.markup, markupOf, String.append_empty, String.length_append, String.length_append]
      omega
    · rw [if_neg dropped, List.filter_cons_of_neg dropped, markupOf, markupOf, String.append_empty,
        Node.markup, String.length_append, String.length_append]
      omega

theorem length_unwrappedAll (drops : Tag → Bool) : ∀ ns : List Node,
    (markupOf ns).length = (markupOf (unwrappedAll drops ns)).length +
      (markupOf (((Node.tagsOf ns).filter drops).map Tag.emptied)).length
  | [] => rfl
  | n :: ns => by
    rw [markupOf, unwrappedAll, markupOf_append, Node.tagsOf, List.filter_append, List.map_append,
      markupOf_append, String.length_append, String.length_append, String.length_append,
      Node.length_unwrapped drops n, length_unwrappedAll drops ns]
    omega
end

mutual
/-- A node none of whose elements gives way stays as it is. -/
theorem Node.unwrapped_eq_self {drops : Tag → Bool} : ∀ {n : Node},
    (∀ tag ∈ n.tags, drops tag = false) → n.unwrapped drops = [n]
  | .text _, _ => rfl
  | .element tag children, kept => by
    have below := unwrappedAll_eq_self fun t mem => kept t (List.mem_cons_of_mem _ mem)
    rw [Node.unwrapped, kept tag List.mem_cons_self, below]
    rfl

theorem unwrappedAll_eq_self {drops : Tag → Bool} : ∀ {ns : List Node},
    (∀ tag ∈ Node.tagsOf ns, drops tag = false) → unwrappedAll drops ns = ns
  | [], _ => rfl
  | n :: ns, kept => by
    rw [unwrappedAll, Node.unwrapped_eq_self fun t mem => kept t (List.mem_append_left _ mem),
      unwrappedAll_eq_self fun t mem => kept t (List.mem_append_right _ mem)]
    rfl
end

/-- The markup is whole exactly if no element gives way. -/
theorem Node.markup_unwrapped_eq_iff (drops : Tag → Bool) (n : Node) :
    markupOf (n.unwrapped drops) = n.markup ↔ ∀ tag ∈ n.tags, drops tag = false := by
  constructor
  · intro whole tag mem
    by_contra dropped
    have listed : tag ∈ n.tags.filter drops := List.mem_filter.2 ⟨mem, by simpa using dropped⟩
    obtain ⟨t, ts, filtered⟩ := List.exists_cons_of_ne_nil (List.ne_nil_of_mem listed)
    have missing := n.length_unwrapped drops
    rw [whole, filtered, List.map_cons, markupOf, String.length_append] at missing
    have positive := t.length_emptied_pos
    omega
  · intro kept
    rw [Node.unwrapped_eq_self kept, markupOf, markupOf, String.append_empty]

end Markup

/-! ## The text of a template -/

namespace Template

variable (registry : Registry)

/-- Whether the tags of an element are left out of a template: it is registered, or its name is
reserved. -/
def dissolves (tag : Markup.Tag) : Bool :=
  (registry.lookupUri? tag.uri).isSome || Vocabulary.isReserved tag.uri

mutual
/-- The texts of a template in document order, wherever they were cut. -/
theorem join_texts : ∀ n : Markup.Node, String.join ((hooks registry).trace (sourceOf n)).texts =
    Markup.markupOf (n.unwrapped (dissolves registry))
  | .text content => by
    simp [sourceOf, Cache.Hooks.trace, hooks, Cache.answered, Except.toOption, Cache.Trace.texts,
      Cache.Trace.textsOf, Markup.Node.unwrapped, Markup.markupOf, Markup.Node.markup]
  | .element tag children => by
    have inner := join_textsOf children
    rw [Markup.Node.unwrapped, dissolves]
    cases found : registry.lookupUri? tag.uri with
    | some factory =>
      rw [Sketch.trace_registered found]
      simp [Cache.Trace.texts, Cache.Composite.text, Cache.Composite.leaf, Cache.textOf, inner]
    | none =>
      rw [Sketch.trace_unregistered found, isWritten]
      cases Vocabulary.isReserved tag.uri with
      | true => simp [Cache.Trace.texts, inner]
      | false =>
        simp [Cache.Trace.texts, inner, Markup.markupOf, Markup.Node.markup, String.append_assoc]

theorem join_textsOf : ∀ ns : List Markup.Node,
    String.join (Cache.Trace.textsOf ((hooks registry).traces (sourcesOf ns))) =
      Markup.markupOf (Markup.unwrappedAll (dissolves registry) ns)
  | [] => rfl
  | n :: ns => by
    rw [sourcesOf, Cache.Hooks.traces, Cache.Trace.textsOf, String.join_append, join_texts n,
      join_textsOf ns, Markup.unwrappedAll, Markup.markupOf_append]
end

/-- **Compiling keeps the markup.**  All text of a template is the markup of its node with the tags of
registered and of reserved elements left out, and it is the markup of the node itself exactly if no
element of it is registered or reserved. -/
theorem text_compile (n : Markup.Node) :
    (compile registry n).text = Markup.markupOf (n.unwrapped (dissolves registry)) ∧
      ((compile registry n).text = n.markup ↔ ∀ tag ∈ n.tags,
        registry.lookupUri? tag.uri = none ∧ Vocabulary.isReserved tag.uri = false) := by
  obtain ⟨b, _, compiled⟩ := exists_compile registry n
  have text : (compile registry n).text = Markup.markupOf (n.unwrapped (dissolves registry)) := by
    rw [compiled, Cache.Composite.text_extended, Cache.Trace.textOf_items, join_texts]
    exact String.empty_append
  refine ⟨text, ?_⟩
  rw [text, n.markup_unwrapped_eq_iff]
  simp [dissolves]

/-- A panel between two elements that are written out, one of them in an element that is not known. -/
example : (compile (.builtin 0) (.element ⟨"p", "p", []⟩
    [.element ⟨Vocabulary.reserved "panel", "t:panel", []⟩ [.text "a < b"],
      .element ⟨Vocabulary.reserved "other", "t:other", []⟩ [.element ⟨"br", "br", []⟩ []]])).text =
    "<p>a &lt; b<br></br></p>" := by
  decide +kernel

end Template

end Formwork
