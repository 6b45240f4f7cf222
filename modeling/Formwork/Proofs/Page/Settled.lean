import Formwork.Proofs.Markup.Naming
import Formwork.Proofs.Markup.Passing
import Formwork.Proofs.Markup.Traversal
import Formwork.Proofs.Page.Subtrees

/-!
# Content that is read and set again

Content that is set as markup is read back as the trees that it became (`Page.shown`).  Such a text
names every element and attribute as it was written, gives each attribute one value, and refers to
characters only where text and values have to be told from markup: it is written as settled nodes
are (`toList_shown`).  If it is set again, the same nodes come of it, as long as it may occur in
markup at all (`shown_shown`).  Otherwise it cannot be read, and it becomes a text: this happens
when a reference by number has named a control character, and when a text that could not be read
holds one.
-/

namespace Formwork

set_option autoImplicit false

open Markup (Node IsMarkupText)

/-! ## Settled nodes -/

namespace Markup

/-- A tag as a page keeps it: names stand for themselves, and a repeated attribute has its last
value. -/
def Tag.settled (t : Tag) : Tag :=
  ⟨t.qname, t.qname, t.plainAttributes.toList.map fun a => .plain a.1 a.2⟩

mutual
/-- A node as a page keeps it. -/
def Node.settled : Node → Node
  | .text content => .text content
  | .element tag children => .element tag.settled (Node.settledAll children)

/-- Siblings as a page keeps them. -/
def Node.settledAll : List Node → List Node
  | [] => []
  | n :: ns => n.settled :: Node.settledAll ns
end

theorem Tag.plainAttributes_settled (t : Tag) : t.settled.plainAttributes = t.plainAttributes := by
  have same : t.settled.attributes.map (fun a => (a.qname, a.value)) = t.plainAttributes.toList := by
    simp [settled, Attribute.plain, Function.comp_def]
  unfold plainAttributes at same ⊢
  rw [same, OrderedMap.ofList_toList]

/-- What is kept of the attributes was among them. -/
theorem Tag.exists_of_mem_settled {t : Tag} {a : Attribute} (mem : a ∈ t.settled.attributes) :
    ∃ b ∈ t.attributes, a.qname = b.qname ∧ a.value = b.value := by
  obtain ⟨⟨name, value⟩, kept, rfl⟩ := List.mem_map.1 mem
  have found : t.plainAttributes.get? name = some value := OrderedMap.get?_eq_some.2 kept
  unfold plainAttributes at found
  rw [OrderedMap.get?_ofList, Option.map_eq_some_iff] at found
  obtain ⟨entry, last, rfl⟩ := found
  obtain ⟨listed, same⟩ := List.mem_filter.1 (List.mem_of_getLast? last)
  obtain ⟨b, given, rfl⟩ := List.mem_map.1 listed
  exact ⟨b, given, (of_decide_eq_true same).symm, rfl⟩

mutual
theorem Node.named_settled : ∀ {n : Node}, n.Named → n.settled.Named
  | .text _, _ => trivial
  | .element tag _, ⟨name, names, content⟩ => by
    refine ⟨name, fun a mem => ?_, namedAll_settledAll content⟩
    obtain ⟨b, given, same, _⟩ := Tag.exists_of_mem_settled mem
    exact same ▸ names b given

theorem Node.namedAll_settledAll : ∀ {ns : List Node}, NamedAll ns → NamedAll (settledAll ns)
  | [], _ => trivial
  | _ :: _, ⟨first, rest⟩ => ⟨named_settled first, namedAll_settledAll rest⟩
end

theorem Node.isText_settled (n : Node) : n.settled.isText = n.isText := by
  cases n <;> rfl

mutual
theorem Node.parted_settled : ∀ {n : Node}, n.Parted → n.settled.Parted
  | .text _, parted => parted
  | .element _ _, parted => partedAll_settledAll parted

theorem Node.partedAll_settledAll : ∀ {ns : List Node}, PartedAll ns → PartedAll (settledAll ns)
  | [], _ => trivial
  | n :: ns, ⟨first, apart, rest⟩ => by
    refine ⟨parted_settled first, fun text m head => ?_, partedAll_settledAll rest⟩
    rw [isText_settled] at text
    cases ns with
    | nil => cases head
    | cons m' ns =>
      cases head
      rw [isText_settled]
      exact apart text m' rfl
end

mutual
/-- In settled nodes every name stands for itself. -/
theorem Node.asWritten_settled : ∀ n : Node, n.settled.asWritten = n.settled
  | .text _ => rfl
  | .element tag children => by
    rw [settled, asWritten, asWrittenAll_settledAll children]
    simp [Tag.settled, Tag.asWritten, Attribute.asWritten, Attribute.plain, Function.comp_def]

theorem Node.asWrittenAll_settledAll : ∀ ns : List Node, asWrittenAll (settledAll ns) = settledAll ns
  | [] => rfl
  | n :: ns => by rw [settledAll, asWrittenAll, asWritten_settled n, asWrittenAll_settledAll ns]
end

end Markup

mutual
/-- Settled nodes are the same trees. -/
theorem Html.ofNode_settled : ∀ n : Node, Html.ofNode n.settled = Html.ofNode n
  | .text _ => rfl
  | .element tag children => by
    rw [Markup.Node.settled, Html.ofNode, Html.ofNode, Html.ofNodes_settledAll children,
      tag.plainAttributes_settled]
    rfl

theorem Html.ofNodes_settledAll : ∀ ns : List Node,
    Html.ofNodes (Markup.Node.settledAll ns) = Html.ofNodes ns
  | [] => rfl
  | n :: ns => by
    rw [Markup.Node.settledAll, Html.ofNodes, Html.ofNodes, Html.ofNode_settled n,
      Html.ofNodes_settledAll ns]
end

mutual
/-- A tree of markup is written out as its settled node. -/
theorem Html.toList_written_ofNode : ∀ n : Node,
    ((Html.ofNode n).written Markup.Escape.text Page.wrapMarkup).toList = n.settled.chars .double
  | .text content => by simp [Html.ofNode, written, Markup.Node.settled, Markup.Node.chars, Markup.Escape.text]
  | .element tag children => by
    have inner := Html.toList_writtenOf_ofNodes children
    simp [Html.ofNode, written, Page.wrapMarkup, Html.openMarkup, inner, Markup.Node.settled,
      Markup.Node.chars, Markup.Tag.settled, Markup.attrChars, String.toList_join, List.flatMap_map,
      Markup.Escape.toList_attr, Markup.Attribute.plain]

theorem Html.toList_writtenOf_ofNodes : ∀ ns : List Node,
    (Html.writtenOf Markup.Escape.text Page.wrapMarkup (Html.ofNodes ns)).toList =
      Markup.Node.charsOf .double (Markup.Node.settledAll ns)
  | [] => rfl
  | n :: ns => by
    simp [Html.ofNodes, Html.writtenOf, Html.toList_written_ofNode n, Html.toList_writtenOf_ofNodes ns,
      Markup.Node.settledAll, Markup.Node.charsOf]
end

/-! ## Characters that are seen -/

namespace Markup

/-- What is written for a character that may not occur in markup is that character. -/
theorem Escape.isMarkupChar_of_textChar {c : Char} (good : ∀ d ∈ textChar c, isMarkupChar d = true) :
    isMarkupChar c = true := by
  unfold textChar at good
  split at good
  · rfl
  · rfl
  · rfl
  · exact good c (List.mem_singleton_self c)

theorem Escape.isMarkupChar_of_valueChar (quote : Quote) {c : Char}
    (good : ∀ d ∈ valueChar quote c, isMarkupChar d = true) : isMarkupChar c = true := by
  unfold valueChar at good
  split at good
  · next same =>
    subst same
    cases quote <;> rfl
  · exact isMarkupChar_of_textChar good

mutual
/-- Written markup shows every character of its texts and values. -/
theorem Node.legible_of_chars (quote : Quote) : ∀ {n : Node},
    (∀ c ∈ n.chars quote, isMarkupChar c = true) → n.Legible
  | .text content, good => fun c mem =>
    Escape.isMarkupChar_of_textChar fun d written => good d (List.mem_flatMap.2 ⟨c, mem, written⟩)
  | .element tag children, good => by
    refine ⟨fun a mem c inside => ?_, legibleAll_of_charsOf quote fun c mem => good c ?_⟩
    · refine Escape.isMarkupChar_of_valueChar quote fun d written => good d ?_
      have value : d ∈ Token.quotedValue quote a.value :=
        List.mem_cons_of_mem _ (List.mem_append_left _ (List.mem_flatMap.2 ⟨c, inside, written⟩))
      have standing : d ∈ attrChars quote tag.attributes :=
        List.mem_flatMap.2 ⟨a, mem, List.mem_cons_of_mem _
          (List.mem_append_right _ (List.mem_cons_of_mem _ value))⟩
      exact List.mem_cons_of_mem _ (List.mem_append_right _ (List.mem_append_left _ standing))
    · exact List.mem_cons_of_mem _ (List.mem_append_right _ (List.mem_append_right _
        (List.mem_cons_of_mem _ (List.mem_append_left _ mem))))

theorem Node.legibleAll_of_charsOf (quote : Quote) : ∀ {ns : List Node},
    (∀ c ∈ charsOf quote ns, isMarkupChar c = true) → LegibleAll ns
  | [], _ => trivial
  | _ :: _, good => ⟨legible_of_chars quote fun c mem => good c (List.mem_append_left _ mem),
      legibleAll_of_charsOf quote fun c mem => good c (List.mem_append_right _ mem)⟩
end

/-- Three characters are escaped, by more than one character. -/
theorem Escape.textChar_cases (c : Char) :
    (c ≠ '&' ∧ c ≠ '<' ∧ c ≠ '>') ∧ textChar c = [c] ∨
      ¬ (c ≠ '&' ∧ c ≠ '<' ∧ c ≠ '>') ∧ 1 < (textChar c).length := by
  unfold textChar
  split
  · exact .inr ⟨fun plain => plain.1 rfl, by decide⟩
  · exact .inr ⟨fun plain => plain.2.1 rfl, by decide⟩
  · exact .inr ⟨fun plain => plain.2.2 rfl, by decide⟩
  · next amp lt gt => exact .inl ⟨⟨amp, lt, gt⟩, rfl⟩

theorem Escape.length_le_flatMap_textChar (cs : List Char) :
    cs.length ≤ (cs.flatMap textChar).length := by
  induction cs with
  | nil => exact Nat.le_refl _
  | cons c cs ih =>
    rw [List.flatMap_cons, List.length_append, List.length_cons]
    rcases textChar_cases c with ⟨_, same⟩ | ⟨_, longer⟩
    · rw [same, List.length_singleton]
      omega
    · omega

/-- Characters are what is written for them if none is escaped: what is escaped gets longer, and nothing gets
shorter. -/
theorem Escape.flatMap_textChar_eq_self_iff (cs : List Char) :
    cs.flatMap textChar = cs ↔ ∀ c ∈ cs, c ≠ '&' ∧ c ≠ '<' ∧ c ≠ '>' := by
  induction cs with
  | nil => simp
  | cons c cs ih =>
    rw [List.flatMap_cons, List.forall_mem_cons, ← ih]
    rcases textChar_cases c with ⟨plain, same⟩ | ⟨special, longer⟩
    · rw [same, List.singleton_append, List.cons_inj_right]
      exact (and_iff_right plain).symm
    · refine ⟨fun eq => ?_, fun both => absurd both.1 special⟩
      have lengths := congrArg List.length eq
      rw [List.length_append, List.length_cons] at lengths
      have := length_le_flatMap_textChar cs
      omega

/-- A text is escaped unless it holds none of the three characters that are. -/
theorem Escape.text_eq_self_iff (s : String) :
    Escape.text s = s ↔ ∀ c ∈ s.toList, c ≠ '&' ∧ c ≠ '<' ∧ c ≠ '>' := by
  rw [← flatMap_textChar_eq_self_iff, ← String.toList_inj, text, String.toList_ofList]

end Markup

/-! ## What is shown -/

namespace Page

/-- What content reads as that was set as markup. -/
def shown (html : String) : String :=
  Html.writtenOf Markup.Escape.text wrapMarkup (Html.ofNodes (nodesOrText html))

theorem nodesOrText_of_ok {html : String} {ns : List Node}
    (parsed : Markup.parseFragment html = .ok ns) : nodesOrText html = ns := by
  unfold nodesOrText
  rw [parsed]

theorem nodesOrText_of_not_isOk {html : String} (refused : (Markup.parseFragment html).isOk = false) :
    nodesOrText html = textNodes html := by
  unfold nodesOrText
  cases parsed : Markup.parseFragment html with
  | error e => rfl
  | ok ns =>
    rw [parsed] at refused
    cases refused

/-- Whether it was read or not, content consists of named nodes whose texts are apart. -/
theorem named_parted_nodesOrText (html : String) :
    Markup.Node.NamedAll (nodesOrText html) ∧ Markup.Node.PartedAll (nodesOrText html) := by
  cases parsed : Markup.parseFragment html with
  | ok ns =>
    rw [nodesOrText_of_ok parsed]
    exact ⟨Markup.parseFragment_named parsed, Markup.parseFragment_parted parsed⟩
  | error e =>
    rw [nodesOrText_of_not_isOk (by rw [parsed]; rfl), textNodes]
    split
    · exact ⟨trivial, trivial⟩
    · next something => exact ⟨⟨trivial, trivial⟩, something, nofun, trivial⟩

/-- **What is shown** is the settled nodes, written with double quotes. -/
theorem toList_shown (html : String) : (shown html).toList =
    Markup.Node.charsOf .double (Markup.Node.settledAll (nodesOrText html)) :=
  Html.toList_writtenOf_ofNodes _

/-- A text is shown as markup in which it is escaped. -/
theorem writtenOf_textNodes (content : String) : Html.writtenOf Markup.Escape.text wrapMarkup
    (Html.ofNodes (textNodes content)) = Markup.Escape.text content := by
  unfold textNodes
  split
  · next nothing => subst nothing; rfl
  · exact String.append_empty

/-- Content that is put on the page as a text is shown as that text. -/
theorem shown_of_nodesOrText_eq {html content : String} (text : nodesOrText html = textNodes content) :
    shown html = Markup.Escape.text content := by
  rw [shown, text, writtenOf_textNodes]

theorem shown_of_not_isOk {html : String} (refused : (Markup.parseFragment html).isOk = false) :
    shown html = Markup.Escape.text html :=
  shown_of_nodesOrText_eq (nodesOrText_of_not_isOk refused)

/-- **What is shown can be set again**: content that may occur in markup is read back as the nodes
that it shows. -/
theorem shown_shown_of_isMarkupText {html : String} (good : IsMarkupText (shown html)) :
    shown (shown html) = shown html := by
  obtain ⟨named, parted⟩ := named_parted_nodesOrText html
  have legible : Markup.Node.LegibleAll (Markup.Node.settledAll (nodesOrText html)) := by
    refine Markup.Node.legibleAll_of_charsOf .double ?_
    rw [← toList_shown]
    exact good
  have read := Markup.parseFragment_charsOf
    ((Markup.Node.writableAll_iff _).2 ⟨Markup.Node.namedAll_settledAll named, legible⟩)
    (Markup.Node.partedAll_settledAll parted) .double (toList_shown html)
  rw [Markup.Node.asWrittenAll_settledAll] at read
  rw [shown, nodesOrText_of_ok read, Html.ofNodes_settledAll]
  rfl

/-- **Content that is read and set again** stays as it is shown, unless it may not occur in markup: then
it is taken for a text. -/
theorem shown_shown (html : String) : shown (shown html) =
    if IsMarkupText (shown html) then shown html else Markup.Escape.text (shown html) := by
  split
  · next good => exact shown_shown_of_isMarkupText good
  · next bad =>
    refine shown_of_not_isOk ?_
    cases accepted : (Markup.parseFragment (shown html)).isOk with
    | false => rfl
    | true => exact absurd (Markup.parseFragment_isMarkupText accepted) bad

/-- When content stays as it is shown. -/
theorem shown_shown_eq_iff (html : String) : shown (shown html) = shown html ↔
    IsMarkupText (shown html) ∨ ∀ c ∈ (shown html).toList, c ≠ '&' ∧ c ≠ '<' ∧ c ≠ '>' := by
  rw [shown_shown]
  split
  · next good => exact ⟨fun _ => .inl good, fun _ => rfl⟩
  · next bad =>
    rw [Markup.Escape.text_eq_self_iff]
    exact ⟨.inr, fun h => h.resolve_left bad⟩

end Page

end Formwork
