import Formwork.Proofs.Markup.Standing

/-!
# Documents are read without loss

A document is accepted exactly if its tokens are well formed, and then nothing that its tokens say is
lost (`parseDocument_wellFormed`).

What a tree says is the sequence of its parts in the order in which they are written: the beginning
of an element, its attributes, its content, and its end (`Node.events`).  What tokens say is the
sequence of the same parts, without asides and with references decoded (`eventsOf`).  The two agree
once adjacent texts are joined and empty ones are dropped (`Event.joined`).

The induction is over the tokens, from an arbitrary reader: its events grow by those of the token it
takes in (`Reader.events_take`), up to the places at which texts are cut (`Event.Agree`).
-/

namespace Formwork.Markup

set_option autoImplicit false

/-! ## Events -/

/-- A part of a document. -/
inductive Event where
  /-- An element begins. -/
  | opens (name : String)
  /-- The element that began last has an attribute. -/
  | attr (name value : String)
  /-- A text. -/
  | text (content : String)
  /-- An element ends. -/
  | closes (name : String)
  deriving DecidableEq, Repr

namespace Event

/-- A text in front of joined events. -/
def consText (content : String) : List Event → List Event
  | .text more :: es => .text (content ++ more) :: es
  | es => if content = "" then es else .text content :: es

/-- An event in front of joined events. -/
def cons : Event → List Event → List Event
  | .text content, es => consText content es
  | e, es => e :: es

/-- Events in which adjacent texts are joined and empty ones are dropped. -/
def joined (es : List Event) : List Event := es.foldr cons []

theorem consText_consText (before behind : String) (es : List Event) :
    consText before (consText behind es) = consText (before ++ behind) es := by
  have fresh : ∀ es : List Event, (∀ more rest, es ≠ .text more :: rest) →
      consText before (consText behind es) = consText (before ++ behind) es := by
    intro es other
    have added : ∀ content, consText content es = if content = "" then es else .text content :: es := by
      intro content
      unfold consText
      split
      · next more rest => exact absurd rfl (other more rest)
      · rfl
    rw [added behind, added (before ++ behind)]
    by_cases nothing : behind = ""
    · rw [if_pos nothing, added, nothing, String.append_empty]
    · have something : before ++ behind ≠ "" := fun eq =>
        nothing (String.append_eq_empty_iff.1 eq).2
      rw [if_neg nothing, if_neg something]
      rfl
  cases es with
  | nil => exact fresh [] nofun
  | cons e es =>
    cases e with
    | text more => exact congrArg (fun content => text content :: es) String.append_assoc.symm
    | _ => exact fresh _ nofun

/-- Events that say the same, however their texts are cut, whatever else is said behind them. -/
def Agree (es fs : List Event) : Prop := ∀ rest, joined (es ++ rest) = joined (fs ++ rest)

namespace Agree

variable {es fs gs : List Event}

theorem refl (es : List Event) : Agree es es := fun _ => rfl

theorem trans (h : Agree es fs) (h' : Agree fs gs) : Agree es gs :=
  fun rest => (h rest).trans (h' rest)

theorem append (h : Agree es fs) (before behind : List Event) :
    Agree (before ++ es ++ behind) (before ++ fs ++ behind) := by
  intro rest
  unfold joined at *
  simp only [List.append_assoc, List.foldr_append]
  have same := h (behind ++ rest)
  unfold joined at same
  simp only [List.foldr_append] at same
  rw [same]

theorem append_right (h : Agree es fs) (behind : List Event) : Agree (es ++ behind) (fs ++ behind) :=
  h.append [] behind

theorem append_left (h : Agree es fs) (before : List Event) : Agree (before ++ es) (before ++ fs) := by
  simpa using h.append before []

/-- Two texts say the same as one. -/
theorem texts (before behind : String) :
    Agree [.text (before ++ behind)] [.text before, .text behind] :=
  fun _ => (consText_consText ..).symm

/-- An empty text says nothing. -/
theorem noText : Agree [] [.text ""] := by
  intro rest
  show joined rest = consText "" (joined rest)
  generalize joined rest = es
  unfold consText
  split
  · rw [String.empty_append]
  · rfl

end Agree

end Event

/-! ## What trees and tokens say -/

/-- The beginning of an element and its attributes in order. -/
def Tag.events (t : Tag) : List Event :=
  .opens t.qname :: t.attributes.map fun a => .attr a.qname a.value

mutual
/-- The parts of a node in the order in which they are written. -/
def Node.events : Node → List Event
  | .text content => [.text content]
  | .element tag children => tag.events ++ Node.eventsAll children ++ [.closes tag.qname]

/-- The parts of siblings, one after the other. -/
def Node.eventsAll : List Node → List Event
  | [] => []
  | n :: ns => n.events ++ Node.eventsAll ns
end

/-- A raw text with its references decoded. -/
def decodedText (raw : List Char) : String := String.ofList ((Reference.decode raw).toOption.getD [])

/-- The part of a document that a token is; the end of a start tag is none, unless it ends the element
too, which has the given name. -/
def Token.events (tag : String) : Token → List Event
  | .startTag name _ => [.opens name.text]
  | .attr name value _ => [.attr name.text (decodedText value)]
  | .tagEnd isEmpty => if isEmpty then [.closes tag] else []
  | .endTag name _ => [.closes name.text]
  | .characters raw _ => [.text (decodedText raw)]
  | .cdata content => [.text (String.ofList content)]
  | .aside => []

/-- The name in the last start tag that has begun. -/
def Token.lastTag (tag : String) : Token → String
  | .startTag name _ => name.text
  | _ => tag

/-- What tokens say behind the beginning of a start tag with a given name. -/
def eventsFrom (tag : String) : List Token → List Event
  | [] => []
  | t :: ts => t.events tag ++ eventsFrom (t.lastTag tag) ts

/-- What tokens say. -/
def eventsOf (ts : List Token) : List Event := eventsFrom "" ts

/-- Tokens of a document that are well formed. -/
structure WellFormed (ts : List Token) : Prop where
  /-- Every end tag has the name of the innermost open element. -/
  matched : ∀ before name mark behind, ts = before ++ .endTag name mark :: behind →
    ∃ t ∈ (Standing.of before).elements.head?, t.name.text = name.text
  /-- Behind the last token no tag is open. -/
  closed : Standing.of ts = .closed
  /-- There is an element. -/
  rooted : ∃ name mark, Token.startTag name mark ∈ ts
  /-- Every qualifier that a start tag uses is declared in it or in an open element. -/
  bound : ∀ before isEmpty behind, ts = before ++ .tagEnd isEmpty :: behind →
    (Standing.of before).Bound
  /-- Every reference can be decoded. -/
  decodes : ∀ t ∈ ts, t.decodes = true

/-! ## Nodes that are pushed -/

/-- A node that is pushed adds its events. -/
theorem Node.events_push (ns : List Node) (n : Node) :
    Event.Agree (eventsAll (push ns n)) (eventsAll ns ++ n.events) := by
  induction ns with
  | nil =>
    intro rest
    simp [push, eventsAll]
  | cons m ns ih =>
    cases ns with
    | nil =>
      have apart : Event.Agree (eventsAll [m, n]) (eventsAll [m] ++ n.events) := by
        intro rest
        simp [eventsAll]
      cases m with
      | element tag children => exact apart
      | text content =>
        cases n with
        | element tag children => exact apart
        | text more => exact Event.Agree.texts content more
    | cons m' ns =>
      rw [push_cons_cons, eventsAll, eventsAll, List.append_assoc]
      exact ih.append_left _

/-- The first sibling stays a text or an element. -/
theorem Node.isText_head_push {m n k : Node} {ns : List Node}
    (head : (push (m :: ns) n).head? = some k) : k.isText = m.isText := by
  cases ns with
  | cons m' ns =>
    rw [push_cons_cons] at head
    cases head
    rfl
  | nil =>
    cases m <;> cases n <;> cases head <;> rfl

/-- A node that is not empty is pushed without leaving two texts side by side. -/
theorem Node.partedAll_push {ns : List Node} {n : Node} (h : PartedAll ns) (h' : n.Parted) :
    PartedAll (push ns n) := by
  induction ns with
  | nil => exact ⟨h', nofun, trivial⟩
  | cons m ns ih =>
    obtain ⟨first, seam, rest⟩ := h
    cases ns with
    | nil =>
      cases m with
      | element tag children => exact ⟨first, nofun, h', nofun, trivial⟩
      | text content =>
        cases n with
        | element tag children =>
          refine ⟨first, fun _ m head => ?_, h', nofun, trivial⟩
          cases head
          rfl
        | text more =>
          refine ⟨fun nothing => first ?_, nofun, trivial⟩
          exact (String.append_eq_empty_iff.1 nothing).1
    | cons m' ns =>
      rw [push_cons_cons]
      refine ⟨first, fun text k head => ?_, ih rest⟩
      rw [isText_head_push head]
      exact seam text m' rfl

/-! ## What a reader has read -/

/-- What the start tag says that is being read. -/
def OpenTag.events (t : OpenTag) : List Event :=
  .opens t.name.text :: t.attributes.map fun a => .attr a.1.text a.2

/-- What an open element says so far. -/
def OpenElement.events (e : OpenElement) : List Event :=
  e.element.toTag.events ++ Node.eventsAll e.element.children

theorem OpenElement.events_toNode (e : OpenElement) :
    e.element.toNode.events = e.events ++ [.closes e.element.qname] := by
  rw [Element.toNode, Node.events]
  rfl

namespace Reader

variable {r r' : Reader}

/-- What a reader has read: the finished nodes, the open elements from the outermost on, and the start
tag that is being read. -/
def events (r : Reader) : List Event :=
  Node.eventsAll r.roots ++ r.elements.reverse.flatMap OpenElement.events ++
    r.tag.toList.flatMap OpenTag.events

/-- Adding a node outside start tags adds its events. -/
theorem events_addNode (outside : r.tag = none) (n : Node) :
    Event.Agree (r.addNode n).events (r.events ++ n.events) := by
  cases r with
  | mk tag elements scope roots =>
    cases outside
    cases elements with
    | nil => simpa [addNode, events] using Node.events_push roots n
    | cons e es =>
      have grown := (Node.events_push e.element.children n).append_left
        (Node.eventsAll roots ++ es.reverse.flatMap OpenElement.events ++ e.element.toTag.events)
      simpa [addNode, events, OpenElement.events, Element.pushChild] using grown

/-- Leaving an element adds its end. -/
theorem events_leave {e : OpenElement} {es : List OpenElement} (outside : r.tag = none)
    (open_ : r.elements = e :: es) :
    Event.Agree ({ r with elements := es }.leave e).events (r.events ++ [.closes e.element.qname]) := by
  have left := events_addNode (r := { r with elements := es, scope := r.scope.drop e.declared })
    outside e.element.toNode
  rw [e.events_toNode] at left
  have same : r.events = events { r with elements := es, scope := r.scope.drop e.declared } ++
      e.events := by
    simp [events, outside, open_]
  rw [same, List.append_assoc]
  exact left

theorem events_addText (open_ : r.elements ≠ []) (outside : r.tag = none) (form : Form)
    (content : List Char) : Event.Agree (r.addText form content).events
      (r.events ++ [.text (String.ofList content)]) := by
  unfold addText
  split
  · next nothing =>
    rw [List.isEmpty_iff.1 nothing]
    simpa using Event.Agree.noText.append_left r.events
  · rw [if_neg (fun blank => open_ (List.isEmpty_iff.1 blank.1))]
    exact events_addNode outside _

/-- The start tag being read says what its tag says. -/
theorem events_tag {scope : Scope} {t : OpenTag} {tag : Tag}
    (made : scope.tag .document t.name t.attributes = .ok tag) : tag.events = t.events := by
  obtain ⟨name, written⟩ := Scope.written_tag made
  have attrs := congrArg (List.map fun a : String × String => Event.attr a.1 a.2) written
  rw [List.map_map, List.map_map] at attrs
  exact congrArg₂ (Event.opens · :: ·) name attrs

theorem events_endTagStart {t : OpenTag} (reading : r.tag = some t) {isEmpty : Bool}
    (run : r.endTagStart .document isEmpty = .ok r') :
    Event.Agree r'.events (r.events ++ (Token.tagEnd isEmpty).events t.name.text) := by
  obtain ⟨t', tag, reading', made, rfl⟩ := endTagStart_ok run
  cases reading.symm.trans reading'
  have same := events_tag made
  have name := (Scope.written_tag made).1
  -- The element is open for a moment even if it is empty.
  have opened : ∀ (scope : Scope) (declared : Nat),
      events ⟨none, ⟨⟨tag, []⟩, declared⟩ :: r.elements, scope, r.roots⟩ = r.events := by
    intro scope declared
    simp [events, reading, OpenElement.events, Node.eventsAll, same]
  cases isEmpty with
  | true =>
    rw [← opened _ _, ← name]
    exact events_leave (r := ⟨none, _ :: r.elements, _, r.roots⟩) rfl rfl
  | false =>
    rw [if_neg Bool.false_ne_true, opened, Token.events, if_neg Bool.false_ne_true, List.append_nil]
    exact .refl _

theorem events_close (outside : r.tag = none) {name : QName} {mark : Mark}
    (run : r.close name mark = .ok r') :
    Event.Agree r'.events (r.events ++ [.closes name.text]) := by
  obtain ⟨e, es, elements, same, rfl⟩ := close_ok run
  rw [← same]
  exact events_leave outside elements

theorem decodedText_of_decode {raw content : List Char} {mark : Mark}
    (run : decode raw mark = .ok content) : decodedText raw = String.ofList content := by
  unfold decodedText
  rw [ok_of_mapError run]
  rfl

/-- **A token that is taken in** adds its events. -/
theorem events_take {p q : Place} {t : Token} {tag : String} (at_ : r.At p) (goes : p.Goes t q)
    (last : ∀ o ∈ r.tag, o.name.text = tag) (run : r.take .document t = .ok r') :
    Event.Agree r'.events (r.events ++ t.events tag) := by
  have ends : ∀ {depth : Nat} {isEmpty : Bool}, r.At (.inTag depth) →
      r.take .document (.tagEnd isEmpty) = .ok r' →
        Event.Agree r'.events (r.events ++ (Token.tagEnd isEmpty).events tag) := by
    rintro depth isEmpty ⟨reading, _, _⟩ run
    obtain ⟨o, reading⟩ := Option.isSome_iff_exists.1 reading
    exact last o reading ▸ events_endTagStart reading run
  have text : ∀ {depth : Nat} (content : List Char), r.At (.content (depth + 1)) →
      Event.Agree (r.addText .document content).events
        (r.events ++ [.text (String.ofList content)]) := by
    rintro depth content ⟨outside, deep, _⟩
    exact events_addText (List.length_pos_iff.1 (deep ▸ Nat.succ_pos _)) outside _ _
  cases goes with
  | aside | asideBefore =>
    cases run
    exact (List.append_nil r.events).symm ▸ .refl _
  | root name mark =>
    cases run
    obtain ⟨outside, _⟩ := at_
    simp [events, outside, Token.events, OpenTag.events, Event.Agree]
  | child name mark =>
    cases run
    obtain ⟨outside, _⟩ := at_
    simp [events, outside, Token.events, OpenTag.events, Event.Agree]
  | attr name value mark =>
    obtain ⟨content, decoded, run⟩ := exists_of_bind_eq_ok run
    cases run
    obtain ⟨o, reading⟩ := Option.isSome_iff_exists.1 at_.1
    simp [events, reading, Token.events, OpenTag.events, decodedText_of_decode decoded, Event.Agree]
  | opens => exact ends at_ run
  | empty => exact ends at_ run
  | closes name mark => exact events_close at_.1 run
  | characters raw mark =>
    obtain ⟨content, decoded, run⟩ := exists_of_bind_eq_ok run
    cases run
    rw [Token.events, decodedText_of_decode decoded]
    exact text content at_
  | cdata content =>
    cases run
    exact text content at_

/-- The name in the last start tag that has begun is that of the tag being read. -/
theorem lastTag_take {p q : Place} {t : Token} {tag : String} (at_ : r.At p) (goes : p.Goes t q)
    (last : ∀ o ∈ r.tag, o.name.text = tag) (run : r.take .document t = .ok r') :
    ∀ o ∈ r'.tag, o.name.text = t.lastTag tag := by
  have outside : r'.tag = none → ∀ o ∈ r'.tag, o.name.text = t.lastTag tag := by
    intro none_ o some_
    rw [none_] at some_
    cases some_
  have there := at_.take goes run
  cases goes with
  | root name mark | child name mark =>
    cases run
    rintro o ⟨⟩
    rfl
  | attr name value mark =>
    obtain ⟨content, _, run⟩ := exists_of_bind_eq_ok run
    cases run
    intro o some_
    obtain ⟨o', reading, rfl⟩ := Option.map_eq_some_iff.1 some_
    exact last o' reading
  | asideBefore => exact outside there.1
  | opens => exact outside there.1
  | characters | cdata => exact outside there.1
  | @aside depth | @empty depth | @closes depth =>
    cases depth <;> exact outside there.1

/-- **Tokens that are taken in** add their events. -/
theorem events_takeAll {p q : Place} {ts : List Token} {tag : String} (at_ : r.At p)
    (leads : p.Leads ts q) (last : ∀ o ∈ r.tag, o.name.text = tag)
    (run : takeAll .document r ts = .ok r') :
    Event.Agree r'.events (r.events ++ eventsFrom tag ts) := by
  induction ts generalizing r p tag with
  | nil =>
    cases run
    exact (List.append_nil _).symm ▸ .refl _
  | cons t ts ih =>
    obtain ⟨m, goes, leads⟩ := leads
    obtain ⟨s, taken, run⟩ := exists_of_bind_eq_ok run
    rw [eventsFrom, ← List.append_assoc]
    exact (ih (at_.take goes taken) leads (lastTag_take at_ goes last taken) run).trans
      ((events_take at_ goes last taken).append_right _)

end Reader

/-! ## Texts that are apart -/

/-- The invariant of reading: nowhere is a text empty or next to another one. -/
structure Reader.Parted (r : Reader) : Prop where
  roots : Node.PartedAll r.roots
  elements : ∀ e ∈ r.elements, Node.PartedAll e.element.children

namespace Reader.Parted

variable {r r' : Reader} {form : Form}

theorem addNode (h : r.Parted) {n : Node} (parted : n.Parted) : (r.addNode n).Parted := by
  cases r with
  | mk tag elements scope roots =>
    cases elements with
    | nil => exact ⟨Node.partedAll_push h.roots parted, nofun⟩
    | cons e es =>
      obtain ⟨inner, outer⟩ := List.forall_mem_cons.1 h.elements
      exact ⟨h.roots, List.forall_mem_cons.2 ⟨Node.partedAll_push inner parted, outer⟩⟩

theorem addText (h : r.Parted) (content : List Char) : (r.addText form content).Parted := by
  unfold Reader.addText
  split
  · exact h
  · next some_ =>
    split
    · exact h
    · exact h.addNode fun nothing => some_ (by simpa using nothing)

theorem endTagStart (h : r.Parted) {isEmpty : Bool} (run : r.endTagStart form isEmpty = .ok r') :
    r'.Parted := by
  obtain ⟨t, tag, _, _, rfl⟩ := Reader.endTagStart_ok run
  cases isEmpty with
  | true =>
    exact addNode (r := { r with tag := none, scope := _ }) ⟨h.roots, h.elements⟩
      (show Node.PartedAll [] from trivial)
  | false => exact ⟨h.roots, List.forall_mem_cons.2 ⟨trivial, h.elements⟩⟩

theorem close (h : r.Parted) {name : QName} {mark : Mark} (run : r.close name mark = .ok r') :
    r'.Parted := by
  obtain ⟨e, es, elements, _, rfl⟩ := Reader.close_ok run
  obtain ⟨inner, outer⟩ := List.forall_mem_cons.1 (elements ▸ h.elements)
  exact addNode (r := { r with elements := es, scope := _ }) ⟨h.roots, outer⟩ inner

theorem invariant : Reader.Invariant form (fun _ => True) Reader.Parted where
  named _ _ _ := ⟨trivial, fun _ _ => trivial⟩
  tag h _ := ⟨h.roots, h.elements⟩
  addText content h := h.addText content
  endTagStart h := h.endTagStart
  close h := h.close

theorem takeAll {ts : List Token} (h : r.Parted) (run : Reader.takeAll form r ts = .ok r') :
    r'.Parted :=
  invariant.takeAll h (fun t _ => t.names_true) run

end Reader.Parted

/-- **The texts of a fragment** are apart. -/
theorem parseFragment_parted {source : String} {ns : List Node}
    (parsed : parseFragment source = .ok ns) : Node.PartedAll ns := by
  obtain ⟨_, r, run, _, rfl⟩ := nodesOfTokens_eq_ok.1 parsed
  have start : Reader.initial.Parted := ⟨trivial, nofun⟩
  exact (start.takeAll run).roots

theorem Tag.joined_events (t : Tag) (es : List Event) :
    Event.joined (t.events ++ es) = t.events ++ Event.joined es := by
  unfold events Event.joined
  rw [List.cons_append, List.foldr_cons, List.foldr_append]
  refine congrArg (Event.opens t.qname :: ·) ?_
  induction t.attributes with
  | nil => rfl
  | cons a as ih => exact congrArg (Event.attr a.qname a.value :: ·) ih

mutual
/-- The events of a node whose texts are apart are joined already, if the events behind it are and
continue no text. -/
theorem Node.joined_events : ∀ {n : Node} {rest : List Event}, n.Parted → Event.joined rest = rest →
    (n.isText = true → ∀ content, rest.head? ≠ some (.text content)) →
      Event.joined (n.events ++ rest) = n.events ++ rest
  | .text content, rest, some_, joined, seam => by
    show Event.consText content (Event.joined rest) = .text content :: rest
    rw [joined]
    unfold Event.consText
    split
    · next more es => exact absurd rfl (seam rfl more)
    · exact if_neg some_
  | .element tag children, rest, parted, joined, _ => by
    have behind : Event.joined (.closes tag.qname :: rest) = .closes tag.qname :: rest :=
      congrArg (Event.closes tag.qname :: ·) joined
    have inside := joined_eventsAll parted behind nofun
    rw [events, List.append_assoc, List.append_assoc, Tag.joined_events, List.singleton_append, inside]

theorem Node.joined_eventsAll : ∀ {ns : List Node} {rest : List Event}, PartedAll ns →
    Event.joined rest = rest → (∀ content, rest.head? ≠ some (.text content)) →
      Event.joined (eventsAll ns ++ rest) = eventsAll ns ++ rest
  | [], _, _, joined, _ => joined
  | n :: ns, rest, ⟨first, seam, others⟩, joined, fresh => by
    have behind := joined_eventsAll others joined fresh
    rw [eventsAll, List.append_assoc]
    refine joined_events first behind fun text content => ?_
    cases ns with
    | nil => exact fresh content
    | cons m ns =>
      cases m with
      | text more => cases seam text _ rfl
      | element tag children => nofun
end

/-! ## Documents -/

/-- A reader with an element among its roots is behind it and has nothing else. -/
theorem Reader.roots_of_at {r : Reader} {q : Place} (at_ : r.At q) {e : Element}
    (found : r.roots.findSome? Node.element? = some e) :
    q = .content 0 ∧ r.tag = none ∧ r.roots = [e.toNode] := by
  cases q with
  | before =>
    rw [at_.2.2] at found
    cases found
  | inTag depth =>
    rw [at_.2.2] at found
    cases found
  | content depth =>
    cases depth with
    | zero =>
      obtain ⟨outside, _, tag, children, roots⟩ := at_
      rw [roots] at found
      cases found
      exact ⟨rfl, outside, roots⟩
    | succ depth =>
      rw [at_.2.2] at found
      cases found

/-- A reader that has begun a root and has no tag open holds the root. -/
theorem Reader.element_of_at {r : Reader} {q : Place} (at_ : r.At q) (begun : q ≠ .before)
    (closed : r.standing = .closed) :
    r.elements = [] ∧ ∃ e : Element, r.roots.findSome? Node.element? = some e := by
  have outside : r.tag = none := Option.map_eq_none_iff.1 (congrArg Standing.tag closed)
  have bare : r.elements = [] := List.map_eq_nil_iff.1 (congrArg Standing.elements closed)
  refine ⟨bare, ?_⟩
  cases q with
  | before => exact absurd rfl begun
  | inTag depth =>
    have reading := at_.1
    rw [outside] at reading
    cases reading
  | content depth =>
    cases depth with
    | zero =>
      obtain ⟨_, _, tag, children, roots⟩ := at_
      exact ⟨⟨tag, children⟩, by rw [roots]; rfl⟩
    | succ depth =>
      have deep := at_.2.1
      rw [bare] at deep
      cases deep

theorem Standing.fitting_of_wellFormed {ts : List Token} (h : WellFormed ts) :
    Standing.closed.Fitting ts := by
  refine fitting_iff.2 fun before t behind eq => ?_
  have decodes : t.decodes = true := h.decodes t (eq ▸ List.mem_append_right _ List.mem_cons_self)
  cases t with
  | tagEnd isEmpty => exact h.bound before isEmpty behind eq
  | endTag name mark => exact h.matched before name mark behind eq
  | _ => exact decodes

theorem Standing.decodes_of_fitting {s : Standing} {ts : List Token} (h : s.Fitting ts) :
    ∀ t ∈ ts, t.decodes = true := by
  intro t mem
  obtain ⟨before, behind, eq⟩ := List.append_of_mem mem
  have fits := fitting_iff.1 h before t behind eq
  cases t with
  | tagEnd isEmpty => rfl
  | endTag name mark => rfl
  | _ => exact fits

/-- **Documents are read without loss.**  A document is accepted exactly if the lexer finds no fault
in it and its tokens are well formed.  Then its root says what its tokens say, with adjacent texts
joined and empty ones dropped, and below the root no text is empty or next to another one. -/
theorem parseDocument_wellFormed (source : String) :
    ((parseDocument source).isOk = true ↔ (documentTokens source.toList).fault = none ∧
        WellFormed (documentTokens source.toList).tokens) ∧
      ∀ e, parseDocument source = .ok e →
        e.toNode.events = Event.joined (eventsOf (documentTokens source.toList).tokens) ∧
          e.toNode.Parted := by
  obtain ⟨q, leads⟩ := documentTokens_leads source.toList
  have spelled := names_documentTokens Scan.spelled_qname source.toList
  have taken := Reader.exists_takeAll_document_iff source.toList
  have standing : ∀ {r : Reader},
      Reader.takeAll .document .initial (documentTokens source.toList).tokens = .ok r →
        r.standing = Standing.of (documentTokens source.toList).tokens := fun run =>
    Reader.standing_takeAll Reader.resolved_initial spelled run
  refine ⟨⟨fun accepted => ?_, ?_⟩, fun e parsed => ?_⟩
  · cases parsed : parseDocument source with
    | error e =>
      rw [parsed] at accepted
      cases accepted
    | ok e =>
      obtain ⟨faultless, r, run, closed, found⟩ := parseDocument_eq_ok.1 parsed
      obtain ⟨behind, outside, _⟩ := Reader.roots_of_at (Reader.at_initial.takeAll leads run) found
      have fitting := taken.1 ⟨r, run⟩
      have fits := Standing.fitting_iff.1 fitting
      refine ⟨faultless, fun before name mark behind eq => fits before _ behind eq, ?_, ?_,
        fun before isEmpty behind eq => fits before _ behind eq, Standing.decodes_of_fitting fitting⟩
      · rw [← standing run, Reader.standing, outside, closed]
        rfl
      · refine (Place.left_before_iff leads).1 ?_
        rw [behind]
        exact Place.noConfusion
  · rintro ⟨faultless, wellFormed⟩
    obtain ⟨r, run⟩ := taken.2 (Standing.fitting_of_wellFormed wellFormed)
    obtain ⟨closed, e, found⟩ := Reader.element_of_at (Reader.at_initial.takeAll leads run)
      ((Place.left_before_iff leads).2 wellFormed.rooted) ((standing run).trans wellFormed.closed)
    rw [parseDocument_eq_ok.2 ⟨faultless, r, run, closed, found⟩]
    rfl
  · obtain ⟨_, r, run, closed, found⟩ := parseDocument_eq_ok.1 parsed
    obtain ⟨_, outside, roots⟩ := Reader.roots_of_at (Reader.at_initial.takeAll leads run) found
    have start : Reader.initial.Parted := ⟨trivial, List.forall_mem_nil _⟩
    have parted := (start.takeAll run).roots
    rw [roots] at parted
    refine ⟨?_, parted.1⟩
    have outer : ∀ o ∈ Reader.initial.tag, o.name.text = "" := by rintro o ⟨⟩
    have said := Reader.events_takeAll Reader.at_initial leads outer run []
    have all : r.events = e.toNode.events := by
      simp [Reader.events, outside, closed, roots, Node.eventsAll]
    have apart : Event.joined (e.toNode.events ++ []) = e.toNode.events ++ [] :=
      Node.joined_events parted.1 rfl fun _ _ some => by cases some
    rw [all, apart, List.append_nil, List.append_nil] at said
    exact said

/-- A document with a comment, a declaration, references, a section and an empty element. -/
def mixedDocument : String :=
  "<!--c--><p:a xmlns:p='u' k='&lt;'>x&amp;<![CDATA[<y>]]><b/></p:a>"

/-- The root of `mixedDocument`: its text is one. -/
def mixedRoot : Element :=
  ⟨⟨"u#a", "p:a", [⟨"http://www.w3.org/2000/xmlns/p", "xmlns:p", "u"⟩, ⟨"k", "k", "<"⟩]⟩,
    [.text "x&<y>", .element ⟨"b", "b", []⟩ []]⟩

theorem parseDocument_wellFormed_mixed : parseDocument mixedDocument = .ok mixedRoot ∧
    mixedRoot.toNode.events = Event.joined (eventsOf (documentTokens mixedDocument.toList).tokens) ∧
      mixedRoot.toNode.Parted := by
  have parsed : parseDocument mixedDocument = .ok mixedRoot := by rfl
  exact ⟨parsed, (parseDocument_wellFormed mixedDocument).2 mixedRoot parsed⟩

end Formwork.Markup
