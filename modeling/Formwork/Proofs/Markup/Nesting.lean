import Mathlib.Data.Option.Basic
import Formwork.Page.Markup
import Formwork.Proofs.Markup.Steps

/-!
# What a source leaves open

Tags open and close.  Along a sequence of tokens one can keep account of the start tag that is
being read and of the elements around it (`Nesting`), without building a tree; the account breaks
off where a tag stands that does not fit.  A sequence is complete when nothing is open behind it:
every start tag has ended, and every element is matched by an end tag of its name.

**Fragments.**  A fragment is accepted exactly if the lexer finds no fault, every reference can be
decoded, and no *element* is open at the end (`parseFragment_isOk_iff`).  A start tag that is still
being read is not an open element.  The lexer ends its stream without a fault behind a name or an
attribute of a tag too, and the reader looks at its open elements alone; so a source that breaks off
there is accepted, and the tag is lost.  All other accepted sources are complete
(`parseFragment_complete_iff`).

The account never meets a start tag inside another one, nor an attribute outside, because the
lexer keeps the parts of a tag together (`Lexer.run_staged`).
-/

namespace Formwork.Markup

set_option autoImplicit false

/-! ## How the lexer arranges tokens -/

/-- Whether a start tag is being read behind a token. -/
def Token.leavesInTag : Token → Bool
  | .startTag _ _ => true
  | .attr _ _ _ => true
  | _ => false

/-- Tokens among which attributes and ends of tags stand exactly inside start tags; the flag says
whether a start tag is being read before them. -/
def Staged : Bool → List Token → Prop
  | _, [] => True
  | inTag, t :: ts => t.isInner = inTag ∧ Staged t.leavesInTag ts

theorem Token.staged_of_isPlain {t : Token} (h : t.isPlain = true) :
    t.isInner = false ∧ t.leavesInTag = false := by
  cases t <;> first | exact ⟨rfl, rfl⟩ | cases h

theorem Token.staged_of_isStart {t : Token} (h : t.isStart = true) :
    t.isInner = false ∧ t.leavesInTag = true := by
  cases t <;> first | exact ⟨rfl, rfl⟩ | cases h

theorem Token.staged_of_isEnd {t : Token} (h : t.isEnd = true) :
    t.isInner = false ∧ t.leavesInTag = false := by
  cases t <;> first | exact ⟨rfl, rfl⟩ | cases h

namespace Lexer

/-- A lexer of a fragment, inside a start tag or in content. -/
structure InFragment (lexer : Lexer) (inTag : Bool) : Prop where
  form : lexer.isDocument = false
  stage : lexer.stage = if inTag then .inTag else .content

/-- What a step in a fragment yields: a token that fits the stage, and a lexer in the next one. -/
def Step.Fits (inTag : Bool) (result : Step) : Prop :=
  ∀ token next unread, result = .ok (token, next, unread) →
    ∃ t, token = some t ∧ t.isInner = inTag ∧ next.InFragment t.leavesInTag

variable {lexer : Lexer} {cs : List Char}

/-- A lexer of a fragment is in a start tag, or in content. -/
theorem InFragment.stage_cases {inTag : Bool} (h : lexer.InFragment inTag) :
    inTag = true ∧ lexer.stage = .inTag ∨ inTag = false ∧ lexer.stage = .content := by
  have stage := h.stage
  cases inTag with
  | true => exact .inl ⟨rfl, stage⟩
  | false => exact .inr ⟨rfl, stage⟩

theorem inFragment_behindTag (form : lexer.isDocument = false) (depth : Nat) :
    (lexer.behindTag depth).InFragment false := by
  refine ⟨form, ?_⟩
  simp [behindTag, form]

/-- A step in a fragment. -/
theorem fits_step {inTag : Bool} (h : lexer.InFragment inTag) :
    Step.Fits inTag (step lexer cs) := by
  intro token next unread run
  rcases h.stage_cases with ⟨rfl, stage⟩ | ⟨rfl, stage⟩
  · cases scans_of_step run with
    | attr _ _ => exact ⟨_, rfl, rfl, h⟩
    | tagEnd _ _ => exact ⟨_, rfl, rfl, inFragment_behindTag h.form _⟩
    | comment outside _ _ | instruction outside _ _ | space outside _ => exact absurd stage outside
    | startTag other _ _ => simp [stage] at other
    | doctype other _ | entity other _ | doctypeEnd other _ | passed other _ _ | endTag other _ _
    | cdata other _ _ | text other _ _ => cases stage.symm.trans other
  · have plain : ∀ t : Token, t.isPlain = true → ∃ t', some t = some t' ∧ t'.isInner = false ∧
        lexer.InFragment t'.leavesInTag := fun t plain =>
      ⟨t, rfl, (Token.staged_of_isPlain plain).1, (Token.staged_of_isPlain plain).2 ▸ h⟩
    cases scans_of_step run with
    | comment _ _ scanned => exact plain _ (Token.yields_comment (P := (·.isPlain)) rfl _ _ _ scanned)
    | instruction _ _ scanned =>
      exact plain _ (Token.yields_instruction (P := (·.isPlain)) rfl _ _ _ scanned)
    | cdata _ _ scanned => exact plain _ (Token.yields_cdataSection _ _ _ scanned)
    | text _ _ scanned => exact plain _ (Token.yields_text _ _ _ scanned)
    | startTag _ _ scanned =>
      obtain ⟨outside, leaves⟩ := Token.staged_of_isStart (Token.yields_startOfTag _ _ _ scanned)
      exact ⟨_, rfl, outside, leaves ▸ ⟨h.form, rfl⟩⟩
    | endTag _ _ scanned =>
      obtain ⟨outside, leaves⟩ := Token.staged_of_isEnd (Token.yields_endOfElement _ _ _ scanned)
      exact ⟨_, rfl, outside, leaves ▸ inFragment_behindTag h.form _⟩
    | space _ outer => exact absurd stage outer
    | doctype other _ | entity other _ | doctypeEnd other _ | passed other _ _ | attr other _
    | tagEnd other _ => cases stage.symm.trans other

/-- **The parts of a start tag stand together.** -/
theorem run_staged (steps : Nat) {inTag : Bool} (h : lexer.InFragment inTag) :
    Staged inTag (run steps lexer cs).tokens := by
  induction steps generalizing lexer cs inTag with
  | zero => trivial
  | succ steps ih =>
    cases cs with
    | nil => trivial
    | cons c cs =>
      rw [run]
      cases stepped : step lexer (c :: cs) with
      | error fault => trivial
      | ok answer =>
        obtain ⟨token, next, unread⟩ := answer
        obtain ⟨t, rfl, fits, goesOn⟩ := fits_step h token next unread stepped
        exact ⟨fits, ih goesOn⟩

end Lexer

/-! ## Accounts of what is open -/

/-- What is open: the start tag that is being read and the elements around it, innermost first,
all by their written names. -/
structure Nesting where
  tag : Option String
  elements : List String
  deriving DecidableEq, Repr

namespace Nesting

/-- Nothing is open. -/
def closed : Nesting := ⟨none, []⟩

/-- Keep account of one more token, unless it does not fit: no tag begins in a tag, and an end tag
names the innermost element. -/
def take (n : Nesting) : Token → Option Nesting
  | .startTag name _ => if n.tag = none then some { n with tag := some name.text } else none
  | .attr _ _ _ => if n.tag = none then none else some n
  | .tagEnd isEmpty => n.tag.map fun name =>
      ⟨none, if isEmpty then n.elements else name :: n.elements⟩
  | .endTag name _ =>
    if n.tag = none ∧ n.elements.head? = some name.text then some ⟨none, n.elements.tail⟩ else none
  | _ => if n.tag = none then some n else none

/-- Keep account of tokens in order. -/
def takeAll (n : Nesting) (ts : List Token) : Option Nesting := ts.foldlM take n

/-- What is open behind some tokens. -/
def of (ts : List Token) : Option Nesting := closed.takeAll ts

end Nesting

/-- Whether a start tag is being read behind a token depends on the token alone. -/
theorem Nesting.tag_take {n m : Nesting} {t : Token} (staged : t.isInner = n.tag.isSome)
    (run : n.take t = some m) : m.tag.isSome = t.leavesInTag := by
  cases t with
  | startTag name mark =>
    obtain ⟨_, eq⟩ := Option.ite_none_right_eq_some.1 run
    cases eq
    rfl
  | attr name value mark =>
    obtain ⟨_, eq⟩ := Option.ite_none_left_eq_some.1 run
    cases eq
    exact staged.symm
  | tagEnd isEmpty =>
    obtain ⟨name, _, rfl⟩ := Option.map_eq_some_iff.1 run
    rfl
  | endTag name mark =>
    obtain ⟨_, eq⟩ := Option.ite_none_right_eq_some.1 run
    cases eq
    rfl
  | _ =>
    obtain ⟨_, eq⟩ := Option.ite_none_right_eq_some.1 run
    cases eq
    exact staged.symm

/-- Whether every reference in a token can be decoded. -/
def Token.decodes : Token → Bool
  | .attr _ value _ => (Reference.decode value).isOk
  | .characters raw _ => (Reference.decode raw).isOk
  | _ => true

/-- The tag of an element of a fragment, whose names identify themselves. -/
def OpenTag.plain (t : OpenTag) : Tag :=
  ⟨t.name.text, t.name.text, t.attributes.map fun a => .plain a.1.text a.2⟩

namespace Reader

/-- What a reader has open. -/
def nesting (r : Reader) : Nesting :=
  ⟨r.tag.map fun t => t.name.text, r.elements.map fun e => e.element.qname⟩

theorem nesting_addNode (r : Reader) (n : Node) : (r.addNode n).nesting = r.nesting := by
  unfold addNode nesting
  cases r.elements <;> rfl

theorem tag_addNode (r : Reader) (n : Node) : (r.addNode n).tag = r.tag := by
  unfold addNode
  cases r.elements <;> rfl

theorem nesting_addText (form : Form) (r : Reader) (content : List Char) :
    (r.addText form content).nesting = r.nesting := by
  unfold addText
  split
  · rfl
  · split
    · rfl
    · exact r.nesting_addNode _

theorem decode_of_ok {raw content : List Char} (decoded : Reference.decode raw = .ok content)
    (mark : Mark) : decode raw mark = .ok content := by
  unfold decode
  rw [decoded]
  rfl

theorem decode_of_error {raw : List Char} {fault : Reference.Fault}
    (decoded : Reference.decode raw = .error fault) (mark : Mark) :
    decode raw mark = .error (.badReference fault.name, mark - (raw.length - fault.unread)) := by
  unfold decode
  rw [decoded]
  rfl

/-- An attribute whose value can be decoded joins the start tag being read. -/
theorem take_attr_of_ok {value content : List Char} (decoded : Reference.decode value = .ok content)
    (form : Form) (r : Reader) (name : QName) (mark : Mark) :
    r.take form (.attr name value mark) = .ok { r with tag := r.tag.map fun t =>
      { t with attributes := t.attributes ++ [(name, String.ofList content)] } } := by
  rw [take, decode_of_ok decoded]
  rfl

/-- Characters that can be decoded become text. -/
theorem take_characters_of_ok {raw content : List Char} (decoded : Reference.decode raw = .ok content)
    (form : Form) (r : Reader) (mark : Mark) :
    r.take form (.characters raw mark) = .ok (r.addText form content) := by
  rw [take, decode_of_ok decoded]
  rfl

/-- In a fragment every start tag that ends opens its element, or adds an empty one. -/
theorem endTagStart_fragment {r : Reader} {t : OpenTag} (reading : r.tag = some t) (isEmpty : Bool) :
    r.endTagStart .fragment isEmpty = .ok (
      if isEmpty then { r with tag := none }.addNode (.element t.plain [])
      else { r with tag := none, elements := ⟨⟨t.plain, []⟩, 0⟩ :: r.elements }) := by
  unfold endTagStart
  rw [reading]
  cases isEmpty <;> rfl

/-- What a reader has open behind a token, unless it refuses the token. -/
def nestingBehind (r : Reader) (t : Token) : Option Nesting :=
  (r.take .fragment t).toOption.map nesting

theorem nestingBehind_of_ok {r r' : Reader} {t : Token} (run : r.take .fragment t = .ok r') :
    r.nestingBehind t = some r'.nesting := by
  unfold nestingBehind
  rw [run]
  rfl

theorem nestingBehind_of_error {r : Reader} {t : Token}
    (run : ∃ e, r.take .fragment t = .error e) : r.nestingBehind t = none := by
  obtain ⟨e, run⟩ := run
  unfold nestingBehind
  rw [run]
  rfl

theorem nestingBehind_attr {r : Reader} {t : OpenTag} (reading : r.tag = some t) (name : QName)
    (value : List Char) (mark : Mark) : r.nestingBehind (.attr name value mark) =
      if (Reference.decode value).isOk then r.nesting.take (.attr name value mark) else none := by
  cases decoded : Reference.decode value with
  | error fault =>
    refine nestingBehind_of_error ⟨(.badReference fault.name, mark - (value.length - fault.unread)), ?_⟩
    rw [take, decode_of_error decoded]
    rfl
  | ok content =>
    rw [nestingBehind_of_ok (take_attr_of_ok decoded ..)]
    simp [nesting, reading, Nesting.take, Except.isOk, Except.toBool]

theorem nestingBehind_tagEnd {r : Reader} {t : OpenTag} (reading : r.tag = some t)
    (isEmpty : Bool) : r.nestingBehind (.tagEnd isEmpty) = r.nesting.take (.tagEnd isEmpty) := by
  have run : r.take .fragment (.tagEnd isEmpty) = .ok _ := endTagStart_fragment reading isEmpty
  rw [nestingBehind_of_ok run]
  cases isEmpty with
  | false => simp [Nesting.take, nesting, reading, OpenTag.plain]
  | true => rw [if_pos rfl, nesting_addNode]; simp [Nesting.take, nesting, reading]

theorem nestingBehind_endTag {r : Reader} (outside : r.tag = none) (name : QName) (mark : Mark) :
    r.nestingBehind (.endTag name mark) = r.nesting.take (.endTag name mark) := by
  unfold nestingBehind take close
  cases elements : r.elements with
  | nil => simp [Nesting.take, nesting, elements, Except.toOption]
  | cons e es =>
    by_cases same : e.element.qname = name.text
    · dsimp only
      rw [if_pos same]
      refine (congrArg some (nesting_addNode _ _)).trans ?_
      simp [Nesting.take, nesting, outside, elements, same]
    · dsimp only
      rw [if_neg same]
      simp [Nesting.take, nesting, elements, same, Except.toOption]

theorem nestingBehind_characters {r : Reader} (outside : r.tag = none) (raw : List Char)
    (mark : Mark) : r.nestingBehind (.characters raw mark) =
      if (Reference.decode raw).isOk then r.nesting.take (.characters raw mark) else none := by
  cases decoded : Reference.decode raw with
  | error fault =>
    refine nestingBehind_of_error ⟨(.badReference fault.name, mark - (raw.length - fault.unread)), ?_⟩
    rw [take, decode_of_error decoded]
    rfl
  | ok content =>
    rw [nestingBehind_of_ok (take_characters_of_ok decoded ..), nesting_addText]
    simp [nesting, outside, Nesting.take, Except.isOk, Except.toBool]

/-- **A token of a fragment** is taken in exactly if it can be decoded and fits what is open. -/
theorem nestingBehind_eq {r : Reader} {t : Token} (staged : t.isInner = r.tag.isSome) :
    r.nestingBehind t = if t.decodes then r.nesting.take t else none := by
  cases reading : r.tag with
  | none =>
    rw [reading] at staged
    cases t with
    | attr name value mark => cases staged
    | tagEnd isEmpty => cases staged
    | startTag name mark =>
      rw [nestingBehind_of_ok rfl]
      simp [Token.decodes, Nesting.take, nesting, reading]
    | endTag name mark => exact nestingBehind_endTag reading name mark
    | characters raw mark => exact nestingBehind_characters reading raw mark
    | cdata content =>
      rw [nestingBehind_of_ok rfl, nesting_addText]
      simp [Token.decodes, Nesting.take, nesting, reading]
    | aside =>
      rw [nestingBehind_of_ok rfl]
      simp [Token.decodes, Nesting.take, nesting, reading]
  | some tag =>
    rw [reading] at staged
    cases t with
    | attr name value mark => exact nestingBehind_attr reading name value mark
    | tagEnd isEmpty => exact nestingBehind_tagEnd reading isEmpty
    | startTag name mark => cases staged
    | endTag name mark => cases staged
    | characters raw mark => cases staged
    | cdata content => cases staged
    | aside => cases staged

/-- Tokens of a fragment are taken in exactly if all can be decoded and fit what is open. -/
theorem takeAll_fragment {ts : List Token} {r : Reader} (staged : Staged r.tag.isSome ts) :
    (takeAll .fragment r ts).toOption.map nesting =
      if ts.all Token.decodes then r.nesting.takeAll ts else none := by
  induction ts generalizing r with
  | nil => rfl
  | cons t ts ih =>
    obtain ⟨fits, rest⟩ := staged
    have first := nestingBehind_eq fits
    rw [takeAll, List.all_cons, Nesting.takeAll, List.foldlM_cons]
    cases run : r.take .fragment t with
    | error e =>
      rw [nestingBehind_of_error ⟨e, run⟩] at first
      cases decodes : t.decodes with
      | false => rfl
      | true =>
        rw [decodes, if_pos rfl] at first
        rw [← first]
        cases ts.all Token.decodes <;> rfl
    | ok r' =>
      rw [nestingBehind_of_ok run] at first
      cases decodes : t.decodes with
      | false =>
        rw [decodes] at first
        cases first
      | true =>
        rw [decodes, if_pos rfl] at first
        have behind : r'.nesting.tag.isSome = t.leavesInTag :=
          Nesting.tag_take (by rw [fits]; simp [nesting]) first.symm
        rw [← first]
        exact ih (by rw [show r'.tag.isSome = t.leavesInTag by simpa [nesting] using behind]; exact rest)

end Reader

/-! ## Fragments -/

section Stream

variable {form : Form} {source : List Char} {stream : TokenStream}

/-- A stream that is taken in to its end, with no element open there, makes the roots. -/
theorem nodesOfTokens_of_ok {r : Reader} (run : Reader.takeAll form .initial stream.tokens = .ok r)
    (faultless : stream.fault = none) (closed : r.elements = []) :
    nodesOfTokens form source stream = .ok r.roots := by
  unfold nodesOfTokens
  rw [run, faultless]
  dsimp only
  unfold Reader.finish
  rw [closed]
  rfl

theorem nodesOfTokens_of_error (source : List Char) {e : ErrorCause × Mark}
    (run : Reader.takeAll form .initial stream.tokens = .error e) :
    (nodesOfTokens form source stream).isOk = false := by
  unfold nodesOfTokens
  rw [run]
  obtain ⟨cause, mark⟩ := e
  cases cause <;> rfl

/-- A stream makes some nodes exactly if it is taken in without a fault, leaves no element open,
and the nodes are the roots. -/
theorem nodesOfTokens_eq_ok {ns : List Node} : nodesOfTokens form source stream = .ok ns ↔
    stream.fault = none ∧ ∃ r, Reader.takeAll form .initial stream.tokens = .ok r ∧
      r.elements = [] ∧ r.roots = ns := by
  constructor
  · intro made
    cases run : Reader.takeAll form .initial stream.tokens with
    | error e =>
      have refused := nodesOfTokens_of_error source run
      rw [made] at refused
      cases refused
    | ok r =>
      unfold nodesOfTokens at made
      rw [run] at made
      dsimp only at made
      cases fault : stream.fault with
      | some fault' =>
        rw [fault] at made
        cases made
      | none =>
        rw [fault] at made
        unfold Reader.finish at made
        cases elements : r.elements with
        | nil =>
          rw [elements] at made
          cases made
          exact ⟨rfl, r, rfl, elements, rfl⟩
        | cons e es =>
          rw [elements] at made
          cases made
  · rintro ⟨faultless, r, run, closed, rfl⟩
    exact nodesOfTokens_of_ok run faultless closed

/-- A stream is accepted exactly if it is taken in without a fault and leaves no element open. -/
theorem nodesOfTokens_isOk_iff : (nodesOfTokens form source stream).isOk = true ↔
    stream.fault = none ∧
      ∃ r, Reader.takeAll form .initial stream.tokens = .ok r ∧ r.elements = [] := by
  constructor
  · intro accepted
    cases made : nodesOfTokens form source stream with
    | error e =>
      rw [made] at accepted
      cases accepted
    | ok ns =>
      obtain ⟨faultless, r, run, closed, _⟩ := nodesOfTokens_eq_ok.1 made
      exact ⟨faultless, r, run, closed⟩
  · rintro ⟨faultless, r, run, closed⟩
    rw [nodesOfTokens_of_ok run faultless closed]
    rfl

end Stream

/-- **What fragments are accepted.**  The lexer finds no fault, every reference can be decoded, and
behind the last token no element is open; but a start tag may be. -/
theorem parseFragment_isOk_iff (source : String) :
    (parseFragment source).isOk = true ↔
      (fragmentTokens source.toList).fault = none ∧
      (∀ t ∈ (fragmentTokens source.toList).tokens, t.decodes = true) ∧
      ∃ tag, Nesting.of (fragmentTokens source.toList).tokens = some ⟨tag, []⟩ := by
  have staged : Staged Reader.initial.tag.isSome (fragmentTokens source.toList).tokens :=
    Lexer.run_staged _ ⟨rfl, rfl⟩
  have account := Reader.takeAll_fragment staged
  refine nodesOfTokens_isOk_iff.trans (and_congr_right fun _ => ?_)
  constructor
  · rintro ⟨r, run, closed⟩
    rw [run] at account
    obtain ⟨decodes, left⟩ := Option.ite_none_right_eq_some.1 account.symm
    refine ⟨List.all_eq_true.1 decodes, r.nesting.tag, left.trans ?_⟩
    simp [Reader.nesting, closed]
  · rintro ⟨decodes, tag, left⟩
    rw [if_pos (List.all_eq_true.2 decodes)] at account
    obtain ⟨r, run, same⟩ := Option.map_eq_some_iff.1 (account.trans left)
    refine ⟨r, ?_, List.map_eq_nil_iff.1 (congrArg Nesting.elements same)⟩
    cases taken : Reader.takeAll .fragment .initial (fragmentTokens source.toList).tokens with
    | error e =>
      rw [taken] at run
      cases run
    | ok r' =>
      rw [taken] at run
      cases run
      rfl

/-- A fragment breaks off inside a start tag that lies in no element, and nothing else is wrong
with it. -/
def BreaksOff (source : String) : Prop :=
  (fragmentTokens source.toList).fault = none ∧
    (∀ t ∈ (fragmentTokens source.toList).tokens, t.decodes = true) ∧
    ∃ name, Nesting.of (fragmentTokens source.toList).tokens = some ⟨some name, []⟩

/-- **Where unfinished markup is dropped.**  That an accepted fragment leaves nothing open holds of
every fragment but those that break off inside a start tag outside all elements.  Setting the content
of an element accepts just what is accepted as a fragment. -/
theorem parseFragment_complete_iff (source : String) :
    (((parseFragment source).isOk = true →
        Nesting.of (fragmentTokens source.toList).tokens = some .closed) ↔ ¬ BreaksOff source) ∧
      ∀ (p : Page) (n : NodeId), (p.tag? n).isSome = true →
        (p.setMarkup n source).isOk = (parseFragment source).isOk := by
  refine ⟨?_, ?_⟩
  · rw [parseFragment_isOk_iff]
    constructor
    · rintro complete ⟨faultless, decodes, name, left⟩
      have closed := complete ⟨faultless, decodes, some name, left⟩
      rw [left] at closed
      cases closed
    · rintro whole ⟨faultless, decodes, tag, left⟩
      cases tag with
      | none => exact left
      | some name => exact absurd ⟨faultless, decodes, name, left⟩ whole
  · intro p n element
    unfold Page.setMarkup Page.readMarkup
    rw [if_neg (by simpa using Option.isSome_iff_ne_none.1 element)]
    cases parseFragment source <;> rfl

/-- Such a fragment is accepted: its start tag is lost. -/
theorem parseFragment_cut : (parseFragment "<a").toOption.map List.length = some 0 ∧
    Nesting.of (fragmentTokens "<a".toList).tokens = some ⟨some "a", []⟩ := by
  decide +kernel

end Formwork.Markup
