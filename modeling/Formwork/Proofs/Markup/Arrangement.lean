import Formwork.Proofs.Markup.Document

/-!
# How the tokens of a document are arranged

The lexer of a document lets only some tokens follow one another.  Before the root there are
asides alone; the parts of a start tag stand together; text stands inside elements; and behind the
root there are asides again.  `Place.Goes` says so without the lexer: it is a relation between the
place before a token and the place behind it, and a place knows no more than how many elements are
open.  The tokens of every document go from the place before the root (`documentTokens_leads`).

A reader that takes such tokens in is at the same place (`Reader.At`).  So it never sees the end of
a start tag without its beginning, never adds a node beside the root, and holds exactly one root when
it has left all elements.
-/

namespace Formwork.Markup

set_option autoImplicit false

/-! ## Places -/

/-- Where tokens of a document stand. -/
inductive Place where
  /-- Before the root. -/
  | before
  /-- In a start tag that lies in `depth` elements. -/
  | inTag (depth : Nat)
  /-- In the content of `depth` elements; in none, this is behind the root. -/
  | content (depth : Nat)
  deriving DecidableEq, Repr

/-- One token goes from a place to a place. -/
inductive Place.Goes : Place → Token → Place → Prop where
  | aside {depth : Nat} : Goes (.content depth) .aside (.content depth)
  | asideBefore : Goes .before .aside .before
  | root (name : QName) (mark : Mark) : Goes .before (.startTag name mark) (.inTag 0)
  | child {depth : Nat} (name : QName) (mark : Mark) :
      Goes (.content (depth + 1)) (.startTag name mark) (.inTag (depth + 1))
  | attr {depth : Nat} (name : QName) (value : List Char) (mark : Mark) :
      Goes (.inTag depth) (.attr name value mark) (.inTag depth)
  | opens {depth : Nat} : Goes (.inTag depth) (.tagEnd false) (.content (depth + 1))
  | empty {depth : Nat} : Goes (.inTag depth) (.tagEnd true) (.content depth)
  | closes {depth : Nat} (name : QName) (mark : Mark) :
      Goes (.content (depth + 1)) (.endTag name mark) (.content depth)
  | characters {depth : Nat} (raw : List Char) (mark : Mark) :
      Goes (.content (depth + 1)) (.characters raw mark) (.content (depth + 1))
  | cdata {depth : Nat} (content : List Char) :
      Goes (.content (depth + 1)) (.cdata content) (.content (depth + 1))

/-- Tokens lead from a place to a place, one after the other. -/
def Place.Leads : Place → List Token → Place → Prop
  | p, [], q => p = q
  | p, t :: ts, q => ∃ m, p.Goes t m ∧ Leads m ts q

theorem Place.leads_append {p q : Place} {ts us : List Token} :
    p.Leads (ts ++ us) q ↔ ∃ m, p.Leads ts m ∧ m.Leads us q := by
  induction ts generalizing p with
  | nil => exact ⟨fun leads => ⟨p, rfl, leads⟩, fun ⟨_, here, leads⟩ => here ▸ leads⟩
  | cons t ts ih =>
    constructor
    · rintro ⟨m, goes, leads⟩
      obtain ⟨m', leads, rest⟩ := ih.1 leads
      exact ⟨m', ⟨m, goes, leads⟩, rest⟩
    · rintro ⟨m', ⟨m, goes, leads⟩, rest⟩
      exact ⟨m, goes, ih.2 ⟨m', leads, rest⟩⟩

/-- What leads back before the root has no start tag in it. -/
theorem Place.before_of_leads {p : Place} {ts : List Token} (h : p.Leads ts .before) :
    p = .before ∧ ∀ t ∈ ts, t.isStart = false := by
  induction ts generalizing p with
  | nil => exact ⟨h, nofun⟩
  | cons t ts ih =>
    obtain ⟨m, goes, leads⟩ := h
    obtain ⟨rfl, rest⟩ := ih leads
    cases goes
    exact ⟨rfl, List.forall_mem_cons.2 ⟨rfl, rest⟩⟩

/-- Tokens lead away from the place before the root exactly if there is a start tag among them. -/
theorem Place.left_before_iff {ts : List Token} {q : Place} (h : Place.before.Leads ts q) :
    q ≠ .before ↔ ∃ name mark, Token.startTag name mark ∈ ts := by
  constructor
  · intro left
    induction ts with
    | nil => exact absurd h.symm left
    | cons t ts ih =>
      obtain ⟨m, goes, leads⟩ := h
      cases goes with
      | asideBefore =>
        obtain ⟨name, mark, mem⟩ := ih leads
        exact ⟨name, mark, List.mem_cons_of_mem _ mem⟩
      | root name mark => exact ⟨name, mark, List.mem_cons_self⟩
  · rintro ⟨name, mark, mem⟩ rfl
    cases (before_of_leads h).2 _ mem

/-! ## The lexer of a document -/

namespace Lexer

/-- The place of a lexer. -/
def place (lexer : Lexer) : Place :=
  match lexer.stage with
  | .prolog | .doctype | .behindDoctype => .before
  | .inTag => .inTag lexer.depth
  | .content | .epilog => .content lexer.depth

/-- A lexer of a document, whose stage says whether elements are open. -/
structure InDocument (lexer : Lexer) : Prop where
  form : lexer.isDocument = true
  before : lexer.place = .before → lexer.depth = 0
  epilog : lexer.stage = .epilog → lexer.depth = 0
  content : lexer.stage = .content → lexer.depth ≠ 0

/-- What a step from a place does: the lexer stays a lexer of a document, a token goes to its new
place, and passing over something changes no place. -/
def Step.Moves (p : Place) (result : Step) : Prop :=
  ∀ token next unread, result = .ok (token, next, unread) → next.InDocument ∧
    (∀ t ∈ token, p.Goes t next.place) ∧ (token = none → next.place = p)

variable {lexer : Lexer} {cs : List Char}

theorem inDocument_inTag (form : lexer.isDocument = true) :
    InDocument { lexer with stage := .inTag } := ⟨form, nofun, nofun, nofun⟩

theorem place_behindTag (form : lexer.isDocument = true) (depth : Nat) :
    (lexer.behindTag depth).place = .content depth := by
  unfold behindTag place
  cases depth <;> simp [form]

theorem inDocument_behindTag (form : lexer.isDocument = true) (depth : Nat) :
    (lexer.behindTag depth).InDocument := by
  refine ⟨form, fun before => ?_, fun stage => ?_, fun stage => ?_⟩
  · rw [place_behindTag form] at before
    cases before
  · cases depth with
    | zero => rfl
    | succ depth => simp [behindTag] at stage
  · rintro rfl
    simp [behindTag, form] at stage

/-- In content, elements are open. -/
theorem InDocument.exists_open (h : lexer.InDocument) (stage : lexer.stage = .content) :
    ∃ depth, lexer.place = .content (depth + 1) ∧ lexer.depth = depth + 1 := by
  obtain ⟨depth, open_⟩ := Nat.exists_eq_succ_of_ne_zero (h.content stage)
  refine ⟨depth, ?_, open_⟩
  unfold place
  rw [stage]
  exact congrArg Place.content open_

/-- Outside start tags an aside stays where it is. -/
theorem goes_aside (outside : lexer.stage ≠ .inTag) : lexer.place.Goes .aside lexer.place := by
  unfold place
  cases stage : lexer.stage with
  | inTag => exact absurd stage outside
  | content => exact .aside
  | epilog => exact .aside
  | _ => exact .asideBefore

/-- A start tag begins before the root, or in the content of an element. -/
theorem goes_startTag (h : lexer.InDocument) (name : QName) (mark : Mark)
    (stage : lexer.stage = .prolog ∨ lexer.stage = .behindDoctype ∨ lexer.stage = .content) :
    lexer.place.Goes (.startTag name mark) (.inTag lexer.depth) := by
  have ofRoot (before : lexer.place = .before) :
      lexer.place.Goes (.startTag name mark) (.inTag lexer.depth) := by
    rw [before, h.before before]
    exact .root name mark
  rcases stage with stage | stage | stage
  · exact ofRoot (by simp [place, stage])
  · exact ofRoot (by simp [place, stage])
  · obtain ⟨depth, here, open_⟩ := h.exists_open stage
    rw [here, open_]
    exact .child name mark

/-- In the content of an element stays where it is what opens and closes nothing. -/
theorem goes_plain (h : lexer.InDocument) (stage : lexer.stage = .content) {t : Token}
    (plain : t.isPlain = true) : lexer.place.Goes t lexer.place := by
  obtain ⟨depth, here, _⟩ := h.exists_open stage
  rw [here]
  cases t with
  | characters raw mark => exact .characters raw mark
  | cdata content => exact .cdata content
  | aside => exact .aside
  | _ => cases plain

/-- A later stage before the root. -/
theorem inDocument_doctype (h : lexer.InDocument) (before : lexer.place = .before) {stage : Stage}
    (later : stage = .doctype ∨ stage = .behindDoctype) :
    InDocument { lexer with stage := stage } ∧ place { lexer with stage := stage } = .before := by
  have bare := h.before before
  rcases later with rfl | rfl <;> exact ⟨⟨h.form, fun _ => bare, nofun, nofun⟩, rfl⟩

/-- A token that is taken goes to the place of the lexer behind it. -/
theorem moves_taken {p : Place} {t : Token} {next : Lexer} (inside : next.InDocument)
    (goes : p.Goes t next.place) :
    next.InDocument ∧ (∀ u ∈ some t, p.Goes u next.place) ∧ (some t = none → next.place = p) := by
  refine ⟨inside, ?_, nofun⟩
  rintro u ⟨⟩
  exact goes

/-- **One step** of the lexer of a document goes from its place. -/
theorem moves_step (h : lexer.InDocument) : Step.Moves lexer.place (step lexer cs) := by
  intro token next unread run
  cases scans_of_step run with
  | comment outside _ scanned =>
    cases Token.yields_comment (P := (.aside = ·)) rfl _ _ _ scanned
    exact moves_taken h (goes_aside outside)
  | instruction outside _ scanned =>
    cases Token.yields_instruction (P := (.aside = ·)) rfl _ _ _ scanned
    exact moves_taken h (goes_aside outside)
  | space => exact ⟨h, nofun, fun _ => rfl⟩
  | @doctype more _ stage scanned =>
    have before : lexer.place = .before := by simp [place, stage]
    have later : (if more then Stage.doctype else .behindDoctype) = .doctype ∨
        (if more then Stage.doctype else .behindDoctype) = .behindDoctype := by
      cases more <;> simp
    obtain ⟨inside, there⟩ := inDocument_doctype h before later
    have goes : lexer.place.Goes .aside .before := before ▸ .asideBefore
    exact moves_taken inside (there ▸ goes)
  | entity stage scanned =>
    cases Token.yields_entity (P := (.aside = ·)) rfl _ _ _ scanned
    exact moves_taken h (goes_aside (by simp [stage]))
  | doctypeEnd stage scanned =>
    cases Token.yields_doctypeEnd (P := (.aside = ·)) rfl _ _ _ scanned
    have before : lexer.place = .before := by simp [place, stage]
    obtain ⟨inside, there⟩ := inDocument_doctype h before (.inr rfl)
    have goes : lexer.place.Goes .aside .before := before ▸ .asideBefore
    exact moves_taken inside (there ▸ goes)
  | passed => exact ⟨h, nofun, fun _ => rfl⟩
  | @startTag t _ stage _ scanned =>
    have starts := Token.yields_startOfTag _ _ _ scanned
    cases t with
    | startTag name mark =>
      exact moves_taken (inDocument_inTag h.form) (goes_startTag h name mark stage)
    | _ => cases starts
  | @attr name value mark _ stage _ =>
    have here : lexer.place = .inTag lexer.depth := by simp [place, stage]
    have goes : lexer.place.Goes (.attr name value mark) lexer.place := by
      rw [here]
      exact .attr name value mark
    exact moves_taken h goes
  | @tagEnd isEmpty _ stage _ =>
    have here : lexer.place = .inTag lexer.depth := by simp [place, stage]
    refine moves_taken (inDocument_behindTag h.form _) ?_
    rw [place_behindTag h.form, here]
    cases isEmpty with
    | true => exact .empty
    | false => exact .opens
  | @endTag t _ stage _ scanned =>
    have ends := Token.yields_endOfElement _ _ _ scanned
    obtain ⟨depth, here, open_⟩ := h.exists_open stage
    refine moves_taken (inDocument_behindTag h.form _) ?_
    rw [place_behindTag h.form, here, open_]
    cases t with
    | endTag name mark => exact .closes name mark
    | _ => cases ends
  | cdata stage _ scanned =>
    exact moves_taken h (goes_plain h stage (Token.yields_cdataSection _ _ _ scanned))
  | text stage _ scanned =>
    exact moves_taken h (goes_plain h stage (Token.yields_text _ _ _ scanned))

/-- **A run** of the lexer of a document goes on from its place. -/
theorem run_leads (steps : Nat) (h : lexer.InDocument) :
    ∃ q, lexer.place.Leads (run steps lexer cs).tokens q := by
  induction steps generalizing lexer cs with
  | zero => exact ⟨_, rfl⟩
  | succ steps ih =>
    cases cs with
    | nil => exact ⟨_, rfl⟩
    | cons c cs =>
      rw [run]
      cases stepped : step lexer (c :: cs) with
      | error fault => exact ⟨_, rfl⟩
      | ok answer =>
        obtain ⟨token, next, unread⟩ := answer
        obtain ⟨inside, goes, stays⟩ := moves_step h token next unread stepped
        cases token with
        | none => exact stays rfl ▸ ih inside
        | some t =>
          obtain ⟨q, leads⟩ := @ih _ unread inside
          exact ⟨q, next.place, goes t rfl, leads⟩

end Lexer

/-- **The tokens of every document** lead away from the place before the root. -/
theorem documentTokens_leads (source : List Char) :
    ∃ q, Place.before.Leads (documentTokens source).tokens q := by
  have start : (⟨.prolog, 0, true⟩ : Lexer).InDocument := ⟨rfl, fun _ => rfl, nofun, nofun⟩
  have declared : ∀ (body : List Char) (t : Token) (unread : List Char),
      Lexer.read .declaration Token.declaration body = .ok (t, unread) →
        ∃ q, Place.before.Leads
          (TokenStream.cons t (Lexer.tokens ⟨.prolog, 0, true⟩ unread)).tokens q := by
    intro body t unread run
    have scanned := Lexer.scan_of_read run
    have plain : Token.aside = t :=
      Token.yields_declaration (P := (.aside = ·)) rfl _ _ _ scanned
    obtain ⟨q, leads⟩ := @Lexer.run_leads _ unread unread.length start
    exact ⟨q, .before, plain ▸ .asideBefore, leads⟩
  unfold documentTokens
  dsimp only
  split
  all_goals
    split
    · split
      · exact ⟨_, rfl⟩
      · next run => exact declared _ _ _ run
    · exact Lexer.run_leads _ start

/-! ## The reader of a document -/

namespace Reader

/-- A reader at a place: a start tag is being read in start tags alone, as many elements are open as
the place says, and there is no root before the first element has been left. -/
def At (r : Reader) : Place → Prop
  | .before => r.tag = none ∧ r.elements = [] ∧ r.roots = []
  | .inTag depth => r.tag.isSome = true ∧ r.elements.length = depth ∧ r.roots = []
  | .content 0 => r.tag = none ∧ r.elements = [] ∧ ∃ tag children, r.roots = [.element tag children]
  | .content (depth + 1) => r.tag = none ∧ r.elements.length = depth + 1 ∧ r.roots = []

variable {r r' : Reader}

/-- An element that is left becomes the root, or a child of the element around it. -/
theorem at_leave (outside : r.tag = none) (bare : r.roots = []) (e : OpenElement) :
    (r.leave e).At (.content r.elements.length) := by
  cases r with
  | mk tag elements scope roots =>
    dsimp only at outside bare
    subst bare
    cases elements with
    | nil => exact ⟨outside, rfl, _, _, rfl⟩
    | cons around es => exact ⟨outside, rfl, rfl⟩

theorem at_addText {depth : Nat} (h : r.At (.content (depth + 1))) (form : Form)
    (content : List Char) : (r.addText form content).At (.content (depth + 1)) := by
  obtain ⟨outside, deep, bare⟩ := h
  unfold addText
  split
  · exact ⟨outside, deep, bare⟩
  · split
    · exact ⟨outside, deep, bare⟩
    · cases r with
      | mk tag elements scope roots =>
        cases elements with
        | nil => cases deep
        | cons e es => exact ⟨outside, deep, bare⟩

/-- The start tag being read ends: its element is open, or has been left at once. -/
theorem at_endTagStart {form : Form} {depth : Nat} {isEmpty : Bool} (h : r.At (.inTag depth))
    (run : r.endTagStart form isEmpty = .ok r') :
    r'.At (.content (if isEmpty then depth else depth + 1)) := by
  obtain ⟨_, deep, bare⟩ := h
  obtain ⟨t, tag, _, _, rfl⟩ := endTagStart_ok run
  cases isEmpty with
  | true => exact deep ▸ at_leave (r := { r with tag := none, scope := _ }) rfl bare _
  | false => exact ⟨rfl, congrArg Nat.succ deep, bare⟩

theorem at_close {depth : Nat} {name : QName} {mark : Mark} (h : r.At (.content (depth + 1)))
    (run : r.close name mark = .ok r') : r'.At (.content depth) := by
  obtain ⟨outside, deep, bare⟩ := h
  obtain ⟨e, es, elements, _, rfl⟩ := close_ok run
  rw [elements] at deep
  exact Nat.succ.inj deep ▸ at_leave (r := { r with elements := es }) outside bare e

/-- **Taking a token in** brings a reader to the place behind the token. -/
theorem At.take {form : Form} {p q : Place} {t : Token} (h : r.At p) (goes : p.Goes t q)
    (run : r.take form t = .ok r') : r'.At q := by
  cases goes with
  | aside =>
    cases run
    exact h
  | asideBefore =>
    cases run
    exact h
  | root name mark =>
    cases run
    obtain ⟨_, bare, none_⟩ := h
    exact ⟨rfl, congrArg List.length bare, none_⟩
  | child name mark =>
    cases run
    obtain ⟨_, deep, none_⟩ := h
    exact ⟨rfl, deep, none_⟩
  | attr name value mark =>
    obtain ⟨content, _, run⟩ := exists_of_bind_eq_ok run
    cases run
    obtain ⟨reading, deep, none_⟩ := h
    exact ⟨(Option.isSome_map ..).trans reading, deep, none_⟩
  | opens => exact at_endTagStart h run
  | empty => exact at_endTagStart h run
  | closes name mark => exact at_close h run
  | characters raw mark =>
    obtain ⟨content, _, run⟩ := exists_of_bind_eq_ok run
    cases run
    exact at_addText h form content
  | cdata content =>
    cases run
    exact at_addText h form content

/-- Taking tokens in brings a reader to the place to which they lead. -/
theorem At.takeAll {form : Form} {p q : Place} {ts : List Token} (h : r.At p)
    (leads : p.Leads ts q) (run : takeAll form r ts = .ok r') : r'.At q := by
  induction ts generalizing r p with
  | nil =>
    cases run
    exact leads ▸ h
  | cons t ts ih =>
    obtain ⟨m, goes, leads⟩ := leads
    obtain ⟨s, taken, run⟩ := exists_of_bind_eq_ok run
    exact ih (h.take goes taken) leads run

theorem at_initial : initial.At .before := ⟨rfl, rfl, rfl⟩

end Reader

end Formwork.Markup
