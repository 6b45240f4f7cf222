import Formwork.Proofs.Markup.Decoding
import Formwork.Proofs.Page.Settled

/-!
# Markup that is shown as a text

Setting markup and setting a text are two ways to give content to an element.  They come to the same
for a text without `<` and `&`, and for one that cannot be read as markup; for no other text
(`Page.shown_eq_text_iff`).  For reading makes a text shorter wherever it does more than copy: the
letters of a fragment are no more than its characters, and as many only if each character is a letter
(`Markup.parseFragment_letters`).
-/

namespace Formwork

set_option autoImplicit false

namespace Markup

/-! ## Letters -/

namespace Reference

variable {M : List Char → Char → Prop} {text out : List Char}

/-- Each reference is longer than the character that it means. -/
theorem Decodes.length_le (decodes : Decodes M text out) :
    out.length ≤ text.length ∧ (text.length ≤ out.length → '&' ∉ text) := by
  induction decodes with
  | nil => exact ⟨Nat.le_refl _, fun _ => List.not_mem_nil⟩
  | plain ne _ ih =>
    refine ⟨Nat.succ_le_succ ih.1, fun full mem => ?_⟩
    rcases List.mem_cons.1 mem with same | mem
    · exact ne same.symm
    · exact ih.2 (Nat.le_of_succ_le_succ full) mem
  | reference _ _ ih =>
    simp only [List.length_cons, List.length_append, List.cons_append]
    exact ⟨by omega, fun full => absurd full (by omega)⟩

/-- A text without references means itself. -/
theorem Decodes.eq_of_not_mem (decodes : Decodes M text out) (plain : '&' ∉ text) : out = text := by
  induction decodes with
  | nil => rfl
  | plain _ _ ih => rw [ih fun mem => plain (List.mem_cons_of_mem _ mem)]
  | reference _ _ _ => exact absurd List.mem_cons_self plain

theorem decodes_of_ok (decoded : decode text = .ok out) : Decodes Taken text out :=
  (decode_outcome text).follows.decodes out decoded

end Reference

mutual
/-- How many characters the texts of a node have. -/
def Node.letters : Node → Nat
  | .text content => content.length
  | .element _ children => Node.lettersOf children

/-- How many characters the texts of siblings have. -/
def Node.lettersOf : List Node → Nat
  | [] => 0
  | n :: ns => n.letters + Node.lettersOf ns
end

/-- How many characters of text a token means. -/
def Token.letters : Token → Nat
  | .characters raw _ => ((Reference.decode raw).toOption.getD []).length
  | .cdata content => content.length
  | _ => 0

/-- How many characters of text have been read. -/
def Reader.letters (r : Reader) : Nat :=
  (r.elements.map fun e => Node.lettersOf e.element.children).sum + Node.lettersOf r.roots

theorem Node.lettersOf_push (ns : List Node) (n : Node) :
    lettersOf (push ns n) = lettersOf ns + n.letters := by
  induction ns with
  | nil => rw [push, lettersOf, lettersOf, lettersOf, Nat.add_comm]
  | cons m ns ih =>
    cases ns with
    | cons m' ns =>
      rw [push_cons_cons, lettersOf, ih, ← Nat.add_assoc]
      rfl
    | nil =>
      cases m with
      | element tag children => simp [push, lettersOf]
      | text content =>
        cases n with
        | element tag children => simp [push, lettersOf]
        | text more => simp [push, lettersOf, letters]

namespace Reader

variable {form : Form} {r r' : Reader}

theorem letters_addNode (r : Reader) (n : Node) : (r.addNode n).letters = r.letters + n.letters := by
  unfold addNode letters
  cases r.elements with
  | nil => simp [Node.lettersOf_push]
  | cons e es =>
    simp only [Element.pushChild, Node.lettersOf_push, List.map_cons, List.sum_cons]
    omega

theorem letters_addText (r : Reader) (content : List Char) :
    (r.addText form content).letters ≤ r.letters + content.length := by
  unfold addText
  split
  · exact Nat.le_add_right _ _
  · split
    · exact Nat.le_add_right _ _
    · rw [letters_addNode, Node.letters, ← String.length_toList, String.toList_ofList]

theorem letters_endTagStart {isEmpty : Bool} (run : r.endTagStart form isEmpty = .ok r') :
    r'.letters = r.letters := by
  unfold endTagStart at run
  cases reading : r.tag with
  | none =>
    rw [reading] at run
    cases run
  | some t =>
    rw [reading] at run
    obtain ⟨tag, _, run⟩ := exists_of_bind_eq_ok run
    cases isEmpty <;> cases run
    · simp [letters, Node.lettersOf]
    · rw [leave, letters_addNode]
      simp [letters, Element.toNode, Node.letters, Node.lettersOf]

theorem letters_close {name : QName} {mark : Mark} (run : r.close name mark = .ok r') :
    r'.letters = r.letters := by
  unfold close at run
  cases elements : r.elements with
  | nil =>
    rw [elements] at run
    cases run
  | cons e es =>
    rw [elements] at run
    dsimp only at run
    split at run
    · cases run
      rw [leave, letters_addNode]
      simp only [letters, elements, Element.toNode, Node.letters, List.map_cons, List.sum_cons]
      omega
    · cases run

/-- **A token** adds no more letters than it means. -/
theorem letters_take {t : Token} (run : r.take form t = .ok r') :
    r'.letters ≤ r.letters + t.letters := by
  cases t with
  | startTag name mark =>
    cases run
    exact Nat.le_refl _
  | attr name value mark =>
    obtain ⟨content, _, run⟩ := exists_of_bind_eq_ok run
    cases run
    exact Nat.le_refl _
  | tagEnd isEmpty => exact (letters_endTagStart run).le
  | endTag name mark => exact (letters_close run).le
  | characters raw mark =>
    obtain ⟨content, decoded, run⟩ := exists_of_bind_eq_ok run
    cases run
    rw [Token.letters, ok_of_mapError decoded]
    exact r.letters_addText content
  | cdata content =>
    cases run
    exact r.letters_addText content
  | aside =>
    cases run
    exact Nat.le_refl _

theorem letters_takeAll {ts : List Token} (run : takeAll form r ts = .ok r') :
    r'.letters ≤ r.letters + (ts.map Token.letters).sum := by
  induction ts generalizing r with
  | nil =>
    cases run
    exact Nat.le_refl _
  | cons t ts ih =>
    obtain ⟨s, taken, run⟩ := exists_of_bind_eq_ok run
    have first := letters_take taken
    have rest := ih run
    rw [List.map_cons, List.sum_cons]
    omega

end Reader

/-- A token means no more letters than it has characters, and as many only if it copies them. -/
theorem Token.Spells.letters {t : Token} {front : List Char} (h : t.Spells front) :
    t.letters ≤ front.length ∧ (front.length ≤ t.letters → ∀ c ∈ front, c ≠ '<' ∧ c ≠ '&') := by
  have none : t.letters = 0 → front ≠ [] → t.letters ≤ front.length ∧
      (front.length ≤ t.letters → ∀ c ∈ front, c ≠ '<' ∧ c ≠ '&') := by
    intro zero something
    have := List.length_pos_of_ne_nil something
    exact ⟨by omega, fun full => absurd full (by omega)⟩
  cases t with
  | characters raw mark =>
    obtain ⟨rfl, something, angle⟩ := h
    cases decoded : Reference.decode front with
    | error fault =>
      refine none ?_ something
      rw [Token.letters, decoded]
      rfl
    | ok content =>
      rw [Token.letters, decoded]
      obtain ⟨shorter, full⟩ := (Reference.decodes_of_ok decoded).length_le
      exact ⟨shorter, fun all c mem => ⟨fun is => angle (is ▸ mem), fun is => full all (is ▸ mem)⟩⟩
  | cdata content =>
    have shorter : content.length < front.length := h
    exact ⟨shorter.le, fun full => absurd full (Nat.not_le.2 shorter)⟩
  | _ => exact none rfl h

theorem Token.letters_of_spells {fronts : List (List Char)} {ts : List Token}
    (all : List.Forall₂ Token.Spells fronts ts) :
    (ts.map Token.letters).sum ≤ fronts.flatten.length ∧
      (fronts.flatten.length ≤ (ts.map Token.letters).sum → ∀ c ∈ fronts.flatten, c ≠ '<' ∧ c ≠ '&') := by
  induction all with
  | nil => exact ⟨Nat.le_refl _, fun _ => nofun⟩
  | cons spells _ ih =>
    obtain ⟨first, copies⟩ := spells.letters
    rw [List.map_cons, List.sum_cons, List.flatten_cons, List.length_append]
    refine ⟨by omega, fun full c mem => ?_⟩
    rcases List.mem_append.1 mem with mem | mem
    · exact copies (by omega) c mem
    · exact ih.2 (by omega) c mem

/-- **The letters of a fragment** are no more than its characters, and as many only if it has neither tags
nor references. -/
theorem parseFragment_letters {source : String} {ns : List Node} (parsed : parseFragment source = .ok ns) :
    Node.lettersOf ns ≤ source.toList.length ∧
      (source.toList.length ≤ Node.lettersOf ns → ∀ c ∈ source.toList, c ≠ '<' ∧ c ≠ '&') := by
  obtain ⟨faultless, r, run, closed, rfl⟩ := nodesOfTokens_eq_ok.1 parsed
  obtain ⟨_, fronts, cut, spells⟩ := fragmentTokens_covers faultless
  obtain ⟨fewer, copies⟩ := Token.letters_of_spells spells
  have read := Reader.letters_takeAll run
  have start : Reader.initial.letters = 0 := rfl
  have roots : r.letters = Node.lettersOf r.roots := by
    unfold Reader.letters
    rw [closed]
    exact Nat.zero_add _
  rw [cut]
  exact ⟨by omega, fun full => copies (by omega)⟩

/-- Different texts are written differently. -/
theorem Escape.text_injective {s t : String} (same : Escape.text s = Escape.text t) : s = t := by
  have chars : s.toList.flatMap textChar = t.toList.flatMap textChar := by
    simpa [text] using congrArg String.toList same
  have read := Reference.decode_text s.toList
  rw [chars, Reference.decode_text, Except.ok.injEq] at read
  exact (String.toList_inj.1 read).symm

/-! ## Plain fragments -/

/-- Characters without `<` are one text, which may not hold the end of a section. -/
theorem Token.text_of_plain {cs : List Char} (good : ∀ c ∈ cs, isMarkupChar c = true) (angle : '<' ∉ cs) :
    text cs = if holds "]]>" cs then .error .sectionEndInText else .ok (.characters cs cs.length, []) := by
  have read : Scan.upTo (startsWith "<") cs = .ok (cs, []) := by
    have inside : ∀ c ∈ cs, (c == '<') = false := fun c mem =>
      beq_eq_false_iff_ne.2 fun is => angle (is ▸ mem)
    have taken : Scan.upTo (startsWith "<") (cs ++ []) = .ok (cs, []) :=
      Scan.upTo_append Scan.startsWith_angle good inside fun _ ends => absurd ends (Option.not_mem_none _)
    rwa [List.append_nil] at taken
  unfold text
  rw [Scan.bind_get, Scan.bind_of_ok read]
  split <;> rfl

/-- A fragment without tags is cut into one text, unless the lexer finds a fault in it. -/
theorem fragmentTokens_of_plain {c : Char} {cs : List Char}
    (good : ∀ d ∈ c :: cs, isMarkupChar d = true) (angle : '<' ∉ c :: cs)
    (faultless : (fragmentTokens (c :: cs)).fault = none) :
    fragmentTokens (c :: cs) = ⟨[.characters (c :: cs) (c :: cs).length], none⟩ := by
  have text := Token.text_of_plain good angle
  -- the only step takes everything
  have step : Lexer.step ⟨.content, 0, false⟩ (c :: cs) =
      Lexer.emit .characters Token.text ⟨.content, 0, false⟩ (c :: cs) := by
    have other : c ≠ '<' := fun is => angle (is ▸ List.mem_cons_self)
    unfold Lexer.step Lexer.content
    dsimp only
    split <;> first | rfl | (next eq => exact absurd (List.cons.inj eq).1 other)
  unfold fragmentTokens Lexer.tokens at faultless ⊢
  rw [List.length_cons, Lexer.run, step, Lexer.emit, Lexer.read, text] at faultless
  rw [List.length_cons, Lexer.run, step, Lexer.emit, Lexer.read, text]
  by_cases ends : holds "]]>" (c :: cs) = true
  · rw [if_pos ends] at faultless
    cases faultless
  · rw [if_neg ends]
    cases cs <;> rfl

/-- A fragment without tags and references is read as one text, unless it is refused. -/
theorem parseFragment_of_plain {source : String} {ns : List Node}
    (plain : ∀ c ∈ source.toList, c ≠ '<' ∧ c ≠ '&') (parsed : parseFragment source = .ok ns) :
    ns = Page.textNodes source := by
  have accepted : (parseFragment source).isOk = true := by rw [parsed]; rfl
  have markup := parseFragment_isMarkupText accepted
  obtain ⟨faultless, r, run, _, rfl⟩ := nodesOfTokens_eq_ok.1 parsed
  unfold Page.textNodes
  cases chars : source.toList with
  | nil =>
    rw [chars] at run
    cases run
    rw [if_pos (String.toList_eq_nil_iff.1 chars)]
    rfl
  | cons c cs =>
    rw [chars] at plain run faultless
    rw [fragmentTokens_of_plain (chars ▸ markup) (fun mem => (plain _ mem).1 rfl) faultless] at run
    obtain ⟨s, taken, run⟩ := exists_of_bind_eq_ok run
    cases run
    obtain ⟨content, decoded, taken⟩ := exists_of_bind_eq_ok taken
    cases taken
    -- nothing in it is a reference
    have same := (Reference.decodes_of_ok (ok_of_mapError decoded)).eq_of_not_mem
      fun mem => (plain _ mem).2 rfl
    have some_ : ¬ source = "" := fun nothing => by
      rw [nothing] at chars
      cases chars
    rw [if_neg some_, same, ← chars]
    unfold Reader.addText
    rw [if_neg (by simpa using some_), if_neg (by simp), String.ofList_toList]
    rfl

end Markup

/-! ## Labels -/

namespace Page

/-- A text without tags and references is put on a page as the text it is. -/
theorem nodesOrText_of_plain {html : String} (plain : ∀ c ∈ html.toList, c ≠ '<' ∧ c ≠ '&') :
    nodesOrText html = textNodes html := by
  cases parsed : Markup.parseFragment html with
  | ok ns => rw [nodesOrText_of_ok parsed, Markup.parseFragment_of_plain plain parsed]
  | error e => exact nodesOrText_of_not_isOk (by rw [parsed]; rfl)

/-- Content in whose markup no tag is seen is a text. -/
theorem exists_textNodes {ns : List Markup.Node} (parted : Markup.Node.PartedAll ns) {quote : Markup.Quote}
    (tagless : '<' ∉ Markup.Node.charsOf quote (Markup.Node.settledAll ns)) :
    ∃ content, ns = textNodes content := by
  cases ns with
  | nil => exact ⟨"", rfl⟩
  | cons n ns =>
    cases n with
    | element tag children => exact absurd (List.mem_append_left _ List.mem_cons_self) tagless
    | text content =>
      obtain ⟨something, apart, _⟩ := parted
      cases ns with
      | nil => exact ⟨content, by rw [textNodes, if_neg something]⟩
      | cons m ns =>
        cases m with
        | text more => cases apart rfl _ rfl
        | element tag children =>
          exact absurd (List.mem_append_right _ (List.mem_append_left _ List.mem_cons_self)) tagless

theorem lettersOf_textNodes (content : String) :
    Markup.Node.lettersOf (textNodes content) = content.toList.length := by
  unfold textNodes
  split
  · next nothing => subst nothing; rfl
  · exact String.length_toList.symm

/-- **Markup is shown as the text it is** exactly if it cannot be read, or has neither tags nor references. -/
theorem shown_eq_text_iff (html : String) : shown html = Markup.Escape.text html ↔
    (Markup.parseFragment html).isOk = false ∨ ∀ c ∈ html.toList, c ≠ '<' ∧ c ≠ '&' := by
  constructor
  · intro same
    cases parsed : Markup.parseFragment html with
    | error e => exact .inl rfl
    | ok ns =>
      have written := toList_shown html
      rw [nodesOrText_of_ok parsed] at written
      have tagless : '<' ∉ Markup.Node.charsOf .double (Markup.Node.settledAll ns) := by
        rw [← written, same, Markup.Escape.text, String.toList_ofList]
        intro mem
        obtain ⟨c, _, mem⟩ := List.mem_flatMap.1 mem
        exact (Markup.Escape.not_angle_of_mem_textChar mem).1 rfl
      -- so it was read as one text, which is the markup, letter by letter
      obtain ⟨content, rfl⟩ := exists_textNodes (Markup.parseFragment_parted parsed) tagless
      have shows := shown_of_nodesOrText_eq (nodesOrText_of_ok parsed)
      obtain rfl : content = html := Markup.Escape.text_injective (shows.symm.trans same)
      refine .inr ((Markup.parseFragment_letters parsed).2 ?_)
      rw [lettersOf_textNodes]
  · rintro (refused | plain)
    · exact shown_of_not_isOk refused
    · exact shown_of_nodesOrText_eq (nodesOrText_of_plain plain)

end Page

end Formwork
