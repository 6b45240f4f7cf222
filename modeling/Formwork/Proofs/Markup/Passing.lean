import Mathlib.Data.List.TakeWhile
import Formwork.Proofs.Markup.Writing

/-!
# What the tokens of a fragment pass over

A scan takes characters off the front of a source.  Which ones is not in its answer, so this is said
here (`Scan.Passes`): they are characters of markup, and what the scan yields comes from them.  A
fragment in which the lexer finds no fault is cut into such pieces, one for each token
(`fragmentTokens_covers`).  So it holds only characters that may occur in markup
(`parseFragment_isMarkupText`).
-/

namespace Formwork.Markup

set_option autoImplicit false

/-! ## Scans -/

/-- Whatever a scan yields stands in a relation to the characters that it takes off the front of a
source, and these may occur in markup. -/
def Scan.Passes {α : Type} (scan : Scan α) (cs : List Char) (P : α → List Char → Prop) : Prop :=
  ∀ a rest, scan cs = .ok (a, rest) →
    ∃ front, cs = front ++ rest ∧ (∀ c ∈ front, isMarkupChar c = true) ∧ P a front

theorem isMarkupChar_of_isSpace {c : Char} (space : isSpace c = true) : isMarkupChar c = true := by
  simp only [isSpace, Bool.or_eq_true, beq_iff_eq] at space
  rcases space with ((rfl | rfl) | rfl) | rfl <;> rfl

/-- Letters lie between `A` and `z`. -/
theorem toNat_of_isAlpha {c : Char} (alpha : c.isAlpha = true) : 65 ≤ c.toNat ∧ c.toNat ≤ 122 := by
  rcases Bool.or_eq_true_iff.1 alpha with upper | lower
  · obtain ⟨first, last⟩ : 65 ≤ c.toNat ∧ c.toNat ≤ 90 := of_decide_eq_true upper
    omega
  · obtain ⟨first, last⟩ : 97 ≤ c.toNat ∧ c.toNat ≤ 122 :=
      (Bool.and_eq_true_iff.1 lower).imp of_decide_eq_true of_decide_eq_true
    omega

theorem toNat_of_isDigit {c : Char} (digit : c.isDigit = true) : 48 ≤ c.toNat ∧ c.toNat ≤ 57 :=
  (Bool.and_eq_true_iff.1 digit).imp of_decide_eq_true of_decide_eq_true

/-- A character of a name is no control character, nor one of the two that may not occur. -/
theorem toNat_of_isNameChar {c : Char} (letter : isNameChar c = true) :
    0x20 ≤ c.toNat ∧ c.toNat ≠ 0xFFFE ∧ c.toNat ≠ 0xFFFF := by
  simp only [isNameChar, isNameStart, nameStartRanges, List.any_cons, List.any_nil, Bool.or_eq_true,
    Bool.and_eq_true, beq_iff_eq, decide_eq_true_eq, Bool.or_false] at letter
  rcases letter with ((((((((alpha | rfl) | rfl) | ranges) | digit) | rfl) | rfl) | dot) | other) | tie
  · have := toNat_of_isAlpha alpha
    omega
  · decide
  · decide
  · omega
  · have := toNat_of_isDigit digit
    omega
  · decide
  · decide
  · omega
  · omega
  · omega

/-- Characters of names may occur in markup. -/
theorem isMarkupChar_of_isNameChar {c : Char} (letter : isNameChar c = true) :
    isMarkupChar c = true := by
  obtain ⟨visible, ne, ne'⟩ := toNat_of_isNameChar letter
  unfold isMarkupChar
  rw [if_neg (Nat.not_lt.2 visible)]
  simp [ne, ne']

/-- A run that is stopped by single characters holds none of them and ends before one. -/
theorem Scan.stops_of_runUntil {stop : List Char → Bool} {p : Char → Bool}
    (byHead : ∀ c cs, stop (c :: cs) = p c) {cs run rest : List Char}
    (passed : runUntil stop cs = .ok (run, rest)) :
    (∀ c ∈ run, p c = false) ∧ ∀ c ∈ rest.head?, p c = true := by
  induction cs generalizing run rest with
  | nil =>
    cases passed
    exact ⟨nofun, nofun⟩
  | cons c cs ih =>
    rw [runUntil] at passed
    split at passed
    · rw [byHead] at passed
      cases stops : p c with
      | true =>
        rw [stops] at passed
        cases passed
        exact ⟨nofun, fun d head => Option.some.inj head ▸ stops⟩
      | false =>
        rw [stops] at passed
        cases further : runUntil stop cs with
        | error cause =>
          rw [further] at passed
          cases passed
        | ok answer =>
          rw [further] at passed
          cases passed
          obtain ⟨inside, ends⟩ := ih further
          exact ⟨fun d mem => (List.mem_cons.1 mem).elim (fun eq => eq ▸ stops) (inside d), ends⟩
    · cases passed

namespace Scan.Passes

variable {α β : Type} {P : β → List Char → Prop} {cs : List Char}

theorem pure {b : β} (h : P b []) : Passes (Pure.pure b : Scan β) cs P := by
  intro a rest run
  cases run
  exact ⟨[], rfl, nofun, h⟩

theorem throw (cause : Cause Mark) : Passes (MonadExcept.throw cause : Scan β) cs P := by
  intro a rest run
  cases run

/-- One scan behind another passes over what both pass over, and begins where the first one ends. -/
theorem bind_split {Q : α → List Char → Prop} {scan : Scan α} {f : α → Scan β}
    (first : scan.Passes cs Q)
    (h : ∀ a front rest, cs = front ++ rest → Q a front →
      Passes (f a) rest fun b more => P b (front ++ more)) :
    Passes (scan >>= f) cs P := by
  intro b rest run
  cases scanned : scan cs with
  | error cause =>
    have failed : (scan >>= f) cs = .error cause := by
      show Except.bind (scan cs) _ = _
      rw [scanned]
      rfl
    rw [failed] at run
    cases run
  | ok answer =>
    obtain ⟨a, unread⟩ := answer
    rw [bind_of_ok scanned] at run
    obtain ⟨front, rfl, markup, given⟩ := first a unread scanned
    obtain ⟨more, rfl, markup', goal⟩ := h a front unread rfl given b rest run
    refine ⟨front ++ more, (List.append_assoc ..).symm, ?_, goal⟩
    exact fun c mem => (List.mem_append.1 mem).elim (markup c) (markup' c)

theorem bind {Q : α → List Char → Prop} {scan : Scan α} {f : α → Scan β} (first : scan.Passes cs Q)
    (h : ∀ a front rest, Q a front → Passes (f a) rest fun b more => P b (front ++ more)) :
    Passes (scan >>= f) cs P :=
  first.bind_split fun a front rest _ => h a front rest

theorem bind_get {f : List Char → Scan β} (h : Passes (f cs) cs P) : Passes (get >>= f) cs P := h

/-- Going on behind a character that was looked at. -/
theorem bind_set {c : Char} {f : Unit → Scan β} (markup : isMarkupChar c = true)
    (h : Passes (f ()) cs fun b more => P b (c :: more)) : Passes (set cs >>= f) (c :: cs) P := by
  intro b rest run
  obtain ⟨more, rfl, markup', goal⟩ := h b rest run
  exact ⟨c :: more, rfl, fun d mem => (List.mem_cons.1 mem).elim (fun eq => eq ▸ markup) (markup' d),
    goal⟩

/-- Passing over a text that was looked at. -/
theorem bind_skip {text : String} (count : Nat) {f : Unit → Scan β} (length : text.toList.length = count)
    (markup : text.toList.all isMarkupChar = true) (begins : startsWith text cs = true)
    (h : Passes (f ()) (cs.drop count) fun b more => P b (text.toList ++ more)) :
    Passes (skip count >>= f) cs P := by
  intro b rest run
  obtain ⟨behind, rfl⟩ := List.isPrefixOf_iff_prefix.1 begins
  rw [← length, List.drop_left] at h
  rw [Scan.bind_skip, ← length, List.drop_left] at run
  obtain ⟨more, rfl, markup', goal⟩ := h b rest run
  refine ⟨text.toList ++ more, (List.append_assoc ..).symm, ?_, goal⟩
  exact fun c mem => (List.mem_append.1 mem).elim (List.all_eq_true.1 markup c) (markup' c)

theorem bind_throw (cause : Cause Mark) {f : α → Scan β} :
    Passes (MonadExcept.throw cause >>= f) cs P := by
  intro a rest run
  cases run

theorem ite {c : Prop} [Decidable c] {scan other : Scan β} (h : Passes scan cs P)
    (h' : Passes other cs P) : Passes (if c then scan else other) cs P := by
  split
  · exact h
  · exact h'

theorem mono {Q : β → List Char → Prop} {scan : Scan β} (h : Passes scan cs Q)
    (implies : ∀ b front, Q b front → P b front) : Passes scan cs P := by
  intro b rest run
  obtain ⟨front, eq, markup, given⟩ := h b rest run
  exact ⟨front, eq, markup, implies b front given⟩

/-! ### The small parts -/

theorem char {wanted : Char} (markup : isMarkupChar wanted = true) :
    (Scan.char wanted).Passes cs fun _ front => front = [wanted] := by
  intro _ rest run
  cases cs with
  | nil => cases run
  | cons c cs =>
    by_cases same : c = wanted
    · subst same
      rw [Scan.char_cons] at run
      cases run
      exact ⟨[c], rfl, by simpa using markup, rfl⟩
    · have failed : Scan.char wanted (c :: cs) = .error (.expectedChar [wanted] c (cs.length + 1)) := by
        show (if c = wanted then _ else _ : Scan Unit) _ = _
        rw [if_neg same]
        rfl
      rw [failed] at run
      cases run

theorem literal {text : String} (markup : text.toList.all isMarkupChar = true) :
    (Scan.literal text).Passes cs fun _ front => front = text.toList := by
  unfold Scan.literal
  refine bind_get ?_
  split
  · case isTrue begins =>
    intro _ rest run
    cases run
    obtain ⟨behind, rfl⟩ := List.isPrefixOf_iff_prefix.1 begins
    refine ⟨text.toList, ?_, List.all_eq_true.1 markup, rfl⟩
    rw [← String.length_toList, List.drop_left]
  · exact throw _

/-- The longest front part of characters that may occur in markup. -/
theorem takeWhile {p : Char → Bool} (markup : ∀ c, p c = true → isMarkupChar c = true) :
    (Scan.takeWhile p).Passes cs fun run front => run = front := by
  intro run rest taken
  cases taken
  exact ⟨cs.takeWhile p, List.takeWhile_append_dropWhile.symm,
    fun c mem => markup c (List.mem_takeWhile_imp mem), rfl⟩

/-- Space alone is passed over as space. -/
theorem optionalSpace_spaces :
    Scan.optionalSpace.Passes cs fun _ spaces => ∀ c ∈ spaces, isSpace c = true := by
  intro _ rest run
  cases run
  exact ⟨cs.takeWhile isSpace, List.takeWhile_append_dropWhile.symm,
    fun c mem => isMarkupChar_of_isSpace (List.mem_takeWhile_imp mem),
    fun c mem => List.mem_takeWhile_imp mem⟩

theorem optionalSpace : Scan.optionalSpace.Passes cs fun _ _ => True :=
  optionalSpace_spaces.mono fun _ _ _ => trivial

theorem quote : Scan.quote.Passes cs fun mark front =>
    front = [mark] ∧ (mark = '\'' ∨ mark = '"') ∧ isMarkupChar mark = true := by
  unfold Scan.quote
  refine bind_get ?_
  split
  · exact throw _
  · next c cs =>
    split
    · next kind =>
      have markup : isMarkupChar c = true := by rcases kind with rfl | rfl <;> rfl
      exact bind_set markup (pure ⟨rfl, kind, markup⟩)
    · exact throw _

theorem equals : Scan.equals.Passes cs fun _ _ => True :=
  optionalSpace.bind fun _ _ _ _ => (char rfl).bind fun _ _ _ _ => optionalSpace.mono fun _ _ _ => trivial

/-- A run up to a stop passes over what it yields, in which nothing stops it. -/
theorem upTo (stop : List Char → Bool) : (Scan.upTo stop).Passes cs fun run front => run = front := by
  intro run rest scanned
  have passed : Scan.runUntil stop cs = .ok (run, rest) := scanned
  clear scanned
  induction cs generalizing run rest with
  | nil =>
    cases passed
    exact ⟨[], rfl, nofun, rfl⟩
  | cons c cs ih =>
    rw [Scan.runUntil] at passed
    by_cases markup : isMarkupChar c = true
    · rw [if_pos markup] at passed
      by_cases stops : stop (c :: cs) = true
      · rw [if_pos stops] at passed
        cases passed
        exact ⟨[], rfl, nofun, rfl⟩
      · rw [if_neg stops] at passed
        cases further : Scan.runUntil stop cs with
        | error cause =>
          rw [further] at passed
          cases passed
        | ok answer =>
          rw [further] at passed
          cases passed
          obtain ⟨front, split, good, same⟩ := ih _ _ further
          refine ⟨c :: front, by rw [split]; rfl, ?_, by rw [same]⟩
          exact fun d mem => (List.mem_cons.1 mem).elim (fun eq => eq ▸ markup) (good d)
    · rw [if_neg markup] at passed
      cases passed

theorem optionalName : Scan.optionalName.Passes cs fun _ _ => True := by
  unfold Scan.optionalName
  refine bind_get ?_
  split
  · exact pure trivial
  · exact ite ((takeWhile fun _ => isMarkupChar_of_isNameChar).mono fun _ _ _ => trivial) (throw _)

theorem name : Scan.name.Passes cs fun _ _ => True :=
  optionalName.bind fun _ _ _ _ => ite (bind_throw _) (pure trivial)

/-- What is passed over as a qualified name spells it. -/
theorem qname_spelled : Scan.qname.Passes cs fun name run => Scan.qnameOf? run = some name := by
  unfold Scan.qname
  refine (takeWhile fun _ => isMarkupChar_of_isNameChar).bind fun run front _ same => ?_
  subst same
  cases found : Scan.qnameOf? run with
  | none => exact throw _
  | some name => exact pure (by rw [List.append_nil, found])

theorem qname : Scan.qname.Passes cs fun _ _ => True := qname_spelled.mono fun _ _ _ => trivial

/-- A value holds neither its quote nor `<`. -/
theorem value (quote : Char) :
    (Scan.upTo fun cs => cs.head?.any fun c => c == quote || c == '<').Passes cs fun value front =>
      front = value ∧ ∀ c ∈ value, c ≠ quote ∧ c ≠ '<' := by
  intro value rest run
  obtain ⟨front, split, markup, same⟩ := upTo _ value rest run
  obtain ⟨inside, -⟩ := Scan.stops_of_runUntil (p := fun c => c == quote || c == '<')
    (fun _ _ => rfl) run
  exact ⟨front, split, markup, same.symm, fun c mem => by simpa using inside c mem⟩

end Scan.Passes

/-! ## Tokens -/

/-- A token stands for some characters: text for itself, a section for more than its content, and
anything else for at least one character. -/
def Token.Spells (front : List Char) : Token → Prop
  | .characters raw _ => front = raw ∧ raw ≠ [] ∧ '<' ∉ raw
  | .cdata content => content.length < front.length
  | _ => front ≠ []

namespace Token

open Scan.Passes

variable {cs : List Char}

theorem passes_comment (begins : startsWith "<!--" cs = true) :
    comment.Passes cs fun t front => t.Spells front := by
  refine bind_skip 4 rfl (by decide) begins ?_
  refine (upTo _).bind fun text _ _ _ => (literal (by decide)).bind fun _ _ _ _ => ?_
  exact ite (bind_throw _) (ite (bind_throw _) (pure nofun))

theorem passes_instruction (begins : startsWith "<?" cs = true) :
    instruction.Passes cs fun t front => t.Spells front := by
  refine bind_skip 2 rfl (by decide) begins ?_
  exact name.bind fun _ _ _ _ => optionalSpace.bind fun _ _ _ _ => (upTo _).bind fun _ _ _ _ =>
    (literal (by decide)).bind fun _ _ _ _ => pure nofun

theorem passes_cdataSection (begins : startsWith "<![CDATA[" cs = true) :
    cdataSection.Passes cs fun t front => t.Spells front := by
  refine bind_skip 9 rfl (by decide) begins ?_
  refine (upTo _).bind fun content front _ same => (literal (by decide)).bind fun _ _ _ _ => ?_
  refine pure ?_
  subst same
  simp only [Spells, List.length_append, List.append_nil]
  have : "<![CDATA[".toList.length = 9 := rfl
  omega

theorem passes_startOfTag (begins : startsWith "<" cs = true) :
    startOfTag.Passes cs fun t front => t.Spells front :=
  bind_get (bind_skip 1 rfl (by decide) begins (qname.bind fun _ _ _ _ => pure nofun))

theorem passes_endOfElement (begins : startsWith "</" cs = true) :
    endOfElement.Passes cs fun t front => t.Spells front :=
  bind_get (bind_skip 2 rfl (by decide) begins (qname.bind fun _ _ _ _ =>
    optionalSpace.bind fun _ _ _ _ => (char rfl).bind fun _ _ _ _ => pure nofun))

/-- Text begins with anything but `<` and goes on up to the next one. -/
theorem passes_text {c : Char} (other : c ≠ '<') :
    text.Passes (c :: cs) fun t front => t.Spells front := by
  have run : (Scan.upTo (startsWith "<")).Passes (c :: cs) fun raw front =>
      front = raw ∧ raw ≠ [] ∧ '<' ∉ raw := by
    intro raw rest passed
    obtain ⟨front, split, markup, same⟩ := upTo _ raw rest passed
    obtain ⟨inside, ends⟩ := Scan.stops_of_runUntil Scan.startsWith_angle passed
    refine ⟨front, split, markup, same.symm, ?_, fun mem => by simpa using inside _ mem⟩
    rintro rfl
    subst same
    subst split
    exact other (by simpa using ends c rfl)
  refine bind_get (run.bind fun raw front _ covers => ite (bind_throw _) (pure ?_))
  rw [List.append_nil]
  exact covers

theorem passes_inTag : inTag.Passes cs fun t front => t.Spells front := by
  unfold inTag
  refine bind_get (optionalSpace.bind fun _ spaces rest _ => bind_get ?_)
  have named : ∀ cs, namedValue.Passes cs fun t front => t.Spells (spaces ++ front) := by
    intro cs
    refine qname.bind fun _ _ _ _ => equals.bind fun _ _ _ _ => quote.bind ?_
    rintro mark _ _ ⟨rfl, -, markup⟩
    refine bind_get ((upTo _).bind fun _ _ _ _ => (char markup).bind fun _ _ _ _ => pure ?_)
    simp [Spells]
  split
  · refine bind_set rfl ((char rfl).bind fun _ _ _ _ => pure ?_)
    simp [Spells]
  · refine bind_set rfl (pure ?_)
    simp [Spells]
  · exact ite (bind_throw _) (named _)
  · exact ite (bind_throw _) (named _)

/-- There is no token without characters. -/
theorem Spells.ne_nil {t : Token} {front : List Char} (h : t.Spells front) : front ≠ [] := by
  cases t with
  | characters raw mark => exact h.1 ▸ h.2.1
  | cdata content => exact List.ne_nil_of_length_pos (Nat.zero_lt_of_lt h)
  | _ => exact h

end Token

/-! ## Fragments -/

namespace Lexer

variable {lexer : Lexer} {cs : List Char}

/-- A step takes the characters of its token off the front of the source. -/
def Step.Covers (cs : List Char) (result : Step) : Prop :=
  ∀ token next unread, result = .ok (token, next, unread) → ∃ t front, token = some t ∧
    cs = front ++ unread ∧ (∀ c ∈ front, isMarkupChar c = true) ∧ t.Spells front

/-- A step in a fragment. -/
theorem covers_step {inTag : Bool} (h : lexer.InFragment inTag) (c : Char) :
    Step.Covers (c :: cs) (step lexer (c :: cs)) := by
  have covers : ∀ {scan : Scan Token} {t rest}, scan (c :: cs) = .ok (t, rest) →
      (scan.Passes (c :: cs) fun t front => t.Spells front) → ∃ t' front, some t = some t' ∧
        c :: cs = front ++ rest ∧ (∀ d ∈ front, isMarkupChar d = true) ∧ t'.Spells front := by
    intro scan t rest scanned passes
    obtain ⟨front, split, markup, spells⟩ := passes _ _ scanned
    exact ⟨t, front, rfl, split, markup, spells⟩
  have inside : lexer.stage = .inTag ∨ lexer.stage = .content := h.stage_cases.imp And.right And.right
  intro token next unread run
  cases scans_of_step run with
  | comment _ begins scanned => exact covers scanned (Token.passes_comment begins)
  | instruction _ begins scanned => exact covers scanned (Token.passes_instruction begins)
  | cdata _ begins scanned => exact covers scanned (Token.passes_cdataSection begins)
  | startTag _ begins scanned => exact covers scanned (Token.passes_startOfTag begins)
  | endTag _ begins scanned => exact covers scanned (Token.passes_endOfElement begins)
  | text _ other scanned =>
    refine covers scanned (Token.passes_text ?_)
    rintro rfl
    exact other cs rfl
  | attr _ scanned | tagEnd _ scanned => exact covers scanned Token.passes_inTag
  | space outside outer => exact absurd inside (not_or.2 ⟨outside, outer⟩)
  | doctype other _ | entity other _ | doctypeEnd other _ | passed other _ _ => simp [other] at inside

/-- **The tokens of a run without fault cover the source**, which holds characters of markup only. -/
theorem run_covers {steps : Nat} {inTag : Bool} (h : lexer.InFragment inTag)
    (enough : cs.length ≤ steps) (faultless : (run steps lexer cs).fault = none) :
    (∀ c ∈ cs, isMarkupChar c = true) ∧ ∃ fronts : List (List Char), cs = fronts.flatten ∧
      List.Forall₂ Token.Spells fronts (run steps lexer cs).tokens := by
  induction steps generalizing lexer cs inTag with
  | zero =>
    cases List.eq_nil_of_length_eq_zero (Nat.le_zero.1 enough)
    exact ⟨nofun, [], rfl, .nil⟩
  | succ steps ih =>
    cases cs with
    | nil => exact ⟨nofun, [], rfl, .nil⟩
    | cons c cs =>
      rw [run] at faultless ⊢
      cases stepped : step lexer (c :: cs) with
      | error fault =>
        rw [stepped] at faultless
        cases faultless
      | ok answer =>
        obtain ⟨token, next, unread⟩ := answer
        obtain ⟨t, rfl, _, goesOn⟩ := fits_step h token next unread stepped
        obtain ⟨_, front, eq, split, markup, spells⟩ := covers_step h c _ _ _ stepped
        cases eq
        rw [stepped] at faultless
        -- the step has taken at least one character, so enough steps are left
        have shorter : unread.length ≤ steps := by
          have something := List.length_pos_of_ne_nil spells.ne_nil
          have lengths := congrArg List.length split
          rw [List.length_append] at lengths
          omega
        obtain ⟨others, fronts, rest, all⟩ := ih goesOn shorter faultless
        refine ⟨fun d mem => ?_, front :: fronts, by rw [split, rest, List.flatten_cons], .cons spells all⟩
        rw [split, List.mem_append] at mem
        exact mem.elim (markup d) (others d)

end Lexer

/-- **A fragment that is read without fault** is cut into pieces, one for each token. -/
theorem fragmentTokens_covers {source : List Char} (faultless : (fragmentTokens source).fault = none) :
    (∀ c ∈ source, isMarkupChar c = true) ∧ ∃ fronts : List (List Char), source = fronts.flatten ∧
      List.Forall₂ Token.Spells fronts (fragmentTokens source).tokens := by
  have start : Lexer.InFragment ⟨.content, 0, false⟩ false := ⟨rfl, rfl⟩
  exact Lexer.run_covers start (Nat.le_refl _) faultless

/-- **An accepted fragment** has only characters that may occur in markup. -/
theorem parseFragment_isMarkupText {source : String} (accepted : (parseFragment source).isOk = true) :
    IsMarkupText source :=
  (fragmentTokens_covers ((parseFragment_isOk_iff source).1 accepted).1).1

end Formwork.Markup
