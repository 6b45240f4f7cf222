import Mathlib.Data.List.Basic
import Formwork.Proofs.Markup.Nesting

/-!
# Reading what was written

The parts of written markup are read back by the scans of the lexer: a qualified name up to the
first character that cannot stand in a name, an escaped value up to its quote, escaped text up to
the next `<`.  What the decoder makes of an escaped text is the text (`Reference.decode_text`,
`Reference.decode_value`); the quote that surrounds a value may be either one.
-/

namespace Formwork.Markup

set_option autoImplicit false

/-! ## Names -/

/-- A name without a colon: a character that may begin a name, and characters that may continue
one. -/
def IsPlainName : List Char → Prop
  | [] => False
  | c :: cs => (isNameStart c = true ∧ c ≠ ':') ∧ ∀ d ∈ cs, isNameChar d = true ∧ d ≠ ':'

/-- A qualified name: a plain name, or two of them with a colon between. -/
def IsQualifiedName (s : String) : Prop :=
  IsPlainName s.toList ∨
    ∃ qualifier localName, s.toList = qualifier ++ ':' :: localName ∧
      IsPlainName qualifier ∧ IsPlainName localName

/-- A text of characters that may occur in markup. -/
def IsMarkupText (s : String) : Prop := ∀ c ∈ s.toList, isMarkupChar c = true

theorem isNameChar_of_isNameStart {c : Char} (h : isNameStart c = true) : isNameChar c = true := by
  simp [isNameChar, h]

theorem not_isSpace_of_isNameStart {c : Char} (h : isNameStart c = true) : isSpace c = false := by
  cases space : isSpace c with
  | false => rfl
  | true =>
    simp only [isSpace, Bool.or_eq_true, beq_iff_eq] at space
    rcases space with ((rfl | rfl) | rfl) | rfl <;> exact absurd h (by decide)

namespace IsPlainName

variable {cs : List Char}

theorem isNameChar (h : IsPlainName cs) : ∀ c ∈ cs, Markup.isNameChar c = true := by
  cases cs with
  | nil => cases h
  | cons c cs =>
    intro d mem
    rcases List.mem_cons.1 mem with rfl | mem
    · exact isNameChar_of_isNameStart h.1.1
    · exact (h.2 d mem).1

theorem colon_not_mem (h : IsPlainName cs) : ':' ∉ cs := by
  cases cs with
  | nil => cases h
  | cons c cs =>
    intro mem
    rcases List.mem_cons.1 mem with rfl | mem
    · exact h.1.2 rfl
    · exact (h.2 ':' mem).2 rfl

theorem begins (h : IsPlainName cs) : cs.head?.any isNameStart = true := by
  cases cs with
  | nil => cases h
  | cons c cs => exact h.1.1

theorem ne_nil (h : IsPlainName cs) : cs ≠ [] := by
  rintro rfl
  cases h

end IsPlainName

namespace IsQualifiedName

variable {s : String}

theorem isNameChar (h : IsQualifiedName s) : ∀ c ∈ s.toList, Markup.isNameChar c = true := by
  rcases h with plain | ⟨qualifier, localName, split, first, second⟩
  · exact plain.isNameChar
  · intro c mem
    rw [split, List.mem_append, List.mem_cons] at mem
    rcases mem with mem | rfl | mem
    · exact first.isNameChar c mem
    · decide
    · exact second.isNameChar c mem

/-- A qualified name begins as names do. -/
theorem exists_cons (h : IsQualifiedName s) :
    ∃ c cs, s.toList = c :: cs ∧ isNameStart c = true := by
  have begins : ∀ {cs : List Char}, IsPlainName cs → ∃ c rest, cs = c :: rest ∧
      isNameStart c = true := by
    intro cs plain
    cases cs with
    | nil => cases plain
    | cons c rest => exact ⟨c, rest, rfl, plain.1.1⟩
  rcases h with plain | ⟨qualifier, localName, split, first, _⟩
  · exact begins plain
  · obtain ⟨c, rest, rfl, start⟩ := begins first
    exact ⟨c, rest ++ ':' :: localName, split, start⟩

/-- A qualified name is spelled by a name with the same written form. -/
theorem exists_qnameOf (h : IsQualifiedName s) :
    ∃ q, Scan.qnameOf? s.toList = some q ∧ q.text = s := by
  rcases h with plain | ⟨qualifier, localName, split, first, second⟩
  · refine ⟨⟨"", s⟩, ?_, rfl⟩
    simp [Scan.qnameOf?, plain.colon_not_mem, plain.begins, String.ofList_toList]
  · have before : ∀ c ∈ qualifier, decide (c ≠ ':') = true := fun c mem =>
      decide_eq_true fun eq => first.colon_not_mem (eq ▸ mem)
    have cut : s.toList.takeWhile (· ≠ ':') = qualifier := by
      rw [split, List.takeWhile_append_of_pos before]
      simp
    have rest : (s.toList.dropWhile (· ≠ ':')).drop 1 = localName := by
      rw [split, List.dropWhile_append_of_pos before]
      simp
    refine ⟨⟨String.ofList qualifier, String.ofList localName⟩, ?_, ?_⟩
    · have colon : ':' ∈ s.toList := by simp [split]
      unfold Scan.qnameOf?
      rw [if_pos colon, cut, rest]
      exact if_pos ⟨second.colon_not_mem, .inr first.begins, second.begins⟩
    · unfold QName.text
      rw [if_neg fun eq => first.ne_nil (by simpa using congrArg String.toList eq)]
      rw [← String.toList_inj, split]
      simp

end IsQualifiedName

/-- The name that a text spells. -/
def QName.ofText (s : String) : QName := (Scan.qnameOf? s.toList).getD ⟨"", s⟩

/-- **A qualified name is read back** with the same written form. -/
theorem QName.text_ofText {s : String} (h : IsQualifiedName s) : (QName.ofText s).text = s := by
  obtain ⟨q, found, text⟩ := h.exists_qnameOf
  unfold ofText
  rw [found]
  exact text

/-! ## Escaped texts -/

namespace Reference

theorem decodeFrom_of_ne {c : Char} (ne : c ≠ '&') (rest : List Char) :
    decodeFrom none (c :: rest) = (decodeFrom none rest).map (c :: ·) := by
  rw [decodeFrom]
  exact ne

/-- The references that escaping writes mean what was escaped. -/
theorem decodeFrom_textChar (c : Char) (rest : List Char) :
    decodeFrom none (Escape.textChar c ++ rest) = (decodeFrom none rest).map (c :: ·) := by
  unfold Escape.textChar
  split
  · rfl
  · rfl
  · rfl
  · next ne _ _ => exact decodeFrom_of_ne ne rest

theorem decodeFrom_valueChar (quote : Quote) (c : Char) (rest : List Char) :
    decodeFrom none (Escape.valueChar quote c ++ rest) = (decodeFrom none rest).map (c :: ·) := by
  unfold Escape.valueChar
  split
  · next same =>
    subst same
    cases quote <;> rfl
  · exact decodeFrom_textChar c rest

/-- Decoding a text whose characters are written by `write` one by one. -/
theorem decode_flatMap {write : Char → List Char}
    (each : ∀ c rest, decodeFrom none (write c ++ rest) = (decodeFrom none rest).map (c :: ·))
    (cs : List Char) : decode (cs.flatMap write) = .ok cs := by
  unfold decode
  induction cs with
  | nil => rfl
  | cons c cs ih =>
    rw [List.flatMap_cons, each, ih]
    rfl

/-- **Decoding undoes escaping** of a text. -/
theorem decode_text (cs : List Char) : decode (cs.flatMap Escape.textChar) = .ok cs :=
  decode_flatMap decodeFrom_textChar cs

/-- **Decoding undoes escaping** of a value, whichever quote surrounds it. -/
theorem decode_value (quote : Quote) (cs : List Char) :
    decode (cs.flatMap (Escape.valueChar quote)) = .ok cs :=
  decode_flatMap (decodeFrom_valueChar quote) cs

end Reference

namespace Escape

/-- A property of each character of a text, checked by running through the text. -/
theorem of_mem_of_all {cs : List Char} {d : Char} (p : Char → Prop) [DecidablePred p]
    (mem : d ∈ cs) (all : cs.all (fun c => decide (p c)) = true) : p d :=
  of_decide_eq_true (List.all_eq_true.1 all d mem)

/-- A character in what is written for another is that one, or stands in a reference. -/
theorem mem_textChar {c d : Char} (mem : d ∈ textChar c) :
    d = c ∧ c ≠ '<' ∧ c ≠ '>' ∨ d ∈ "&amp;&lt;&gt;".toList := by
  unfold textChar at mem
  split at mem
  · exact .inr (of_mem_of_all (· ∈ "&amp;&lt;&gt;".toList) mem (by decide))
  · exact .inr (of_mem_of_all (· ∈ "&amp;&lt;&gt;".toList) mem (by decide))
  · exact .inr (of_mem_of_all (· ∈ "&amp;&lt;&gt;".toList) mem (by decide))
  · next lt gt => exact .inl ⟨List.mem_singleton.1 mem, lt, gt⟩

/-- Escaped text holds neither `<` nor `>`. -/
theorem not_angle_of_mem_textChar {c d : Char} (mem : d ∈ textChar c) : d ≠ '<' ∧ d ≠ '>' := by
  rcases mem_textChar mem with ⟨rfl, lt, gt⟩ | reference
  · exact ⟨lt, gt⟩
  · exact of_mem_of_all (fun d => d ≠ '<' ∧ d ≠ '>') reference (by decide)

theorem isMarkupChar_of_mem_textChar {c d : Char} (good : isMarkupChar c = true)
    (mem : d ∈ textChar c) : isMarkupChar d = true := by
  rcases mem_textChar mem with ⟨rfl, _⟩ | reference
  · exact good
  · exact of_mem_of_all (isMarkupChar · = true) reference (by decide)

/-- An escaped value holds neither `<` nor the quote that surrounds it. -/
theorem not_stop_of_mem_valueChar {quote : Quote} {c d : Char} (mem : d ∈ valueChar quote c) :
    d ≠ quote.char ∧ d ≠ '<' := by
  unfold valueChar at mem
  split at mem
  · exact of_mem_of_all (fun d => d ≠ quote.char ∧ d ≠ '<') mem (by cases quote <;> decide)
  · next other =>
    refine ⟨?_, (not_angle_of_mem_textChar mem).1⟩
    rcases mem_textChar mem with ⟨rfl, _⟩ | reference
    · exact other
    · exact of_mem_of_all (· ≠ quote.char) reference (by cases quote <;> decide)

theorem isMarkupChar_of_mem_valueChar {quote : Quote} {c d : Char} (good : isMarkupChar c = true)
    (mem : d ∈ valueChar quote c) : isMarkupChar d = true := by
  unfold valueChar at mem
  split at mem
  · exact of_mem_of_all (isMarkupChar · = true) mem (by cases quote <;> decide)
  · exact isMarkupChar_of_mem_textChar good mem

/-- What is written for some text begins with something else than `<`. -/
theorem exists_cons_text {content : String} (some_ : content ≠ "") :
    ∃ c cs, content.toList.flatMap textChar = c :: cs ∧ c ≠ '<' := by
  have written : ∀ c, textChar c ≠ [] := by
    intro c
    unfold textChar
    split <;> nofun
  cases split : content.toList.flatMap textChar with
  | nil =>
    cases given : content.toList with
    | nil => exact absurd (String.toList_eq_nil_iff.1 given) some_
    | cons c cs =>
      rw [given, List.flatMap_cons] at split
      exact absurd (List.append_eq_nil_iff.1 split).1 (written c)
  | cons c cs =>
    obtain ⟨d, _, mem⟩ := List.mem_flatMap.1 (split ▸ List.mem_cons_self : c ∈ content.toList.flatMap textChar)
    exact ⟨c, cs, rfl, (not_angle_of_mem_textChar mem).1⟩

end Escape

/-! ## Scans -/

/-- The characters of a text that occurs are among those it occurs in. -/
theorem mem_of_holds {text : String} {c : Char} (mem : c ∈ text.toList) {cs : List Char}
    (found : holds text cs = true) : c ∈ cs := by
  induction cs with
  | nil => exact (List.isPrefixOf_iff_prefix.1 found).subset mem
  | cons d cs ih =>
    rcases Bool.or_eq_true_iff.1 found with here | later
    · exact (List.isPrefixOf_iff_prefix.1 here).subset mem
    · exact List.mem_cons_of_mem d (ih later)

namespace Scan

theorem bind_of_ok {α β : Type} {scan : Scan α} {f : α → Scan β} {cs rest : List Char} {a : α}
    (run : scan cs = .ok (a, rest)) : (scan >>= f) cs = f a rest := by
  show Except.bind (scan cs) _ = _
  rw [run]
  rfl

section Steps

variable {β : Type} (cs : List Char)

theorem bind_get (f : List Char → Scan β) : (get >>= f) cs = f cs cs := rfl

theorem bind_skip (count : Nat) (f : Unit → Scan β) : (skip count >>= f) cs = f () (cs.drop count) :=
  rfl

theorem bind_optionalSpace (f : Unit → Scan β) :
    (optionalSpace >>= f) cs = f () (cs.dropWhile isSpace) := rfl

theorem char_cons (c : Char) : char c (c :: cs) = .ok ((), cs) := by
  show (if c = c then _ else _ : Scan Unit) _ = _
  rw [if_pos rfl]
  rfl

theorem quote_cons (quote : Quote) : Scan.quote (quote.char :: cs) = .ok (quote.char, cs) := by
  cases quote <;> rfl

/-- The equals sign and the quote behind the name of a written attribute. -/
theorem equals_cons (quote : Quote) : equals ('=' :: quote.char :: cs) = .ok ((), quote.char :: cs) := by
  cases quote <;> rfl

end Steps

/-- Whether a tag begins here is told by one character. -/
theorem startsWith_angle (c : Char) (cs : List Char) : startsWith "<" (c :: cs) = (c == '<') := by
  simp [startsWith, List.isPrefixOf, Bool.beq_comm]

/-- A run of characters of markup ends with the source or before the first character that stops
it. -/
theorem upTo_append {stop : List Char → Bool} {p : Char → Bool}
    (byHead : ∀ c cs, stop (c :: cs) = p c) {run rest : List Char}
    (good : ∀ c ∈ run, isMarkupChar c = true) (inside : ∀ c ∈ run, p c = false)
    (ends : ∀ c ∈ rest.head?, isMarkupChar c = true ∧ p c = true) :
    upTo stop (run ++ rest) = .ok (run, rest) := by
  show runUntil stop (run ++ rest) = _
  induction run with
  | nil =>
    cases rest with
    | nil => rfl
    | cons c cs =>
      obtain ⟨markup, stops⟩ := ends c rfl
      rw [List.nil_append, runUntil, if_pos markup, byHead, if_pos stops]
  | cons c run ih =>
    rw [List.cons_append, runUntil, if_pos (good c List.mem_cons_self), byHead,
      inside c List.mem_cons_self, ih (fun d mem => good d (List.mem_cons_of_mem _ mem))
        (fun d mem => inside d (List.mem_cons_of_mem _ mem))]
    rfl

/-- **A written name** is read up to the first character that cannot stand in a name. -/
theorem qname_append {s : String} (h : IsQualifiedName s) {rest : List Char}
    (ends : ∀ c ∈ rest.head?, isNameChar c = false) :
    qname (s.toList ++ rest) = .ok (.ofText s, rest) := by
  obtain ⟨q, found, _⟩ := h.exists_qnameOf
  have taken : takeWhile isNameChar (s.toList ++ rest) = .ok (s.toList, rest) := by
    refine congrArg Except.ok (Prod.ext ?_ ?_)
    · refine (List.takeWhile_append_of_pos h.isNameChar).trans ?_
      cases rest with
      | nil => exact List.append_nil _
      | cons c cs => rw [List.takeWhile_cons_of_neg (by simp [ends c rfl]), List.append_nil]
    · refine (List.dropWhile_append_of_pos h.isNameChar).trans ?_
      cases rest with
      | nil => rfl
      | cons c cs => exact List.dropWhile_cons_of_neg (by simp [ends c rfl])
  unfold qname QName.ofText
  rw [bind_of_ok taken, found]
  rfl

end Scan

namespace Token

/-- The beginning of a written start tag. -/
theorem startOfTag_append {s : String} (h : IsQualifiedName s) {rest : List Char}
    (ends : ∀ c ∈ rest.head?, isNameChar c = false) :
    ∃ mark, startOfTag ('<' :: (s.toList ++ rest)) = .ok (.startTag (.ofText s) mark, rest) := by
  have read := Scan.qname_append h ends
  refine ⟨('<' :: (s.toList ++ rest)).length, ?_⟩
  unfold startOfTag
  rw [Scan.bind_get, Scan.bind_skip, List.drop_one, List.tail_cons, Scan.bind_of_ok read]
  rfl

/-- A written end tag. -/
theorem endOfElement_append {s : String} (h : IsQualifiedName s) (rest : List Char) :
    ∃ mark, endOfElement ('<' :: '/' :: (s.toList ++ '>' :: rest)) =
      .ok (.endTag (.ofText s) mark, rest) := by
  have ends : ∀ c ∈ ('>' :: rest).head?, isNameChar c = false := by simp; decide
  have read := Scan.qname_append h ends
  refine ⟨('<' :: '/' :: (s.toList ++ '>' :: rest)).length, ?_⟩
  unfold endOfElement
  rw [Scan.bind_get, Scan.bind_skip, List.drop_succ_cons, List.drop_one, List.tail_cons,
    Scan.bind_of_ok read, Scan.bind_optionalSpace, List.dropWhile_cons_of_neg (by decide),
    Scan.bind_of_ok (Scan.char_cons rest '>')]
  rfl

/-- The characters of a written value, with the quotes around it. -/
def quotedValue (quote : Quote) (value : String) : List Char :=
  quote.char :: (value.toList.flatMap (Escape.valueChar quote) ++ [quote.char])

/-- A written value goes up to the quote behind it. -/
theorem upTo_quote (quote : Quote) {value : String} (good : IsMarkupText value) (rest : List Char) :
    Scan.upTo (fun cs => cs.head?.any fun c => c == quote.char || c == '<')
      (value.toList.flatMap (Escape.valueChar quote) ++ quote.char :: rest) =
        .ok (value.toList.flatMap (Escape.valueChar quote), quote.char :: rest) := by
  refine Scan.upTo_append (p := fun c => c == quote.char || c == '<') (fun _ _ => rfl) ?_ ?_ ?_
  · intro d mem
    obtain ⟨c, inside, mem⟩ := List.mem_flatMap.1 mem
    exact Escape.isMarkupChar_of_mem_valueChar (good c inside) mem
  · intro d mem
    obtain ⟨c, _, mem⟩ := List.mem_flatMap.1 mem
    obtain ⟨ne, lt⟩ := Escape.not_stop_of_mem_valueChar mem
    simp [ne, lt]
  · intro d mem
    cases Option.some.inj mem
    cases quote <;> exact ⟨rfl, rfl⟩

theorem namedValue_written {s : String} (h : IsQualifiedName s) (quote : Quote) {value : String}
    (good : IsMarkupText value) (rest : List Char) :
    namedValue (s.toList ++ '=' :: (quotedValue quote value ++ rest)) =
      .ok (.attr (.ofText s) (value.toList.flatMap (Escape.valueChar quote))
        (value.toList.flatMap (Escape.valueChar quote) ++ quote.char :: rest).length, rest) := by
  have ends : ∀ c ∈ ('=' :: (quotedValue quote value ++ rest)).head?, isNameChar c = false := by
    simp; decide
  have shape : quotedValue quote value ++ rest = quote.char ::
      (value.toList.flatMap (Escape.valueChar quote) ++ quote.char :: rest) := by
    simp [quotedValue]
  unfold namedValue
  rw [Scan.bind_of_ok (Scan.qname_append h ends), shape, Scan.bind_of_ok (Scan.equals_cons _ quote),
    Scan.bind_of_ok (Scan.quote_cons _ quote), Scan.bind_get,
    Scan.bind_of_ok (upTo_quote quote good rest), Scan.bind_of_ok (Scan.char_cons rest quote.char)]
  rfl

/-- Behind a space a name begins an attribute. -/
theorem inTag_of_isNameStart {c : Char} (start : isNameStart c = true) (cs : List Char) :
    inTag (' ' :: c :: cs) = namedValue (c :: cs) := by
  have spaced : ¬ (!(' ' :: c :: cs).head?.any isSpace) = true := by simp [isSpace]
  unfold inTag
  rw [Scan.bind_get, Scan.bind_optionalSpace, List.dropWhile_cons_of_pos (by decide),
    List.dropWhile_cons_of_neg (by simp [not_isSpace_of_isNameStart start]), Scan.bind_get]
  simp only [if_neg spaced]
  clear spaced
  generalize unread : c :: cs = state
  split
  · cases unread
    exact absurd start (by decide)
  · cases unread
    exact absurd start (by decide)
  · rfl
  · rfl

/-- A written attribute. -/
theorem inTag_attr {s : String} (h : IsQualifiedName s) (quote : Quote) {value : String}
    (good : IsMarkupText value) (rest : List Char) :
    ∃ mark, inTag (' ' :: (s.toList ++ '=' :: (quotedValue quote value ++ rest))) =
        .ok (.attr (.ofText s) (value.toList.flatMap (Escape.valueChar quote)) mark, rest) := by
  obtain ⟨c, cs, split, start⟩ := h.exists_cons
  refine ⟨_, Eq.trans ?_ (namedValue_written h quote good rest)⟩
  rw [split, List.cons_append]
  exact inTag_of_isNameStart start _

/-- Written text up to the next tag. -/
theorem text_append {content : String} (good : IsMarkupText content) {rest : List Char}
    (ends : ∀ c ∈ rest.head?, c = '<') :
    ∃ mark, text (content.toList.flatMap Escape.textChar ++ rest) =
      .ok (.characters (content.toList.flatMap Escape.textChar) mark, rest) := by
  have read : Scan.upTo (startsWith "<") (content.toList.flatMap Escape.textChar ++ rest) =
      .ok (content.toList.flatMap Escape.textChar, rest) := by
    refine Scan.upTo_append Scan.startsWith_angle ?_ ?_ ?_
    · intro d mem
      obtain ⟨c, inside, mem⟩ := List.mem_flatMap.1 mem
      exact Escape.isMarkupChar_of_mem_textChar (good c inside) mem
    · intro d mem
      obtain ⟨c, _, mem⟩ := List.mem_flatMap.1 mem
      simpa using (Escape.not_angle_of_mem_textChar mem).1
    · intro d mem
      rw [ends d mem]
      exact ⟨rfl, rfl⟩
  have noEnd : holds "]]>" (content.toList.flatMap Escape.textChar) = false := by
    cases found : holds "]]>" (content.toList.flatMap Escape.textChar) with
    | false => rfl
    | true =>
      obtain ⟨c, _, mem⟩ := List.mem_flatMap.1 (mem_of_holds (by decide : '>' ∈ "]]>".toList) found)
      exact absurd rfl (Escape.not_angle_of_mem_textChar mem).2
  refine ⟨(content.toList.flatMap Escape.textChar ++ rest).length, ?_⟩
  unfold text
  rw [Scan.bind_get, Scan.bind_of_ok read, noEnd]
  rfl

end Token

end Formwork.Markup
