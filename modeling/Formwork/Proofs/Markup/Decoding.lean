import Formwork.Proofs.Markup.Writing
import Mathlib.Data.List.Forall2
import Mathlib.Data.Nat.Digits.Defs

/-!
# Which references are decoded

A reference stands between `&` and `;`: one of five names, or the number of a character in decimal or
hexadecimal digits (`Means`).  A decoder that follows a language of references (`Follows`) accepts a text
exactly if every `&` begins one of them, replaces each by its character, and otherwise fails at the first
`&` that begins none.

Numbers are read with a plus sign in front, too (`Signed`), so `decode` follows the wider language.  It follows
the language of references as such exactly at the texts in which the first `&` that begins no reference
begins no signed one (`decode_follows`).
-/

namespace Formwork.Markup.Reference

set_option autoImplicit false

/-! ## Languages of references -/

/-- The digits, in the order of their values; letters may be written large. -/
def digits : List Char := "0123456789abcdef".toList

/-- A character is the digit with a value in a radix. -/
def IsDigit (radix : Nat) (c : Char) (value : Nat) : Prop := (digits.take radix)[value]? = some c.toLower

/-- One or more digits write a number. -/
def Numeral (radix : Nat) (cs : List Char) (n : Nat) : Prop :=
  cs ≠ [] ∧ ∃ values, List.Forall₂ (IsDigit radix) cs values ∧ n = Nat.ofDigits radix values.reverse

/-- The names of characters. -/
def names : List (String × Char) := [("amp", '&'), ("lt", '<'), ("gt", '>'), ("quot", '"'), ("apos", '\'')]

/-- What may stand between `&` and `;`, and the character that it means. -/
inductive Means : List Char → Char → Prop where
  | named {name : String} {c : Char} (listed : (name, c) ∈ names) : Means name.toList c
  | decimal {cs : List Char} {n : Nat} (written : Numeral 10 cs n) (scalar : n.isValidChar) :
      Means ('#' :: cs) (Char.ofNat n)
  | hexadecimal {cs : List Char} {n : Nat} (written : Numeral 16 cs n) (scalar : n.isValidChar) :
      Means ('#' :: 'x' :: cs) (Char.ofNat n)

/-- Numbers with a plus sign in front, which are no references. -/
inductive Signed : List Char → Char → Prop where
  | decimal {cs : List Char} {n : Nat} (written : Numeral 10 cs n) (scalar : n.isValidChar) :
      Signed ('#' :: '+' :: cs) (Char.ofNat n)
  | hexadecimal {cs : List Char} {n : Nat} (written : Numeral 16 cs n) (scalar : n.isValidChar) :
      Signed ('#' :: 'x' :: '+' :: cs) (Char.ofNat n)

/-- What `decode` takes for a reference. -/
def Taken (name : List Char) (c : Char) : Prop := Means name c ∨ Signed name c

/-- What is behind a `&` begins with a reference of a language. -/
def Begins (M : List Char → Char → Prop) (rest : List Char) : Prop :=
  ∃ name c after, M name c ∧ rest = name ++ ';' :: after

/-- A text with each reference replaced by its character, and everything else unchanged. -/
inductive Decodes (M : List Char → Char → Prop) : List Char → List Char → Prop where
  | nil : Decodes M [] []
  | plain {c : Char} {cs out : List Char} (ne : c ≠ '&') (later : Decodes M cs out) :
      Decodes M (c :: cs) (c :: out)
  | reference {name cs out : List Char} {c : Char} (means : M name c) (later : Decodes M cs out) :
      Decodes M ('&' :: name ++ ';' :: cs) (c :: out)

/-- The first `&` of a text that begins no reference stands between two parts of it. -/
structure FirstFault (M : List Char → Char → Prop) (text before rest : List Char) : Prop where
  split : text = before ++ '&' :: rest
  bad : ¬ Begins M rest
  first : ∀ earlier later, text = earlier ++ '&' :: later → earlier.length < before.length →
    Begins M later

/-- How many bytes a text has. -/
def byteLength (cs : List Char) : Nat := (cs.map Char.utf8Size).sum

/-- Where a fault lies in a text, in bytes. -/
def Fault.byteOffset (fault : Fault) (text : List Char) : Nat :=
  byteLength (text.take (text.length - fault.unread))

/-- A decoder that follows a language of references answers a text in this way. -/
structure Follows (M : List Char → Char → Prop) (text : List Char) (answer : Except Fault (List Char)) :
    Prop where
  succeeds_iff : (∃ out, answer = .ok out) ↔
    ∀ before rest, text = before ++ '&' :: rest → Begins M rest
  decodes : ∀ out, answer = .ok out → Decodes M text out
  fails : ∀ fault, answer = .error fault → ∃ before rest, FirstFault M text before rest ∧
    fault.byteOffset text = byteLength before ∧ fault.unread = rest.length + 1 ∧
      fault.name = String.ofList (rest.takeWhile (· ≠ ';'))

/-! ## Numbers -/

/-- Only ASCII characters are digits. -/
theorem IsDigit.ascii {radix : Nat} {c : Char} {value : Nat} (digit : IsDigit radix c value) :
    c.toNat < 128 ∧ value < 16 := by
  have listed : digits[value]? = some c.toLower := by
    unfold IsDigit at digit
    rw [List.getElem?_take] at digit
    exact (Option.ite_none_right_eq_some.1 digit).2
  have among : c.toLower.toNat < 128 := by
    have each : digits.all (·.toNat < 128) := by decide +kernel
    exact of_decide_eq_true (List.all_eq_true.1 each _ (List.mem_of_getElem? listed))
  refine ⟨?_, (List.getElem?_eq_some_iff.1 listed).1⟩
  by_contra large
  have same : c.toLower = c := by
    unfold Char.toLower
    rw [dif_neg]
    intro between
    exact large (Nat.lt_of_le_of_lt (UInt32.le_iff_toNat_le.1 between.2) (by decide))
  exact large (same ▸ among)

theorem ascii_of_digit? {radix : Nat} (known : radix = 10 ∨ radix = 16) {c : Char} {value : Nat}
    (digit : digit? radix c = some value) : c.toNat < 128 ∧ value < 16 := by
  unfold digit? at digit
  dsimp only at digit
  rw [Option.ite_none_right_eq_some, Option.some_inj] at digit
  obtain ⟨less, rfl⟩ := digit
  refine ⟨?_, Nat.lt_of_lt_of_le less (by omega)⟩
  have below {d : Char} (le : c ≤ d) (ascii : d.toNat < 128) : c.toNat < 128 :=
    Nat.lt_of_le_of_lt (UInt32.le_iff_toNat_le.1 le) ascii
  split at less
  · next figure => exact Nat.lt_of_le_of_lt (Char.isDigit_iff_toNat.1 figure).2 (by decide)
  · split at less
    · next small => exact below small.2 (by decide)
    · split at less
      · next large => exact below large.2 (by decide)
      · exact absurd less (Nat.lt_irrefl radix)

/-- A digit is recognized by its place among the digits. -/
theorem digit?_eq_some {radix : Nat} (known : radix = 10 ∨ radix = 16) {c : Char} {value : Nat} :
    digit? radix c = some value ↔ IsDigit radix c value := by
  have ascii : ∀ n < 128, ∀ radix ∈ [10, 16], ∀ value < 16,
      digit? radix (Char.ofNat n) = some value ↔
        (digits.take radix)[value]? = some (Char.ofNat n).toLower := by
    decide +kernel
  have here (small : c.toNat < 128 ∧ value < 16) :=
    ascii c.toNat small.1 radix (by simpa using known) value small.2
  rw [Char.ofNat_toNat] at here
  constructor
  · intro digit
    exact (here (ascii_of_digit? known digit)).1 digit
  · intro digit
    exact (here digit.ascii).2 digit

/-- The digits that are read raise the number read so far. -/
theorem foldlM_digit {radix : Nat} (known : radix = 10 ∨ radix = 16) (cs : List Char) (n total : Nat) :
    cs.foldlM (fun n c => (digit? radix c).map (n * radix + ·)) n = some total ↔
      ∃ values, List.Forall₂ (IsDigit radix) cs values ∧
        total = n * radix ^ values.length + Nat.ofDigits radix values.reverse := by
  induction cs generalizing n with
  | nil => simp [List.forall₂_nil_left_iff, eq_comm]
  | cons c cs ih =>
    have raised (value : Nat) (values : List Nat) :
        (n * radix + value) * radix ^ values.length + Nat.ofDigits radix values.reverse =
          n * radix ^ (value :: values).length + Nat.ofDigits radix (value :: values).reverse := by
      rw [List.reverse_cons, Nat.ofDigits_append, Nat.ofDigits_singleton, List.length_reverse,
        List.length_cons, pow_succ]
      ring
    simp only [List.foldlM_cons, Option.bind_eq_bind, Option.bind_eq_some_iff, Option.map_eq_some_iff,
      digit?_eq_some known]
    constructor
    · rintro ⟨_, ⟨value, digit, rfl⟩, later⟩
      obtain ⟨values, written, rfl⟩ := (ih _).1 later
      exact ⟨value :: values, .cons digit written, raised value values⟩
    · rintro ⟨_, written, rfl⟩
      cases written with
      | @cons _ value _ values digit written =>
        exact ⟨_, ⟨value, digit, rfl⟩, (ih _).2 ⟨values, written, (raised value values).symm⟩⟩

/-- Only digits are written in a number. -/
theorem Numeral.toLower_mem {radix n : Nat} {cs : List Char} (written : Numeral radix cs n) {c : Char}
    (mem : c ∈ cs) : c.toLower ∈ digits := by
  obtain ⟨-, values, all, -⟩ := written
  induction all with
  | nil => cases mem
  | cons digit _ ih =>
    rcases List.mem_cons.1 mem with rfl | later
    · exact List.mem_of_mem_take (List.mem_of_getElem? digit)
    · exact ih later

/-- **Numbers are read with or without a plus sign in front.** -/
theorem number?_eq_some {radix : Nat} (known : radix = 10 ∨ radix = 16) {cs : List Char} {n : Nat} :
    number? radix cs = some n ↔
      Numeral radix cs n ∨ ∃ unsigned, cs = '+' :: unsigned ∧ Numeral radix unsigned n := by
  have read (ds : List Char) :
      (if ds.isEmpty then none
        else ds.foldlM (fun n c => (digit? radix c).map (n * radix + ·)) 0) = some n ↔
        Numeral radix ds n := by
    unfold Numeral
    rw [Option.ite_none_left_eq_some, foldlM_digit known]
    simp
  unfold number?
  split
  · next unsigned =>
    rw [read]
    constructor
    · intro written
      exact .inr ⟨unsigned, rfl, written⟩
    · rintro (signed | ⟨_, same, written⟩)
      · exact absurd (signed.toLower_mem List.mem_cons_self) (by decide)
      · cases same
        exact written
  · next other =>
    rw [read]
    constructor
    · exact .inl
    · rintro (written | ⟨unsigned, same, _⟩)
      · exact written
      · exact absurd same (other unsigned)

theorem scalar?_eq_some {n : Nat} {c : Char} :
    scalar? n = some c ↔ n.isValidChar ∧ c = Char.ofNat n := by
  unfold scalar?
  rw [Option.ite_none_right_eq_some, Option.some_inj, eq_comm (b := c)]

/-! ## What stands between `&` and `;` -/

/-- **References and signed numbers are what is taken for a reference.** -/
theorem char?_eq_some {name : List Char} {c : Char} :
    char? name = some c ↔ Taken name c := by
  have ten : (10 : Nat) = 10 ∨ (10 : Nat) = 16 := .inl rfl
  have sixteen : (16 : Nat) = 10 ∨ (16 : Nat) = 16 := .inr rfl
  constructor
  · intro found
    unfold char? at found
    split at found
    · next hex =>
      obtain ⟨n, written, scalar⟩ := Option.bind_eq_some_iff.1 found
      obtain ⟨valid, rfl⟩ := scalar?_eq_some.1 scalar
      rcases (number?_eq_some sixteen).1 written with numeral | ⟨unsigned, rfl, numeral⟩
      · exact .inl (.hexadecimal numeral valid)
      · exact .inr (.hexadecimal numeral valid)
    · next decimal _ =>
      obtain ⟨n, written, scalar⟩ := Option.bind_eq_some_iff.1 found
      obtain ⟨valid, rfl⟩ := scalar?_eq_some.1 scalar
      rcases (number?_eq_some ten).1 written with numeral | ⟨unsigned, rfl, numeral⟩
      · exact .inl (.decimal numeral valid)
      · exact .inr (.decimal numeral valid)
    · left
      split_ifs at found with amp lt gt quot apos
      all_goals
        subst name
        obtain rfl := Option.some.inj found
        exact .named (by decide)
  · rintro (means | signed)
    · cases means with
      | named listed =>
        have each : ∀ pair ∈ names, char? pair.1.toList = some pair.2 := by decide
        exact each _ listed
      | @decimal cs n written scalar =>
        have read := (number?_eq_some ten).2 (.inl written)
        have no_x : ∀ hex, cs ≠ 'x' :: hex := by
          rintro hex rfl
          exact absurd (written.toLower_mem List.mem_cons_self) (by decide)
        simp [char?, read, scalar?, scalar]
      | hexadecimal written scalar =>
        have read := (number?_eq_some sixteen).2 (.inl written)
        simp [char?, read, scalar?, scalar]
    · cases signed with
      | decimal written scalar =>
        have read := (number?_eq_some ten).2 (.inr ⟨_, rfl, written⟩)
        simp [char?, read, scalar?, scalar]
      | hexadecimal written scalar =>
        have read := (number?_eq_some sixteen).2 (.inr ⟨_, rfl, written⟩)
        simp [char?, read, scalar?, scalar]

/-- Nothing that is taken for a reference holds `&` or `;`. -/
theorem Taken.not_mem {name : List Char} {c : Char} (taken : Taken name c) :
    '&' ∉ name ∧ ';' ∉ name := by
  have numeral {radix n : Nat} {cs : List Char} (written : Numeral radix cs n) : '&' ∉ cs ∧ ';' ∉ cs :=
    ⟨fun mem => absurd (written.toLower_mem mem) (by decide),
      fun mem => absurd (written.toLower_mem mem) (by decide)⟩
  rcases taken with means | signed
  · cases means with
    | named listed =>
      have each : ∀ pair ∈ names, '&' ∉ pair.1.toList ∧ ';' ∉ pair.1.toList := by decide
      exact each _ listed
    | decimal written _ => simpa using numeral written
    | hexadecimal written _ => simpa using numeral written
  · cases signed with
    | decimal written _ => simpa using numeral written
    | hexadecimal written _ => simpa using numeral written

/-! ## One reference -/

/-- What stands in front of `;` is collected. -/
theorem decodeFrom_name {name : List Char} (plain : ';' ∉ name) (unread : Nat) (read rest : List Char) :
    decodeFrom (some (unread, read)) (name ++ rest) =
      decodeFrom (some (unread, name.reverse ++ read)) rest := by
  induction name generalizing read with
  | nil => rfl
  | cons c name ih =>
    have ne : c ≠ ';' := fun same => plain (same ▸ List.mem_cons_self)
    have later : ';' ∉ name := fun mem => plain (List.mem_cons_of_mem c mem)
    rw [List.cons_append, decodeFrom, ih later]
    · simp
    · exact ne

/-- A reference is replaced by its character. -/
theorem decode_reference {name : List Char} {c : Char} (taken : Taken name c) (after : List Char) :
    decode ('&' :: (name ++ ';' :: after)) = (decode after).map (c :: ·) := by
  unfold decode
  rw [decodeFrom, decodeFrom_name taken.not_mem.2, List.append_nil, decodeFrom, List.reverse_reverse,
    char?_eq_some.2 taken]

theorem takeWhile_name {name : List Char} (plain : ';' ∉ name) (rest : List Char) :
    (name ++ rest).takeWhile (· ≠ ';') = name ++ rest.takeWhile (· ≠ ';') :=
  List.takeWhile_append_of_pos fun _ mem => decide_eq_true fun same => plain (same ▸ mem)

/-- Where no reference begins, decoding fails. -/
theorem decode_fault {rest : List Char} (bad : ¬ Begins Taken rest) :
    decode ('&' :: rest) =
      .error ⟨rest.length + 1, String.ofList (rest.takeWhile (· ≠ ';'))⟩ := by
  unfold decode
  rw [decodeFrom]
  by_cases closed : ';' ∈ rest
  · obtain ⟨name, after, rfl, plain⟩ := List.eq_append_cons_of_mem closed
    have unknown : char? name = none := by
      rw [Option.eq_none_iff_forall_not_mem]
      intro c found
      exact bad ⟨name, c, after, char?_eq_some.1 found, rfl⟩
    rw [decodeFrom_name plain, List.append_nil, decodeFrom, List.reverse_reverse, unknown,
      takeWhile_name plain]
    simp
  · have through := decodeFrom_name closed (rest.length + 1) [] []
    have taken := takeWhile_name closed []
    rw [List.append_nil, List.append_nil] at through
    rw [List.append_nil, List.takeWhile_nil, List.append_nil] at taken
    rw [through, decodeFrom, List.reverse_reverse, taken]

/-! ## Following a language -/

/-- A `&` in a text of two parts stands in the first or in the second. -/
theorem within_or_behind {front text earlier later : List Char}
    (split : front ++ text = earlier ++ '&' :: later) :
    earlier.length < front.length ∨ ∃ between, earlier = front ++ between ∧ text = between ++ '&' :: later := by
  rcases Nat.lt_or_ge earlier.length front.length with within | behind
  · exact .inl within
  · obtain ⟨between, rfl⟩ : front <+: earlier :=
      List.prefix_of_prefix_length_le ⟨text, rfl⟩ ⟨'&' :: later, split.symm⟩ behind
    rw [List.append_assoc] at split
    exact .inr ⟨between, rfl, List.append_cancel_left split⟩

/-- In a reference only the first character is a `&`. -/
theorem Taken.begins {name : List Char} {c : Char} (taken : Taken name c) {after earlier later : List Char}
    (split : '&' :: (name ++ ';' :: after) = earlier ++ '&' :: later)
    (within : earlier.length < name.length + 2) : Begins Taken later := by
  cases earlier with
  | nil => exact ⟨name, c, after, taken, (List.tail_eq_of_cons_eq split).symm⟩
  | cons d earlier =>
    have behind : name ++ ';' :: after = earlier ++ '&' :: later := List.tail_eq_of_cons_eq split
    have here : (name ++ [';'])[earlier.length]? = some '&' := by
      have at_ := congrArg (·[earlier.length]?) behind
      rw [List.append_cons, List.getElem?_append_left (by simpa using within)] at at_
      simpa using at_
    rcases List.mem_append.1 (List.mem_of_getElem? here) with inside | semicolon
    · exact absurd inside taken.not_mem.1
    · exact absurd semicolon (by decide)

namespace FirstFault

variable {M : List Char → Char → Prop} {text before rest : List Char}

/-- There is only one first fault. -/
theorem unique (fault : FirstFault M text before rest) {before' rest' : List Char}
    (fault' : FirstFault M text before' rest') : before = before' ∧ rest = rest' := by
  have length : before.length = before'.length := by
    rcases Nat.lt_trichotomy before.length before'.length with less | same | less
    · exact absurd (fault'.first _ _ fault.split less) fault.bad
    · exact same
    · exact absurd (fault.first _ _ fault'.split less) fault'.bad
  have parts := List.append_inj (fault.split.symm.trans fault'.split) length
  exact ⟨parts.1, List.tail_eq_of_cons_eq parts.2⟩

/-- Where some `&` begins no reference, there is a first one. -/
theorem exists_of_bad (split : text = before ++ '&' :: rest) (bad : ¬ Begins M rest) :
    ∃ before rest, FirstFault M text before rest := by
  induction length : before.length using Nat.strong_induction_on generalizing before rest with
  | _ n ih =>
    by_cases first : ∀ earlier later, text = earlier ++ '&' :: later →
        earlier.length < before.length → Begins M later
    · exact ⟨before, rest, split, bad, first⟩
    · push Not at first
      obtain ⟨earlier, later, split', less, bad'⟩ := first
      exact ih _ (length ▸ less) split' bad' rfl

/-- The first fault behind something in which every `&` begins a reference. -/
theorem prepend {front : List Char} (fault : FirstFault M text before rest)
    (good : ∀ earlier later, front ++ text = earlier ++ '&' :: later →
      earlier.length < front.length → Begins M later) :
    FirstFault M (front ++ text) (front ++ before) rest := by
  refine ⟨by rw [fault.split, List.append_assoc], fault.bad, ?_⟩
  intro earlier later split less
  rcases within_or_behind split with within | ⟨between, rfl, split'⟩
  · exact good earlier later split within
  · exact fault.first between later split' (by simpa using less)

end FirstFault

/-- A decoder gets through a text in which every `&` begins a reference, or it gets stuck at the first one
that does not. -/
inductive Outcome (M : List Char → Char → Prop) (text : List Char) : Except Fault (List Char) → Prop where
  | through {out : List Char} (decodes : Decodes M text out)
      (all : ∀ before rest, text = before ++ '&' :: rest → Begins M rest) : Outcome M text (.ok out)
  | stuck {before rest : List Char} (fault : FirstFault M text before rest) :
      Outcome M text (.error ⟨rest.length + 1, String.ofList (rest.takeWhile (· ≠ ';'))⟩)

namespace Outcome

variable {M : List Char → Char → Prop} {text : List Char} {answer : Except Fault (List Char)}

/-- What a decoder does is what following the language asks for. -/
theorem follows (outcome : Outcome M text answer) : Follows M text answer := by
  cases outcome with
  | @through out decodes all =>
    refine ⟨⟨fun _ => all, fun _ => ⟨out, rfl⟩⟩, ?_, nofun⟩
    rintro _ ⟨⟩
    exact decodes
  | @stuck before rest fault =>
    refine ⟨⟨nofun, fun all => absurd (all before rest fault.split) fault.bad⟩, nofun, ?_⟩
    rintro _ ⟨⟩
    refine ⟨before, rest, fault, ?_, rfl, rfl⟩
    rw [Fault.byteOffset, fault.split]
    simp

/-- One step writes a character for a part of the text in which every `&` begins a reference. -/
theorem prepend (front : List Char) (c : Char) (outcome : Outcome M text answer)
    (writes : ∀ out, Decodes M text out → Decodes M (front ++ text) (c :: out))
    (good : ∀ earlier later, front ++ text = earlier ++ '&' :: later →
      earlier.length < front.length → Begins M later) :
    Outcome M (front ++ text) (answer.map (c :: ·)) := by
  cases outcome with
  | @through out decodes all =>
    refine .through (writes out decodes) ?_
    intro before rest split
    rcases within_or_behind split with within | ⟨between, rfl, split'⟩
    · exact good before rest split within
    · exact all between rest split'
  | stuck fault => exact .stuck (fault.prepend good)

end Outcome

/-- **What decoding does.** -/
theorem decode_outcome (text : List Char) : Outcome Taken text (decode text) := by
  induction length : text.length using Nat.strong_induction_on generalizing text with
  | _ n ih =>
    cases text with
    | nil => exact .through .nil (by simp)
    | cons c cs =>
      by_cases ampersand : c = '&'
      · subst ampersand
        by_cases begins : Begins Taken cs
        · obtain ⟨name, c, after, taken, rfl⟩ := begins
          have shorter : after.length < n := by
            rw [← length]
            simp
            omega
          have step := (ih _ shorter after rfl).prepend ('&' :: (name ++ [';'])) c
          rw [decode_reference taken]
          simp only [List.cons_append, List.append_assoc, List.nil_append] at step
          refine step (fun _ => .reference taken) fun earlier later split within => ?_
          refine taken.begins split (Nat.lt_of_lt_of_eq within ?_)
          rw [List.length_cons, List.length_append, List.length_singleton]
        · rw [decode_fault begins]
          exact .stuck ⟨(List.nil_append _).symm, begins, fun _ _ _ => nofun⟩
      · have step := (ih _ (by simp [← length]) cs rfl).prepend [c] c
        unfold decode at step ⊢
        rw [decodeFrom_of_ne ampersand]
        refine step (fun _ => .plain ampersand) fun earlier later split within => ?_
        obtain rfl : earlier = [] := by simpa using within
        exact absurd (List.head_eq_of_cons_eq split) ampersand

/-- What is read in a language in which every `&` of the text begins something. -/
theorem Decodes.strict {text out : List Char} (decodes : Decodes Taken text out)
    (all : ∀ before rest, text = before ++ '&' :: rest → Begins Means rest) : Decodes Means text out := by
  induction decodes with
  | nil => exact .nil
  | @plain c cs _ ne _ ih =>
    exact .plain ne (ih fun before rest split => all (c :: before) rest (by rw [split]; rfl))
  | @reference name cs _ c taken _ ih =>
    obtain ⟨name', c', after, means, same⟩ := all [] (name ++ ';' :: cs) rfl
    have names : name = name' := by
      have cut := congrArg (List.takeWhile (· ≠ ';')) same
      rw [takeWhile_name taken.not_mem.2, takeWhile_name (Taken.not_mem (.inl means)).2] at cut
      simpa using cut
    subst names
    obtain rfl : c = c' :=
      Option.some.inj ((char?_eq_some.2 taken).symm.trans (char?_eq_some.2 (.inl means)))
    exact .reference means (ih fun before rest split =>
      all ('&' :: name ++ ';' :: before) rest (by rw [split]; simp))

theorem begins_taken {rest : List Char} :
    Begins Taken rest ↔ Begins Means rest ∨ Begins Signed rest := by
  constructor
  · rintro ⟨name, c, after, means | signed, split⟩
    · exact .inl ⟨name, c, after, means, split⟩
    · exact .inr ⟨name, c, after, signed, split⟩
  · rintro (⟨name, c, after, means, split⟩ | ⟨name, c, after, signed, split⟩)
    · exact ⟨name, c, after, .inl means, split⟩
    · exact ⟨name, c, after, .inr signed, split⟩

namespace FirstFault

variable {text before rest : List Char}

/-- Where no signed number stands, what begins no reference is not taken for one. -/
theorem wide (fault : FirstFault Means text before rest) (unsigned : ¬ Begins Signed rest) :
    FirstFault Taken text before rest := by
  refine ⟨fault.split, ?_, fun earlier later split less =>
    begins_taken.2 (.inl (fault.first earlier later split less))⟩
  intro taken
  exact (begins_taken.1 taken).elim fault.bad unsigned

/-- If no signed number stands at the first `&` that begins no reference, decoding gets stuck there. -/
theorem narrow (fault : FirstFault Taken text before rest)
    (unsigned : ∀ before rest, FirstFault Means text before rest → ¬ Begins Signed rest) :
    FirstFault Means text before rest := by
  have bad : ¬ Begins Means rest := fun means => fault.bad (begins_taken.2 (.inl means))
  obtain ⟨before', rest', fault'⟩ := exists_of_bad fault.split bad
  obtain ⟨rfl, rfl⟩ := fault.unique (fault'.wide (unsigned _ _ fault'))
  exact fault'

end FirstFault

namespace Outcome

variable {text before rest : List Char} {answer : Except Fault (List Char)}

/-- Where a signed number stands at the first `&` that begins no reference, the decoder gets on. -/
theorem unsigned (outcome : Outcome Taken text answer) (follows : Follows Means text answer)
    (fault : FirstFault Means text before rest) : ¬ Begins Signed rest := by
  intro signed
  cases outcome with
  | through decodes _ => exact fault.bad (follows.succeeds_iff.1 ⟨_, rfl⟩ before rest fault.split)
  | stuck stuck =>
    obtain ⟨before', rest', fault', _, unread, _⟩ := follows.fails _ rfl
    obtain ⟨rfl, rfl⟩ := fault.unique fault'
    obtain ⟨-, same⟩ := List.append_inj' (stuck.split.symm.trans fault.split) unread
    cases same
    exact stuck.bad (begins_taken.2 (.inr signed))

/-- Where none stands there, it does what a decoder of references does. -/
theorem narrow (outcome : Outcome Taken text answer)
    (unsigned : ∀ before rest, FirstFault Means text before rest → ¬ Begins Signed rest) :
    Outcome Means text answer := by
  cases outcome with
  | through decodes all =>
    have strict : ∀ before rest, text = before ++ '&' :: rest → Begins Means rest := by
      intro before rest split
      by_contra bad
      obtain ⟨before', rest', fault⟩ := FirstFault.exists_of_bad split bad
      exact (fault.wide (unsigned _ _ fault)).bad (all before' rest' fault.split)
    exact .through (decodes.strict strict) strict
  | stuck fault => exact .stuck (fault.narrow unsigned)

end Outcome

/-- **Decoding follows the language of references and signed numbers.**  It follows that of references
exactly at the texts in which no signed number stands at the first `&` that begins no reference. -/
theorem decode_follows (text : List Char) :
    Follows Taken text (decode text) ∧
      (Follows Means text (decode text) ↔
        ∀ before rest, FirstFault Means text before rest → ¬ Begins Signed rest) := by
  have outcome := decode_outcome text
  refine ⟨outcome.follows, ?_, ?_⟩
  · intro follows before rest fault
    exact outcome.unsigned follows fault
  · intro unsigned
    exact (outcome.narrow unsigned).follows

/-- A number with a plus sign is decoded, which the language of references does not allow. -/
theorem decode_signed : ¬ Follows Means "&#+65;".toList (decode "&#+65;".toList) := by
  intro follows
  have decoded : decode "&#+65;".toList = .ok ['A'] := by decide +kernel
  obtain ⟨name, c, after, means, split⟩ := follows.succeeds_iff.1 ⟨_, decoded⟩ [] "#+65;".toList rfl
  have named : "#+65".toList = name := by
    have cut := congrArg (List.takeWhile (· ≠ ';')) split
    rw [takeWhile_name (Taken.not_mem (.inl means)).2] at cut
    simpa using cut
  cases means with
  | named listed =>
    have other : ∀ pair ∈ names, "#+65".toList ≠ pair.1.toList := by decide
    exact other _ listed named
  | decimal written _ =>
    cases named
    exact absurd (written.toLower_mem List.mem_cons_self) (by decide)
  | hexadecimal written _ => cases named

end Formwork.Markup.Reference
