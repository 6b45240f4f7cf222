import Formwork.Field.Messages
import Formwork.Proofs.OrderedMap
import Mathlib.Data.List.Induction
import Mathlib.Data.List.TakeWhile

/-!
# What a text of messages says

A line says something unless it is blank or a comment.  Its key ends at a mark, and which mark that is
depends on an order among the marks (`Cuts`): in the order `byPlace` the first of space and tab ends the
key of a line without `=`, in the order `byKind` the first space does, and a tab only where there is no
space.  The messages of a text are those that the last line for each key says (`Built`).

Messages are read in the order `byKind`.  A line says something else in the order `byPlace` exactly if a
tab stands in front of its first space with more than blank characters between them (`Misjudged`).
-/

namespace Formwork

set_option autoImplicit false

/-! ## Trimming -/

namespace Text

/-- Trimming takes away blank characters at both ends. -/
theorem exists_trim (cs : List Char) : ∃ front back, cs = front ++ trim cs ++ back ∧
    (∀ c ∈ front, isBlank c = true) ∧ ∀ c ∈ back, isBlank c = true := by
  refine ⟨cs.takeWhile isBlank, ((cs.dropWhile isBlank).reverse.takeWhile isBlank).reverse, ?_, ?_, ?_⟩
  · unfold trim
    rw [List.append_assoc, ← List.reverse_append, List.takeWhile_append_dropWhile, List.reverse_reverse,
      List.takeWhile_append_dropWhile]
  · exact fun c mem => List.mem_takeWhile_imp mem
  · exact fun c mem => List.mem_takeWhile_imp (List.mem_reverse.1 mem)

theorem trim_of_blank_append {front : List Char} (blank : ∀ c ∈ front, isBlank c = true)
    (back : List Char) : trim (front ++ back) = trim back := by
  unfold trim
  rw [List.dropWhile_append_of_pos blank]

theorem trim_append_of_blank {back : List Char} (blank : ∀ c ∈ back, isBlank c = true)
    (front : List Char) : trim (front ++ back) = trim front := by
  unfold trim
  rw [List.dropWhile_append, List.dropWhile_eq_nil_iff.2 blank]
  split
  · next none_ =>
    rw [List.isEmpty_iff.1 none_]
  · rw [List.reverse_append,
      List.dropWhile_append_of_pos fun c mem => blank c (List.mem_reverse.1 mem)]

@[simp]
theorem trim_trim (cs : List Char) : trim (trim cs) = trim cs := by
  obtain ⟨front, back, split, blank, blank'⟩ := exists_trim cs
  calc trim (trim cs)
      = trim (front ++ trim cs ++ back) := by
        rw [trim_append_of_blank blank', trim_of_blank_append blank]
    _ = trim cs := by rw [← split]

/-- The characters that are not blank are the same after trimming. -/
theorem filter_trim (cs : List Char) : (trim cs).filter (!isBlank ·) = cs.filter (!isBlank ·) := by
  obtain ⟨front, back, split, blank, blank'⟩ := exists_trim cs
  have gone {part : List Char} (all : ∀ c ∈ part, isBlank c = true) :
      part.filter (!isBlank ·) = [] := by simpa using all
  calc (trim cs).filter (!isBlank ·)
      = (front ++ trim cs ++ back).filter (!isBlank ·) := by
        rw [List.filter_append, List.filter_append, gone blank, gone blank', List.nil_append,
          List.append_nil]
    _ = cs.filter (!isBlank ·) := by rw [← split]

end Text

namespace Messages

/-! ## Lines -/

/-- A newline and a carriage return end a line. -/
def endsLine (c : Char) : Bool := c = '\n' ∨ c = '\r'

theorem lines_eq (text : List Char) : lines text = text.splitOnP endsLine := by
  induction text with
  | nil => rfl
  | cons c cs ih =>
    rw [lines, ih, List.splitOnP_cons_eq_if_modifyHead]
    by_cases ends : c = '\n' ∨ c = '\r'
    · rw [if_pos ends, if_pos (by simpa [endsLine] using ends)]
    · rw [if_neg ends, if_neg (by simpa [endsLine] using ends)]
      cases split : cs.splitOnP endsLine with
      | nil => exact absurd split (List.splitOnP_ne_nil _ _)
      | cons line rest => rfl

/-! ## What one line says -/

/-- The first of some marks in a line stands between two parts of it. -/
def FirstOf (marks line front back : List Char) : Prop :=
  ∃ mark ∈ marks, line = front ++ mark :: back ∧ ∀ other ∈ marks, other ∉ front

/-- A line is cut at the first of the marks that come first in an order and occur in it at all.  Without
marks nothing is behind the cut. -/
inductive Cuts : List (List Char) → List Char → List Char → List Char → Prop where
  | whole (line : List Char) : Cuts [] line line []
  | here {marks line front back : List Char} {order : List (List Char)}
      (cut : FirstOf marks line front back) : Cuts (marks :: order) line front back
  | later {marks line front back : List Char} {order : List (List Char)}
      (absent : ∀ mark ∈ marks, mark ∉ line) (cut : Cuts order line front back) :
      Cuts (marks :: order) line front back

/-- An equals sign comes before space and tab, which count alike. -/
def byPlace : List (List Char) := [['='], [' ', '\t']]

/-- An equals sign comes before a space, and a space before a tab. -/
def byKind : List (List Char) := [['='], [' '], ['\t']]

/-- A blank line and a comment say nothing. -/
def Silent (line : List Char) : Prop := Text.trim line = [] ∨ (Text.trim line).head? = some '#'

/-- A line says a message for a key, in an order of the marks. -/
def Says (order : List (List Char)) (line : List Char) (key message : String) : Prop :=
  ¬ Silent line ∧ ∃ front back, Cuts order (Text.trim line) front back ∧
    key = String.ofList (Text.trim front) ∧ message = String.ofList (Text.trim back)

/-- The last of some lines that says anything for a key says a message for it. -/
def LastSays (order : List (List Char)) (lines : List (List Char)) (key message : String) : Prop :=
  ∃ before line after, lines = before ++ line :: after ∧ Says order line key message ∧
    ∀ later ∈ after, ∀ other, ¬ Says order later key other

/-- Messages are those of a text. -/
def Built (order : List (List Char)) (text : String) (messages : Messages) : Prop :=
  ∀ key message, messages.get? key = some message ↔
    LastSays order (text.toList.splitOnP endsLine) key message

/-- A tab stands in front of the first space of a line without `=`. -/
structure TabFirst (line key middle rest : List Char) : Prop where
  split : line = key ++ '\t' :: (middle ++ ' ' :: rest)
  no_equals : '=' ∉ line
  key_plain : ' ' ∉ key ∧ '\t' ∉ key
  middle_plain : ' ' ∉ middle

/-- A tab stands in front of the first space of a line without `=`, and more than blank characters between
the two. -/
def Misjudged (line : List Char) : Prop :=
  ¬ Silent line ∧ ∃ key middle rest, TabFirst (Text.trim line) key middle rest ∧
    ∃ c ∈ middle, Text.isBlank c = false

/-! ## Cutting a line -/

theorem firstOf_singleton {mark : Char} {line front back : List Char} :
    FirstOf [mark] line front back ↔ line = front ++ mark :: back ∧ mark ∉ front := by
  simp [FirstOf]

theorem FirstOf.unique {marks line front back front' back' : List Char}
    (cut : FirstOf marks line front back) (cut' : FirstOf marks line front' back') :
    front = front' ∧ back = back' := by
  have taken {mark : Char} (mem : mark ∈ marks) {front back : List Char}
      (before : ∀ other ∈ marks, other ∉ front) :
      (front ++ mark :: back).takeWhile (· ∉ marks) = front := by
    have plain : ∀ c ∈ front, decide (c ∉ marks) = true :=
      fun c inside => decide_eq_true fun among => before c among inside
    rw [List.takeWhile_append_of_pos plain]
    simp [mem]
  obtain ⟨mark, mem, rfl, before⟩ := cut
  obtain ⟨mark', mem', split, before'⟩ := cut'
  have fronts : front = front' := by rw [← taken mem before, split, taken mem' before']
  subst fronts
  exact ⟨rfl, List.tail_eq_of_cons_eq (List.append_cancel_left split)⟩

/-- A line is cut in one way. -/
theorem Cuts.unique {order : List (List Char)} {line front back front' back' : List Char}
    (cuts : Cuts order line front back) (cuts' : Cuts order line front' back') :
    front = front' ∧ back = back' := by
  have present {marks line front back : List Char} (cut : FirstOf marks line front back)
      (absent : ∀ mark ∈ marks, mark ∉ line) : False := by
    obtain ⟨mark, mem, rfl, _⟩ := cut
    exact absent mark mem (by simp)
  induction cuts with
  | whole line =>
    cases cuts'
    exact ⟨rfl, rfl⟩
  | here cut =>
    cases cuts' with
    | here cut' => exact cut.unique cut'
    | later absent _ => exact (present cut absent).elim
  | later absent _ ih =>
    cases cuts' with
    | here cut' => exact (present cut' absent).elim
    | later _ cuts' => exact ih cuts'

/-- A line is cut at a mark unless it does not have it. -/
theorem cutAt?_cases (mark : Char) (line : List Char) :
    (∃ front back, cutAt? mark line = some (front, back) ∧ FirstOf [mark] line front back) ∨
      cutAt? mark line = none ∧ ∀ other ∈ [mark], other ∉ line := by
  unfold cutAt?
  by_cases present : mark ∈ line
  · rw [if_pos present]
    obtain ⟨front, back, rfl, before⟩ := List.eq_append_cons_of_mem present
    have pos : ∀ c ∈ front, decide (c ≠ mark) = true :=
      fun c mem => decide_eq_true fun same => before (same ▸ mem)
    refine .inl ⟨front, back, ?_, firstOf_singleton.2 ⟨rfl, before⟩⟩
    rw [List.takeWhile_append_of_pos pos, List.dropWhile_append_of_pos pos]
    simp
  · rw [if_neg present]
    exact .inr ⟨rfl, by simpa using present⟩

/-- A trimmed line is cut at an equals sign, else at a space, else at a tab. -/
theorem entry_cuts {line : List Char} (trimmed : Text.trim line = line) :
    ∃ front back, Cuts byKind line front back ∧
      entry line = (String.ofList (Text.trim front), String.ofList (Text.trim back)) := by
  unfold entry
  rcases cutAt?_cases '=' line with ⟨front, back, found, cut⟩ | ⟨missed, no_equals⟩
  · exact ⟨front, back, .here cut, by simp [found]⟩
  rcases cutAt?_cases ' ' line with ⟨front, back, found, cut⟩ | ⟨missed', no_space⟩
  · exact ⟨front, back, .later no_equals (.here cut), by simp [missed, found]⟩
  rcases cutAt?_cases '\t' line with ⟨front, back, found, cut⟩ | ⟨missed'', no_tab⟩
  · exact ⟨front, back, .later no_equals (.later no_space (.here cut)), by simp [missed, missed', found]⟩
  · refine ⟨line, [], .later no_equals (.later no_space (.later no_tab (.whole line))), ?_⟩
    have nothing : Text.trim [] = [] := rfl
    simp [missed, missed', missed'', trimmed, nothing]

/-- **A line is read in the order `byKind`.** -/
theorem entry?_eq_some {line : List Char} {key message : String} :
    entry? line = some (key, message) ↔ Says byKind line key message := by
  obtain ⟨front, back, cuts, entry_eq⟩ := entry_cuts (Text.trim_trim line)
  unfold entry?
  rw [Option.ite_none_left_eq_some, List.isEmpty_iff, entry_eq, Option.some_inj, Prod.mk.injEq]
  constructor
  · rintro ⟨loud, rfl, rfl⟩
    exact ⟨loud, front, back, cuts, rfl, rfl⟩
  · rintro ⟨loud, front', back', cuts', rfl, rfl⟩
    obtain ⟨rfl, rfl⟩ := cuts.unique cuts'
    exact ⟨loud, rfl, rfl⟩

/-! ## The last line for a key -/

theorem lastSays_concat {order : List (List Char)} {lines : List (List Char)} {line : List Char}
    {key message : String} :
    LastSays order (lines ++ [line]) key message ↔ Says order line key message ∨
      (∀ other, ¬ Says order line key other) ∧ LastSays order lines key message := by
  constructor
  · rintro ⟨before, said, after, split, told, last⟩
    rcases List.eq_nil_or_concat after with rfl | ⟨after, final, rfl⟩
    · obtain ⟨rfl, same⟩ := List.append_inj' split rfl
      cases same
      exact .inl told
    · rw [List.concat_eq_append, ← List.cons_append, ← List.append_assoc] at split
      obtain ⟨rfl, same⟩ := List.append_inj' split rfl
      cases same
      refine .inr ⟨last line (by simp), before, said, after, rfl, told, fun later mem => last later ?_⟩
      simp [mem]
  · rintro (told | ⟨silent, before, said, after, rfl, told, last⟩)
    · exact ⟨lines, line, [], rfl, told, nofun⟩
    · refine ⟨before, said, after ++ [line], by simp, told, ?_⟩
      intro later mem
      rcases List.mem_append.1 mem with among | final
      · exact last later among
      · exact List.mem_singleton.1 final ▸ silent

/-- Messages that are collected line by line are those of the last lines. -/
theorem get?_collected (lines : List (List Char)) (key message : String) :
    (OrderedMap.ofList (lines.filterMap entry?)).get? key = some message ↔
      LastSays byKind lines key message := by
  induction lines using List.reverseRecOn with
  | nil =>
    constructor
    · nofun
    · rintro ⟨before, line, after, split, _⟩
      exact absurd split (by simp)
  | append_singleton lines line ih =>
    have silent {k : String} : (∀ other, ¬ Says byKind line k other) ↔ ∀ other, entry? line ≠ some (k, other) :=
      forall_congr' fun _ => not_congr entry?_eq_some.symm
    rw [lastSays_concat, ← ih, ← entry?_eq_some, silent, List.filterMap_append]
    cases told : entry? line with
    | none => simp [told]
    | some entry =>
      obtain ⟨k, other⟩ := entry
      have stored : OrderedMap.ofList (lines.filterMap entry? ++ [(k, other)]) =
          (OrderedMap.ofList (lines.filterMap entry?)).insert k other := by
        simp [OrderedMap.ofList]
      rw [List.filterMap_cons_some told, List.filterMap_nil, stored, OrderedMap.get?_insert]
      by_cases same : k = key
      · subst same
        simp
      · simp [same]

/-! ## The two orders -/

namespace TabFirst

variable {line key middle rest : List Char}

theorem byKind (tab : TabFirst line key middle rest) : Cuts byKind line (key ++ '\t' :: middle) rest := by
  refine .later (by simpa using tab.no_equals) (.here (firstOf_singleton.2 ⟨by simp [tab.split], ?_⟩))
  simp [tab.key_plain, tab.middle_plain]

theorem byPlace (tab : TabFirst line key middle rest) :
    Cuts byPlace line key (middle ++ ' ' :: rest) := by
  refine .later (by simpa using tab.no_equals) (.here ⟨'\t', by simp, tab.split, ?_⟩)
  simpa using tab.key_plain

end TabFirst

/-- The orders cut a line in one way unless a tab stands in front of its first space. -/
theorem cuts_cases (line : List Char) :
    (∃ front back, Cuts byKind line front back ∧ Cuts byPlace line front back) ∨
      ∃ key middle rest, TabFirst line key middle rest := by
  rcases cutAt?_cases '=' line with ⟨front, back, -, cut⟩ | ⟨-, no_equals⟩
  · exact .inl ⟨front, back, .here cut, .here cut⟩
  rcases cutAt?_cases ' ' line with ⟨front, rest, -, cut⟩ | ⟨-, no_space⟩
  · have ⟨split, before⟩ := firstOf_singleton.1 cut
    rcases cutAt?_cases '\t' front with ⟨key, middle, -, cut'⟩ | ⟨-, no_tab⟩
    · obtain ⟨rfl, no_tab⟩ := firstOf_singleton.1 cut'
      simp only [List.mem_append, List.mem_cons, not_or] at before
      exact .inr ⟨key, middle, rest, by simp [split], by simpa using no_equals, ⟨before.1, no_tab⟩,
        before.2.2⟩
    · refine .inl ⟨front, rest, .later no_equals (.here cut), .later no_equals (.here ⟨' ', by simp, split, ?_⟩)⟩
      simpa using And.intro before (no_tab '\t' (by simp))
  · rcases cutAt?_cases '\t' line with ⟨front, back, -, cut⟩ | ⟨-, no_tab⟩
    · have ⟨split, before⟩ := firstOf_singleton.1 cut
      have no_space' : ' ' ∉ front := fun mem => no_space ' ' (by simp) (by simp [split, mem])
      refine .inl ⟨front, back, .later no_equals (.later no_space (.here cut)),
        .later no_equals (.here ⟨'\t', by simp, split, ?_⟩)⟩
      simpa using And.intro no_space' before
    · refine .inl ⟨line, [], .later no_equals (.later no_space (.later no_tab (.whole line))),
        .later no_equals (.later ?_ (.whole line))⟩
      simpa using And.intro (no_space ' ' (by simp)) (no_tab '\t' (by simp))

theorem says_iff {order : List (List Char)} {line front back : List Char} (loud : ¬ Silent line)
    (cuts : Cuts order (Text.trim line) front back) {key message : String} :
    Says order line key message ↔
      key = String.ofList (Text.trim front) ∧ message = String.ofList (Text.trim back) := by
  constructor
  · rintro ⟨_, front', back', cuts', rfl, rfl⟩
    obtain ⟨rfl, rfl⟩ := cuts.unique cuts'
    exact ⟨rfl, rfl⟩
  · rintro ⟨rfl, rfl⟩
    exact ⟨loud, front, back, cuts, rfl, rfl⟩

/-- **A misjudged line says something else** in the order `byPlace`. -/
theorem Misjudged.not_says {line : List Char} (misjudged : Misjudged line) :
    ¬ ∀ key message, Says byKind line key message ↔ Says byPlace line key message := by
  obtain ⟨loud, key, middle, rest, tab, c, mem, solid⟩ := misjudged
  intro same
  have placed := (same _ _).1 ((says_iff loud tab.byKind).2 ⟨rfl, rfl⟩)
  obtain ⟨keys, -⟩ := (says_iff loud tab.byPlace).1 placed
  have solids : (key ++ '\t' :: middle).filter (!Text.isBlank ·) = key.filter (!Text.isBlank ·) := by
    rw [← Text.filter_trim, ← Text.filter_trim key, String.ofList_inj.1 keys]
  rw [List.filter_append, List.append_right_eq_self, List.filter_eq_nil_iff] at solids
  exact solids c (by simp [mem]) (by simp [solid])

/-- Every other line says the same in both orders. -/
theorem says_byKind_iff {line : List Char} (judged : ¬ Misjudged line) {key message : String} :
    Says byKind line key message ↔ Says byPlace line key message := by
  by_cases loud : Silent line
  · exact ⟨fun told => absurd loud told.1, fun told => absurd loud told.1⟩
  rcases cuts_cases (Text.trim line) with ⟨front, back, kind, place⟩ | ⟨front, middle, rest, tab⟩
  · rw [says_iff loud kind, says_iff loud place]
  · have blank : ∀ c ∈ middle, Text.isBlank c = true := by
      intro c mem
      by_contra solid
      exact judged ⟨loud, front, middle, rest, tab, c, mem, eq_false_of_ne_true solid⟩
    have blank_front : ∀ c ∈ '\t' :: middle, Text.isBlank c = true :=
      List.forall_mem_cons.2 ⟨rfl, blank⟩
    have blank_back : ∀ c ∈ middle ++ [' '], Text.isBlank c = true :=
      List.forall_mem_append.2 ⟨blank, by simp [Text.isBlank]⟩
    rw [says_iff loud tab.byKind, says_iff loud tab.byPlace, Text.trim_append_of_blank blank_front,
      List.append_cons, Text.trim_of_blank_append blank_back]

theorem lastSays_congr {order order' : List (List Char)} {lines : List (List Char)}
    (same : ∀ line ∈ lines, ∀ key message, Says order line key message ↔ Says order' line key message)
    {key message : String} : LastSays order lines key message ↔ LastSays order' lines key message := by
  induction lines using List.reverseRecOn with
  | nil => simp [LastSays]
  | append_singleton lines line ih =>
    have final := same line (by simp)
    rw [lastSays_concat, lastSays_concat, final key message, ih fun line mem => same line (by simp [mem])]
    simp only [final]

/-- **Messages are read in the order `byKind`.**  Where no line is misjudged they are those in the order
`byPlace`, too, and the misjudged lines are exactly those that say something else in this order. -/
theorem parse_built (text : String) :
    Built byKind text (parse text) ∧
      ((∀ line ∈ text.toList.splitOnP endsLine, ¬ Misjudged line) → Built byPlace text (parse text)) ∧
        ∀ line, Misjudged line ↔
          ¬ ∀ key message, Says byKind line key message ↔ Says byPlace line key message := by
  have built : Built byKind text (parse text) := by
    intro key message
    rw [parse, get?_collected, lines_eq]
  refine ⟨built, ?_, ?_⟩
  · intro judged key message
    rw [built key message]
    exact lastSays_congr fun line mem _ _ => says_byKind_iff (judged line mem)
  · intro line
    constructor
    · exact Misjudged.not_says
    · intro differs
      by_contra judged
      exact differs fun _ _ => says_byKind_iff judged

/-- A tab in front of a space does not end the key. -/
theorem not_built_byPlace : ¬ Built byPlace "k\tv w" (parse "k\tv w") := by
  intro built
  have missing : (parse "k\tv w").get? "k" = none := by decide +kernel
  have loud : ¬ Silent "k\tv w".toList := by
    unfold Silent
    decide +kernel
  have tab : TabFirst (Text.trim "k\tv w".toList) ['k'] ['v'] ['w'] :=
    ⟨by decide +kernel, by decide +kernel, by decide +kernel, by decide +kernel⟩
  have told : Says byPlace "k\tv w".toList "k" "v w" :=
    (says_iff loud tab.byPlace).2 ⟨by decide +kernel, by decide +kernel⟩
  have last : LastSays byPlace ("k\tv w".toList.splitOnP endsLine) "k" "v w" :=
    ⟨[], "k\tv w".toList, [], by decide +kernel, told, nofun⟩
  rw [(built _ _).2 last] at missing
  cases missing

end Messages

end Formwork
