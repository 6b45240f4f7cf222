import Mathlib.Data.List.DropRight
import Formwork.Text.Position
import Formwork.Proofs.Markup.Decoding

/-!
# Positions and places

A position is a line and a column.  The line of a place in a text is one more than the line ends before
it, and its column is one more than the characters behind the last of these (`Position.after_line`,
`Position.after_column`).  Every character that is passed makes the position greater, in the order of
lines and then columns, so a position tells its place: over the boundaries of the characters of a text,
positions grow strictly with byte offsets (`Position.ofByteOffset_lt`).
-/

namespace Formwork.Position

set_option autoImplicit false

open Markup.Reference (byteLength)

/-! ## The order of positions -/

/-- Positions are ordered by their lines, and within a line by their columns. -/
instance : LT Position := ⟨fun p q => p.line < q.line ∨ p.line = q.line ∧ p.column < q.column⟩

theorem lt_iff {p q : Position} :
    p < q ↔ p.line < q.line ∨ p.line = q.line ∧ p.column < q.column := Iff.rfl

instance (p q : Position) : Decidable (p < q) := decidable_of_iff' _ lt_iff

theorem lt_irrefl (p : Position) : ¬ p < p := by
  rw [lt_iff]
  omega

theorem lt_trans {p q r : Position} (less : p < q) (less' : q < r) : p < r := by
  rw [lt_iff] at *
  omega

/-! ## Passing characters -/

theorem lt_step (p : Position) (c : Char) : p < p.step c := by
  unfold step
  split
  · exact .inl (Nat.lt_succ_self _)
  · exact .inr ⟨rfl, Nat.lt_succ_self _⟩

theorem lt_foldl_step (p : Position) {passed : List Char} (some_ : passed ≠ []) :
    p < passed.foldl step p := by
  induction passed generalizing p with
  | nil => exact absurd rfl some_
  | cons c passed ih =>
    rw [List.foldl_cons]
    by_cases last : passed = []
    · subst last
      exact lt_step p c
    · exact lt_trans (lt_step p c) (ih _ last)

theorem after_append (before passed : List Char) :
    after (before ++ passed) = passed.foldl step (after before) := List.foldl_append

/-- The position behind more of a text is greater. -/
theorem after_lt_after (before : List Char) {passed : List Char} (some_ : passed ≠ []) :
    after before < after (before ++ passed) := by
  rw [after_append]
  exact lt_foldl_step _ some_

theorem after_concat (before : List Char) (c : Char) :
    after (before ++ [c]) = (after before).step c := after_append before [c]

/-- The line is one more than the line ends before the place. -/
theorem after_line (before : List Char) : (after before).line = before.count '\n' + 1 := by
  induction before using List.reverseRecOn with
  | nil => rfl
  | append_singleton before c ih =>
    rw [after_concat, step, List.count_append, List.count_singleton]
    by_cases ends : c = '\n'
    · simp [ends, ih]
    · simp [ends, ih]

/-- The column is one more than the characters behind the last line end before the place. -/
theorem after_column (before : List Char) :
    (after before).column = (before.rtakeWhile (· ≠ '\n')).length + 1 := by
  induction before using List.reverseRecOn with
  | nil => rfl
  | append_singleton before c ih =>
    rw [after_concat, step]
    by_cases ends : c = '\n'
    · simp [ends]
    · rw [List.rtakeWhile_concat_pos _ _ _ (by simpa using ends)]
      simp [ends, ih]

/-! ## Places in a source -/

/-- A place is found by the characters behind it. -/
theorem ofUnread_append (before rest : List Char) :
    ofUnread (before ++ rest) rest.length = after before := by
  simp [ofUnread]

theorem charsBefore_zero (rest : List Char) : charsBefore 0 rest = [] := by
  cases rest with
  | nil => rfl
  | cons c rest => exact if_pos c.utf8Size_pos

theorem charsBefore_byteLength (before rest : List Char) :
    charsBefore (byteLength before) (before ++ rest) = before := by
  induction before with
  | nil => exact charsBefore_zero rest
  | cons c before ih =>
    have size : byteLength (c :: before) = c.utf8Size + byteLength before := by simp [byteLength]
    rw [List.cons_append, charsBefore, if_neg (by omega), size, Nat.add_sub_cancel_left, ih]

/-- A place is found by the bytes before it. -/
theorem ofByteOffset_byteLength {text : String} {before rest : List Char}
    (split : text.toList = before ++ rest) : ofByteOffset text (byteLength before) = after before := by
  rw [ofByteOffset, split, charsBefore_byteLength]

/-- A position is that of the place between two parts of a text: its line is one more than the line ends
before the place, and its column one more than the characters behind the last of these. -/
structure IsBetween (p : Position) (text : String) (before rest : List Char) : Prop where
  split : text.toList = before ++ rest
  line : p.line = before.count '\n' + 1
  column : p.column = (before.rtakeWhile (· ≠ '\n')).length + 1
  offset : p = ofByteOffset text (byteLength before)

theorem isBetween_ofUnread {text : String} {before rest : List Char}
    (split : text.toList = before ++ rest) :
    (ofUnread text.toList rest.length).IsBetween text before rest := by
  have here : ofUnread text.toList rest.length = after before := by rw [split, ofUnread_append]
  rw [here]
  exact ⟨split, after_line before, after_column before, (ofByteOffset_byteLength split).symm⟩

/-- A byte offset between two characters of a text, at its beginning or at its end. -/
def IsBoundary (text : String) (offset : Nat) : Prop :=
  ∃ before rest, text.toList = before ++ rest ∧ offset = byteLength before

theorem byteLength_append (front back : List Char) :
    byteLength (front ++ back) = byteLength front + byteLength back := by
  simp [byteLength]

/-- **Positions grow strictly** with the byte offsets of the boundaries of a text. -/
theorem ofByteOffset_lt {text : String} {offset offset' : Nat} (boundary : IsBoundary text offset)
    (boundary' : IsBoundary text offset') (less : offset < offset') :
    ofByteOffset text offset < ofByteOffset text offset' := by
  obtain ⟨before, rest, split, rfl⟩ := boundary
  obtain ⟨before', rest', split', rfl⟩ := boundary'
  rw [ofByteOffset_byteLength split, ofByteOffset_byteLength split']
  rcases List.append_eq_append_iff.1 (split.symm.trans split') with ⟨passed, rfl, _⟩ | ⟨passed, rfl, _⟩
  · apply after_lt_after
    rintro rfl
    rw [List.append_nil] at less
    exact Nat.lt_irrefl _ less
  · rw [byteLength_append] at less
    omega

/-- So a position tells the boundary. -/
theorem eq_of_ofByteOffset_eq {text : String} {offset offset' : Nat}
    (boundary : IsBoundary text offset) (boundary' : IsBoundary text offset')
    (same : ofByteOffset text offset = ofByteOffset text offset') : offset = offset' := by
  rcases Nat.lt_trichotomy offset offset' with less | equal | less
  · exact absurd (same ▸ ofByteOffset_lt boundary boundary' less) (lt_irrefl _)
  · exact equal
  · exact absurd (same ▸ ofByteOffset_lt boundary' boundary less) (lt_irrefl _)

end Formwork.Position
