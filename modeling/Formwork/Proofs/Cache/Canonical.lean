import Mathlib.Data.List.Induction
import Formwork.Cache.Basic

/-!
# The canonical form of cache contents

However its static text was cut, the same content gives the same cache.  This module says what
that cache is without growing anything: `merged` reads a list of contributions from its end and
joins every text with the text behind it, and `glue` puts merged contributions behind the items
that a composite holds already.

**Growing.**  Adding contributions one after the other with `appendItem` gives the glued list
(`foldl_appendItem`), so nothing depends on where the text was cut.

**Form.**  What extends a composite without empty and adjacent texts brings in none
(`Composite.Canonical.extended`).

**Measures.**  The text of an extended composite is read in order (`Composite.text_extended`), and
its depth is the greater one of both parts (`Composite.depth_extended`).
-/

namespace Formwork.Cache

set_option autoImplicit false

variable {α : Type}

/-! ## Merging -/

/-- Text in front of merged items: nothing for the empty text, and no new item before a text. -/
def consText (run : String) : List (Item α) → List (Item α)
  | .text after :: items => .text (run ++ after) :: items
  | items => if run = "" then items else .text run :: items

/-- Contributions with adjacent texts joined and empty ones dropped. -/
def merged : List (Item α) → List (Item α)
  | [] => []
  | .text run :: items => consText run (merged items)
  | .composite payload inner :: items => .composite payload inner :: merged items

/-- Items behind items; a text at the seam is joined with the text before it. -/
def glue : List (Item α) → List (Item α) → List (Item α)
  | [], items => items
  | [.text before], .text after :: items => .text (before ++ after) :: items
  | item :: before, items => item :: glue before items

@[simp]
theorem consText_empty (items : List (Item α)) : consText "" items = items := by
  cases items with
  | nil => rfl
  | cons item items =>
    cases item with
    | text run => simp [consText]
    | composite payload inner => rfl

theorem consText_consText (run after : String) (items : List (Item α)) :
    consText run (consText after items) = consText (run ++ after) items := by
  have joined : ∀ items : List (Item α), (∀ last rest, items ≠ .text last :: rest) →
      consText run (if after = "" then items else .text after :: items) =
        if run ++ after = "" then items else .text (run ++ after) :: items := by
    intro items open_
    by_cases none : after = ""
    · subst none
      rw [if_pos rfl, String.append_empty]
      cases items with
      | nil => rfl
      | cons item rest =>
        cases item with
        | text last => exact absurd rfl (open_ last rest)
        | composite payload inner => rfl
    · rw [if_neg none, if_neg fun eq => none (String.append_eq_empty_iff.1 eq).2]
      rfl
  cases items with
  | nil => exact joined [] nofun
  | cons item items =>
    cases item with
    | text last => simp [consText, String.append_assoc]
    | composite payload inner => exact joined _ nofun

@[simp]
theorem glue_nil (items : List (Item α)) : glue items [] = items := by
  induction items with
  | nil => rfl
  | cons item items ih =>
    cases items with
    | nil => cases item <;> rfl
    | cons next items => simp only [glue, ih]

@[simp]
theorem glue_composite_cons (payload : α) (inner before items : List (Item α)) :
    glue (.composite payload inner :: before) items =
      .composite payload inner :: glue before items := by
  cases before <;> rfl

@[simp]
theorem glue_cons_cons (item next : Item α) (before items : List (Item α)) :
    glue (item :: next :: before) items = item :: glue (next :: before) items := by
  cases item <;> rfl

theorem glue_text_consText (before run : String) (items : List (Item α)) :
    glue [.text before] (consText run items) = glue [.text (before ++ run)] items := by
  cases items with
  | nil =>
    by_cases none : run = ""
    · simp [none]
    · simp [consText, none, glue]
  | cons item items =>
    cases item with
    | text after => simp [consText, glue, String.append_assoc]
    | composite payload inner =>
      by_cases none : run = ""
      · simp [none]
      · simp [consText, none, glue]

/-! ## Growing -/

theorem glue_appendText (items : List (Item α)) (run : String) (more : List (Item α)) :
    glue (appendText items run) more = glue items (consText run more) := by
  induction items with
  | nil =>
    cases more with
    | nil =>
      by_cases none : run = ""
      · simp [appendText, none]
      · simp [appendText, consText, none, glue]
    | cons item more =>
      by_cases none : run = ""
      · simp [appendText, none, glue]
      · cases item <;> simp [appendText, consText, none, glue]
  | cons item items ih =>
    cases items with
    | nil =>
      cases item with
      | text before => rw [appendText, glue_text_consText]
      | composite payload inner =>
        rw [appendText, glue_composite_cons, glue_composite_cons, ih]
        simp
    | cons next items =>
      have grown : appendText (item :: next :: items) run =
          item :: appendText (next :: items) run := by cases item <;> rfl
      obtain ⟨first, rest, split⟩ : ∃ first rest,
          appendText (next :: items) run = first :: rest := by
        cases next <;> cases items <;> exact ⟨_, _, rfl⟩
      rw [grown, glue_cons_cons, ← ih, split, glue_cons_cons]

theorem glue_append_composite (items more : List (Item α)) (payload : α)
    (inner : List (Item α)) :
    glue (items ++ [.composite payload inner]) more =
      glue items (.composite payload inner :: more) := by
  induction items with
  | nil => rw [List.nil_append, glue_composite_cons]; rfl
  | cons item items ih =>
    cases items with
    | nil => cases item <;> simp [glue]
    | cons next items =>
      rw [List.cons_append, List.cons_append, glue_cons_cons, glue_cons_cons, ← List.cons_append, ih]

/-- **Contributions added one after the other** are the merged contributions behind what was
there. -/
theorem foldl_appendItem (raw items : List (Item α)) :
    raw.foldl appendItem items = glue items (merged raw) := by
  induction raw generalizing items with
  | nil => simp [merged]
  | cons item raw ih =>
    rw [List.foldl_cons, ih]
    cases item with
    | text run => exact glue_appendText items run (merged raw)
    | composite payload inner => exact glue_append_composite items (merged raw) payload inner

/-- A composite with contributions behind its content, in canonical form. -/
def Composite.extended (c : Composite α) (raw : List (Item α)) : Composite α :=
  { c with items := glue c.items (merged raw) }

@[simp]
theorem Composite.extended_nil (c : Composite α) : c.extended [] = c := by
  simp [Composite.extended, merged]

theorem Composite.extended_append (c : Composite α) (raw more : List (Item α)) :
    c.extended (raw ++ more) = (c.extended raw).extended more := by
  simp only [Composite.extended, ← foldl_appendItem, List.foldl_append]

theorem Composite.push_eq (c : Composite α) (item : Item α) : c.push item = c.extended [item] := by
  simp [Composite.extended, Composite.push, ← foldl_appendItem]

theorem Composite.pushText_eq (c : Composite α) (run : String) :
    c.pushText run = c.extended [.text run] := c.push_eq (.text run)

/-! ## Form -/

/-- Whether an item may stand before items: no text before a text. -/
def Item.parts : Item α → List (Item α) → Prop
  | .text _, .text _ :: _ => False
  | _, _ => True

mutual
/-- An item without empty and adjacent texts. -/
def Item.Canonical : Item α → Prop
  | .text run => run ≠ ""
  | .composite _ items => CanonicalItems items

/-- Items without empty and adjacent texts, at every depth. -/
def CanonicalItems : List (Item α) → Prop
  | [] => True
  | item :: items => item.Canonical ∧ item.parts items ∧ CanonicalItems items
end

/-- A composite whose content has no empty and no adjacent texts. -/
def Composite.Canonical (c : Composite α) : Prop := CanonicalItems c.items

theorem CanonicalItems.appendText {items : List (Item α)} (h : CanonicalItems items)
    (run : String) : CanonicalItems (appendText items run) ∧
      ∀ item : Item α, item.parts items → items ≠ [] → item.parts (Cache.appendText items run) := by
  induction items with
  | nil =>
    refine ⟨?_, fun _ _ ne => absurd rfl ne⟩
    by_cases none : run = ""
    · simp [Cache.appendText, none, CanonicalItems]
    · simp [Cache.appendText, none, CanonicalItems, Item.Canonical, Item.parts]
  | cons first items ih =>
    obtain ⟨good, apart, rest⟩ := h
    cases items with
    | nil =>
      cases first with
      | text before =>
        refine ⟨⟨fun eq => good (String.append_eq_empty_iff.1 eq).1, trivial, trivial⟩, ?_⟩
        intro item open_ _
        cases item with
        | text other => exact open_
        | composite payload inner => trivial
      | composite payload inner =>
        exact ⟨⟨good, trivial, (ih rest).1⟩, fun item _ _ => by cases item <;> trivial⟩
    | cons next items =>
      have grown : Cache.appendText (first :: next :: items) run =
          first :: Cache.appendText (next :: items) run := by cases first <;> rfl
      rw [grown]
      refine ⟨⟨good, (ih rest).2 first apart (by simp), (ih rest).1⟩, ?_⟩
      intro item open_ _
      cases item <;> cases first <;> exact open_

theorem CanonicalItems.append_composite {items : List (Item α)} (h : CanonicalItems items)
    {payload : α} {inner : List (Item α)} (good : CanonicalItems inner) :
    CanonicalItems (items ++ [.composite payload inner]) := by
  induction items with
  | nil => exact ⟨good, trivial, trivial⟩
  | cons first items ih =>
    obtain ⟨fine, apart, rest⟩ := h
    refine ⟨fine, ?_, ih rest⟩
    cases items with
    | nil => cases first <;> trivial
    | cons next items => cases first <;> cases next <;> exact apart

/-- **Extending keeps the canonical form**, whatever texts are contributed. -/
theorem Composite.Canonical.extended {c : Composite α} (h : c.Canonical) {raw : List (Item α)}
    (good : ∀ payload inner, .composite payload inner ∈ raw → CanonicalItems inner) :
    (c.extended raw).Canonical := by
  unfold Canonical Composite.extended
  rw [← foldl_appendItem]
  refine List.foldlRecOn raw appendItem h fun items fine item mem => ?_
  cases item with
  | text run => exact (fine.appendText run).1
  | composite payload inner => exact fine.append_composite (good payload inner mem)

/-! ## Measures -/

theorem textOf_append (items more : List (Item α)) :
    textOf (items ++ more) = textOf items ++ textOf more := by
  induction items with
  | nil => simp [textOf]
  | cons item items ih => rw [List.cons_append, textOf, textOf, ih, String.append_assoc]

theorem heightOf_append (items more : List (Item α)) :
    heightOf (items ++ more) = max (heightOf items) (heightOf more) := by
  induction items with
  | nil => simp [heightOf]
  | cons item items ih => rw [List.cons_append, heightOf, heightOf, ih, Nat.max_assoc]

/-- Text added behind items is read behind them and nests nothing. -/
theorem measure_appendText (items : List (Item α)) (run : String) :
    textOf (appendText items run) = textOf items ++ run ∧
      heightOf (appendText items run) = heightOf items := by
  induction items with
  | nil =>
    by_cases none : run = ""
    · simp [appendText, none, textOf]
    · simp [appendText, none, textOf, heightOf, Item.allText, Item.height]
  | cons item items ih =>
    cases items with
    | nil =>
      cases item with
      | text before => simp [appendText, textOf, heightOf, Item.allText, Item.height]
      | composite payload inner =>
        rw [appendText, textOf, heightOf, ih.1, ih.2]
        · simp [textOf, heightOf]
        · nofun
    | cons next items =>
      have grown : appendText (item :: next :: items) run =
          item :: appendText (next :: items) run := by cases item <;> rfl
      rw [grown, textOf, heightOf, ih.1, ih.2]
      exact ⟨(String.append_assoc ..).symm, rfl⟩

/-- Contributions are read behind what they extend. -/
theorem Composite.text_extended (c : Composite α) (raw : List (Item α)) :
    (c.extended raw).text = c.text ++ textOf raw := by
  induction raw using List.reverseRecOn with
  | nil => simp [textOf]
  | append_singleton raw item ih =>
    rw [extended_append, textOf_append, ← String.append_assoc, ← ih, ← push_eq]
    cases item with
    | text run =>
      rw [textOf, Item.allText, textOf, String.append_empty]
      exact (measure_appendText _ run).1
    | composite payload inner => exact textOf_append ..

/-- Extending nests as deeply as the deepest contribution. -/
theorem Composite.depth_extended (c : Composite α) (raw : List (Item α)) :
    (c.extended raw).depth = max c.depth (heightOf raw) := by
  induction raw using List.reverseRecOn with
  | nil => simp [heightOf]
  | append_singleton raw item ih =>
    rw [extended_append, heightOf_append, ← Nat.max_assoc, ← ih, ← push_eq]
    cases item with
    | text run =>
      rw [heightOf, Item.height, heightOf, Nat.max_self, Nat.max_zero]
      exact (measure_appendText _ run).2
    | composite payload inner => exact heightOf_append ..

end Formwork.Cache
