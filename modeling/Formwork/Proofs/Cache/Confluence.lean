import Mathlib.Logic.Relation
import Formwork.Proofs.Cache.Canonical
import Formwork.Proofs.Cache.Hashing

/-!
# Growing a composite is confluent

A composite is grown by adding items and texts to its content, one after the other.  Static text
reaches it in pieces, and nothing says where the pieces end.  Here that does not matter: dropping an
empty text and joining two adjacent ones are steps of a rewriting system (`Joins`), `merged` is the
normal form that they lead to (`joins_merged`), and two lists of contributions have the same content,
that is, steps in either direction lead from one to the other, exactly if their normal forms are the
same (`merged_eq_iff`).

**Composites.**  Additions with the same content make the same composite out of any composite, and
additions with different contents make different ones (`Composite.addAll_eq_iff`); what compares and
hashes caches by their payloads cannot tell the former apart either.

**Form.**  A composite that was grown from nothing has no empty and no adjacent texts, at any depth
(`Composite.Grown.canonical`), so its content is the normal form of all that was ever added.
-/

namespace Formwork.Cache

set_option autoImplicit false

variable {α : Type} {xs ys : List (Item α)}

/-! ## Cutting text -/

/-- One step towards the normal form: an empty text is dropped, or two adjacent texts are joined. -/
inductive Joins : List (Item α) → List (Item α) → Prop where
  | drop (before after : List (Item α)) : Joins (before ++ .text "" :: after) (before ++ after)
  | join (before after : List (Item α)) (run more : String) :
      Joins (before ++ .text run :: .text more :: after) (before ++ .text (run ++ more) :: after)

/-- Contributions that differ only by where their text is cut, and by empty texts. -/
def SameContent : List (Item α) → List (Item α) → Prop := Relation.EqvGen Joins

theorem Joins.cons (item : Item α) (step : Joins xs ys) : Joins (item :: xs) (item :: ys) := by
  cases step with
  | drop before after => exact .drop (item :: before) after
  | join before after run more => exact .join (item :: before) after run more

theorem merged_cons_congr (item : Item α) (same : merged xs = merged ys) :
    merged (item :: xs) = merged (item :: ys) := by
  cases item <;> simp only [merged, same]

theorem merged_append_congr (before : List (Item α)) (same : merged xs = merged ys) :
    merged (before ++ xs) = merged (before ++ ys) := by
  induction before with
  | nil => exact same
  | cons item before ih => exact merged_cons_congr item ih

/-- A step does not change the normal form. -/
theorem Joins.merged_eq (step : Joins xs ys) : merged xs = merged ys := by
  cases step with
  | drop before after =>
    apply merged_append_congr
    simp [merged]
  | join before after run more =>
    apply merged_append_congr
    simp [merged, consText_consText]

theorem joins_consText (run : String) (items : List (Item α)) :
    Relation.ReflTransGen Joins (.text run :: items) (consText run items) := by
  by_cases empty : run = ""
  · subst empty
    rw [consText_empty]
    exact .single (.drop [] items)
  · cases items with
    | nil => simp [consText, empty, Relation.ReflTransGen.refl]
    | cons item items =>
      cases item with
      | text after => exact .single (.join [] items run after)
      | composite payload inner => simp [consText, empty, Relation.ReflTransGen.refl]

/-- **Steps lead to the normal form.** -/
theorem joins_merged (raw : List (Item α)) : Relation.ReflTransGen Joins raw (merged raw) := by
  induction raw with
  | nil => exact .refl
  | cons item raw ih =>
    have inside : Relation.ReflTransGen Joins (item :: raw) (item :: merged raw) :=
      ih.lift (item :: ·) fun _ _ step => step.cons item
    cases item with
    | text run => exact inside.trans (joins_consText run (merged raw))
    | composite payload inner => exact inside

/-- **Contributions have the same content** exactly if they have the same normal form. -/
theorem merged_eq_iff : merged xs = merged ys ↔ SameContent xs ys := by
  constructor
  · intro same
    have first : SameContent xs (merged xs) := Relation.EqvGen.reflTransGen_le_eqvGen _ _ _ (joins_merged xs)
    have second : SameContent ys (merged ys) := Relation.EqvGen.reflTransGen_le_eqvGen _ _ _ (joins_merged ys)
    rw [← same] at second
    exact first.trans _ _ _ (second.symm _ _)
  · intro content
    induction content with
    | rel xs ys step => exact step.merged_eq
    | refl xs => rfl
    | symm xs ys _ ih => exact ih.symm
    | trans xs ys zs _ _ first second => exact first.trans second

/-! ## Gluing normal forms -/

theorem merged_append (raw more : List (Item α)) :
    merged (raw ++ more) = glue (merged raw) (merged more) := by
  have grown (raw : List (Item α)) : merged raw = raw.foldl appendItem [] :=
    (foldl_appendItem raw []).symm
  rw [grown (raw ++ more), List.foldl_append, ← grown, foldl_appendItem]

theorem empty_notMem_consText (run : String) (full : .text "" ∉ xs) :
    .text "" ∉ consText run xs := by
  by_cases empty : run = ""
  · subst empty
    rwa [consText_empty]
  · cases xs with
    | nil => simp [consText, empty, Ne.symm empty]
    | cons item items =>
      cases item with
      | text after =>
        intro mem
        rcases List.mem_cons.1 mem with here | later
        · injection here with here
          exact empty (String.append_eq_empty_iff.1 here.symm).1
        · exact full (List.mem_cons_of_mem _ later)
      | composite payload inner => simpa [consText, empty, Ne.symm empty] using full

/-- A normal form has no empty text. -/
theorem empty_notMem_merged (raw : List (Item α)) : .text "" ∉ merged raw := by
  induction raw with
  | nil => simp [merged]
  | cons item raw ih =>
    cases item with
    | text run => exact empty_notMem_consText run ih
    | composite payload inner => simpa [merged] using ih

/-- What is glued behind a text can be read off, unless it begins with an empty text. -/
theorem glue_text_injective {before : String} (full : .text "" ∉ xs) (full' : .text "" ∉ ys)
    (same : glue [.text before] xs = glue [.text before] ys) : xs = ys := by
  -- A text that leaves the one before it as it was is empty.
  have nothing (run : String) : before = before ++ run ↔ run = "" :=
    eq_comm.trans String.append_eq_left_iff
  cases xs with
  | nil =>
    cases ys with
    | nil => rfl
    | cons y ys => cases y <;> simp_all [glue]
  | cons x xs =>
    cases ys with
    | nil => cases x <;> simp_all [glue]
    | cons y ys => cases x <;> cases y <;> simp_all [glue]

/-- What is glued behind some items can be read off. -/
theorem glue_injective {items : List (Item α)} (full : .text "" ∉ xs) (full' : .text "" ∉ ys)
    (same : glue items xs = glue items ys) : xs = ys := by
  induction items with
  | nil => exact same
  | cons item items ih =>
    cases items with
    | nil => 
      cases item with
      | text before => exact glue_text_injective full full' same
      | composite payload inner => simpa [glue] using same
    | cons next items => 
      simp only [glue_cons_cons, List.cons.injEq, true_and] at same
      exact ih same

theorem merged_of_canonical {items : List (Item α)} (h : CanonicalItems items) :
    merged items = items := by
  induction items with
  | nil => rfl
  | cons item items ih =>
    obtain ⟨full, apart, rest⟩ := h
    cases item with
    | composite payload inner => simp only [merged, ih rest]
    | text run =>
      have some_ : run ≠ "" := full
      cases items with
      | nil => simp [merged, consText, some_]
      | cons next items =>
        cases next with
        | text after => exact apart.elim
        | composite payload inner => simp [merged, consText, some_, ← ih rest]

/-! ## Comparing by payloads -/

section Comparing

variable {same : α → α → Bool} {writes : α → List HashWrite}

mutual
theorem Item.agrees_self (refl : ∀ payload, same payload payload = true) :
    ∀ item : Item α, item.agrees same item = true
  | .text run => by simp [Item.agrees]
  | .composite payload items => by simp [Item.agrees, refl, itemsAgree_self refl items]

theorem itemsAgree_self (refl : ∀ payload, same payload payload = true) :
    ∀ items : List (Item α), itemsAgree same items items = true
  | [] => by simp [itemsAgree]
  | item :: items => by simp [itemsAgree, Item.agrees_self refl item, itemsAgree_self refl items]
end

theorem agrees_glue_text (before : String) (agree : itemsAgree same xs ys = true) :
    itemsAgree same (glue [.text before] xs) (glue [.text before] ys) = true := by
  cases xs with
  | nil =>
    cases ys with
    | nil => simp [itemsAgree, Item.agrees]
    | cons y ys => simp [itemsAgree] at agree
  | cons x xs =>
    cases ys with
    | nil => simp [itemsAgree] at agree
    | cons y ys => cases x <;> cases y <;> simp_all [glue, itemsAgree, Item.agrees]

/-- What is glued behind the same items compares as it does alone. -/
theorem agrees_glue (refl : ∀ payload, same payload payload = true) (items : List (Item α))
    (agree : itemsAgree same xs ys = true) :
    itemsAgree same (glue items xs) (glue items ys) = true := by
  induction items with
  | nil => exact agree
  | cons item items ih =>
    cases items with
    | nil =>
      cases item with
      | text before => exact agrees_glue_text before agree
      | composite payload inner =>
        rw [glue_composite_cons, glue_composite_cons, itemsAgree, Item.agrees_self refl, ih]
        rfl
    | cons next items =>
      rw [glue_cons_cons, glue_cons_cons, itemsAgree, Item.agrees_self refl, ih]
      rfl

/-- Equal composites hash alike when equal payloads do. -/
theorem Composite.hashWrites_eq_of_agrees {c d : Composite α}
    (respects : ∀ a b, same a b = true → writes a = writes b) (agree : c.agrees same d = true) :
    c.hashWrites writes = d.hashWrites writes := by
  have alike : WritesAlike same writes := by
    intro a b equal
    rw [respects a b equal]
    exact List.forall₂_same.2 fun part _ => .refl part
  rw [Composite.hashWrites_eq alike agree]
  refine (Composite.agrees_congr (fun a b equal => ?_) agree).symm.trans agree
  simp [equal, respects a b equal]

end Comparing

/-! ## Additions -/

/-- What can be added to the content of a composite: an item, or text that is no item yet. -/
inductive Addition (α : Type) where
  | item (added : Item α)
  | text (run : String)

/-- What an addition contributes to the content. -/
def Addition.contribution : Addition α → Item α
  | .item added => added
  | .text run => .text run

/-- What some additions contribute to the content, in order. -/
def contributions (as : List (Addition α)) : List (Item α) := as.map Addition.contribution

namespace Composite

/-- Add something to the content of a composite. -/
def add (c : Composite α) : Addition α → Composite α
  | .item added => c.push added
  | .text run => c.pushText run

/-- Add one thing after the other. -/
def addAll (c : Composite α) (as : List (Addition α)) : Composite α := as.foldl add c

theorem add_eq (c : Composite α) (a : Addition α) : c.add a = c.extended [a.contribution] := by
  cases a with
  | item added => exact c.push_eq added
  | text run => exact c.pushText_eq run

theorem addAll_eq (c : Composite α) (as : List (Addition α)) :
    c.addAll as = c.extended (contributions as) := by
  induction as generalizing c with
  | nil => exact c.extended_nil.symm
  | cons a as ih =>
    calc c.addAll (a :: as) = (c.add a).extended (contributions as) := ih (c.add a)
      _ = (c.extended [a.contribution]).extended (contributions as) := by rw [add_eq]
      _ = c.extended (contributions (a :: as)) := (c.extended_append [a.contribution] _).symm

/-- Additions make the same of a composite exactly if they have the same normal form. -/
theorem addAll_eq_iff (c : Composite α) (as bs : List (Addition α)) :
    c.addAll as = c.addAll bs ↔ merged (contributions as) = merged (contributions bs) := by
  rw [addAll_eq, addAll_eq]
  constructor
  · intro same
    apply glue_injective (empty_notMem_merged _) (empty_notMem_merged _)
    exact congrArg Composite.items same
  · intro same
    simp only [extended, same]

/-- Additions that compare as equal make composites that do. -/
theorem agrees_addAll {same : α → α → Bool} (refl : ∀ payload, same payload payload = true)
    (c : Composite α) {as bs : List (Addition α)}
    (agree : itemsAgree same (merged (contributions as)) (merged (contributions bs)) = true) :
    (c.addAll as).agrees same (c.addAll bs) = true := by
  rw [addAll_eq, addAll_eq, agrees, Bool.and_eq_true]
  exact ⟨refl c.payload, agrees_glue refl c.items agree⟩

/-! ## Composites that were grown -/

/-- A composite that was grown from nothing, and so was every composite added to it.  Its payload may
have been replaced meanwhile. -/
inductive Grown : Composite α → Prop where
  | leaf (payload : α) : Grown (leaf payload)
  | relabel {c : Composite α} (grown : Grown c) (payload : α) : Grown { c with payload := payload }
  | text {c : Composite α} (grown : Grown c) (run : String) : Grown (c.pushText run)
  | pushText {c : Composite α} (grown : Grown c) (run : String) : Grown (c.push (.text run))
  | push {c d : Composite α} (grown : Grown c) (added : Grown d) : Grown (c.push d.toItem)

/-- **What was grown has no empty and no adjacent texts**, at any depth. -/
theorem Grown.canonical {c : Composite α} (grown : c.Grown) : c.Canonical := by
  have texts {c : Composite α} (h : c.Canonical) (run : String) :
      (c.extended [.text run]).Canonical := h.extended fun payload inner mem => by simp at mem
  induction grown with
  | leaf payload => trivial
  | relabel _ payload ih => exact ih
  | @text c _ run ih =>
    rw [pushText_eq]
    exact texts ih run
  | @pushText c _ run ih =>
    rw [push_eq]
    exact texts ih run
  | @push c d _ _ ih good =>
    rw [push_eq]
    apply ih.extended
    intro payload inner mem
    cases List.mem_singleton.1 mem
    exact good

end Composite

/-- An addition of something that was grown from nothing. -/
def Addition.Grown : Addition α → Prop
  | .item (.composite payload items) => Composite.Grown ⟨payload, items⟩
  | _ => True

namespace Composite

theorem Grown.addAll {c : Composite α} (grown : c.Grown) {as : List (Addition α)}
    (added : ∀ a ∈ as, a.Grown) : (c.addAll as).Grown := by
  induction as generalizing c with
  | nil => exact grown
  | cons a as ih =>
    apply ih
    · cases a with
      | text run => exact grown.text run
      | item own =>
        cases own with
        | text run => exact grown.pushText run
        | composite payload items => exact grown.push (added _ List.mem_cons_self)
    · intro b mem
      exact added b (List.mem_cons_of_mem a mem)

/-- **Growing is confluent.**  Additions make the same composite out of a composite exactly if their
contributions are the same once adjacent texts are joined and empty ones are dropped, that is, if they
differ by where text is cut alone; then whatever compares and hashes payloads compares and hashes the
two composites as equal.  A composite that was grown from nothing has no empty and no adjacent texts,
and its content is the normal form of what it had and what was added. -/
theorem addAll_confluent (c : Composite α) (as bs : List (Addition α)) :
    (c.addAll as = c.addAll bs ↔ merged (contributions as) = merged (contributions bs)) ∧
    (c.addAll as = c.addAll bs ↔ SameContent (contributions as) (contributions bs)) ∧
    (∀ same : α → α → Bool, (∀ payload, same payload payload = true) →
      itemsAgree same (merged (contributions as)) (merged (contributions bs)) = true →
        (c.addAll as).agrees same (c.addAll bs) = true ∧
          ∀ writes, (∀ a b, same a b = true → writes a = writes b) →
            (c.addAll as).hashBytes writes = (c.addAll bs).hashBytes writes) ∧
    (c.Grown → (∀ a ∈ as, a.Grown) → (c.addAll as).Canonical ∧
      (c.addAll as).items = merged (c.items ++ contributions as)) := by
  refine ⟨c.addAll_eq_iff as bs, (c.addAll_eq_iff as bs).trans merged_eq_iff, ?_, ?_⟩
  · intro same refl agree
    have equal := agrees_addAll refl c agree
    refine ⟨equal, fun writes respects => ?_⟩
    exact congrArg (List.flatMap HashWrite.bytes) (hashWrites_eq_of_agrees respects equal)
  · intro grown added
    refine ⟨(grown.addAll added).canonical, ?_⟩
    rw [merged_append, merged_of_canonical grown.canonical, addAll_eq]
    rfl

/-- Text in small pieces, some of them empty, around a composite with content of its own. -/
def piecewise : List (Addition String) :=
  [.text "a", .item (.text ""), .text "b", .item (.composite "x" [.text "y"]), .text "", .text "c",
    .item (.text "d")]

/-- The same content in as few pieces as possible. -/
def atOnce : List (Addition String) :=
  [.item (.text "ab"), .item (.composite "x" [.text "y"]), .text "cd"]

theorem addAll_confluent_piecewise :
    (leaf "root").addAll piecewise = (leaf "root").addAll atOnce ∧
      SameContent (contributions piecewise) (contributions atOnce) ∧
      ((leaf "root").addAll piecewise).agrees (· == ·) ((leaf "root").addAll atOnce) = true ∧
      ((leaf "root").addAll piecewise).Canonical ∧
      ((leaf "root").addAll piecewise).items =
        [.text "ab", .composite "x" [.text "y"], .text "cd"] := by
  obtain ⟨equal, content, compared, form⟩ := addAll_confluent (leaf "root") piecewise atOnce
  have normal : merged (contributions piecewise) = merged (contributions atOnce) := rfl
  have added : ∀ a ∈ piecewise, a.Grown := by
    have box : Composite.Grown ⟨"x", [.text "y"]⟩ := (Grown.leaf "x").text "y"
    simp [piecewise, Addition.Grown, box]
  have same := equal.2 normal
  obtain ⟨canonical, items⟩ := form (.leaf "root") added
  exact ⟨same, content.1 same, (compared (· == ·) (by simp) (by decide)).1, canonical, items⟩

end Composite

end Formwork.Cache
