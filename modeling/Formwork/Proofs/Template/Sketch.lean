import Formwork.Proofs.Cache.Denotation
import Formwork.Proofs.Template.Assemble
import Formwork.Proofs.Template.Outline
import Formwork.Template.Blueprint

/-!
# What a template element says

A template is compiled from an element, and what it says can be read off the element itself: text,
elements that are written out, and fields with their content (`Sketch`).  Names and identifiers are
drawn on the way, in document order.

The cache of a template cuts its text elsewhere than the element does.  That makes no difference:
pieces are the same for an assembly when they differ in the cuts between runs only (`Piece.Same`),
and the pieces of a compiled template are those of its sketch (`Template.same_compile`).
-/

namespace Formwork

set_option autoImplicit false

/-! ## Sketches -/

/-- What a node of a template says: text, an element that is written out, or a field. -/
inductive Sketch where
  | text (content : String)
  | element (tag : Markup.Tag) (inner : List Sketch)
  | field (made : Made) (inner : List Sketch)

namespace Sketch

mutual
/-- A node with the names and identifiers of its fields, and the counters after they were drawn.
Elements of the reserved namespace that are not registered, and those whose factories decline, leave
their content only. -/
def ofNode (registry : Registry) (series : SeriesId) (c : CounterPool) :
    Markup.Node → List Sketch × CounterPool
  | .text content => ([.text content], c)
  | .element tag children =>
    match registry.lookupUri? tag.uri with
    | some factory =>
      match factory.makes with
      | none => ofNodes registry series (c.next series .placeholder).2 children
      | some kind =>
        let made := Piece.make series c kind (Blueprint.ofTag (some factory) tag).attributes
        let below := ofNodes registry series made.2 children
        ([.field made.1 below.1], below.2)
    | none =>
      let below := ofNodes registry series c children
      if Template.isWritten tag then ([.element tag below.1], below.2) else below

/-- Nodes with the names and identifiers of their fields. -/
def ofNodes (registry : Registry) (series : SeriesId) (c : CounterPool) :
    List Markup.Node → List Sketch × CounterPool
  | [] => ([], c)
  | n :: ns =>
    let first := ofNode registry series c n
    let rest := ofNodes registry series first.2 ns
    (first.1 ++ rest.1, rest.2)
end

mutual
/-- A sketch as pieces. -/
def pieces : Sketch → List Piece
  | .text content => [.run (Markup.Escape.text content)]
  | .element tag inner => .run tag.openMarkup :: (piecesOf inner ++ [.run tag.closeMarkup])
  | .field m inner => [.field m (piecesOf inner)]

/-- Sketches as pieces. -/
def piecesOf : List Sketch → List Piece
  | [] => []
  | x :: xs => x.pieces ++ piecesOf xs
end

theorem piecesOf_append : ∀ xs ys : List Sketch, piecesOf (xs ++ ys) = piecesOf xs ++ piecesOf ys
  | [], _ => rfl
  | x :: xs, ys => by
    rw [List.cons_append, piecesOf, piecesOf, piecesOf_append xs ys, List.append_assoc]

theorem piecesOf_singleton (x : Sketch) : piecesOf [x] = x.pieces := by
  rw [piecesOf, piecesOf, List.append_nil]

/-- What a template element says when it is assembled; the template draws an identifier first. -/
def ofTemplate (registry : Registry) (series : SeriesId) (c : CounterPool) (n : Markup.Node) :
    List Sketch × CounterPool :=
  ofNode registry series (c.next series .placeholder).2 n

end Sketch

/-! ## Pieces that are cut elsewhere -/

namespace Gathered

theorem write_empty (g : Gathered) (collects : Bool) : g.write collects "" = g := by
  unfold write
  split
  · rw [String.append_empty]
  · rfl

theorem write_write (g : Gathered) (collects : Bool) (text more : String) :
    (g.write collects text).write collects more = g.write collects (text ++ more) := by
  unfold write
  cases collects
  · rfl
  · simp only [if_true, String.append_assoc]

end Gathered

namespace Piece

theorem countOf_append : ∀ xs ys : List Piece, countOf (xs ++ ys) = countOf xs + countOf ys
  | [], ys => (Nat.zero_add _).symm
  | x :: xs, ys => by
    rw [List.cons_append, countOf, countOf, countOf_append xs ys, Nat.add_assoc]

theorem gather_append (container : Option FieldKind) (collects : Bool) : ∀ (xs ys : List Piece)
    (start : Nat) (g : Gathered), gather container collects start (xs ++ ys) g =
      gather container collects (start + countOf xs) ys (gather container collects start xs g)
  | [], _, _, _ => rfl
  | x :: xs, ys, start, g => by
    rw [List.cons_append, gather_cons, gather_append container collects xs ys,
      gather_cons container collects start x xs, countOf, Nat.add_assoc]

theorem rowsOf_append (parent : Option FieldId) : ∀ (xs ys : List Piece) (start : Nat),
    rowsOf parent start (xs ++ ys) = rowsOf parent start xs ++ rowsOf parent (start + countOf xs) ys
  | [], _, _ => rfl
  | x :: xs, ys, start => by
    rw [List.cons_append, rowsOf, rowsOf_append parent xs ys, rowsOf, List.append_assoc, countOf,
      Nat.add_assoc]

/-- Pieces that make the same fields with the same content. -/
structure Same (xs ys : List Piece) : Prop where
  count : countOf xs = countOf ys
  gather : ∀ (container : Option FieldKind) (collects : Bool) (start : Nat) (g : Gathered),
    gather container collects start xs g = gather container collects start ys g
  rows : ∀ (parent : Option FieldId) (start : Nat), rowsOf parent start xs = rowsOf parent start ys

namespace Same

variable {xs ys zs xs' ys' : List Piece}

theorem refl (xs : List Piece) : Same xs xs := ⟨rfl, fun _ _ _ _ => rfl, fun _ _ => rfl⟩

theorem symm (h : Same xs ys) : Same ys xs :=
  ⟨h.count.symm, fun _ _ _ _ => (h.gather ..).symm, fun _ _ => (h.rows ..).symm⟩

theorem trans (first : Same xs ys) (second : Same ys zs) : Same xs zs :=
  ⟨first.count.trans second.count, fun _ _ _ _ => (first.gather ..).trans (second.gather ..),
    fun _ _ => (first.rows ..).trans (second.rows ..)⟩

theorem append (first : Same xs xs') (second : Same ys ys') : Same (xs ++ ys) (xs' ++ ys') where
  count := by rw [countOf_append, countOf_append, first.count, second.count]
  gather container collects start g := by
    rw [gather_append, gather_append, first.gather, first.count, second.gather]
  rows parent start := by
    rw [rowsOf_append, rowsOf_append, first.rows, first.count, second.rows]

theorem cons (x : Piece) (h : Same xs ys) : Same (x :: xs) (x :: ys) := (refl [x]).append h

/-- A field with the same content. -/
theorem field (m : Made) (h : Same xs ys) : Same [.field m xs] [.field m ys] where
  count := by simp only [countOf, Piece.count, h.count]
  gather _ _ _ _ := rfl
  rows parent start := by simp only [rowsOf, Piece.rows, gathered, h.gather, h.rows]

/-- No run is the same as an empty one. -/
theorem run_empty (xs : List Piece) : Same (.run "" :: xs) xs where
  count := Nat.zero_add _
  gather container collects start g := by rw [Piece.gather, Gathered.write_empty]
  rows _ _ := rfl

/-- One run is the same as its two parts. -/
theorem run_run (text more : String) (xs : List Piece) :
    Same (.run text :: .run more :: xs) (.run (text ++ more) :: xs) where
  count := Nat.zero_add _
  gather container collects start g := by
    rw [Piece.gather, Piece.gather, Piece.gather, Gathered.write_write]
  rows _ _ := rfl

end Same

/-! ## Compiled templates -/

section Items

variable (series : SeriesId)

theorem ofItems_append : ∀ (items more : List (Cache.Item Blueprint)) (c : CounterPool),
    ofItems series c (items ++ more) =
      ((ofItems series c items).1 ++ (ofItems series (ofItems series c items).2 more).1,
        (ofItems series (ofItems series c items).2 more).2)
  | [], _, _ => rfl
  | item :: items, more, c => by
    rw [List.cons_append, ofItems, ofItems_append items more, ofItems, List.append_assoc]

theorem ofItems_singleton (c : CounterPool) (item : Cache.Item Blueprint) :
    ofItems series c [item] = ofItem series c item := by
  rw [ofItems, ofItems, List.append_nil]

/-- A composite without a field is its content. -/
theorem ofItem_declined {b : Blueprint} (declines : b.factory.bind Factory.makes = none)
    (c : CounterPool) (items : List (Cache.Item Blueprint)) :
    ofItem series c (.composite b items) = ofItems series (c.next series .placeholder).2 items := by
  rw [ofItem, declines]

/-- A composite with a field. -/
theorem ofItem_makes {b : Blueprint} {kind : FieldKind}
    (makes : b.factory.bind Factory.makes = some kind) (c : CounterPool)
    (items : List (Cache.Item Blueprint)) :
    ofItem series c (.composite b items) =
      ([.field (make series c kind b.attributes).1
          (ofItems series (make series c kind b.attributes).2 items).1],
        (ofItems series (make series c kind b.attributes).2 items).2) := by
  rw [ofItem, makes]

theorem ofItems_text (c : CounterPool) (text : String) (items : List (Cache.Item Blueprint)) :
    ofItems series c (.text text :: items) =
      (.run text :: (ofItems series c items).1, (ofItems series c items).2) := rfl

theorem same_consText (c : CounterPool) (text : String) (items : List (Cache.Item Blueprint)) :
    Same (ofItems series c (Cache.consText text items)).1
        (.run text :: (ofItems series c items).1) ∧
      (ofItems series c (Cache.consText text items)).2 = (ofItems series c items).2 := by
  have added : ∀ items : List (Cache.Item Blueprint),
      Same (ofItems series c (if text = "" then items else .text text :: items)).1
          (.run text :: (ofItems series c items).1) ∧
        (ofItems series c (if text = "" then items else .text text :: items)).2 =
          (ofItems series c items).2 := by
    intro items
    by_cases none : text = ""
    · rw [if_pos none, none]
      exact ⟨(Same.run_empty _).symm, rfl⟩
    · rw [if_neg none]
      exact ⟨Same.refl _, rfl⟩
  cases items with
  | nil => exact added []
  | cons item items =>
    cases item with
    | text after => exact ⟨(Same.run_run ..).symm, rfl⟩
    | composite payload inner => exact added (.composite payload inner :: items)

/-- Merging contributions changes nothing but the cuts. -/
theorem same_merged : ∀ (raw : List (Cache.Item Blueprint)) (c : CounterPool),
    Same (ofItems series c (Cache.merged raw)).1 (ofItems series c raw).1 ∧
      (ofItems series c (Cache.merged raw)).2 = (ofItems series c raw).2
  | [], _ => ⟨Same.refl _, rfl⟩
  | .text text :: raw, c => by
    obtain ⟨same, counters⟩ := same_merged raw c
    obtain ⟨joined, counters'⟩ := same_consText series c text (Cache.merged raw)
    rw [ofItems_text]
    exact ⟨joined.trans (same.cons _), counters'.trans counters⟩
  | .composite payload inner :: raw, c => by
    obtain ⟨same, counters⟩ := same_merged raw (ofItem series c (.composite payload inner)).2
    exact ⟨(Same.refl _).append same, counters⟩

end Items

end Piece

namespace Sketch

variable (registry : Registry) (series : SeriesId)

section Trace

/-- A composite that holds contributions only. -/
theorem toItem_extended_leaf (b : Blueprint) (raw : List (Cache.Item Blueprint)) :
    ((Cache.Composite.leaf b).extended raw).toItem = .composite b (Cache.merged raw) := rfl

variable {registry} {tag : Markup.Tag}

/-- A registered element is a composite without text around its content. -/
theorem trace_registered {factory : Factory} (found : registry.lookupUri? tag.uri = some factory)
    (children : List Markup.Node) :
    (Template.hooks registry).trace (Template.sourceOf (.element tag children)) =
      .node "" (some (.leaf (.ofTag (some factory) tag)))
        ((Template.hooks registry).traces (Template.sourcesOf children)) "" := by
  simp [Template.sourceOf, Cache.Hooks.trace, Template.hooks, Cache.answered, found, Except.toOption]

/-- Any other element stands around its content, unless it is reserved. -/
theorem trace_unregistered (absent : registry.lookupUri? tag.uri = none)
    (children : List Markup.Node) :
    (Template.hooks registry).trace (Template.sourceOf (.element tag children)) =
      .node (if Template.isWritten tag then tag.openMarkup else "") none
        ((Template.hooks registry).traces (Template.sourcesOf children))
        (if Template.isWritten tag then tag.closeMarkup else "") := by
  cases written : Template.isWritten tag <;>
    simp [Template.sourceOf, Cache.Hooks.trace, Template.hooks, Cache.answered, absent, written,
      Except.toOption]

end Trace

mutual
/-- **The contributions of a node** to its template are its sketch. -/
theorem same_trace : ∀ (n : Markup.Node) (c : CounterPool),
    Piece.Same (Piece.ofItems series c
          ((Template.hooks registry).trace (Template.sourceOf n)).items).1
        (piecesOf (ofNode registry series c n).1) ∧
      (Piece.ofItems series c ((Template.hooks registry).trace (Template.sourceOf n)).items).2 =
        (ofNode registry series c n).2
  | .text content, c => by
    have behind : Piece.Same [.run (Markup.Escape.text content), .run ""]
        [.run (Markup.Escape.text content)] := (Piece.Same.run_empty []).cons _
    exact ⟨behind, rfl⟩
  | .element tag children, c => by
    cases found : registry.lookupUri? tag.uri with
    | some factory =>
      -- the content of the composite, whatever its field draws first
      have within : ∀ c, Piece.Same (Piece.ofItems series c
            (Cache.merged (Cache.Trace.itemsOf ((Template.hooks registry).traces
              (Template.sourcesOf children)) ++ [.text ""]))).1
            (piecesOf (ofNodes registry series c children).1) ∧
          (Piece.ofItems series c
            (Cache.merged (Cache.Trace.itemsOf ((Template.hooks registry).traces
              (Template.sourcesOf children)) ++ [.text ""]))).2 =
            (ofNodes registry series c children).2 := by
        intro c
        obtain ⟨same, counters⟩ := same_traces children c
        obtain ⟨joined, counters'⟩ := Piece.same_merged series (Cache.Trace.itemsOf
          ((Template.hooks registry).traces (Template.sourcesOf children)) ++ [.text ""]) c
        rw [Piece.ofItems_append] at joined counters'
        refine ⟨joined.trans ?_, counters'.trans counters⟩
        have last := same.append (Piece.Same.run_empty [])
        rw [List.append_nil] at last
        exact last
      have empty : ∀ xs ys, Piece.Same xs ys → Piece.Same (.run "" :: xs) ys :=
        fun xs _ same => (Piece.Same.run_empty xs).trans same
      rw [trace_registered found, Cache.Trace.items, Cache.packed, Piece.ofItems_text,
        Piece.ofItems_singleton, toItem_extended_leaf, ofNode, found]
      dsimp only
      cases makes : factory.makes with
      | none =>
        rw [Piece.ofItem_declined series (b := .ofTag (some factory) tag) makes]
        obtain ⟨same, counters⟩ := within (c.next series .placeholder).2
        exact ⟨empty _ _ same, counters⟩
      | some kind =>
        rw [Piece.ofItem_makes series (b := .ofTag (some factory) tag) makes]
        obtain ⟨same, counters⟩ :=
          within (Piece.make series c kind (Blueprint.ofTag (some factory) tag).attributes).2
        exact ⟨empty _ _ (piecesOf_singleton _ ▸ same.field _), counters⟩
    | none =>
      obtain ⟨same, counters⟩ := same_traces children c
      rw [trace_unregistered found, Cache.Trace.items, Cache.packed, Piece.ofItems_text, ofNode, found,
        Piece.ofItems_append]
      cases written : Template.isWritten tag with
      | false =>
        have whole := (Piece.Same.run_empty _).trans (same.append (Piece.Same.run_empty []))
        rw [List.append_nil] at whole
        exact ⟨whole, counters⟩
      | true => exact ⟨piecesOf_singleton _ ▸ (same.append (Piece.Same.refl _)).cons _, counters⟩

theorem same_traces : ∀ (ns : List Markup.Node) (c : CounterPool),
    Piece.Same (Piece.ofItems series c (Cache.Trace.itemsOf
          ((Template.hooks registry).traces (Template.sourcesOf ns)))).1
        (piecesOf (ofNodes registry series c ns).1) ∧
      (Piece.ofItems series c (Cache.Trace.itemsOf
          ((Template.hooks registry).traces (Template.sourcesOf ns)))).2 =
        (ofNodes registry series c ns).2
  | [], _ => ⟨Piece.Same.refl _, rfl⟩
  | n :: ns, c => by
    obtain ⟨first, counters⟩ := same_trace n c
    obtain ⟨rest, counters'⟩ := same_traces ns (ofNode registry series c n).2
    rw [Template.sourcesOf, Cache.Hooks.traces, Cache.Trace.itemsOf, Piece.ofItems_append, ofNodes,
      piecesOf_append, counters]
    exact ⟨first.append rest, counters'⟩
end

end Sketch

/-- A compiled template holds the contributions of its element and makes no field of its own. -/
theorem Template.exists_compile (registry : Registry) (n : Markup.Node) :
    ∃ b : Blueprint, b.factory = none ∧ Template.compile registry n =
      (Cache.Composite.leaf b).extended
        ((Template.hooks registry).trace (Template.sourceOf n)).items := by
  obtain ⟨b, factory, root⟩ : ∃ b : Blueprint, b.factory = none ∧
      (Template.hooks registry).root (Template.sourceOf n).label = .ok (.leaf b) := by
    cases n with
    | text content => exact ⟨⟨none, "", .empty⟩, rfl, rfl⟩
    | element tag children => exact ⟨.ofTag none tag, rfl, rfl⟩
  have compiled : (Template.hooks registry).compile (Template.sourceOf n) =
      .ok ((Cache.Composite.leaf b).extended
        ((Template.hooks registry).trace (Template.sourceOf n)).items) := by
    rw [Cache.Hooks.compile_eq, root]
    cases faults : (Template.hooks registry).faults (Template.sourceOf n) with
    | nil => rfl
    | cons e _ => exact e.elim
  refine ⟨b, factory, ?_⟩
  unfold Template.compile
  rw [compiled]

/-- **What a compiled template says** is what its element says. -/
theorem Template.same_compile (registry : Registry) (series : SeriesId) (n : Markup.Node)
    (c : CounterPool) : ∃ inner,
      Piece.ofTemplate series c (Template.compile registry n) =
        (none, inner, (Sketch.ofTemplate registry series c n).2) ∧
      Piece.Same inner (Sketch.piecesOf (Sketch.ofTemplate registry series c n).1) := by
  obtain ⟨b, factory, compiled⟩ := Template.exists_compile registry n
  have declines : (Template.compile registry n).payload.factory.bind Factory.makes = none := by
    rw [compiled]
    exact congrArg (·.bind Factory.makes) factory
  have items : (Template.compile registry n).items = Cache.merged
      ((Template.hooks registry).trace (Template.sourceOf n)).items := by
    rw [compiled]
    rfl
  obtain ⟨same, counters⟩ := Sketch.same_trace registry series n (c.next series .placeholder).2
  obtain ⟨joined, counters'⟩ := Piece.same_merged series
    ((Template.hooks registry).trace (Template.sourceOf n)).items (c.next series .placeholder).2
  refine ⟨_, ?_, joined.trans same⟩
  unfold Piece.ofTemplate
  rw [declines, items]
  exact congrArg (Prod.mk _ <| Prod.mk _ ·) (counters'.trans counters)

end Formwork
