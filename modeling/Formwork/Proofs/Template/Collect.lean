import Formwork.Proofs.Markup.Joined
import Formwork.Proofs.Template.Mirror
import Formwork.Proofs.Template.Sketch

/-!
# What is collected for a field

The markup that is collected for a field is written piece by piece, but it is the markup of siblings:
those of its sketches, with a marker in the place of every field that became content
(`Sketch.markedOf`, `Sketch.gather_piecesOf`).  So it can be read when its texts and values hold
nothing but characters that may occur in markup, and a template whose texts and values do can be
assembled (`Builder.exists_played`).
-/

namespace Formwork

set_option autoImplicit false

open Markup (IsMarkupText IsQualifiedName)

/-! ## Markers -/

/-- An identifier that was drawn for a marker. -/
def IsMarker (identifier : String) : Prop :=
  ∃ n, identifier = Counters.Purpose.identifier .placeholder n

namespace IsMarker

variable {identifier : String}

/-- The characters of an identifier. -/
theorem mem_cases (h : IsMarker identifier) {c : Char} (mem : c ∈ identifier.toList) :
    c ∈ "__tmps_".toList ∨ c.isDigit = true := by
  obtain ⟨n, rfl⟩ := h
  have split : (Counters.Purpose.identifier .placeholder n).toList =
      "__tmps_".toList ++ Nat.toDigits 10 n := by
    simp [Counters.Purpose.identifier, toString, Nat.repr]
  rw [split, List.mem_append] at mem
  exact mem.imp_right fun digit => Nat.isDigit_of_mem_toDigits (by decide) (Nat.le_refl 10) digit

/-- Digits are neither special nor control characters. -/
theorem plain_of_isDigit {c : Char} (digit : c.isDigit = true) :
    Markup.Escape.valueChar .single c = [c] ∧ Markup.isMarkupChar c = true := by
  have other : ∀ d : Char, d.isDigit = false → c ≠ d := by
    rintro d no rfl
    rw [no] at digit
    cases digit
  refine ⟨?_, ?_⟩
  · unfold Markup.Escape.valueChar Markup.Escape.textChar
    have unquoted : ¬ c = Markup.Quote.single.char := other '\'' rfl
    rw [if_neg unquoted]
    split
    · exact absurd rfl (other '&' rfl)
    · exact absurd rfl (other '<' rfl)
    · exact absurd rfl (other '>' rfl)
    · rfl
  · have range : 48 ≤ c.toNat ∧ c.toNat ≤ 57 := by
      simpa [Char.isDigit, UInt32.le_iff_toNat_le] using digit
    unfold Markup.isMarkupChar
    rw [if_neg (by omega)]
    simp only [Bool.and_eq_true, bne_iff_ne, ne_eq]
    omega

theorem plain (h : IsMarker identifier) {c : Char} (mem : c ∈ identifier.toList) :
    Markup.Escape.valueChar .single c = [c] ∧ Markup.isMarkupChar c = true := by
  rcases h.mem_cases mem with front | digit
  · exact Markup.Escape.of_mem_of_all (fun c => Markup.Escape.valueChar .single c = [c] ∧
      Markup.isMarkupChar c = true) front (by decide)
  · exact plain_of_isDigit digit

end IsMarker

/-- The element that marks the place of a field. -/
def markerNode (identifier : String) : Markup.Node :=
  .element ⟨"span", "span", [.plain "id" identifier]⟩ []

theorem markup_markerNode {identifier : String} (h : IsMarker identifier) :
    (markerNode identifier).markup = markerMarkup identifier := by
  have same : Markup.Escape.value .single identifier = identifier := by
    unfold Markup.Escape.value
    rw [List.flatMap_congr (g := fun c => [c]) fun c mem => (h.plain mem).1]
    simp
  refine String.toList_inj.1 ?_
  simp [markerNode, Markup.Node.markup, Markup.Tag.openMarkup, Markup.Tag.closeMarkup, markerMarkup,
    Markup.Attribute.plain, Markup.Escape.attr, same, Markup.markupOf, String.join, Char.toString,
    Markup.Quote.char]

/-! ## Sketches as markup -/

namespace Sketch

mutual
/-- How many fields a sketch makes. -/
def count : Sketch → Nat
  | .text _ => 0
  | .element _ inner => countOf inner
  | .field _ inner => 1 + countOf inner

/-- How many fields some sketches make. -/
def countOf : List Sketch → Nat
  | [] => 0
  | x :: xs => x.count + countOf xs
end

mutual
theorem countOf_pieces : ∀ x : Sketch, Piece.countOf x.pieces = x.count
  | .text _ => rfl
  | .element tag inner => by
    rw [pieces, Piece.countOf, Piece.countOf_append, countOf_piecesOf inner, count]
    exact Nat.zero_add _
  | .field m inner => by
    rw [pieces, Piece.countOf, Piece.count, countOf_piecesOf inner]
    rfl

theorem countOf_piecesOf : ∀ xs : List Sketch, Piece.countOf (piecesOf xs) = countOf xs
  | [] => rfl
  | x :: xs => by
    rw [piecesOf, Piece.countOf_append, countOf_pieces x, countOf_piecesOf xs, countOf]
end

mutual
/-- The siblings that a sketch leaves in the content around it; fields that became content leave
markers, and those that became parts leave nothing. -/
def marked (isPart : FieldId → Bool) (start : Nat) : Sketch → List Markup.Node
  | .text content => [.text content]
  | .element tag inner => [.element tag (markedOf isPart start inner)]
  | .field m _ => if isPart ⟨start⟩ then [] else [markerNode m.identifier]

/-- The siblings that some sketches leave in the content around them. -/
def markedOf (isPart : FieldId → Bool) (start : Nat) : List Sketch → List Markup.Node
  | [] => []
  | x :: xs => marked isPart start x ++ markedOf isPart (start + x.count) xs
end

mutual
/-- The markers of a sketch with the fields that they stand for. -/
def marks (isPart : FieldId → Bool) (start : Nat) : Sketch → List (String × FieldId)
  | .text _ => []
  | .element _ inner => marksOf isPart start inner
  | .field m _ => if isPart ⟨start⟩ then [] else [(m.identifier, ⟨start⟩)]

/-- The markers of some sketches with the fields that they stand for. -/
def marksOf (isPart : FieldId → Bool) (start : Nat) : List Sketch → List (String × FieldId)
  | [] => []
  | x :: xs => marks isPart start x ++ marksOf isPart (start + x.count) xs
end

mutual
/-- The identifiers of a sketch were drawn for markers. -/
def Drawn : Sketch → Prop
  | .text _ => True
  | .element _ inner => DrawnAll inner
  | .field m inner => IsMarker m.identifier ∧ DrawnAll inner

/-- The identifiers of some sketches were drawn for markers. -/
def DrawnAll : List Sketch → Prop
  | [] => True
  | x :: xs => x.Drawn ∧ DrawnAll xs
end

theorem DrawnAll.append : ∀ {xs ys : List Sketch}, DrawnAll xs → DrawnAll ys → DrawnAll (xs ++ ys)
  | [], _, _, second => second
  | _ :: _, _, ⟨first, rest⟩, second => ⟨first, rest.append second⟩

/-- What is made has an identifier that was drawn for a marker. -/
theorem isMarker_make (series : SeriesId) (c : CounterPool) (kind : FieldKind)
    (attributes : Attributes) : IsMarker (Piece.make series c kind attributes).1.identifier :=
  ⟨_, rfl⟩

mutual
theorem drawn_ofNode (registry : Registry) (series : SeriesId) : ∀ (n : Markup.Node)
    (c : CounterPool), DrawnAll (ofNode registry series c n).1
  | .text _, _ => ⟨trivial, trivial⟩
  | .element tag children, c => by
    rw [ofNode]
    cases registry.lookupUri? tag.uri with
    | none =>
      dsimp only
      split
      · exact ⟨drawn_ofNodes registry series children c, trivial⟩
      · exact drawn_ofNodes registry series children c
    | some factory =>
      dsimp only
      cases factory.makes with
      | none => exact drawn_ofNodes registry series children _
      | some kind =>
        exact ⟨⟨isMarker_make .., drawn_ofNodes registry series children _⟩, trivial⟩

theorem drawn_ofNodes (registry : Registry) (series : SeriesId) : ∀ (ns : List Markup.Node)
    (c : CounterPool), DrawnAll (ofNodes registry series c ns).1
  | [], _ => trivial
  | n :: ns, c => by
    rw [ofNodes]
    exact (drawn_ofNode registry series n c).append (drawn_ofNodes registry series ns _)
end

end Sketch

/-! ## What is gathered -/

namespace Piece

/-- The parts of a field that are found in some pieces are among their fields. -/
theorem attached_gather (container : Option FieldKind) (collects : Bool) : ∀ (xs : List Piece)
    (start : Nat) (g : Gathered), ∃ new,
      (gather container collects start xs g).attached = g.attached ++ new ∧
        ∀ f ∈ new, start ≤ f.index ∧ f.index < start + countOf xs
  | [], _, g => ⟨[], (List.append_nil _).symm, nofun⟩
  | .run text :: xs, start, g => by
    obtain ⟨new, attached, range⟩ := attached_gather container collects xs start (g.write collects text)
    rw [attached_write] at attached
    refine ⟨new, attached, fun f mem => ?_⟩
    rw [countOf, count, Nat.zero_add]
    exact range f mem
  | .field m inner :: xs, start, g => by
    obtain ⟨new, attached, range⟩ := attached_gather container collects xs
      (start + (1 + countOf inner)) (g.take collects (m.role container g.attached) m.identifier ⟨start⟩)
    have later : ∀ f ∈ new, start ≤ f.index ∧ f.index < start + countOf (.field m inner :: xs) := by
      intro f mem
      have bounds := range f mem
      rw [countOf, count]
      omega
    rw [gather, attached]
    unfold Gathered.take
    cases m.role container g.attached with
    | content => exact ⟨new, rfl, later⟩
    | part =>
      refine ⟨⟨start⟩ :: new, by simp, fun f mem => ?_⟩
      rcases List.mem_cons.1 mem with rfl | mem
      · rw [countOf, count]
        exact ⟨Nat.le_refl _, by dsimp only; omega⟩
      · exact later f mem

end Piece

namespace Sketch

/-- What was found besides what was found before: some siblings and their markers. -/
structure Finds (g g' : Gathered) (nodes : List Markup.Node) (marks : List (String × FieldId)) :
    Prop where
  markup : g'.markup = g.markup ++ Markup.markupOf nodes
  marks : g'.marks = marks.foldl (fun m e => m.insert e.1 e.2) g.marks

/-- What was found is everything when nothing was found before. -/
theorem Finds.all {g : Gathered} {nodes : List Markup.Node} {marks : List (String × FieldId)}
    (h : Finds .none g nodes marks) : g.markup = Markup.markupOf nodes :=
  h.markup.trans String.empty_append

/-- Of the fields with some numbers, the parts are told from the content. -/
def Tells (isPart : FieldId → Bool) (start count : Nat) (g : Gathered) : Prop :=
  ∀ f : FieldId, start ≤ f.index → f.index < start + count → (isPart f = true ↔ f ∈ g.attached)

variable {container : Option FieldKind} {isPart : FieldId → Bool}

/-- What is told of the fields of some pieces is told of those in front. -/
theorem Tells.front {xs ys : List Piece} {start : Nat} {g : Gathered}
    (h : Tells isPart start (Piece.countOf (xs ++ ys)) (Piece.gather container true start (xs ++ ys) g)) :
    Tells isPart start (Piece.countOf xs) (Piece.gather container true start xs g) := by
  intro f low high
  rw [Piece.countOf_append, Piece.gather_append] at h
  rw [h f low (by omega)]
  obtain ⟨new, attached, range⟩ := Piece.attached_gather container true ys
    (start + Piece.countOf xs) (Piece.gather container true start xs g)
  rw [attached, List.mem_append]
  refine ⟨fun mem => mem.resolve_right fun later => ?_, .inl⟩
  exact absurd high (Nat.not_lt_of_le (range f later).1)

theorem Tells.behind {xs ys : List Piece} {start : Nat} {g : Gathered}
    (h : Tells isPart start (Piece.countOf (xs ++ ys)) (Piece.gather container true start (xs ++ ys) g)) :
    Tells isPart (start + Piece.countOf xs) (Piece.countOf ys)
      (Piece.gather container true (start + Piece.countOf xs) ys
        (Piece.gather container true start xs g)) := by
  intro f low high
  rw [Piece.countOf_append, Piece.gather_append] at h
  exact h f (by omega) (by omega)

/-- Parts that were found before are older than the fields behind. -/
theorem old_gather {xs : List Piece} {start : Nat} {g : Gathered}
    (old : ∀ f ∈ g.attached, f.index < start) :
    ∀ f ∈ (Piece.gather container true start xs g).attached, f.index < start + Piece.countOf xs := by
  obtain ⟨new, attached, range⟩ := Piece.attached_gather container true xs start g
  intro f mem
  rw [attached, List.mem_append] at mem
  rcases mem with before | later
  · exact Nat.lt_of_lt_of_le (old f before) (Nat.le_add_right _ _)
  · exact (range f later).2

mutual
/-- **What a field collects** from a sketch are its siblings, with markers in the place of the fields
that become content. -/
theorem gather_pieces : ∀ (x : Sketch) {start : Nat} {g : Gathered}, x.Drawn →
    (∀ f ∈ g.attached, f.index < start) →
    Tells isPart start (Piece.countOf x.pieces) (Piece.gather container true start x.pieces g) →
      Finds g (Piece.gather container true start x.pieces g) (x.marked isPart start)
        (x.marks isPart start)
  | .text content, start, g, _, _, _ => by
    refine ⟨?_, rfl⟩
    rw [pieces, Piece.gather, Piece.gather, Gathered.write, if_pos rfl, marked, Markup.markupOf,
      Markup.markupOf, Markup.Node.markup, String.append_empty]
  | .element tag inner, start, g, drawn, old, tells => by
    -- the runs around the content hold no fields
    have told : Tells isPart start (Piece.countOf (piecesOf inner))
        (Piece.gather container true start (piecesOf inner) (g.write true tag.openMarkup)) := by
      have whole : Tells isPart start (Piece.countOf (piecesOf inner ++ [.run tag.closeMarkup]))
          (Piece.gather container true start (piecesOf inner ++ [.run tag.closeMarkup])
            (g.write true tag.openMarkup)) := by
        intro f low high
        refine tells f low ?_
        rw [pieces, Piece.countOf, Piece.count, Nat.zero_add]
        exact high
      exact whole.front
    have content := gather_piecesOf inner (g := g.write true tag.openMarkup) drawn old told
    have whole : Piece.gather container true start (pieces (.element tag inner)) g =
        (Piece.gather container true start (piecesOf inner) (g.write true tag.openMarkup)).write true
          tag.closeMarkup := by
      rw [pieces, Piece.gather, Piece.gather_append]
      rfl
    refine ⟨?_, ?_⟩
    · have markup := content.markup
      unfold Gathered.write at markup whole
      rw [whole, if_pos rfl, marked]
      dsimp only
      rw [markup, if_pos rfl, Markup.markupOf, Markup.markupOf, Markup.Node.markup]
      simp only [String.append_assoc, String.append_empty]
    · rw [whole, marks]
      exact content.marks
  | .field m inner, start, g, drawn, old, tells => by
    have whole : Piece.gather container true start (pieces (.field m inner)) g =
        g.take true (m.role container g.attached) m.identifier ⟨start⟩ := rfl
    have told := tells ⟨start⟩ (Nat.le_refl _) (by
      rw [countOf_pieces, count]
      dsimp only
      omega)
    rw [whole] at told ⊢
    cases role : m.role container g.attached with
    | part =>
      rw [role] at told
      have part : isPart ⟨start⟩ = true := told.2 (by simp [Gathered.take])
      rw [marked, marks, if_pos part, if_pos part]
      exact ⟨(String.append_empty).symm, rfl⟩
    | content =>
      rw [role] at told
      have content : ¬ isPart ⟨start⟩ = true := fun part =>
        absurd (old _ (told.1 part)) (Nat.lt_irrefl _)
      rw [marked, marks, if_neg content, if_neg content]
      refine ⟨?_, rfl⟩
      rw [Markup.markupOf, Markup.markupOf, markup_markerNode drawn.1, String.append_empty]
      rfl

theorem gather_piecesOf : ∀ (xs : List Sketch) {start : Nat} {g : Gathered}, DrawnAll xs →
    (∀ f ∈ g.attached, f.index < start) →
    Tells isPart start (Piece.countOf (piecesOf xs))
        (Piece.gather container true start (piecesOf xs) g) →
      Finds g (Piece.gather container true start (piecesOf xs) g) (markedOf isPart start xs)
        (marksOf isPart start xs)
  | [], _, _, _, _, _ => ⟨(String.append_empty).symm, rfl⟩
  | x :: xs, start, g, drawn, old, tells => by
    rw [piecesOf] at tells ⊢
    have first := gather_pieces x drawn.1 old tells.front
    have rest := gather_piecesOf xs drawn.2 (old_gather old) tells.behind
    rw [Piece.gather_append, markedOf, marksOf, ← countOf_pieces]
    refine ⟨?_, ?_⟩
    · rw [rest.markup, first.markup, Markup.markupOf_append, String.append_assoc]
    · rw [rest.marks, first.marks, List.foldl_append]
end

/-! ## What can be read -/

mutual
/-- What a sketch adds to collected markup has names and characters of markup. -/
def Writable (collects : Bool) : Sketch → Prop
  | .text content => collects = true → IsMarkupText content
  | .element tag inner =>
    (collects = true → IsQualifiedName tag.qname ∧
      ∀ a ∈ tag.attributes, IsQualifiedName a.qname ∧ IsMarkupText a.value) ∧
    WritableAll collects inner
  | .field m inner => WritableAll m.kind.acceptsPanel inner

/-- What some sketches add to collected markup has names and characters of markup. -/
def WritableAll (collects : Bool) : List Sketch → Prop
  | [] => True
  | x :: xs => x.Writable collects ∧ WritableAll collects xs
end

theorem WritableAll.append {collects : Bool} : ∀ {xs ys : List Sketch}, WritableAll collects xs →
    WritableAll collects ys → WritableAll collects (xs ++ ys)
  | [], _, _, second => second
  | _ :: _, _, ⟨first, rest⟩, second => ⟨first, rest.append second⟩

theorem writableAll_append : ∀ {ns ms : List Markup.Node}, Markup.Node.WritableAll ns →
    Markup.Node.WritableAll ms → Markup.Node.WritableAll (ns ++ ms)
  | [], _, _, second => second
  | _ :: _, _, ⟨first, rest⟩, second => ⟨first, writableAll_append rest second⟩

theorem writable_markerNode {identifier : String} (h : IsMarker identifier) :
    (markerNode identifier).Writable := by
  have letters : ∀ {cs : List Char}, cs.all (fun d => decide (Markup.isNameChar d = true ∧ d ≠ ':')) =
      true → ∀ d ∈ cs, Markup.isNameChar d = true ∧ d ≠ ':' :=
    fun all d mem => of_decide_eq_true (List.all_eq_true.1 all d mem)
  have span : Markup.IsPlainName "span".toList := ⟨by decide, letters (by decide)⟩
  have id : Markup.IsPlainName "id".toList := ⟨by decide, letters (by decide)⟩
  refine ⟨.inl span, fun a mem => ?_, trivial⟩
  obtain rfl := List.mem_singleton.1 mem
  exact ⟨.inl id, fun c mem => (h.plain mem).2⟩

mutual
theorem writable_marked (isPart : FieldId → Bool) : ∀ (x : Sketch) (start : Nat), x.Drawn →
    x.Writable true → Markup.Node.WritableAll (x.marked isPart start)
  | .text _, _, _, writable => ⟨writable rfl, trivial⟩
  | .element _ inner, _, drawn, ⟨own, below⟩ =>
    ⟨⟨(own rfl).1, (own rfl).2, writable_markedOf isPart inner _ drawn below⟩, trivial⟩
  | .field m _, start, drawn, _ => by
    rw [marked]
    split
    · exact trivial
    · exact ⟨writable_markerNode drawn.1, trivial⟩

theorem writable_markedOf (isPart : FieldId → Bool) : ∀ (xs : List Sketch) (start : Nat),
    DrawnAll xs → WritableAll true xs → Markup.Node.WritableAll (markedOf isPart start xs)
  | [], _, _, _ => trivial
  | x :: xs, start, drawn, writable =>
    writableAll_append (writable_marked isPart x start drawn.1 writable.1)
      (writable_markedOf isPart xs _ drawn.2 writable.2)
end

/-- What is told apart by what was found at the end. -/
theorem tells_self (start count : Nat) (g : Gathered) :
    Tells (fun f => decide (f ∈ g.attached)) start count g :=
  fun _ _ _ => decide_eq_true_iff

/-- What sketches leave in the content around them, read as markup: text is joined, and every name
stands for itself. -/
def readOf (isPart : FieldId → Bool) (start : Nat) (xs : List Sketch) : List Markup.Node :=
  Markup.Node.joinedAll (Markup.Node.asWrittenAll (markedOf isPart start xs))

theorem parseFragment_markedOf {xs : List Sketch} (start : Nat) (drawn : DrawnAll xs)
    (writable : WritableAll true xs) :
    Markup.parseFragment (Markup.markupOf (markedOf isPart start xs)) =
      .ok (readOf isPart start xs) :=
  Markup.parseFragment_markupOf (writable_markedOf isPart xs start drawn writable)

/-- Which fields in a field of some kind are parts of it. -/
def isPartIn (container : Option FieldKind) (start : Nat) (xs : List Sketch) (f : FieldId) : Bool :=
  decide (f ∈ (Piece.gather container true start (piecesOf xs) .none).attached)

/-- What was collected from sketches is the markup that they leave. -/
theorem finds_gather {xs : List Sketch} (start : Nat) (drawn : DrawnAll xs) :
    Finds .none (Piece.gather container true start (piecesOf xs) .none)
      (markedOf (isPartIn container start xs) start xs)
      (marksOf (isPartIn container start xs) start xs) :=
  gather_piecesOf xs drawn nofun (tells_self start _ _)

/-- What sketches become when the widgets of their fields take the place of the markers. -/
def settledOf (container : Option FieldKind) (start : Nat) (xs : List Sketch) : List Html :=
  (Piece.gather container true start (piecesOf xs) .none).marks.settle
    (readOf (isPartIn container start xs) start xs)

/-- **What was collected from sketches** can be read, and is settled: in the panel as it is, and in a
field with an element around it. -/
theorem content_gather {xs : List Sketch} (start : Nat) (drawn : DrawnAll xs)
    (writable : WritableAll true xs) :
    (Piece.gather container true start (piecesOf xs) .none).content id =
        .ok (settledOf container start xs) ∧
      (Piece.gather container true start (piecesOf xs) .none).content Play.wrapped =
        .ok (Html.boxed (settledOf container start xs)) := by
  have markup : (Piece.gather container true start (piecesOf xs) .none).markup =
      Markup.markupOf (markedOf (isPartIn container start xs) start xs) :=
    (finds_gather start drawn).all
  have read : Markup.parseFragment (Markup.markupOf (markedOf (isPartIn container start xs) start xs)) =
      .ok (readOf (isPartIn container start xs) start xs) :=
    parseFragment_markedOf start drawn writable
  unfold Gathered.content settledOf
  rw [markup]
  by_cases nothing : Markup.markupOf (markedOf (isPartIn container start xs) start xs) = ""
  · have empty : readOf (isPartIn container start xs) start xs = [] := by
      rw [nothing] at read
      exact (Except.ok.inj read).symm
    rw [if_pos nothing, if_pos nothing, empty]
    exact ⟨rfl, rfl⟩
  · have some : readOf (isPartIn container start xs) start xs ≠ [] := by
      intro empty
      refine nothing (String.toList_inj.1 ?_)
      have joined : Markup.Node.joinedAll (markedOf (isPartIn container start xs) start xs) = [] := by
        unfold readOf at empty
        rw [← Markup.Node.asWrittenAll_joinedAll] at empty
        cases left : Markup.Node.joinedAll (markedOf (isPartIn container start xs) start xs) with
        | nil => rfl
        | cons n ns =>
          rw [left] at empty
          cases empty
      rw [Markup.Node.toList_markupOf, ← Markup.Node.charsOf_joinedAll, joined]
      rfl
    rw [if_neg nothing, if_neg nothing, read]
    refine ⟨rfl, congrArg Except.ok ?_⟩
    have full : (Piece.gather container true start (piecesOf xs) .none).marks.settle
        (readOf (isPartIn container start xs) start xs) ≠ [] :=
      Placeholders.settle_ne_nil _ some
    unfold Html.boxed
    rw [if_neg (by rwa [List.isEmpty_iff])]
    rfl

end Sketch

/-- A field that drops markup collects none. -/
theorem Piece.markup_gather_dropping (container : Option FieldKind) : ∀ (xs : List Piece)
    (start : Nat) (g : Gathered), (gather container false start xs g).markup = g.markup
  | [], _, _ => rfl
  | .run _ :: xs, start, g => markup_gather_dropping container xs start g
  | .field m inner :: xs, start, g => by
    rw [gather, markup_gather_dropping container xs]
    unfold Gathered.take
    cases m.role container g.attached <;> rfl

namespace Sketch

mutual
/-- What is collected for the fields of a sketch can be read. -/
theorem readable_pieces {collects : Bool} (parent : Option FieldId) : ∀ (x : Sketch) (start : Nat),
    x.Drawn → x.Writable collects → Play.Readable (Piece.rowsOf parent start x.pieces)
  | .text _, _, _, _ => nofun
  | .element tag inner, start, drawn, ⟨_, below⟩ => by
    rw [pieces, Piece.rowsOf, Piece.rowsOf_append]
    intro row mem
    rw [Piece.rows, List.nil_append, List.mem_append] at mem
    rcases mem with inside | last
    · exact readable_piecesOf parent inner _ drawn below row inside
    · cases last
  | .field m inner, start, drawn, below => by
    rw [pieces, Piece.rowsOf, Piece.rowsOf, List.append_nil, Piece.rows]
    intro row mem
    rcases List.mem_cons.1 mem with rfl | inside
    · unfold Piece.gathered
      cases accepts : m.kind.acceptsPanel with
      | true => exact ⟨_, (content_gather _ drawn.2 (accepts ▸ below)).2⟩
      | false =>
        refine ⟨[], ?_⟩
        unfold Gathered.content
        rw [if_pos]
        exact Piece.markup_gather_dropping ..
    · exact readable_piecesOf _ inner _ drawn.2 below row inside

theorem readable_piecesOf {collects : Bool} (parent : Option FieldId) : ∀ (xs : List Sketch)
    (start : Nat), DrawnAll xs → WritableAll collects xs →
      Play.Readable (Piece.rowsOf parent start (piecesOf xs))
  | [], _, _, _ => nofun
  | x :: xs, start, drawn, writable => by
    rw [piecesOf, Piece.rowsOf_append]
    intro row mem
    rcases List.mem_append.1 mem with first | rest
    · exact readable_pieces parent x start drawn.1 writable.1 row first
    · exact readable_piecesOf parent xs _ drawn.2 writable.2 row rest
end

mutual
/-- What a node of a template says can be written when the node can. -/
theorem writable_ofNode (registry : Registry) (series : SeriesId) (collects : Bool) :
    ∀ (n : Markup.Node) (c : CounterPool), n.Writable →
      WritableAll collects (ofNode registry series c n).1
  | .text _, _, writable => ⟨fun _ => writable, trivial⟩
  | .element tag children, c, ⟨name, values, below⟩ => by
    rw [ofNode]
    cases registry.lookupUri? tag.uri with
    | none =>
      dsimp only
      split
      · exact ⟨⟨fun _ => ⟨name, values⟩, writable_ofNodes registry series _ children c below⟩, trivial⟩
      · exact writable_ofNodes registry series _ children c below
    | some factory =>
      dsimp only
      cases factory.makes with
      | none => exact writable_ofNodes registry series _ children _ below
      | some kind => exact ⟨writable_ofNodes registry series _ children _ below, trivial⟩

theorem writable_ofNodes (registry : Registry) (series : SeriesId) (collects : Bool) :
    ∀ (ns : List Markup.Node) (c : CounterPool), Markup.Node.WritableAll ns →
      WritableAll collects (ofNodes registry series c ns).1
  | [], _, _ => trivial
  | n :: ns, c, ⟨first, rest⟩ => by
    rw [ofNodes]
    exact (writable_ofNode registry series collects n c first).append
      (writable_ofNodes registry series collects ns _ rest)
end

end Sketch

/-- **A template whose content can be written** can be assembled on a new panel. -/
theorem Builder.exists_played (b : Builder) (page : Page) {inner : List Piece} {xs : List Sketch}
    (same : Piece.Same inner (Sketch.piecesOf xs)) (drawn : Sketch.DrawnAll xs)
    (writable : Sketch.WritableAll true xs) : ∃ d, b.played page none inner = .ok d := by
  have open_ : Play.Open none (Play.rootPlay (.blank (b.newPanel page)) none) :=
    Play.Open.blank rfl
  have begun : Play.Finds none none (Play.rootPlay (.blank (b.newPanel page)) none) .none :=
    ⟨rfl, rfl, nofun, fun _ => rfl⟩
  obtain ⟨played, run⟩ : ∃ played, Play.pieces none true inner
      (Play.rootPlay (.blank (b.newPanel page)) none) = .ok played := by
    refine (Play.exists_pieces_iff open_ begun).2 ?_
    rw [same.rows]
    exact Sketch.readable_piecesOf none xs _ drawn writable
  obtain ⟨content, readable⟩ : ∃ content, (Piece.gather none true
      (Play.rootPlay (.blank (b.newPanel page)) none).draft.size (Sketch.piecesOf xs)
        .none).content id = .ok content := ⟨_, (Sketch.content_gather _ drawn writable).1⟩
  rw [← same.gather] at readable
  obtain ⟨d, settled⟩ := Play.exists_settle
    (Play.pieces_outlines inner run open_ begun).finds.markup readable none
  exact ⟨d, Play.template_eq_ok.2 ⟨played, run, settled⟩⟩

end Formwork
