import Formwork.Proofs.Template.Kept
import Formwork.Proofs.Template.Recursion

/-!
# Elements that are taken for markers

A marker is known by its identifier alone, and an element of a template may have been written with
the same one.  Then it is taken for a marker: it goes away with its content, and a widget stands in
its place.  What directly lies in a template or in a field that shows its content keeps its markup
exactly if that happens to none of its elements (`Sketch.keeps_iff`).

If it happens to none, and all identifiers are different, the widgets stand just where the fields
were (`Sketch.markupWith_settledOf`).
-/

namespace Formwork

set_option autoImplicit false

/-! ## Written elements -/

namespace Sketch

mutual
/-- The markup of a sketch around its fields, with something written in the place of those that
became content. -/
def written (w : FieldId → String) (isPart : FieldId → Bool) (start : Nat) : Sketch → String
  | .text content => Markup.Escape.text content
  | .element tag inner => Html.around tag (writtenOf w isPart start inner)
  | .field _ _ => if isPart ⟨start⟩ then "" else w ⟨start⟩

/-- The markup of some sketches around their fields, with something written in the place of those
that became content. -/
def writtenOf (w : FieldId → String) (isPart : FieldId → Bool) (start : Nat) : List Sketch → String
  | [] => ""
  | x :: xs => x.written w isPart start ++ writtenOf w isPart (start + x.count) xs
end

mutual
/-- The elements of a sketch that are written out, without those in its fields. -/
def tags : Sketch → List Markup.Tag
  | .text _ => []
  | .element tag inner => tag :: tagsOf inner
  | .field _ _ => []

/-- The elements of some sketches that are written out, without those in their fields. -/
def tagsOf : List Sketch → List Markup.Tag
  | [] => []
  | x :: xs => x.tags ++ tagsOf xs
end

variable {placeholders : Placeholders} {w : FieldId → String} {isPart : FieldId → Bool}

/-- None of some elements is taken for a marker. -/
def Free (placeholders : Placeholders) (tags : List Markup.Tag) : Prop :=
  ∀ tag ∈ tags, placeholders.fieldOf? tag = none

theorem free_cons {tag : Markup.Tag} {tags : List Markup.Tag} :
    Free placeholders (tag :: tags) ↔ placeholders.fieldOf? tag = none ∧ Free placeholders tags := by
  simp [Free]

theorem free_append {tags more : List Markup.Tag} :
    Free placeholders (tags ++ more) ↔ Free placeholders tags ∧ Free placeholders more := by
  simp only [Free, List.mem_append, or_imp, forall_and]

/-- A marker is taken for one. -/
theorem fieldOf?_marker (identifier : String) :
    placeholders.fieldOf? ⟨"span", "span", [.plain "id" identifier]⟩ =
      placeholders.get? identifier := rfl

/-- All of some markers are taken for markers of their fields, or of others with the same `w`. -/
def Marks {α : Type} (placeholders : Placeholders) (w : FieldId → α)
    (marks : List (String × FieldId)) : Prop :=
  ∀ e ∈ marks, ∃ f, placeholders.get? e.1 = some f ∧ w f = w e.2

theorem marks_append {α : Type} {w : FieldId → α} {marks more : List (String × FieldId)} :
    Marks placeholders w (marks ++ more) ↔
      Marks placeholders w marks ∧ Marks placeholders w more := by
  simp only [Marks, List.mem_append, or_imp, forall_and]

mutual
theorem keptMarkup_marked : ∀ (x : Sketch) (start : Nat),
    Marks placeholders w (x.marks isPart start) → Free placeholders x.tags →
      placeholders.keptMarkupOf w (x.marked isPart start) = x.written w isPart start
  | .text content, _, _, _ => String.append_empty
  | .element tag inner, start, marks, free => by
    obtain ⟨own, below⟩ := free_cons.1 free
    rw [marked, Placeholders.keptMarkupOf, Placeholders.keptMarkupOf, Placeholders.keptMarkup, own,
      keptMarkupOf_markedOf inner start marks below, String.append_empty, written]
  | .field m inner, start, marks, _ => by
    rw [Sketch.marks] at marks
    rw [marked, written]
    by_cases part : isPart ⟨start⟩ = true
    · rw [if_pos part, if_pos part]
      rfl
    · rw [if_neg part] at marks ⊢
      obtain ⟨f, known, same⟩ := marks _ (List.mem_singleton_self _)
      rw [if_neg part, Placeholders.keptMarkupOf, Placeholders.keptMarkupOf, markerNode,
        Placeholders.keptMarkup, fieldOf?_marker, known, String.append_empty]
      exact same

/-- **The markup that stays** is what was written if no element is taken for a marker. -/
theorem keptMarkupOf_markedOf : ∀ (xs : List Sketch) (start : Nat),
    Marks placeholders w (marksOf isPart start xs) → Free placeholders (tagsOf xs) →
      placeholders.keptMarkupOf w (markedOf isPart start xs) = writtenOf w isPart start xs
  | [], _, _, _ => rfl
  | x :: xs, start, marks, free => by
    rw [marksOf, marks_append] at marks
    rw [tagsOf, free_append] at free
    rw [markedOf, Placeholders.keptMarkupOf_append, keptMarkup_marked x start marks.1 free.1,
      keptMarkupOf_markedOf xs _ marks.2 free.2, writtenOf]
end

mutual
theorem length_keptMarkup_marked : ∀ (x : Sketch) (start : Nat),
    Marks placeholders (fun _ => "") (x.marks isPart start) →
      (placeholders.keptMarkupOf (fun _ => "") (x.marked isPart start)).length ≤
          (x.written (fun _ => "") isPart start).length ∧
        (¬ Free placeholders x.tags →
          (placeholders.keptMarkupOf (fun _ => "") (x.marked isPart start)).length <
            (x.written (fun _ => "") isPart start).length)
  | .text content, start, marks => by
    have free : Free placeholders (tags (.text content)) := nofun
    rw [keptMarkup_marked _ start marks free]
    exact ⟨Nat.le_refl _, fun caught => absurd free caught⟩
  | .element tag inner, start, marks => by
    have below := length_keptMarkupOf_markedOf inner start marks
    have around := Html.length_around tag (writtenOf (fun _ => "") isPart start inner)
    rw [marked, Placeholders.keptMarkupOf, Placeholders.keptMarkupOf, Placeholders.keptMarkup,
      String.append_empty, written, tags, free_cons]
    cases taken : placeholders.fieldOf? tag with
    | some f =>
      have shorter := Nat.lt_of_lt_of_le (Nat.succ_pos _) around
      exact ⟨Nat.le_of_lt shorter, fun _ => shorter⟩
    | none =>
      simp only [Html.around, String.length_append]
      refine ⟨by omega, fun caught => ?_⟩
      have shorter := below.2 fun free => caught ⟨trivial, free⟩
      omega
  | .field m inner, start, marks => by
    have free : Free placeholders (tags (.field m inner)) := nofun
    rw [keptMarkup_marked _ start marks free]
    exact ⟨Nat.le_refl _, fun caught => absurd free caught⟩

/-- **Less markup stays** than was written if an element is taken for a marker. -/
theorem length_keptMarkupOf_markedOf : ∀ (xs : List Sketch) (start : Nat),
    Marks placeholders (fun _ => "") (marksOf isPart start xs) →
      (placeholders.keptMarkupOf (fun _ => "") (markedOf isPart start xs)).length ≤
          (writtenOf (fun _ => "") isPart start xs).length ∧
        (¬ Free placeholders (tagsOf xs) →
          (placeholders.keptMarkupOf (fun _ => "") (markedOf isPart start xs)).length <
            (writtenOf (fun _ => "") isPart start xs).length)
  | [], _, _ => ⟨Nat.le_refl _, fun caught => absurd (nofun : Free placeholders []) caught⟩
  | x :: xs, start, marks => by
    rw [marksOf, marks_append] at marks
    have first := length_keptMarkup_marked x start marks.1
    have rest := length_keptMarkupOf_markedOf xs (start + x.count) marks.2
    rw [markedOf, Placeholders.keptMarkupOf_append, writtenOf, tagsOf, free_append, not_and_or]
    simp only [String.length_append]
    refine ⟨by omega, fun caught => ?_⟩
    rcases caught with here | later
    · have shorter := first.2 here
      omega
    · have shorter := rest.2 later
      omega
end

mutual
theorem markedAmong_marked : ∀ (x : Sketch) (start : Nat),
    Marks placeholders id (x.marks isPart start) → Free placeholders x.tags →
      placeholders.markedAmong (x.marked isPart start) = (x.marks isPart start).map Prod.snd
  | .text _, _, _, _ => rfl
  | .element tag inner, start, marks, free => by
    obtain ⟨own, below⟩ := free_cons.1 free
    rw [marked, Placeholders.markedAmong, Placeholders.markedAmong, Placeholders.markedIn, own,
      List.append_nil, Sketch.marks]
    exact markedAmong_markedOf inner start marks below
  | .field m inner, start, marks, _ => by
    rw [Sketch.marks] at marks
    rw [marked, Sketch.marks]
    by_cases part : isPart ⟨start⟩ = true
    · rw [if_pos part, if_pos part]
      rfl
    · rw [if_neg part] at marks
      obtain ⟨f, known, rfl⟩ := marks _ (List.mem_singleton_self _)
      rw [if_neg part, if_neg part, Placeholders.markedAmong, Placeholders.markedAmong, markerNode,
        Placeholders.markedIn, fieldOf?_marker, known]
      rfl

/-- The markers are those of the fields if no element is taken for one. -/
theorem markedAmong_markedOf : ∀ (xs : List Sketch) (start : Nat),
    Marks placeholders id (marksOf isPart start xs) → Free placeholders (tagsOf xs) →
      placeholders.markedAmong (markedOf isPart start xs) = (marksOf isPart start xs).map Prod.snd
  | [], _, _, _ => rfl
  | x :: xs, start, marks, free => by
    rw [marksOf, marks_append] at marks
    rw [tagsOf, free_append] at free
    rw [markedOf, Placeholders.markedAmong_append, markedAmong_marked x start marks.1 free.1,
      markedAmong_markedOf xs _ marks.2 free.2, marksOf, List.map_append]
end

mutual
theorem mem_marks {e : String × FieldId} : ∀ {x : Sketch} {start : Nat}, e ∈ x.marks isPart start →
    start ≤ e.2.index ∧ e.2.index < start + x.count
  | .text _, _, mem => by cases mem
  | .element _ inner, _, mem => @mem_marksOf _ inner _ mem
  | .field m inner, start, mem => by
    rw [marks] at mem
    split at mem
    · cases mem
    · obtain rfl := List.mem_singleton.1 mem
      rw [count]
      exact ⟨Nat.le_refl _, by dsimp only; omega⟩

/-- The fields that markers stand for are numbered like those of the sketches. -/
theorem mem_marksOf {e : String × FieldId} : ∀ {xs : List Sketch} {start : Nat},
    e ∈ marksOf isPart start xs → start ≤ e.2.index ∧ e.2.index < start + countOf xs
  | [], _, mem => by cases mem
  | x :: xs, start, mem => by
    rw [countOf]
    rcases List.mem_append.1 mem with here | later
    · have range := mem_marks here
      omega
    · have range := mem_marksOf later
      omega
end

mutual
theorem nodup_marks : ∀ (x : Sketch) (start : Nat), ((x.marks isPart start).map Prod.snd).Nodup
  | .text _, _ => List.nodup_nil
  | .element _ inner, start => nodup_marksOf inner start
  | .field _ _, start => by
    rw [marks]
    split
    · exact List.nodup_nil
    · exact List.nodup_singleton _

/-- Different markers stand for different fields. -/
theorem nodup_marksOf : ∀ (xs : List Sketch) (start : Nat),
    ((marksOf isPart start xs).map Prod.snd).Nodup
  | [], _ => List.nodup_nil
  | x :: xs, start => by
    rw [marksOf, List.map_append, List.nodup_append]
    refine ⟨nodup_marks x start, nodup_marksOf xs _, ?_⟩
    rintro f here _ later rfl
    obtain ⟨e, mem, rfl⟩ := List.mem_map.1 here
    obtain ⟨e', mem', same⟩ := List.mem_map.1 later
    have range := mem_marks mem
    have range' := mem_marksOf mem'
    rw [same] at range'
    omega
end

/-! ## What is settled -/

/-- The identifiers of the markers that stand directly in a template or in a field of some kind. -/
def identifiersIn (container : Option FieldKind) (start : Nat) (xs : List Sketch) : List String :=
  (marksOf (isPartIn container start xs) start xs).map Prod.fst

/-- None of some elements has one of some identifiers. -/
def Apart (identifiers : List String) (tags : List Markup.Tag) : Prop :=
  ∀ tag ∈ tags, ∀ identifier, tag.plainAttributes.get? "id" = some identifier →
    identifier ∉ identifiers

/-- The markers that are collected for a field of some kind. -/
def marksIn (container : Option FieldKind) (start : Nat) (xs : List Sketch) : Placeholders :=
  (Piece.gather container true start (piecesOf xs) .none).marks

section Settled

variable {container : Option FieldKind} {start : Nat} {xs : List Sketch}

theorem marksIn_eq (drawn : DrawnAll xs) : marksIn container start xs =
    (marksOf (isPartIn container start xs) start xs).foldl (fun m e => m.insert e.1 e.2) .empty :=
  (finds_gather start drawn).marks

theorem isSome_marksIn (drawn : DrawnAll xs) {identifier : String} :
    ((marksIn container start xs).get? identifier).isSome ↔
      identifier ∈ identifiersIn container start xs := by
  rw [marksIn_eq drawn, OrderedMap.isSome_get?_iff, OrderedMap.mem_keys_foldl_insert]
  exact or_iff_left (List.not_mem_nil)

/-- No element is taken for a marker exactly if none was written with the identifier of one. -/
theorem free_iff (drawn : DrawnAll xs) : Free (marksIn container start xs) (tagsOf xs) ↔
    Apart (identifiersIn container start xs) (tagsOf xs) := by
  refine forall₂_congr fun tag _ => ?_
  rw [Placeholders.fieldOf?_eq, Option.bind_eq_none_iff]
  refine forall₂_congr fun identifier _ => ?_
  rw [← isSome_marksIn drawn, Option.not_isSome_iff_eq_none]

/-- **The markup around the widgets** is the one that was written exactly if no element was written
with the identifier of a marker. -/
theorem keeps_iff (drawn : DrawnAll xs) : Html.markupOf (settledOf container start xs) =
      writtenOf (fun _ => "") (isPartIn container start xs) start xs ↔
    Apart (identifiersIn container start xs) (tagsOf xs) := by
  have marks : Marks (marksIn container start xs) (fun _ => "")
      (marksOf (isPartIn container start xs) start xs) := by
    intro e mem
    obtain ⟨f, known⟩ := Option.isSome_iff_exists.1
      ((isSome_marksIn drawn).2 (List.mem_map_of_mem mem))
    exact ⟨f, known, rfl⟩
  have settled : Html.markupOf (settledOf container start xs) =
      (marksIn container start xs).keptMarkupOf (fun _ => "")
        (markedOf (isPartIn container start xs) start xs) :=
    (Placeholders.markupOf_settle _).trans (Placeholders.kept_readOf ..).1
  rw [settled, ← free_iff drawn]
  refine ⟨fun same => ?_, keptMarkupOf_markedOf xs start marks⟩
  by_contra caught
  have shorter := (length_keptMarkupOf_markedOf xs start marks).2 caught
  exact absurd (congrArg String.length same) (Nat.ne_of_lt shorter)

/-- Markers with different identifiers stand for their fields. -/
theorem marks_marksIn (drawn : DrawnAll xs) (distinct : (identifiersIn container start xs).Nodup) :
    Marks (marksIn container start xs) id (marksOf (isPartIn container start xs) start xs) := by
  intro e mem
  refine ⟨e.2, ?_, rfl⟩
  rw [marksIn_eq drawn]
  exact OrderedMap.get?_foldl_insert_of_mem _ distinct mem

/-- **What is settled has the widgets in the place of their fields**, when no element was written
with the identifier of a marker and all identifiers are different. -/
theorem markupWith_settledOf (w : Link → String) (drawn : DrawnAll xs)
    (distinct : (identifiersIn container start xs).Nodup)
    (apart : Apart (identifiersIn container start xs) (tagsOf xs)) :
    Html.markupOfWith w (settledOf container start xs) =
      writtenOf (fun f => w (.widget f)) (isPartIn container start xs) start xs := by
  have marks := marks_marksIn drawn distinct
  have free := (free_iff drawn).2 apart
  have marked : (marksIn container start xs).markedAmong
      (readOf (isPartIn container start xs) start xs) =
        (marksOf (isPartIn container start xs) start xs).map Prod.snd :=
    (Placeholders.kept_readOf (w := fun _ => "") ..).2.trans (markedAmong_markedOf xs start marks free)
  have different : ((marksIn container start xs).markedAmong
      (readOf (isPartIn container start xs) start xs)).Nodup := marked ▸ nodup_marksOf xs start
  refine (Placeholders.markupWith_settle different).trans ?_
  rw [(Placeholders.kept_readOf ..).1]
  refine keptMarkupOf_markedOf xs start (fun e mem => ?_) free
  obtain ⟨f, known, rfl⟩ := marks e mem
  exact ⟨_, known, rfl⟩

/-- What is settled has the widgets of fields that became content. -/
theorem mem_marksOf_of_target (drawn : DrawnAll xs)
    (distinct : (identifiersIn container start xs).Nodup)
    (apart : Apart (identifiersIn container start xs) (tagsOf xs)) {target : Link}
    (mem : target ∈ Html.targetsOf (settledOf container start xs)) :
    ∃ f ∈ (marksOf (isPartIn container start xs) start xs).map Prod.snd, target = .widget f := by
  obtain ⟨f, marked, same⟩ := Placeholders.exists_of_mem_targets_settle mem
  have fields := (@Placeholders.kept_readOf (marksIn container start xs) (fun _ => "")
    (isPartIn container start xs) start xs).2.trans
      (markedAmong_markedOf xs start (marks_marksIn drawn distinct) ((free_iff drawn).2 apart))
  exact ⟨f, fields ▸ marked, same⟩

end Settled

/-! ## Fields that show their content -/

mutual
/-- The fields of a sketch with their numbers and with what lies in them, at any depth. -/
def fields (start : Nat) : Sketch → List (FieldId × Made × List Sketch)
  | .text _ => []
  | .element _ inner => fieldsOf start inner
  | .field m inner => (⟨start⟩, m, inner) :: fieldsOf (start + 1) inner

/-- The fields of some sketches with their numbers and with what lies in them, at any depth. -/
def fieldsOf (start : Nat) : List Sketch → List (FieldId × Made × List Sketch)
  | [] => []
  | x :: xs => x.fields start ++ fieldsOf (start + x.count) xs
end

mutual
/-- Every field of a sketch has a row. -/
theorem exists_row_pieces {f : FieldId} {m : Made} {inner : List Sketch} : ∀ (x : Sketch)
    (start : Nat) (parent : Option FieldId), (f, m, inner) ∈ x.fields start → ∃ q,
      (⟨f, m, q, Piece.gathered m (piecesOf inner) f.index⟩ : Row) ∈
        Piece.rowsOf parent start x.pieces
  | .text _, _, _, mem => by simp [fields] at mem
  | .element tag below, start, parent, mem => by
    obtain ⟨q, row⟩ := exists_row_piecesOf below start parent mem
    refine ⟨q, ?_⟩
    rw [pieces, Piece.rowsOf, Piece.rows, List.nil_append, Piece.rowsOf_append]
    exact List.mem_append_left _ row
  | .field m' below, start, parent, mem => by
    rw [pieces, Piece.rowsOf, Piece.rows, Piece.rowsOf, List.append_nil]
    rcases List.mem_cons.1 mem with same | mem
    · cases same
      exact ⟨parent, List.mem_cons_self⟩
    · obtain ⟨q, row⟩ := exists_row_piecesOf below (start + 1) (some ⟨start⟩) mem
      exact ⟨q, List.mem_cons_of_mem _ row⟩

theorem exists_row_piecesOf {f : FieldId} {m : Made} {inner : List Sketch} : ∀ (xs : List Sketch)
    (start : Nat) (parent : Option FieldId), (f, m, inner) ∈ fieldsOf start xs → ∃ q,
      (⟨f, m, q, Piece.gathered m (piecesOf inner) f.index⟩ : Row) ∈
        Piece.rowsOf parent start (piecesOf xs)
  | [], _, _, mem => by simp [fieldsOf] at mem
  | x :: xs, start, parent, mem => by
    rw [piecesOf, Piece.rowsOf_append, countOf_pieces]
    rcases List.mem_append.1 mem with mem | mem
    · obtain ⟨q, row⟩ := exists_row_pieces x start parent mem
      exact ⟨q, List.mem_append_left _ row⟩
    · obtain ⟨q, row⟩ := exists_row_piecesOf xs (start + x.count) parent mem
      exact ⟨q, List.mem_append_right _ row⟩
end

mutual
/-- What lies in a field of a sketch was drawn and can be written. -/
theorem inner_fields {f : FieldId} {m : Made} {inner : List Sketch} {collects : Bool} :
    ∀ (x : Sketch) (start : Nat), x.Drawn → x.Writable collects → (f, m, inner) ∈ x.fields start →
      DrawnAll inner ∧ WritableAll m.kind.acceptsPanel inner
  | .text _, _, _, _, mem => by simp [fields] at mem
  | .element _ below, start, drawn, writable, mem =>
    inner_fieldsOf below start drawn writable.2 mem
  | .field m' below, start, drawn, writable, mem => by
    rcases List.mem_cons.1 mem with same | mem
    · cases same
      exact ⟨drawn.2, writable⟩
    · exact inner_fieldsOf below (start + 1) drawn.2 writable mem

theorem inner_fieldsOf {f : FieldId} {m : Made} {inner : List Sketch} {collects : Bool} :
    ∀ (xs : List Sketch) (start : Nat), DrawnAll xs → WritableAll collects xs →
      (f, m, inner) ∈ fieldsOf start xs → DrawnAll inner ∧ WritableAll m.kind.acceptsPanel inner
  | [], _, _, _, mem => by simp [fieldsOf] at mem
  | x :: xs, start, drawn, writable, mem => by
    rcases List.mem_append.1 mem with mem | mem
    · exact inner_fields x start drawn.1 writable.1 mem
    · exact inner_fieldsOf xs (start + x.count) drawn.2 writable.2 mem
end

end Sketch

/-! ## Panels that were built -/

/-- What a draft shows for the sketches of a template: the panel and every field that shows its
content have what was settled of their own. -/
structure Draft.Settles (d : Draft) (xs : List Sketch) : Prop where
  panel : d.filled none = Sketch.settledOf none 0 xs
  field : ∀ {f m inner}, (f, m, inner) ∈ Sketch.fieldsOf 0 xs → m.kind.acceptsPanel = true →
    d.filled (some f) = Html.boxed (Sketch.settledOf (some m.kind) (f.index + 1) inner)

/-- **The draft of a template** shows what was settled of its sketches. -/
theorem Draft.Outlined.settles {d : Draft} {inner : List Piece} (h : d.Outlined inner)
    {xs : List Sketch} (same : Piece.Same inner (Sketch.piecesOf xs)) (drawn : Sketch.DrawnAll xs)
    (writable : Sketch.WritableAll true xs) : d.Settles xs where
  panel := by
    have root := h.root
    rw [same.gather, (Sketch.content_gather 0 drawn writable).1] at root
    exact (Except.ok.inj root).symm
  field {f m inner'} mem accepts := by
    obtain ⟨q, row⟩ := Sketch.exists_row_piecesOf xs 0 none mem
    rw [← same.rows] at row
    obtain ⟨drawn', writable'⟩ := Sketch.inner_fieldsOf xs 0 drawn writable mem
    rw [accepts] at writable'
    have content := (h.rows _ row).content
    unfold Piece.gathered at content
    rw [accepts, (Sketch.content_gather _ drawn' writable').2] at content
    exact (Except.ok.inj content).symm

/-- Some content has the markup that was written directly in a template or in a field of some kind,
widgets left out. -/
def Sketch.Keeps (container : Option FieldKind) (start : Nat) (xs : List Sketch)
    (content : List Html) : Prop :=
  Html.markupOf content = writtenOf (fun _ => "") (isPartIn container start xs) start xs

namespace Builder

open Sketch (ofTemplate fieldsOf tagsOf identifiersIn Apart Keeps)

/-- **Elements are taken for markers exactly when they have their identifiers.**  A template that was
compiled from an element can be assembled on every page.  The panel keeps what was written directly
in it just when no element there has the identifier of one of its markers, and so does every field
that shows its content, with the markers of its own. -/
theorem assemble_keeps_iff (b : Builder) (registry : Registry) {n : Markup.Node}
    (writable : n.Writable) (w : Workspace) :
    ∃ (d : Draft) (s : Scene) (L : Layout),
      exec (b.assemble (Template.compile registry n)) w = (.ok s.panel, ⟨s.page, s.counters⟩) ∧
      s.Depicts w.page L d ∧
      (Keeps none 0 (ofTemplate registry b.series w.counters n).1 (d.filled none) ↔
        Apart (identifiersIn none 0 (ofTemplate registry b.series w.counters n).1)
          (tagsOf (ofTemplate registry b.series w.counters n).1)) ∧
      ∀ f m inner, (f, m, inner) ∈ fieldsOf 0 (ofTemplate registry b.series w.counters n).1 →
        m.kind.acceptsPanel = true → ∃ content, d.filled (some f) = Html.boxed content ∧
          (Keeps (some m.kind) (f.index + 1) inner content ↔
            Apart (identifiersIn (some m.kind) (f.index + 1) inner) (tagsOf inner)) := by
  obtain ⟨inner, pieces, same⟩ := Template.same_compile registry b.series n w.counters
  have drawn := Sketch.drawn_ofNode registry b.series n (w.counters.next b.series .placeholder).2
  have writable' := Sketch.writable_ofNode registry b.series true n
    (w.counters.next b.series .placeholder).2 writable
  obtain ⟨d, played⟩ := b.exists_played w.page same drawn writable'
  obtain ⟨s, L, run, depicts, _⟩ := (b.exec_assemble pieces).1 d played
  have settles := (Play.template_outlined (by rfl) played).settles same drawn writable'
  refine ⟨d, s, L, run, depicts, ?_, fun f m inner' mem accepts => ?_⟩
  · unfold Keeps
    rw [settles.panel]
    exact Sketch.keeps_iff drawn
  · have below := (Sketch.inner_fieldsOf _ 0 drawn writable' mem).1
    exact ⟨_, settles.field mem accepts, Sketch.keeps_iff below⟩

/-- An element with the identifier of the marker beside it. -/
def capturedElement : Markup.Element :=
  ⟨⟨"p", "p", []⟩, [.element ⟨"b", "b", [⟨"id", "id", "__tmps_1"⟩]⟩ [.text "x"],
    .element ⟨Vocabulary.reserved "input", "input", [⟨Vocabulary.nameKey, "name", "a"⟩]⟩ []]⟩

/-- A builder with that element as a template. -/
def capturedBuilder : Builder :=
  (create (.builtin 0) ⟨0⟩).addTemplate "t" capturedElement none

theorem assemble_keeps_iff_captured : capturedElement.toNode.Writable ∧
    ∃ (d : Draft) (s : Scene) (L : Layout),
      exec (capturedBuilder.assemble (Template.compile (.builtin 0) capturedElement.toNode))
        ⟨⟨#[]⟩, ⟨#[.initial]⟩⟩ = (.ok s.panel, ⟨s.page, s.counters⟩) ∧ s.Depicts ⟨#[]⟩ L d ∧
      ¬ Keeps none 0 (ofTemplate (.builtin 0) ⟨0⟩ ⟨#[.initial]⟩ capturedElement.toNode).1
        (d.filled none) := by
  have writable : capturedElement.toNode.Writable := by decide +kernel
  obtain ⟨d, s, L, run, depicts, panel, _⟩ :=
    assemble_keeps_iff capturedBuilder (.builtin 0) writable ⟨⟨#[]⟩, ⟨#[.initial]⟩⟩
  refine ⟨writable, d, s, L, run, depicts, fun keeps => ?_⟩
  exact panel.1 keeps ⟨"b", "b", [⟨"id", "id", "__tmps_1"⟩]⟩ (by decide +kernel) "__tmps_1"
    (by decide +kernel) (by decide +kernel)

/-- What the content of a panel looks like after a build. -/
def builtMarkup? : Except BuildError (Option Panel) × Workspace → Option String
  | (.ok (some p), w) => some (w.page.innerMarkup p.root)
  | _ => none

theorem exists_of_builtMarkup? {built : Except BuildError (Option Panel) × Workspace}
    {markup : String} (looks : builtMarkup? built = some markup) :
    ∃ p w', built = (.ok (some p), w') ∧ w'.page.innerMarkup p.root = markup := by
  match built, looks with
  | (.ok (some p), w'), looks => exact ⟨p, w', rfl, Option.some.inj looks⟩

/-- The element goes away with its content when the panel is built. -/
theorem build_captured : ∃ p w',
    exec (capturedBuilder.build "t") ⟨⟨#[]⟩, ⟨#[.initial]⟩⟩ = (.ok (some p), w') ∧
      w'.page.innerMarkup p.root = "<p><input type=\"text\" name=\"a\"></input></p>" :=
  exists_of_builtMarkup? (by decide +kernel)

end Builder

end Formwork
