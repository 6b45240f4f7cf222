import Formwork.Proofs.Template.Capture

/-!
# What a template looks like

What the panel of a template shows can be said of the template directly, by recursion on its sketch
(`Sketch.render`): texts and elements stand where they were written, and in the place of a field
stands its widget.  What a tab container or a disclosure takes for a part of its own stands in the
widget of that field instead, and what lies in a field that shows no content stands nowhere.

A view stands for the panel of another template, which is rendered in the same way
(`Sources.rendering`).
-/

namespace Formwork

set_option autoImplicit false

/-! ## The parts of a field -/

namespace Sketch

mutual
/-- The fields that lie directly in a sketch, with their numbers. -/
def direct (start : Nat) : Sketch → List (FieldId × Made)
  | .text _ => []
  | .element _ inner => directIn start inner
  | .field m _ => [(⟨start⟩, m)]

/-- The fields that lie directly in some sketches, with their numbers. -/
def directIn (start : Nat) : List Sketch → List (FieldId × Made)
  | [] => []
  | x :: xs => x.direct start ++ directIn (start + x.count) xs
end

end Sketch

/-- Whether a field was made from a header element. -/
def Made.isHeader (m : Made) : Bool := m.attributes.get? Vocabulary.tagKey = some Vocabulary.headerTag

/-- Whether a field wants to be shown when it becomes a page of a tab container. -/
def Made.isSelected (m : Made) : Bool := m.attributes.flag Vocabulary.selectedKey false

/-- What a field of some kind takes for parts of its own: a tab container all panels, a disclosure
the first header. -/
def Made.partsIn (container : Option FieldKind) (fields : List (FieldId × Made)) :
    List (FieldId × Made) :=
  match container with
  | some .tabs => fields.filter fun e => e.2.kind = .panel
  | some .disclosure => (fields.find? fun e => e.2.isHeader).toList
  | _ => []

/-- Whether a field was shown as a page: the last of the pages that wanted it is, and those before it
were. -/
def Made.exposureIn (container : Option FieldKind) (parts : List (FieldId × Made))
    (e : FieldId × Made) : Option Exposure :=
  if container = some .tabs ∧ e.1 ∈ parts.map Prod.fst then
    some (if ((parts.filter fun e => e.2.isSelected).map Prod.fst).getLast? = some e.1 then .shown
      else if e.2.isSelected then .formerly else .never)
  else none

/-- The parts of a field with a number. -/
def Sketch.own (m : Made) (number : Nat) (inner : List Sketch) : List (FieldId × Made) :=
  Made.partsIn (some m.kind) (directIn (number + 1) inner)

/-! ## Rendering -/

/-- What is shown of some sketches: their content, and the widgets of the fields among them that
became parts. -/
structure Shown where
  content : List Html
  parts : List Html

namespace Sketch

variable (messages : Messages) (held : FieldId → Option Html)

/-- The widget of a field with what is shown of the sketches in it; `own` are those of its fields
that became parts, and a view holds another panel. -/
def widget (f : FieldId) (m : Made) (exposure : Option Exposure) (own : List (FieldId × Made))
    (below : Shown) : Html :=
  (Field.create f m.kind m.name m.attributes).look messages exposure
    { header := below.parts.head?
      slot := if m.kind.acceptsPanel then Html.boxed below.content else (held f).toList
      captions := own.filterMap fun e => (Made.exposureIn (some m.kind) own e).map
        ((Field.create e.1 e.2.kind e.2.name e.2.attributes).captionLook messages)
      pages := below.parts }

mutual
/-- What is shown of a sketch in a field of some kind that has some parts. -/
def render (container : Option FieldKind) (parts : List (FieldId × Made)) (start : Nat) :
    Sketch → Shown
  | .text content => ⟨Html.ofNodes (Page.textNodes content), []⟩
  | .element tag inner =>
    let below := renderOf container parts start inner
    ⟨[.element tag.qname tag.plainAttributes below.content], below.parts⟩
  | .field m inner =>
    let shown := widget messages held ⟨start⟩ m (Made.exposureIn container parts (⟨start⟩, m))
      (own m start inner) (renderOf (some m.kind) (own m start inner) (start + 1) inner)
    if ⟨start⟩ ∈ parts.map Prod.fst then ⟨[], [shown]⟩ else ⟨[shown], []⟩

/-- What is shown of some sketches in a field of some kind that has some parts. -/
def renderOf (container : Option FieldKind) (parts : List (FieldId × Made)) (start : Nat) :
    List Sketch → Shown
  | [] => ⟨[], []⟩
  | x :: xs =>
    let first := render container parts start x
    let rest := renderOf container parts (start + x.count) xs
    ⟨first.content ++ rest.content, first.parts ++ rest.parts⟩
end

/-- What is shown of the sketches in a field with a number. -/
def shownIn (m : Made) (number : Nat) (inner : List Sketch) : Shown :=
  renderOf messages held (some m.kind) (own m number inner) (number + 1) inner

/-- What is shown of a template. -/
def rendering (xs : List Sketch) : List Html := (renderOf messages held none [] 0 xs).content

end Sketch

/-! ### Views -/

namespace OrderedMap

variable {κ α : Type} [DecidableEq κ]

/-- Put an entry into the group with its key. -/
def group (key : α → κ) (groups : OrderedMap κ (List α)) (x : α) : OrderedMap κ (List α) :=
  groups.insert (key x) ((groups.get? (key x)).getD [] ++ [x])

/-- Entries in groups by their keys, in the order of the first of each group. -/
def grouped (key : α → κ) (xs : List α) : OrderedMap κ (List α) := xs.foldl (group key) .empty

end OrderedMap

namespace Sketch

/-- The fields of some sketches, at any depth, with their numbers. -/
def allFields (start : Nat) (xs : List Sketch) : List (FieldId × Made) :=
  (fieldsOf start xs).map fun e => (e.1, e.2.1)

/-- The views of a template with the templates that they name, in the order in which they are filled:
fields of the same name come together. -/
def views (xs : List Sketch) : List (FieldId × Option String) :=
  (OrderedMap.grouped (fun e => e.2.name) (allFields 0 xs)).values.flatten.filterMap fun e =>
    if e.2.kind = .view then some (e.1, e.2.attributes.get? Vocabulary.templateKey) else none

end Sketch

/-- What templates were compiled from: elements, and the registries that said which of them are
fields. -/
abbrev Sources := String → Option (Registry × Markup.Node)

namespace Sources

/-- What is shown of templates, and the counters after they were built. -/
abbrev Renders := String → CounterPool → Option (List Html × CounterPool)

/-- What views hold when they are filled one after the other, besides what was held before. -/
def hold (render : Renders) : List (FieldId × Option String) → (FieldId → Option Html) →
    CounterPool → (FieldId → Option Html) × CounterPool
  | [], held, c => (held, c)
  | (_, none) :: views, held, c => hold render views held c
  | (f, some name) :: views, held, c =>
    match render name c with
    | none => hold render views held c
    | some (content, c') =>
      hold render views (Function.update held f (some (.element "div" .empty content))) c'

/-- What is shown of a template with all templates that it shows, as many levels down. -/
def rendering (sources : Sources) (messages : Messages) (series : SeriesId) : Nat → Renders
  | 0, _, _ => none
  | levels + 1, name, c => (sources name).map fun source =>
    let drawn := Sketch.ofTemplate source.1 series c source.2
    let filled := hold (rendering sources messages series levels) (Sketch.views drawn.1)
      (fun _ => none) drawn.2
    (Sketch.rendering messages filled.1 drawn.1, filled.2)

end Sources

/-! ## The fields that lie directly in something -/

namespace Sketch

mutual
theorem mem_direct {e : FieldId × Made} : ∀ {x : Sketch} {start : Nat}, e ∈ x.direct start →
    start ≤ e.1.index ∧ e.1.index < start + x.count
  | .text _, _, mem => by cases mem
  | .element _ inner, _, mem => @mem_directIn _ inner _ mem
  | .field m inner, start, mem => by
    obtain rfl := List.mem_singleton.1 mem
    rw [count]
    exact ⟨Nat.le_refl _, by dsimp only; omega⟩

theorem mem_directIn {e : FieldId × Made} : ∀ {xs : List Sketch} {start : Nat},
    e ∈ directIn start xs → start ≤ e.1.index ∧ e.1.index < start + countOf xs
  | [], _, mem => by cases mem
  | x :: xs, start, mem => by
    rw [countOf]
    rcases List.mem_append.1 mem with here | later
    · have range := mem_direct here
      omega
    · have range := mem_directIn later
      omega
end

mutual
theorem nodup_direct : ∀ (x : Sketch) (start : Nat), ((x.direct start).map Prod.fst).Nodup
  | .text _, _ => List.nodup_nil
  | .element _ inner, start => nodup_directIn inner start
  | .field _ _, _ => List.nodup_singleton _

/-- The fields that lie directly in some sketches are different. -/
theorem nodup_directIn : ∀ (xs : List Sketch) (start : Nat), ((directIn start xs).map Prod.fst).Nodup
  | [], _ => List.nodup_nil
  | x :: xs, start => by
    rw [directIn, List.map_append, List.nodup_append]
    refine ⟨nodup_direct x start, nodup_directIn xs _, ?_⟩
    rintro f here _ later rfl
    obtain ⟨e, mem, rfl⟩ := List.mem_map.1 here
    obtain ⟨e', mem', same⟩ := List.mem_map.1 later
    have range := mem_direct mem
    have range' := mem_directIn mem'
    rw [same] at range'
    omega
end

mutual
theorem exists_row_direct {e : FieldId × Made} : ∀ (x : Sketch) (start : Nat)
    (parent : Option FieldId), e ∈ x.direct start →
      ∃ g, (⟨e.1, e.2, parent, g⟩ : Row) ∈ Piece.rowsOf parent start x.pieces
  | .text _, _, _, mem => by cases mem
  | .element tag below, start, parent, mem => by
    obtain ⟨g, row⟩ := exists_row_directIn below start parent mem
    refine ⟨g, ?_⟩
    rw [pieces, Piece.rowsOf, Piece.rows, List.nil_append, Piece.rowsOf_append]
    exact List.mem_append_left _ row
  | .field m below, start, parent, mem => by
    obtain rfl := List.mem_singleton.1 mem
    refine ⟨Piece.gathered m (piecesOf below) start, ?_⟩
    rw [pieces, Piece.rowsOf, Piece.rows]
    exact List.mem_cons_self

/-- The fields that lie directly in some sketches have their rows below the field around them. -/
theorem exists_row_directIn {e : FieldId × Made} : ∀ (xs : List Sketch) (start : Nat)
    (parent : Option FieldId), e ∈ directIn start xs →
      ∃ g, (⟨e.1, e.2, parent, g⟩ : Row) ∈ Piece.rowsOf parent start (piecesOf xs)
  | [], _, _, mem => by cases mem
  | x :: xs, start, parent, mem => by
    rw [piecesOf, Piece.rowsOf_append, countOf_pieces]
    rcases List.mem_append.1 mem with here | later
    · obtain ⟨g, row⟩ := exists_row_direct x start parent here
      exact ⟨g, List.mem_append_left _ row⟩
    · obtain ⟨g, row⟩ := exists_row_directIn xs _ parent later
      exact ⟨g, List.mem_append_right _ row⟩
end

/-! ### Parts -/

/-- What decides whether a field is taken for a part. -/
def key (e : FieldId × Made) : FieldId × FieldKind × Bool := (e.1, e.2.kind, e.2.isHeader)

mutual
theorem map_numbered_trees : ∀ (x : Sketch) (start : Nat),
    (FieldTree.numbered start (Piece.treesOf x.pieces)).map
        (fun e => (e.1, e.2.kind, e.2.isHeader)) = (x.direct start).map key
  | .text _, _ => rfl
  | .element tag inner, start => by
    rw [pieces, Piece.treesOf_run, Piece.treesOf_append]
    have last : Piece.treesOf [Piece.run tag.closeMarkup] = [] := rfl
    rw [last, List.append_nil]
    exact map_numbered_treesOf inner start
  | .field m inner, start => rfl

/-- The fields that lie directly in some sketches are the trees of the pieces. -/
theorem map_numbered_treesOf : ∀ (xs : List Sketch) (start : Nat),
    (FieldTree.numbered start (Piece.treesOf (piecesOf xs))).map
        (fun e => (e.1, e.2.kind, e.2.isHeader)) = (directIn start xs).map key
  | [], _ => rfl
  | x :: xs, start => by
    have split : ∀ (ts us : List FieldTree) (start : Nat), FieldTree.numbered start (ts ++ us) =
        FieldTree.numbered start ts ++ FieldTree.numbered (start + FieldTree.sizeAll ts) us := by
      intro ts us
      induction ts with
      | nil => exact fun _ => rfl
      | cons t ts ih =>
        intro start
        rw [List.cons_append, FieldTree.numbered, ih, FieldTree.numbered, FieldTree.sizeAll,
          Nat.add_assoc]
        rfl
    rw [piecesOf, Piece.treesOf_append, split, List.map_append, Piece.sizeAll_treesOf,
      countOf_pieces, map_numbered_trees x start, map_numbered_treesOf xs, directIn, List.map_append]
end

end Sketch

namespace Piece

/-- What lies in no field is no part. -/
theorem attached_gather_outside (collects : Bool) : ∀ (xs : List Piece) (start : Nat) (g : Gathered),
    (gather none collects start xs g).attached = g.attached
  | [], _, _ => rfl
  | .run text :: xs, start, g => by
    rw [gather, attached_gather_outside collects xs, attached_write]
  | .field m inner :: xs, start, g => by
    have role : m.role none g.attached = .content := by
      unfold Made.role
      simp
    rw [gather, attached_gather_outside collects xs, role]
    rfl

end Piece

namespace Sketch

/-- **The parts that are found in a field** are those that fields of its kind take. -/
theorem attached_gather_piecesOf (container : Option FieldKind) (collects : Bool) (start : Nat)
    (xs : List Sketch) : (Piece.gather container collects start (piecesOf xs) .none).attached =
      (Made.partsIn container (directIn start xs)).map Prod.fst := by
  have keys := map_numbered_treesOf xs start
  cases container with
  | none => exact Piece.attached_gather_outside collects _ _ _
  | some kind =>
    by_cases tabs : kind = .tabs
    · subst tabs
      rw [(Piece.gather_tabs collects (piecesOf xs) start .none).1]
      generalize FieldTree.numbered start (Piece.treesOf (piecesOf xs)) = trees at keys
      have picked :=
        congrArg (fun l => (l.filter fun k => decide (k.2.1 = FieldKind.panel)).map Prod.fst) keys
      simp only [List.filter_map, List.map_map] at picked
      exact picked
    · by_cases disclosure : kind = .disclosure
      · subst disclosure
        rw [(Piece.gather_disclosure collects (piecesOf xs) start .none rfl).1]
        generalize FieldTree.numbered start (Piece.treesOf (piecesOf xs)) = trees at keys
        have picked := congrArg (fun l => ((l.find? fun k => k.2.2).map Prod.fst).toList) keys
        simp only [List.find?_map, Option.map_map] at picked
        rw [FieldTree.intercepted, Made.partsIn, ← Option.toList_map, ← Option.toList_map]
        exact picked
      · have none : Made.partsIn (some kind) (directIn start xs) = [] := by
          cases kind <;> first | rfl | contradiction
        rw [(Piece.gather_other collects tabs disclosure (piecesOf xs) start .none).1, none]
        rfl

/-- Entries that were picked from others with different keys are those with their keys. -/
theorem filter_keys_eq {α β : Type} [DecidableEq α] {own all : List (α × β)} (sub : own.Sublist all)
    (distinct : (all.map Prod.fst).Nodup) :
    (all.filter fun e => decide (e.1 ∈ own.map Prod.fst)) = own := by
  induction sub with
  | slnil => rfl
  | @cons own all e sub ih =>
    rw [List.map_cons, List.nodup_cons] at distinct
    have other : e.1 ∉ own.map Prod.fst := fun mem => distinct.1 ((sub.map Prod.fst).subset mem)
    rw [List.filter_cons_of_neg (by simpa using other), ih distinct.2]
  | @cons_cons own all e sub ih =>
    rw [List.map_cons, List.nodup_cons] at distinct
    have same : (all.filter fun e' => decide (e'.1 ∈ (e :: own).map Prod.fst)) =
        all.filter fun e' => decide (e'.1 ∈ own.map Prod.fst) := by
      refine List.filter_congr fun e' mem => ?_
      have ne : e'.1 ≠ e.1 := fun same => distinct.1 (same ▸ List.mem_map_of_mem mem)
      simp [ne]
    rw [List.filter_cons_of_pos (by simp), same, ih distinct.2]

theorem sublist_partsIn (container : Option FieldKind) (fields : List (FieldId × Made)) :
    (Made.partsIn container fields).Sublist fields := by
  unfold Made.partsIn
  split
  · exact List.filter_sublist
  · cases found : fields.find? fun e => e.2.isHeader with
    | none => exact List.nil_sublist _
    | some e => exact List.singleton_sublist.2 (List.mem_of_find?_eq_some found)
  · exact List.nil_sublist _

theorem mem_directIn_of_mem_own {m : Made} {number : Nat} {inner : List Sketch} {e : FieldId × Made}
    (mem : e ∈ own m number inner) : e ∈ directIn (number + 1) inner :=
  (sublist_partsIn _ _).subset mem

/-- The parts of a field are the fields that are among them. -/
theorem filter_own (m : Made) (number : Nat) (inner : List Sketch) :
    ((directIn (number + 1) inner).filter fun e =>
      decide (e.1 ∈ (own m number inner).map Prod.fst)) = own m number inner :=
  filter_keys_eq (sublist_partsIn ..) (nodup_directIn ..)

/-- Which of the fields in a field are its parts. -/
theorem isPartIn_eq (container : Option FieldKind) (start : Nat) (xs : List Sketch) (f : FieldId) :
    isPartIn container start xs f =
      decide (f ∈ (Made.partsIn container (directIn start xs)).map Prod.fst) := by
  unfold isPartIn
  rw [attached_gather_piecesOf]

end Sketch

end Formwork
