import Formwork.Proofs.Template.Play

/-!
# The outline of a template

What a template makes can be said without playing it.  Its fields are numbered in document order; a
field lies in the field around it, which takes it for content or for a part; and what is collected
for a field is the markup that lies directly in it, with markers in the place of its content.  The
*outline* of some pieces lists this for every field, one row for each.

`Play.pieces_outlines` says that playing makes just these fields, and `Play.exists_pieces_iff` when some
pieces can be played.
-/

namespace Formwork

set_option autoImplicit false

/-! ## Rows -/

/-- What a field of some kind, which has so many parts, takes a new field for. -/
def Made.role (m : Made) (container : Option FieldKind) (attached : List FieldId) : Role :=
  if container = some .tabs ∧ m.kind = .panel then .part
  else if container = some .disclosure ∧
      m.attributes.get? Vocabulary.tagKey = some Vocabulary.headerTag ∧ attached = [] then .part
  else .content

/-- What was found in a field: its content, its parts, and the markup with its markers. -/
structure Gathered where
  children : List FieldId
  attached : List FieldId
  markup : String
  marks : Placeholders

namespace Gathered

/-- Nothing was found. -/
def none : Gathered := ⟨[], [], "", .empty⟩

/-- Markup was found. -/
def write (g : Gathered) (collects : Bool) (text : String) : Gathered :=
  if collects then { g with markup := g.markup ++ text } else g

/-- A field was found. -/
def take (g : Gathered) (collects : Bool) (role : Role) (identifier : String) (f : FieldId) :
    Gathered :=
  match role with
  | .part => { g with attached := g.attached ++ [f] }
  | .content =>
    { children := g.children ++ [f]
      attached := g.attached
      markup := if collects then g.markup ++ markerMarkup identifier else g.markup
      marks := if collects then g.marks.insert identifier f else g.marks }

/-- What is shown of what was found, within something or not. -/
def content (g : Gathered) (wrap : List Html → List Html) : Except Markup.Error (List Html) :=
  if g.markup = "" then .ok []
  else (Markup.parseFragment g.markup).map fun ns => wrap (g.marks.settle ns)

end Gathered

/-- What an outline says of a field. -/
structure Row where
  id : FieldId
  made : Made
  parent : Option FieldId
  gathered : Gathered

namespace Piece

mutual
/-- How many fields a piece makes. -/
def count : Piece → Nat
  | .run _ => 0
  | .field _ inner => 1 + countOf inner

/-- How many fields some pieces make. -/
def countOf : List Piece → Nat
  | [] => 0
  | x :: xs => x.count + countOf xs
end

/-- What is found in a field, whose first field has a number, besides what was found before. -/
def gather (container : Option FieldKind) (collects : Bool) (start : Nat) :
    List Piece → Gathered → Gathered
  | [], g => g
  | .run text :: xs, g => gather container collects start xs (g.write collects text)
  | .field m inner :: xs, g =>
    gather container collects (start + (1 + countOf inner)) xs
      (g.take collects (m.role container g.attached) m.identifier ⟨start⟩)

/-- What is found in a field with a number. -/
def gathered (m : Made) (inner : List Piece) (number : Nat) : Gathered :=
  gather (some m.kind) m.kind.acceptsPanel (number + 1) inner .none

mutual
/-- The outline of a piece below a field. -/
def rows (parent : Option FieldId) (start : Nat) : Piece → List Row
  | .run _ => []
  | .field m inner =>
    ⟨⟨start⟩, m, parent, gathered m inner start⟩ :: rowsOf (some ⟨start⟩) (start + 1) inner

/-- The outline of some pieces below a field. -/
def rowsOf (parent : Option FieldId) (start : Nat) : List Piece → List Row
  | [] => []
  | x :: xs => rows parent start x ++ rowsOf parent (start + x.count) xs
end

mutual
/-- The rows of an outline are numbered from the first on. -/
theorem map_id_rows (parent : Option FieldId) (start : Nat) : ∀ x : Piece,
    (rows parent start x).map (fun row => row.id.index) = List.range' start x.count
  | .run _ => rfl
  | .field m inner => by
    rw [rows, List.map_cons, map_id_rowsOf, count, Nat.add_comm 1, List.range'_succ]

theorem map_id_rowsOf (parent : Option FieldId) (start : Nat) : ∀ xs : List Piece,
    (rowsOf parent start xs).map (fun row => row.id.index) = List.range' start (countOf xs)
  | [] => rfl
  | x :: xs => by
    rw [rowsOf, List.map_append, map_id_rows, map_id_rowsOf, countOf, ← List.range'_append_1]
end

theorem gather_cons (container : Option FieldKind) (collects : Bool) (start : Nat) (x : Piece)
    (xs : List Piece) (g : Gathered) :
    gather container collects start (x :: xs) g =
      gather container collects (start + x.count) xs (gather container collects start [x] g) := by
  cases x with
  | run text => rfl
  | field m inner => rfl

end Piece

/-! ## Drafts with an outline -/

namespace Draft

/-- The field of a row. -/
def fieldOf (row : Row) : Field :=
  { Field.create row.id row.made.kind row.made.name row.made.attributes with
    parent := row.parent
    children := row.gathered.children
    attached := row.gathered.attached }

/-- A draft has a field with its content as a row says. -/
structure HasRow (d : Draft) (row : Row) : Prop where
  field : d.field? row.id = some (fieldOf row)
  content : row.gathered.content Play.wrapped = .ok (d.filled (some row.id))

/-- The index of the fields of some rows, besides that of others. -/
def indexOf (names : OrderedMap String (List FieldId)) (rows : List Row) :
    OrderedMap String (List FieldId) :=
  rows.foldl (fun names row => names.insert row.made.name
    ((names.get? row.made.name).getD [] ++ [row.id])) names

theorem indexOf_append (names : OrderedMap String (List FieldId)) (rows rows' : List Row) :
    indexOf names (rows ++ rows') = indexOf (indexOf names rows) rows' := List.foldl_append ..

theorem HasRow.fill {d : Draft} {row : Row} (h : d.HasRow row) {target : Option FieldId}
    (other : some row.id ≠ target) (content : List Html) : (d.fill target content).HasRow row where
  field := h.field
  content := by
    rw [filled_fill_of_ne _ _ other]
    exact h.content

end Draft

namespace Play

/-- A play has found something in the field it lies in. -/
structure Finds (parent : Option FieldId) (container : Option Field) (p : Play) (g : Gathered) :
    Prop where
  markup : p.markup = g.markup
  marks : p.marks = g.marks
  field : ∀ q, parent = some q → ∃ c, container = some c ∧
    p.draft.field? q = some { c with children := g.children, attached := g.attached }
  outside : parent = none → container = none

/-- A draft with more fields, in which all old ones but one are the same. -/
structure Extends (parent : Option FieldId) (d d' : Draft) : Prop where
  grows : Grows d d'
  same : ∀ {f field}, d.field? f = some field → some f ≠ parent → d'.field? f = some field

theorem Extends.refl (parent : Option FieldId) (d : Draft) : Extends parent d d where
  grows := Grows.refl d
  same found _ := found

theorem Extends.trans {parent : Option FieldId} {d d' d'' : Draft} (first : Extends parent d d')
    (second : Extends parent d' d'') : Extends parent d d'' where
  grows := first.grows.trans second.grows
  same found other := second.same (first.same found other) other

/-- A row stays when its field does. -/
theorem Extends.hasRow {parent : Option FieldId} {d d' : Draft} (h : Extends parent d d') {row : Row}
    (there : d.HasRow row) (other : some row.id ≠ parent) : d'.HasRow row where
  field := h.same there.field other
  content := by
    rw [h.grows.filled _ fun f eq => by cases eq; exact Draft.lt_size there.field]
    exact there.content

section Enter

variable {d : Draft} {parent : Option FieldId} {m : Made}

/-- The field that a new one lies in gets a child, and no other changes. -/
theorem field?_enter_old {f : FieldId} {field : Field} (found : d.field? f = some field)
    (known : ∀ q, parent = some q → ∃ field, d.field? q = some field) :
    (d.enter parent m).field? f =
      some (if some f = parent then field.addChild (d.roleUnder parent m) ⟨d.size⟩ else field) := by
  have there := Draft.field?_add_of_some found (d.made m)
  have ne : f ≠ ⟨d.size⟩ := by
    rintro rfl
    exact Nat.lt_irrefl _ (Draft.lt_size found)
  unfold Draft.enter
  cases parent with
  | none => exact there
  | some q =>
    obtain ⟨container, hq⟩ := known q rfl
    have younger : q ≠ ⟨d.size⟩ := by
      rintro rfl
      exact Nat.lt_irrefl _ (Draft.lt_size hq)
    dsimp only
    rw [Draft.field?_link younger (field?_made d m) rfl, if_neg ne]
    by_cases same : f = q
    · subst same
      rw [if_pos rfl, if_pos rfl, there]
      rfl
    · rw [if_neg same, if_neg (by simpa using same), there]

theorem names_enter (d : Draft) (parent : Option FieldId) (m : Made) :
    (d.enter parent m).panel.table.names =
      d.panel.table.names.insert m.name ((d.panel.table.names.get? m.name).getD [] ++ [⟨d.size⟩]) := by
  unfold Draft.enter
  cases parent with
  | none => rfl
  | some q => exact FieldTable.names_link (d.add (d.made m)).panel.table (field?_made d m) rfl _

/-- What a new field is taken for can be read off what was found before. -/
theorem Finds.role {p : Play} {container : Option Field} {g : Gathered}
    (h : Finds parent container p g) :
    p.draft.roleUnder parent m = m.role (container.map Field.kind) g.attached := by
  cases parent with
  | none =>
    rw [h.outside rfl]
    rfl
  | some q =>
    obtain ⟨c, rfl, found⟩ := h.field q rfl
    show (p.draft.add (p.draft.made m)).roleOf q ⟨p.draft.size⟩ = _
    unfold Draft.roleOf
    rw [Draft.field?_add_of_some found, field?_made]
    unfold Draft.roleIn Made.role
    simp only [Option.map_some, Option.some.injEq]
    rfl

end Enter

/-- Playing some pieces makes what their outline says. -/
structure Outlines (parent : Option FieldId) (container : Option Field) (collects : Bool)
    (xs : List Piece) (g : Gathered) (p p' : Play) : Prop where
  size : p'.draft.size = p.draft.size + Piece.countOf xs
  more : Extends parent p.draft p'.draft
  finds : Finds parent container p'
    (Piece.gather (container.map Field.kind) collects p.draft.size xs g)
  rows : ∀ row ∈ Piece.rowsOf parent p.draft.size xs, p'.draft.HasRow row
  names : p'.draft.panel.table.names =
    Draft.indexOf p.draft.panel.table.names (Piece.rowsOf parent p.draft.size xs)

section Steps

variable {parent : Option FieldId} {container : Option Field} {collects : Bool} {m : Made}
  {inner : List Piece} {g : Gathered} {p p' played : Play} {settled : Draft}

theorem Outlines.nil (h : Finds parent container p g) :
    Outlines parent container collects [] g p p where
  size := rfl
  more := Extends.refl parent p.draft
  finds := h
  rows := nofun
  names := rfl

theorem Outlines.run (h : Finds parent container p g) (text : String) :
    Outlines parent container collects [.run text] g p (p.write collects text) := by
  have draft : (p.write collects text).draft = p.draft := by
    unfold Play.write
    split <;> rfl
  refine ⟨by rw [draft]; rfl, by rw [draft]; exact Extends.refl parent p.draft, ?_,
    nofun, by rw [draft]; rfl⟩
  refine ⟨?_, ?_, ?_, h.outside⟩
  · unfold Play.write Piece.gather Piece.gather Gathered.write
    cases collects
    · exact h.markup
    · exact congrArg (· ++ text) h.markup
  · unfold Play.write Piece.gather Piece.gather Gathered.write
    cases collects <;> exact h.marks
  · intro q eq
    obtain ⟨c, same, found⟩ := h.field q eq
    refine ⟨c, same, ?_⟩
    rw [draft]
    unfold Piece.gather Piece.gather Gathered.write
    cases collects <;> exact found

theorem Piece.mem_rowsOf {parent : Option FieldId} {start : Nat} {xs : List Piece} {row : Row}
    (mem : row ∈ Piece.rowsOf parent start xs) :
    start ≤ row.id.index ∧ row.id.index < start + Piece.countOf xs := by
  have numbered := List.mem_map_of_mem (f := fun row : Row => row.id.index) mem
  rw [Piece.map_id_rowsOf, List.mem_range'_1] at numbered
  exact numbered

/-- What was found when a field began. -/
theorem Finds.enter (collects : Bool) (h : Finds parent container p g) (open_ : Open parent p) :
    Finds parent container (p.enter parent collects m)
      (g.take collects (m.role (container.map Field.kind) g.attached) m.identifier ⟨p.draft.size⟩) := by
  have role := h.role (m := m)
  refine ⟨?_, ?_, ?_, h.outside⟩
  · unfold Play.enter Gathered.take
    rw [role, h.markup]
    cases m.role (container.map Field.kind) g.attached <;> simp
  · unfold Play.enter Gathered.take
    rw [role, h.marks]
    cases m.role (container.map Field.kind) g.attached <;> simp
  · intro q eq
    obtain ⟨c, same, found⟩ := h.field q eq
    refine ⟨c, same, ?_⟩
    unfold Play.enter
    dsimp only
    rw [field?_enter_old found open_.known, if_pos eq.symm, role]
    unfold Field.addChild Gathered.take
    cases m.role (container.map Field.kind) g.attached <;> rfl

/-- Nothing was found yet in a new field. -/
theorem Finds.begun (collects : Bool) (open_ : Open parent p) :
    Finds (some ⟨p.draft.size⟩) (some { p.draft.made m with parent := parent })
      ⟨(p.enter parent collects m).draft, "", .empty⟩ .none :=
  ⟨rfl, rfl, fun q eq => by cases eq; exact ⟨_, rfl, field?_enter open_.known⟩, nofun⟩

/-- What settling a field puts into it. -/
theorem settle_content (open_ : Open (some ⟨p.draft.size⟩) played) (markup : played.markup = g.markup)
    (marks : played.marks = g.marks) (run : played.settle (some ⟨p.draft.size⟩) wrapped = .ok settled) :
    g.content wrapped = .ok (settled.filled (some ⟨p.draft.size⟩)) := by
  unfold Gathered.content
  unfold settle at run
  rw [markup, marks] at run
  split at run
  · case isTrue nothing =>
    cases run
    rw [if_pos nothing, open_.unfilled _ rfl]
  · case isFalse something =>
    rw [if_neg something]
    cases read : Markup.parseFragment g.markup with
    | error e =>
      rw [read] at run
      cases run
    | ok ns =>
      rw [read] at run
      cases run
      rw [Draft.filled_fill_self]
      rfl

theorem Outlines.field (h : Finds parent container p g) (open_ : Open parent p)
    (inside : Outlines (some ⟨p.draft.size⟩) (some { p.draft.made m with parent := parent })
      m.kind.acceptsPanel inner .none ⟨(p.enter parent collects m).draft, "", .empty⟩ played)
    (open' : Open (some ⟨p.draft.size⟩) played)
    (run : played.settle (some ⟨p.draft.size⟩) wrapped = .ok settled) :
    Outlines parent container collects [.field m inner] g p
      { p.enter parent collects m with draft := settled } := by
  have size : (p.enter parent collects m).draft.size = p.draft.size + 1 := size_enter ..
  -- what was old in the field when it began stays
  have kept : ∀ {f field}, (p.enter parent collects m).draft.field? f = some field →
      f.index < p.draft.size → settled.field? f = some field := by
    intro f field found old
    rw [field?_settle run]
    refine inside.more.same found ?_
    rintro ⟨⟩
    exact Nat.lt_irrefl _ old
  have split : Piece.rowsOf parent p.draft.size [.field m inner] =
      ⟨⟨p.draft.size⟩, m, parent, Piece.gathered m inner p.draft.size⟩ ::
        Piece.rowsOf (some ⟨p.draft.size⟩) (p.enter parent collects m).draft.size inner := by
    rw [Piece.rowsOf, Piece.rowsOf, List.append_nil, Piece.rows, size]
  refine ⟨?_, ?_, ?_, ?_, ?_⟩
  · have more := inside.size
    dsimp only at more ⊢
    rw [size_settle run, more, size, Piece.countOf, Piece.countOf, Piece.count]
    omega
  · refine ⟨((enter_grows open_.sound open_.known).trans inside.more.grows).settle run, ?_⟩
    intro f field found other
    refine kept ?_ (Draft.lt_size found)
    have entered := field?_enter_old (m := m) found open_.known
    rw [if_neg other] at entered
    exact entered
  · have entered := h.enter (m := m) collects open_
    refine ⟨entered.markup, entered.marks, ?_, h.outside⟩
    intro q eq
    obtain ⟨c, same, found⟩ := entered.field q eq
    obtain ⟨_, known⟩ := open_.known q eq
    exact ⟨c, same, kept found (Draft.lt_size known)⟩
  · intro row mem
    rw [split, List.mem_cons] at mem
    rcases mem with rfl | below
    · obtain ⟨c, same, found⟩ := inside.finds.field _ rfl
      cases same
      rw [size] at found
      refine ⟨(field?_settle run _).trans found, ?_⟩
      have content := settle_content open' inside.finds.markup inside.finds.marks run
      rw [size] at content
      exact content
    · have number := (Piece.mem_rowsOf below).1
      have other : some row.id ≠ some ⟨p.draft.size⟩ := by
        intro eq
        rw [Option.some.inj eq, size] at number
        exact Nat.lt_irrefl _ number
      have there := inside.rows row below
      exact ⟨(field?_settle run _).trans there.field,
        there.content.trans (congrArg _ (filled_settle_of_ne run other).symm)⟩
  · rw [split]
    dsimp only
    rw [panel_settle run, inside.names]
    show Draft.indexOf (p.draft.enter parent m).panel.table.names _ = _
    rw [names_enter]
    rfl

theorem Outlines.cons {x : Piece} {xs : List Piece} {p₁ : Play}
    (first : Outlines parent container collects [x] g p p₁)
    (rest : Outlines parent container collects xs
      (Piece.gather (container.map Field.kind) collects p.draft.size [x] g) p₁ p')
    (later : ∀ q, parent = some q → q.index < p.draft.size) :
    Outlines parent container collects (x :: xs) g p p' := by
  have size : p₁.draft.size = p.draft.size + x.count := by
    rw [first.size, Piece.countOf, Piece.countOf, Nat.add_zero]
  have single : Piece.rowsOf parent p.draft.size [x] = Piece.rows parent p.draft.size x := by
    rw [Piece.rowsOf, Piece.rowsOf, List.append_nil]
  have finds := rest.finds
  have rows := rest.rows
  have names := rest.names
  rw [size] at finds rows names
  refine ⟨?_, first.more.trans rest.more, ?_, ?_, ?_⟩
  · rw [rest.size, size, Piece.countOf, Nat.add_assoc]
  · rw [Piece.gather_cons]
    exact finds
  · intro row mem
    rw [Piece.rowsOf, List.mem_append] at mem
    rcases mem with old | new
    · rw [← single] at old
      refine rest.more.hasRow (first.rows row old) fun eq => ?_
      have number := (Piece.mem_rowsOf old).1
      exact absurd (later _ eq.symm) (Nat.not_lt_of_le number)
    · exact rows row new
  · rw [Piece.rowsOf, Draft.indexOf_append, ← single, ← first.names]
    exact names

end Steps

mutual
/-- **Playing a piece** makes what its outline says. -/
theorem piece_outlines {parent : Option FieldId} {container : Option Field} {collects : Bool} :
    ∀ (x : Piece) {g : Gathered} {p p' : Play}, piece parent collects x p = .ok p' →
      Open parent p → Finds parent container p g → Outlines parent container collects [x] g p p'
  | .run text, g, p, p', run, _, h => by
    rw [piece] at run
    cases run
    exact Outlines.run h text
  | .field m inner, g, p, p', run, open_, h => by
    obtain ⟨played, settled, first, second, rfl⟩ := piece_field_eq_ok.1 run
    obtain ⟨_, open'⟩ := pieces_grows inner first (open_.inner _)
    have inside := pieces_outlines inner first (open_.inner _) (Finds.begun _ open_)
    exact Outlines.field h open_ inside open' second

/-- **Playing some pieces** makes what their outline says. -/
theorem pieces_outlines {parent : Option FieldId} {container : Option Field} {collects : Bool} :
    ∀ (xs : List Piece) {g : Gathered} {p p' : Play}, pieces parent collects xs p = .ok p' →
      Open parent p → Finds parent container p g → Outlines parent container collects xs g p p'
  | [], g, p, p', run, _, h => by
    cases run
    exact Outlines.nil h
  | x :: xs, g, p, p', run, open_, h => by
    rw [pieces] at run
    cases first : piece parent collects x p with
    | error e =>
      rw [first] at run
      cases run
    | ok p₁ =>
      rw [first] at run
      obtain ⟨_, open₁⟩ := piece_grows x first open_
      have one := piece_outlines x first open_ h
      refine one.cons (pieces_outlines xs run open₁ one.finds) fun q eq => ?_
      obtain ⟨field, known⟩ := open_.known q eq
      exact Draft.lt_size known
end

/-! ## When playing fails -/

/-- What is collected for the fields of some rows can be read. -/
def Readable (rows : List Row) : Prop :=
  ∀ row ∈ rows, ∃ content, row.gathered.content wrapped = .ok content

theorem exists_settle {p : Play} {g : Gathered} (markup : p.markup = g.markup)
    {wrap : List Html → List Html} {content : List Html} (readable : g.content wrap = .ok content)
    (target : Option FieldId) : ∃ settled, p.settle target wrap = .ok settled := by
  unfold settle
  unfold Gathered.content at readable
  rw [markup]
  by_cases nothing : g.markup = ""
  · rw [if_pos nothing]
    exact ⟨_, rfl⟩
  · rw [if_neg nothing] at readable ⊢
    cases read : Markup.parseFragment g.markup with
    | error e =>
      rw [read] at readable
      cases readable
    | ok ns => exact ⟨_, rfl⟩

mutual
/-- A piece can be played when what it collects can be read. -/
theorem exists_piece {parent : Option FieldId} {container : Option Field} (collects : Bool) :
    ∀ (x : Piece) {g : Gathered} {p : Play}, Open parent p → Finds parent container p g →
      Readable (Piece.rows parent p.draft.size x) → ∃ p', piece parent collects x p = .ok p'
  | .run text, g, p, _, _, _ => ⟨_, by rw [piece]⟩
  | .field m inner, g, p, open_, h, readable => by
    rw [Piece.rows] at readable
    have size : (p.enter parent collects m).draft.size = p.draft.size + 1 := size_enter ..
    have start := Finds.begun (m := m) collects open_
    obtain ⟨played, first⟩ := exists_pieces m.kind.acceptsPanel inner (open_.inner _) start (by
      rw [size]
      exact fun row mem => readable row (List.mem_cons_of_mem _ mem))
    have inside := pieces_outlines inner first (open_.inner _) start
    obtain ⟨content, own⟩ := readable _ List.mem_cons_self
    have markup := inside.finds.markup
    rw [size] at markup
    obtain ⟨settled, second⟩ := exists_settle markup own (some ⟨p.draft.size⟩)
    exact ⟨_, piece_field_eq_ok.2 ⟨played, settled, first, second, rfl⟩⟩

/-- Pieces can be played when what they collect can be read. -/
theorem exists_pieces {parent : Option FieldId} {container : Option Field} (collects : Bool) :
    ∀ (xs : List Piece) {g : Gathered} {p : Play}, Open parent p → Finds parent container p g →
      Readable (Piece.rowsOf parent p.draft.size xs) → ∃ p', pieces parent collects xs p = .ok p'
  | [], g, p, _, _, _ => ⟨p, rfl⟩
  | x :: xs, g, p, open_, h, readable => by
    rw [Piece.rowsOf] at readable
    obtain ⟨p₁, first⟩ := exists_piece collects x open_ h
      fun row mem => readable row (List.mem_append_left _ mem)
    obtain ⟨_, open₁⟩ := piece_grows x first open_
    have one := piece_outlines x first open_ h
    have size : p₁.draft.size = p.draft.size + x.count := by
      rw [one.size, Piece.countOf, Piece.countOf, Nat.add_zero]
    obtain ⟨p', rest⟩ := exists_pieces collects xs open₁ one.finds (by
      rw [size]
      exact fun row mem => readable row (List.mem_append_right _ mem))
    exact ⟨p', by rw [pieces, first]; exact rest⟩
end

/-- **Pieces can be played** just when what they collect for each of their fields can be read. -/
theorem exists_pieces_iff {parent : Option FieldId} {container : Option Field} {collects : Bool}
    {xs : List Piece} {g : Gathered} {p : Play} (open_ : Open parent p)
    (h : Finds parent container p g) :
    (∃ p', pieces parent collects xs p = .ok p') ↔
      Readable (Piece.rowsOf parent p.draft.size xs) := by
  constructor
  · rintro ⟨p', run⟩ row mem
    exact ⟨_, ((pieces_outlines xs run open_ h).rows row mem).content⟩
  · exact exists_pieces collects xs open_ h

end Play

end Formwork
