import Formwork.Proofs.Template.Splice
import Formwork.Template.Assembly

/-!
# What assembling a template does to a draft

The items of a template are first given names and identifiers, in document order, and elements whose
factories decline are left out (`Piece.ofItems`).  Then they are played on a draft (`Play.pieces`):
runs of markup are collected, every field joins the table below the field it lies in, and what was
collected for a field is settled and put into its slot when the field ends.

Playing changes what is new only (`Play.Grows`), and keeps what a frame relies on (`Play.Open`).
-/

namespace Formwork

set_option autoImplicit false

/-! ## Pieces -/

/-- What a field of a template is made from, and the identifier of its marker. -/
structure Made where
  kind : FieldKind
  name : String
  attributes : Attributes
  identifier : String

/-- What a template says: runs of markup, and between them fields with their content. -/
inductive Piece where
  | run (text : String)
  | field (made : Made) (inner : List Piece)

namespace Piece

/-- What a new field is made from, and the counters after it began. -/
def make (series : SeriesId) (c : CounterPool) (kind : FieldKind) (attributes : Attributes) :
    Made × CounterPool :=
  let named := c.nameField series kind attributes
  let drawn := named.2.next series .placeholder
  (⟨kind, named.1, attributes, drawn.1⟩, drawn.2)

mutual
/-- An item with names and identifiers, and the counters after they were drawn. -/
def ofItem (series : SeriesId) (c : CounterPool) : Cache.Item Blueprint → List Piece × CounterPool
  | .text text => ([.run text], c)
  | .composite b items =>
    match b.factory.bind Factory.makes with
    | none => ofItems series (c.next series .placeholder).2 items
    | some kind =>
      let made := make series c kind b.attributes
      let below := ofItems series made.2 items
      ([.field made.1 below.1], below.2)

/-- Items with names and identifiers, and the counters after they were drawn. -/
def ofItems (series : SeriesId) (c : CounterPool) : List (Cache.Item Blueprint) →
    List Piece × CounterPool
  | [] => ([], c)
  | item :: items =>
    let first := ofItem series c item
    let rest := ofItems series first.2 items
    (first.1 ++ rest.1, rest.2)
end

end Piece

/-! ## Playing -/

/-- A draft in the making, and the markup that was collected for the innermost field. -/
structure Play where
  draft : Draft
  markup : String
  marks : Placeholders

namespace Draft

/-- What one field of a draft takes another for. -/
def roleOf (d : Draft) (parent child : FieldId) : Role :=
  match d.field? parent, d.field? child with
  | some container, some child => roleIn container child
  | _, _ => .content

/-- The new field that something is made into. -/
def made (d : Draft) (m : Made) : Field := .create ⟨d.size⟩ m.kind m.name m.attributes

/-- What a new field is taken for by the field it lies in. -/
def roleUnder (d : Draft) (parent : Option FieldId) (m : Made) : Role :=
  match parent with
  | none => .content
  | some q => (d.add (d.made m)).roleOf q ⟨d.size⟩

/-- Add a new field below the field it lies in. -/
def enter (d : Draft) (parent : Option FieldId) (m : Made) : Draft :=
  match parent with
  | none => d.add (d.made m)
  | some q => (d.add (d.made m)).link q ⟨d.size⟩ (d.roleUnder parent m)

end Draft

namespace Play

/-- Collect a run of markup. -/
def write (p : Play) (collects : Bool) (text : String) : Play :=
  if collects then { p with markup := p.markup ++ text } else p

/-- A field begins. -/
def enter (p : Play) (parent : Option FieldId) (collects : Bool) (m : Made) : Play where
  draft := p.draft.enter parent m
  markup := if collects ∧ p.draft.roleUnder parent m = .content then
    p.markup ++ markerMarkup m.identifier else p.markup
  marks := if collects ∧ p.draft.roleUnder parent m = .content then
    p.marks.insert m.identifier ⟨p.draft.size⟩ else p.marks

/-- Put what was collected into a field or into the panel. -/
def settle (p : Play) (target : Option FieldId) (wrap : List Html → List Html) :
    Except Markup.Error Draft :=
  if p.markup = "" then .ok p.draft
  else (Markup.parseFragment p.markup).map fun ns => p.draft.fill target (wrap (p.marks.settle ns))

/-- The element around the content of a field. -/
def wrapped (content : List Html) : List Html := [.element "div" .empty content]

mutual
/-- Play a piece below a field. -/
def piece (parent : Option FieldId) (collects : Bool) : Piece → Play → Except Markup.Error Play
  | .run text, p => .ok (p.write collects text)
  | .field m inner, p => do
    let begun := p.enter parent collects m
    let played ← pieces (some ⟨p.draft.size⟩) m.kind.acceptsPanel inner ⟨begun.draft, "", .empty⟩
    let settled ← played.settle (some ⟨p.draft.size⟩) wrapped
    return { begun with draft := settled }

/-- Play some pieces below a field, in order. -/
def pieces (parent : Option FieldId) (collects : Bool) : List Piece → Play →
    Except Markup.Error Play
  | [], p => .ok p
  | x :: xs, p => do
    let p ← piece parent collects x p
    pieces parent collects xs p
end

theorem pieces_append (parent : Option FieldId) (collects : Bool) (xs ys : List Piece) (p : Play) :
    pieces parent collects (xs ++ ys) p =
      (pieces parent collects xs p).bind (pieces parent collects ys) := by
  induction xs generalizing p with
  | nil => rfl
  | cons x xs ih =>
    rw [List.cons_append, pieces, pieces]
    cases piece parent collects x p with
    | ok p' => exact ih p'
    | error e => rfl

/-- A piece that was played: a run, or a field whose content was played and settled. -/
theorem piece_field_eq_ok {parent : Option FieldId} {collects : Bool} {m : Made}
    {inner : List Piece} {p p' : Play} :
    piece parent collects (.field m inner) p = .ok p' ↔
      ∃ played settled, pieces (some ⟨p.draft.size⟩) m.kind.acceptsPanel inner
          ⟨(p.enter parent collects m).draft, "", .empty⟩ = .ok played ∧
        played.settle (some ⟨p.draft.size⟩) wrapped = .ok settled ∧
        p' = { p.enter parent collects m with draft := settled } := by
  rw [piece]
  constructor
  · intro run
    cases first : pieces (some ⟨p.draft.size⟩) m.kind.acceptsPanel inner
        ⟨(p.enter parent collects m).draft, "", .empty⟩ with
    | error e =>
      rw [first] at run
      cases run
    | ok played =>
      rw [first] at run
      cases second : played.settle (some ⟨p.draft.size⟩) wrapped with
      | error e =>
        simp only [bind, Except.bind, second] at run
        cases run
      | ok settled =>
        simp only [bind, Except.bind, second] at run
        cases run
        exact ⟨played, settled, rfl, second, rfl⟩
  · rintro ⟨played, settled, first, second, rfl⟩
    simp only [first, bind, Except.bind, second]
    rfl

/-! ## What stays -/

/-- A draft with more fields: the old ones are the same but for their children, and nothing else
was put into them. -/
structure Grows (d d' : Draft) : Prop where
  size : d.size ≤ d'.size
  panel : d'.panel = { d.panel with table := d'.panel.table }
  fields : ∀ {f field}, d.field? f = some field →
    ∃ field', d'.field? f = some field' ∧ Draft.Alike field field' ∧ field'.parent = field.parent
  filled : ∀ target, (∀ f, target = some f → f.index < d.size) →
    d'.filled target = d.filled target

namespace Grows

theorem refl (d : Draft) : Grows d d where
  size := Nat.le_refl _
  panel := by
    obtain ⟨⟨⟩, _⟩ := d
    rfl
  fields found := ⟨_, found, Draft.Alike.refl _, rfl⟩
  filled _ _ := rfl

theorem trans {d d' d'' : Draft} (first : Grows d d') (second : Grows d' d'') : Grows d d'' where
  size := Nat.le_trans first.size second.size
  panel := by rw [second.panel, first.panel]
  fields found := by
    obtain ⟨field', found', alike, parent⟩ := first.fields found
    obtain ⟨field'', found'', alike', parent'⟩ := second.fields found'
    exact ⟨field'', found'', ⟨alike.id.trans alike'.id, alike.kind.trans alike'.kind,
      alike.name.trans alike'.name, alike.attributes.trans alike'.attributes⟩,
      parent'.trans parent⟩
  filled target old := by
    rw [second.filled target fun f eq => Nat.lt_of_lt_of_le (old f eq) first.size,
      first.filled target old]

end Grows

/-- What an open frame relies on. -/
structure Open (parent : Option FieldId) (p : Play) : Prop where
  sound : p.draft.Sound
  known : ∀ q, parent = some q → ∃ field, p.draft.field? q = some field
  unfilled : ∀ q, parent = some q → p.draft.filled (some q) = []
  fresh : ∀ f : FieldId, p.draft.size ≤ f.index → p.draft.filled (some f) = []
  marked : ∀ identifier f, p.marks.get? identifier = some f →
    (∃ field, p.draft.field? f = some field) ∧ ∀ q, parent = some q → q.index < f.index

/-! ## What a step preserves -/

section Enter

variable {d : Draft} {parent : Option FieldId} {m : Made}

theorem field?_made (d : Draft) (m : Made) : (d.add (d.made m)).field? ⟨d.size⟩ = some (d.made m) := by
  rw [Draft.field?_add, if_pos rfl]

/-- The new field is there, below the field it lies in. -/
theorem field?_enter (known : ∀ q, parent = some q → ∃ field, d.field? q = some field) :
    (d.enter parent m).field? ⟨d.size⟩ = some { d.made m with parent := parent } := by
  unfold Draft.enter
  cases parent with
  | none => exact field?_made d m
  | some q =>
    obtain ⟨field, found⟩ := known q rfl
    have ne : q ≠ ⟨d.size⟩ := by
      rintro rfl
      exact Nat.lt_irrefl _ (Draft.lt_size found)
    rw [Draft.field?_link ne (field?_made d m) rfl, if_pos rfl]

theorem size_enter (d : Draft) (parent : Option FieldId) (m : Made) :
    (d.enter parent m).size = d.size + 1 := by
  unfold Draft.enter
  cases parent with
  | none => exact Draft.size_add _ _
  | some q =>
    have linked : ((d.add (d.made m)).link q ⟨d.size⟩ (d.roleUnder (some q) m)).size =
        (d.add (d.made m)).size := Draft.size_link _ _ _ _
    exact linked.trans (Draft.size_add _ _)

theorem filled_enter (d : Draft) (parent : Option FieldId) (m : Made) :
    (d.enter parent m).filled = d.filled := by
  unfold Draft.enter
  cases parent <;> rfl

theorem enter_grows (sound : d.Sound)
    (known : ∀ q, parent = some q → ∃ field, d.field? q = some field) :
    Grows d (d.enter parent m) where
  size := by
    rw [size_enter]
    exact Nat.le_succ _
  panel := by
    unfold Draft.enter
    cases parent <;> rfl
  fields {f field} found := by
    have there := Draft.field?_add_of_some found (d.made m)
    unfold Draft.enter
    cases parent with
    | none => exact ⟨field, there, Draft.Alike.refl field, rfl⟩
    | some q =>
      obtain ⟨container, hq⟩ := known q rfl
      have ne : q ≠ ⟨d.size⟩ := by
        rintro rfl
        exact Nat.lt_irrefl _ (Draft.lt_size hq)
      have other : field.id ≠ ⟨d.size⟩ := by
        rw [sound.ids found]
        rintro rfl
        exact Nat.lt_irrefl _ (Draft.lt_size found)
      refine ⟨_, ?_, Draft.alike_relinked q ⟨d.size⟩ (d.roleUnder (some q) m) field,
        Draft.parent_relinked_of_ne other⟩
      dsimp only
      rw [Draft.field?_link_eq (sound.add rfl rfl rfl) ne (field?_made d m) rfl, there,
        Option.map_some]
  filled target _ := by rw [filled_enter]

theorem sound_enter (sound : d.Sound)
    (known : ∀ q, parent = some q → ∃ field, d.field? q = some field) :
    (d.enter parent m).Sound := by
  have added : (d.add (d.made m)).Sound := sound.add rfl rfl rfl
  unfold Draft.enter
  cases parent with
  | none => exact added
  | some q =>
    obtain ⟨container, hq⟩ := known q rfl
    exact added.link (Draft.lt_size hq) (Draft.field?_add_of_some hq _) (field?_made d m) rfl _

end Enter

section Step

variable {parent : Option FieldId} {collects : Bool} {m : Made} {p p' played : Play}
  {settled : Draft}

theorem Open.write (h : Open parent p) (text : String) : Open parent (p.write collects text) := by
  unfold Play.write
  split
  · exact ⟨h.sound, h.known, h.unfilled, h.fresh, h.marked⟩
  · exact h

theorem Grows.write (p : Play) (text : String) : Grows p.draft (p.write collects text).draft := by
  unfold Play.write
  split
  · exact Grows.refl _
  · exact Grows.refl _

/-- A field that stands for a marker is new or stood for it before. -/
theorem mark_enter {identifier : String} {f : FieldId}
    (found : (p.enter parent collects m).marks.get? identifier = some f) :
    f = ⟨p.draft.size⟩ ∧ p.draft.roleUnder parent m = .content ∨
      p.marks.get? identifier = some f := by
  unfold Play.enter at found
  dsimp only at found
  split at found
  · case isTrue content =>
    rw [OrderedMap.get?_insert] at found
    split at found
    · cases found
      exact .inl ⟨rfl, content.2⟩
    · exact .inr found
  · exact .inr found

/-- The frame of a new field. -/
theorem Open.inner (collects : Bool) (h : Open parent p) :
    Open (some ⟨p.draft.size⟩) ⟨(p.enter parent collects m).draft, "", .empty⟩ where
  sound := sound_enter h.sound h.known
  known q eq := by
    cases eq
    exact ⟨_, field?_enter h.known⟩
  unfilled q eq := by
    cases eq
    show (p.draft.enter parent m).filled _ = []
    rw [filled_enter]
    exact h.fresh _ (Nat.le_refl _)
  fresh f old := by
    have large : (p.draft.enter parent m).size ≤ f.index := old
    rw [size_enter] at large
    show (p.draft.enter parent m).filled _ = []
    rw [filled_enter]
    exact h.fresh f (Nat.le_of_succ_le large)
  marked identifier f found := by
    rw [OrderedMap.get?_empty] at found
    cases found

/-- What settling does to the draft. -/
theorem settle_eq {target : Option FieldId} {wrap : List Html → List Html}
    (run : played.settle target wrap = .ok settled) :
    settled = played.draft ∨ ∃ content, settled = played.draft.fill target content := by
  unfold settle at run
  split at run
  · cases run
    exact .inl rfl
  · cases read : Markup.parseFragment played.markup with
    | error e =>
      rw [read] at run
      cases run
    | ok ns =>
      rw [read] at run
      cases run
      exact .inr ⟨_, rfl⟩

theorem panel_settle {target : Option FieldId} {wrap : List Html → List Html}
    (run : played.settle target wrap = .ok settled) : settled.panel = played.draft.panel := by
  rcases settle_eq run with rfl | ⟨content, rfl⟩ <;> rfl

theorem size_settle {target : Option FieldId} {wrap : List Html → List Html}
    (run : played.settle target wrap = .ok settled) : settled.size = played.draft.size := by
  rcases settle_eq run with rfl | ⟨content, rfl⟩ <;> rfl

theorem field?_settle {target : Option FieldId} {wrap : List Html → List Html}
    (run : played.settle target wrap = .ok settled) (f : FieldId) :
    settled.field? f = played.draft.field? f := by
  rcases settle_eq run with rfl | ⟨content, rfl⟩ <;> rfl

theorem filled_settle_of_ne {target other : Option FieldId} {wrap : List Html → List Html}
    (run : played.settle target wrap = .ok settled) (ne : other ≠ target) :
    settled.filled other = played.draft.filled other := by
  rcases settle_eq run with rfl | ⟨content, rfl⟩
  · rfl
  · exact Draft.filled_fill_of_ne _ _ ne

theorem Grows.settle {d : Draft} (h : Grows d played.draft)
    (run : played.settle (some ⟨d.size⟩) wrapped = .ok settled) : Grows d settled where
  size := (size_settle run).symm ▸ h.size
  panel := (panel_settle run).symm ▸ h.panel
  fields found := by
    rw [field?_settle run]
    exact h.fields found
  filled target old := by
    rw [filled_settle_of_ne run, h.filled target old]
    rintro rfl
    exact Nat.lt_irrefl _ (old _ rfl)

/-- A frame whose field got a new field below it, which has ended. -/
theorem Open.field (h : Open parent p)
    (grows : Grows (p.enter parent collects m).draft played.draft)
    (inner : Open (some ⟨p.draft.size⟩) played)
    (run : played.settle (some ⟨p.draft.size⟩) wrapped = .ok settled) :
    Open parent { p.enter parent collects m with draft := settled } := by
  have all : Grows p.draft settled := ((enter_grows h.sound h.known).trans grows).settle run
  have larger : p.draft.size < played.draft.size := by
    refine Nat.lt_of_lt_of_le ?_ grows.size
    show _ < (p.draft.enter parent m).size
    rw [size_enter]
    exact Nat.lt_succ_self _
  refine ⟨?_, ?_, ?_, ?_, ?_⟩
  · rcases settle_eq run with rfl | ⟨content, rfl⟩
    · exact inner.sound
    · exact inner.sound.fill _ _
  · intro q eq
    obtain ⟨field, found⟩ := h.known q eq
    obtain ⟨field', found', _⟩ := all.fields found
    exact ⟨field', found'⟩
  · intro q eq
    obtain ⟨field, found⟩ := h.known q eq
    show settled.filled (some q) = []
    rw [all.filled (some q) fun f same => by cases same; exact Draft.lt_size found]
    exact h.unfilled q eq
  · intro f old
    have large : settled.size ≤ f.index := old
    rw [size_settle run] at large
    show settled.filled (some f) = []
    rw [filled_settle_of_ne run (by rintro ⟨⟩; exact absurd large (Nat.not_le_of_lt larger))]
    exact inner.fresh f large
  · intro identifier f found
    rcases mark_enter found with ⟨rfl, _⟩ | old
    · obtain ⟨field', found', _⟩ := grows.fields (field?_enter (m := m) h.known)
      refine ⟨⟨field', (field?_settle run _).trans found'⟩, fun q eq => ?_⟩
      · obtain ⟨field, known⟩ := h.known q eq
        exact Draft.lt_size known
    · obtain ⟨⟨field, known⟩, later⟩ := h.marked identifier f old
      obtain ⟨field', found', _⟩ := all.fields known
      exact ⟨⟨field', found'⟩, later⟩

end Step

mutual
/-- **Playing** grows the draft and keeps what the frame relies on. -/
theorem piece_grows {parent : Option FieldId} {collects : Bool} : ∀ (x : Piece) {p p' : Play},
    piece parent collects x p = .ok p' → Open parent p → Grows p.draft p'.draft ∧ Open parent p'
  | .run text, p, p', run, h => by
    rw [piece] at run
    cases run
    exact ⟨Grows.write p text, h.write text⟩
  | .field m inner, p, p', run, h => by
    obtain ⟨played, settled, first, second, rfl⟩ := piece_field_eq_ok.1 run
    obtain ⟨grows, inner'⟩ := pieces_grows inner first (h.inner _)
    exact ⟨((enter_grows h.sound h.known).trans grows).settle second, h.field grows inner' second⟩

theorem pieces_grows {parent : Option FieldId} {collects : Bool} : ∀ (xs : List Piece)
    {p p' : Play}, pieces parent collects xs p = .ok p' → Open parent p →
      Grows p.draft p'.draft ∧ Open parent p'
  | [], p, p', run, h => by
    cases run
    exact ⟨Grows.refl _, h⟩
  | x :: xs, p, p', run, h => by
    rw [pieces] at run
    cases first : piece parent collects x p with
    | error e =>
      rw [first] at run
      cases run
    | ok p₁ =>
      rw [first] at run
      obtain ⟨grows, h₁⟩ := piece_grows x first h
      obtain ⟨grows', h'⟩ := pieces_grows xs run h₁
      exact ⟨grows.trans grows', h'⟩
end

/-! ## Dropping -/

mutual
/-- A field that shows no content collects nothing. -/
theorem markup_piece_dropping {parent : Option FieldId} : ∀ (x : Piece) {p p' : Play},
    piece parent false x p = .ok p' → p'.markup = p.markup
  | .run text, p, p', run => by
    rw [piece] at run
    cases run
    rfl
  | .field m inner, p, p', run => by
    obtain ⟨played, settled, _, _, rfl⟩ := piece_field_eq_ok.1 run
    unfold Play.enter
    simp

theorem markup_pieces_dropping {parent : Option FieldId} : ∀ (xs : List Piece) {p p' : Play},
    pieces parent false xs p = .ok p' → p'.markup = p.markup
  | [], p, p', run => by
    cases run
    rfl
  | x :: xs, p, p', run => by
    rw [pieces] at run
    cases first : piece parent false x p with
    | error e =>
      rw [first] at run
      cases run
    | ok p₁ =>
      rw [first] at run
      exact (markup_pieces_dropping xs run).trans (markup_piece_dropping x first)
end

end Play

end Formwork
