import Formwork.Proofs.Panel.AddChild

/-!
# New fields and their content

A new field joins the end of the table; nothing was put into it, and it lies below no other.
Content is put into the slot of a field or into the panel itself.
-/

namespace Formwork

set_option autoImplicit false

namespace Draft

variable {d : Draft} {p c f g : FieldId} {container child field new : Field} {role : Role}

/-- How many fields were created. -/
def size (d : Draft) : Nat := d.panel.table.slots.size

/-- Add a new field. -/
def add (d : Draft) (field : Field) : Draft :=
  { d with panel := { d.panel with table := d.panel.table.add field } }

theorem lt_size (found : d.field? f = some field) : f.index < d.size :=
  FieldTable.lt_size_of_field? found

@[simp]
theorem size_add (d : Draft) (field : Field) : (d.add field).size = d.size + 1 :=
  FieldTable.size_slots_add _ _

@[simp]
theorem size_link (d : Draft) (p c : FieldId) (role : Role) : (d.link p c role).size = d.size := by
  unfold size link FieldTable.link FieldTable.unlink
  dsimp only
  split <;> simp only [FieldTable.size_slots_update]

theorem field?_add (d : Draft) (field : Field) (f : FieldId) :
    (d.add field).field? f = if f = ⟨d.size⟩ then some field else d.field? f :=
  FieldTable.field?_add _ _ _

theorem field?_add_of_some (found : d.field? f = some field) (new : Field) :
    (d.add new).field? f = some field := by
  rw [field?_add, if_neg, found]
  rintro rfl
  exact Nat.lt_irrefl _ (lt_size found)

theorem field?_size (d : Draft) : d.field? ⟨d.size⟩ = none := by
  cases found : d.field? ⟨d.size⟩ with
  | none => rfl
  | some field => exact absurd (lt_size found) (Nat.lt_irrefl _)

/-! ## Soundness -/

theorem Sound.add (sound : d.Sound) (id : new.id = ⟨d.size⟩) (parent : new.parent = none)
    (attached : new.attached = []) : (d.add new).Sound where
  ids {f field} found := by
    rw [field?_add] at found
    split at found
    · case isTrue same =>
      cases found
      rw [same, id]
    · exact sound.ids found
  attached {f container c} found mem := by
    rw [field?_add] at found
    split at found
    · cases found
      rw [attached] at mem
      cases mem
    · obtain ⟨child, there, below⟩ := sound.attached found mem
      exact ⟨child, field?_add_of_some there new, below⟩
  distinct {f container} found := by
    rw [field?_add] at found
    split at found
    · cases found
      rw [attached]
      exact List.nodup_nil
    · exact sound.distinct found
  older {f field q} found below := by
    rw [field?_add] at found
    split at found
    · cases found
      rw [parent] at below
      cases below
    · exact sound.older found below

theorem Sound.link (sound : d.Sound) (younger : p.index < c.index)
    (hp : d.field? p = some container) (hc : d.field? c = some child)
    (free : child.parent = none) (role : Role) : (d.link p c role).Sound := by
  have ne : p ≠ c := Scene.Depicts.ne_of_younger younger
  have fieldOf : ∀ {g field'}, (d.link p c role).field? g = some field' →
      ∃ field, d.field? g = some field ∧ relinked p c role field = field' :=
    exists_of_field?_link sound ne hc free
  have linked : ∀ {g field}, d.field? g = some field →
      (d.link p c role).field? g = some (relinked p c role field) := by
    intro g field found
    rw [field?_link_eq sound ne hc free, found, Option.map_some]
  constructor
  case ids =>
    intro g field' hg
    obtain ⟨field, found, rfl⟩ := fieldOf hg
    rw [← (alike_relinked p c role field).id, sound.ids found]
  case attached =>
    intro g container' c' hg mem
    obtain ⟨field, found, rfl⟩ := fieldOf hg
    have old : c' ∈ field.attached → ∃ child, (d.link p c role).field? c' = some child ∧
        child.parent = some g := by
      intro mem
      obtain ⟨child', there, below⟩ := sound.attached found mem
      refine ⟨_, linked there, ?_⟩
      rw [parent_relinked sound there, if_neg, below]
      rintro rfl
      cases hc.symm.trans there
      cases free.symm.trans below
    rcases attached_relinked sound ne role found with same | ⟨rfl, more⟩
    · exact old (same ▸ mem)
    · rw [more, List.mem_append, List.mem_singleton] at mem
      rcases mem with before | rfl
      · exact old before
      · exact ⟨_, linked hc, (parent_relinked sound hc).trans (if_pos rfl)⟩
  case distinct =>
    intro g container' hg
    obtain ⟨field, found, rfl⟩ := fieldOf hg
    rcases attached_relinked sound ne role found with same | ⟨rfl, more⟩
    · rw [same]
      exact sound.distinct found
    · rw [more]
      exact nodup_attached_append sound found hc free
  case older =>
    intro g field' q hg below
    obtain ⟨field, found, rfl⟩ := fieldOf hg
    rw [parent_relinked sound found] at below
    split at below
    · case isTrue same =>
      cases below
      rw [same]
      exact younger
    · exact sound.older found below

/-! ## Looks -/

theorem isSelected_add (ne : g ≠ ⟨d.size⟩) (new : Field) :
    (d.add new).isSelected g = d.isSelected g := by
  unfold isSelected
  rw [field?_add, if_neg ne]

/-- A new field changes no exposure. -/
theorem exposure?_add (sound : d.Sound) (found : d.field? f = some field) (new : Field) :
    (d.add new).exposure? field = d.exposure? field := by
  rw [exposure?_eq, exposure?_eq]
  cases parent : field.parent with
  | none => rfl
  | some q =>
    have old : q ≠ ⟨d.size⟩ := by
      rintro rfl
      exact absurd (sound.older found parent) (Nat.not_lt_of_lt (lt_size found))
    rw [Option.bind_some, Option.bind_some, field?_add, if_neg old]
    cases there : d.field? q with
    | none => rfl
    | some container =>
      have known : ∀ c ∈ container.attached, (d.add new).isSelected c = d.isSelected c := by
        intro c mem
        obtain ⟨child, hc, _⟩ := sound.attached there mem
        refine isSelected_add ?_ new
        rintro rfl
        exact Nat.lt_irrefl _ (lt_size hc)
      rw [Option.bind_some, Option.bind_some]
      unfold exposureUnder?
      by_cases page : container.kind = .tabs ∧ field.id ∈ container.attached
      · rw [if_pos page, if_pos page]
        unfold exposureIn chosen?
        rw [List.filter_congr known, known _ page.2]
      · rw [if_neg page, if_neg page]

/-- Put content into a field or, without a field, into the panel. -/
def fill (d : Draft) (target : Option FieldId) (content : List Html) : Draft :=
  { d with filled := Function.update d.filled target content }

@[simp]
theorem filled_fill_self (d : Draft) (target : Option FieldId) (content : List Html) :
    (d.fill target content).filled target = content := Function.update_self ..

theorem filled_fill_of_ne (d : Draft) {target other : Option FieldId} (content : List Html)
    (ne : other ≠ target) : (d.fill target content).filled other = d.filled other :=
  Function.update_of_ne ne ..

theorem Sound.fill (sound : d.Sound) (target : Option FieldId) (content : List Html) :
    (d.fill target content).Sound := ⟨sound.ids, sound.attached, sound.distinct, sound.older⟩

end Draft

/-! ## Creating a field -/

/-- The name of a new field, and the counters after it was found. -/
def CounterPool.nameField (pool : CounterPool) (series : SeriesId) (kind : FieldKind)
    (attributes : Attributes) : String × CounterPool :=
  match attributes.get? Vocabulary.nameKey with
  | some name => (name, pool)
  | none => pool.next series (if kind.isButton then .button else .field)

namespace PanelM

variable {s : Scene}

theorem exec_draw (purpose : Counters.Purpose) :
    exec (draw purpose) s = (.ok (s.counters.next s.panel.series purpose).1,
      { s with counters := (s.counters.next s.panel.series purpose).2 }) := rfl

/-- Creating a field adds it to the table. -/
theorem exec_createField (kind : FieldKind) (attributes : Attributes) :
    exec (createField kind attributes) s = (.ok ⟨s.panel.table.slots.size⟩,
      { s with
        counters := (s.counters.nameField s.panel.series kind attributes).2
        panel := { s.panel with
          table := s.panel.table.add (.create ⟨s.panel.table.slots.size⟩ kind
            (s.counters.nameField s.panel.series kind attributes).1 attributes) } }) := by
  unfold createField CounterPool.nameField
  cases attributes.get? Vocabulary.nameKey with
  | some name => rfl
  | none => rfl

end PanelM

namespace Scene.Depicts

open Draft

variable {base : Page} {L : Layout} {s : Scene} {d : Draft} {f : FieldId} {field : Field}

theorem size_eq (h : s.Depicts base L d) : s.panel.table.slots.size = d.size := by
  unfold Draft.size
  rw [← h.bare]
  exact (FieldTable.size_slots_bare _).symm

theorem series (h : s.Depicts base L d) : s.panel.series = d.panel.series := by
  rw [← h.bare]
  rfl

/-- A scene depicts the same whatever its counters are. -/
theorem counters (h : s.Depicts base L d) (pool : CounterPool) :
    ({ s with counters := pool } : Scene).Depicts base L d :=
  ⟨h.holds, h.ordered, h.bare, h.root, h.built, h.unbuilt, h.captioned, h.uncaptioned, h.unknown,
    h.hidden⟩

/-- A scene with a new field, into which nothing was put. -/
theorem add (h : s.Depicts base L d) (sound : d.Sound) (id : field.id = ⟨d.size⟩)
    (parent : field.parent = none) (attached : field.attached = []) (widget : field.widget = none)
    (unfilled : d.filled (some ⟨d.size⟩) = []) :
    ({ s with panel := { s.panel with table := s.panel.table.add field } } : Scene).Depicts base L
      (d.add field) := by
  have fresh := h.unknown (d.field?_size)
  have noWidget : ∀ g, ({ s with panel := { s.panel with
      table := s.panel.table.add field } } : Scene).widget? g =
      if g = ⟨d.size⟩ then none else s.widget? g := by
    intro g
    unfold Scene.widget? Panel.field?
    dsimp only
    rw [FieldTable.field?_add, h.size_eq]
    split
    · exact widget
    · rfl
  have fieldOf : ∀ {g field'}, (d.add field).field? g = some field' →
      g = ⟨d.size⟩ ∧ field' = field ∨ g ≠ ⟨d.size⟩ ∧ d.field? g = some field' := by
    intro g field' hg
    rw [field?_add] at hg
    split at hg
    · case isTrue same =>
      cases hg
      exact .inl ⟨same, rfl⟩
    · case isFalse other => exact .inr ⟨other, hg⟩
  refine ⟨h.holds, h.ordered, ?_, h.root, ?_, ?_, ?_, ?_, ?_, h.hidden⟩
  · have bare : field.bare = field := by
      obtain ⟨_, _, _, _, _, _, _, _⟩ := field
      cases widget
      rfl
    unfold Panel.bare
    rw [FieldTable.bare_add, bare]
    exact congrArg (fun p : Panel => { p with table := p.table.add field }) h.bare
  · intro g field' w hg hasWidget
    rw [noWidget] at hasWidget
    rcases fieldOf hg with ⟨same, _⟩ | ⟨other, found⟩
    · rw [if_pos same] at hasWidget
      cases hasWidget
    · rw [if_neg other] at hasWidget
      obtain ⟨r, there, draws⟩ := h.built found hasWidget
      exact ⟨r, there, draws.congr (Alike.refl field') rfl rfl rfl (exposure?_add sound found field)
        fun _ _ root => root⟩
  · intro g field' hg none
    rw [noWidget] at none
    rcases fieldOf hg with ⟨rfl, rfl⟩ | ⟨other, found⟩
    · refine ⟨fresh.1, ?_, attached, ?_⟩
      · rw [id]
        exact unfilled
      · rw [exposure?_eq, parent]
        rfl
    · rw [if_neg other] at none
      obtain ⟨absent, blank⟩ := h.unbuilt found none
      exact ⟨absent, blank.filled, blank.attached,
        (exposure?_add sound found field).trans blank.exposure⟩
  · intro g field' e hg exposed
    rcases fieldOf hg with ⟨rfl, rfl⟩ | ⟨_, found⟩
    · rw [exposure?_eq, parent] at exposed
      cases exposed
    · rw [exposure?_add sound found] at exposed
      exact h.captioned found exposed
  · intro g field' hg hidden
    rcases fieldOf hg with ⟨rfl, rfl⟩ | ⟨_, found⟩
    · exact fresh.2
    · rw [exposure?_add sound found] at hidden
      exact h.uncaptioned found hidden
  · intro g absent
    rw [field?_add] at absent
    split at absent
    · cases absent
    · exact h.unknown absent

/-- **Creating a field** in a scene that depicts a draft. -/
theorem exec_createField (h : s.Depicts base L d) (sound : d.Sound) (kind : FieldKind)
    (attributes : Attributes) (unfilled : d.filled (some ⟨d.size⟩) = []) :
    ∃ s', exec (PanelM.createField kind attributes) s = (.ok ⟨d.size⟩, s') ∧
      s'.Depicts base L (d.add (.create ⟨d.size⟩ kind
        (s.counters.nameField s.panel.series kind attributes).1 attributes)) ∧
      s'.counters = (s.counters.nameField s.panel.series kind attributes).2 ∧
      s'.widget? ⟨d.size⟩ = none := by
  have named := h.counters (s.counters.nameField s.panel.series kind attributes).2
  have id : (Field.create ⟨d.size⟩ kind (s.counters.nameField s.panel.series kind attributes).1
      attributes).id = ⟨d.size⟩ := rfl
  have added := named.add sound id rfl rfl rfl unfilled
  refine ⟨_, ?_, added, rfl, ?_⟩
  · rw [PanelM.exec_createField, h.size_eq]
  · unfold Scene.widget? Panel.field?
    dsimp only
    rw [FieldTable.field?_add, h.size_eq, if_pos rfl]
    rfl

end Scene.Depicts

/-! ## Filling a slot -/

namespace Draft

variable {d : Draft} {L : Layout} {field : Field} {w : Widget} {dom : Dom}

/-- What is in the slot of a field shows in the content of its widget only. -/
theorem face_slot (field : Field) (label : Option String) (parts : Parts) (slot : List Html) :
    (field.face label { parts with slot := slot }).tag = (field.face label parts).tag ∧
      (field.face label { parts with slot := slot }).attributes =
        (field.face label parts).attributes := by
  unfold Field.face
  cases field.kind <;> exact ⟨rfl, rfl⟩

/-- A tree that differs from the widget of a field in its content only is the widget with something in
its slot, if it looks like that. -/
theorem Draws.refilled (h : d.Draws L field w dom) {L' : Layout} {x : Html} {kids : List Dom}
    (roots : ∀ target n, L.RootAt target n → L'.RootAt target n)
    (looks : Dom.htmlOf kids = (field.face (field.label? d.panel.messages)
      { d.parts field with slot := [x] }).children)
    (fits : w.Fits field.kind kids) :
    (d.fill (some field.id) [x]).Draws L' field w
      (.element w.root (d.face field).tag (d.attributes field) kids) := by
  obtain ⟨_, _, _, _, keeps⟩ := h
  have parts : (d.fill (some field.id) [x]).parts field = { d.parts field with slot := [x] } := by
    unfold Draft.parts
    rw [filled_fill_self]
  have face : (d.fill (some field.id) [x]).face field =
      field.face (field.label? d.panel.messages) { d.parts field with slot := [x] } := by
    unfold Draft.face
    rw [parts]
    rfl
  obtain ⟨tag, attributes⟩ := face_slot field (field.label? d.panel.messages) (d.parts field) [x]
  refine ⟨kids, ?_, looks.trans (congrArg Face.children face).symm, fits, keeps.mono roots⟩
  unfold Draft.attributes
  rw [face, tag, attributes]
  rfl

/-- A tree is a widget with an empty slot, and the widget looks filled when the slot is. -/
def HasSlot (d : Draft) (L : Layout) (field : Field) (w : Widget) (dom : Dom) : Prop :=
  ∃ slot tag attributes, w.contentSlot? = some slot ∧ dom.find? slot = some (tag, attributes, []) ∧
    ∀ (L' : Layout) (x : Dom), (∀ target n, L.RootAt target n → L'.RootAt target n) →
      (d.fill (some field.id) [x.html]).Draws L' field w
        (dom.edit slot fun attributes children => (attributes, children ++ [x]))

/-- A widget that is its own slot. -/
theorem Draws.slot_inline (h : d.Draws L field w dom) (unfilled : d.filled (some field.id) = [])
    (shows : ∀ parts, (field.face (field.label? d.panel.messages) parts).children = parts.slot)
    (fits : ∀ kids, w.Fits field.kind kids ↔ w = .container w.root w.root) :
    d.HasSlot L field w dom := by
  have draws := h
  obtain ⟨kids, rfl, looks, fits', _⟩ := h
  have shape := (fits kids).1 fits'
  have empty : (d.parts field).slot = [] := unfilled
  obtain rfl := Dom.eq_nil_of_htmlOf (looks.trans ((shows (d.parts field)).trans empty))
  refine ⟨w.root, _, _, by rw [shape]; rfl, Dom.find?_root .., fun L' x roots => ?_⟩
  rw [Dom.edit_root]
  exact draws.refilled roots (by rw [shows]; rfl) ((fits _).2 shape)

/-- The slot of a header is an element in its widget. -/
theorem Draws.slot_header (h : d.Draws L field w dom) (kind : field.kind = .header)
    (unfilled : d.filled (some field.id) = []) (distinct : dom.nodes.Nodup) :
    d.HasSlot L field w dom := by
  have draws := h
  obtain ⟨kids, rfl, looks, fits, _⟩ := h
  have face : ∀ parts : Parts, field.face (field.label? d.panel.messages) parts =
      .headerContainer field parts.slot := by
    intro parts
    unfold Field.face
    rw [kind]
  have empty : (d.parts field).slot = [] := unfilled
  rw [kind] at fits
  obtain ⟨content, slot, shape, rfl⟩ := fits
  unfold Draft.face at looks
  rw [face, empty] at looks
  simp only [Face.headerContainer, Dom.htmlOf, Dom.html, List.cons.injEq, Html.element.injEq,
    true_and, and_true] at looks
  obtain rfl := Dom.eq_nil_of_htmlOf looks
  refine ⟨content, _, _, by rw [shape]; rfl, Dom.find?_child [] distinct, fun L' x roots => ?_⟩
  have edited := Dom.edit_child [] distinct fun attributes children => (attributes, children ++ [x])
  rw [List.nil_append] at edited
  rw [edited]
  refine draws.refilled roots ?_ ?_
  · rw [face]
    rfl
  · rw [kind]
    exact ⟨content, _, shape, rfl⟩

/-- The slot of a disclosure is the element behind its header. -/
theorem Draws.slot_disclosure (h : d.Draws L field w dom) (kind : field.kind = .disclosure)
    (unfilled : d.filled (some field.id) = []) (distinct : dom.nodes.Nodup) :
    d.HasSlot L field w dom := by
  have draws := h
  obtain ⟨kids, rfl, looks, fits, _⟩ := h
  have face : ∀ parts : Parts, field.face (field.label? d.panel.messages) parts =
      .disclosureSection field (field.label? d.panel.messages) parts := by
    intro parts
    unfold Field.face
    rw [kind]
  have empty : (d.parts field).slot = [] := unfilled
  rw [kind] at fits
  obtain ⟨header, content, caption, slot, headerField, shape, rfl⟩ := fits
  unfold Draft.face at looks
  rw [face] at looks
  simp only [Face.disclosureSection, empty, Dom.htmlOf, Dom.html, List.cons.injEq,
    Html.element.injEq, true_and, and_true] at looks
  obtain rfl := Dom.eq_nil_of_htmlOf looks.2
  refine ⟨content, _, _, by rw [shape]; rfl,
    Dom.find?_child [.element header "summary" .empty caption] distinct, fun L' x roots => ?_⟩
  have edited := Dom.edit_child [.element header "summary" .empty caption] distinct
    fun attributes children => (attributes, children ++ [x])
  rw [List.singleton_append] at edited
  rw [edited]
  refine draws.refilled roots ?_ ?_
  · rw [face]
    simp only [Face.disclosureSection, Dom.htmlOf, Dom.html, looks.1, List.nil_append,
      List.cons_append]
  · rw [kind]
    exact ⟨header, content, caption, _, headerField, shape, rfl⟩

/-- The widget of a field that takes content has a slot, and looks filled when the slot is. -/
theorem Draws.slot (h : d.Draws L field w dom) (accepts : field.kind.acceptsPanel = true)
    (unfilled : d.filled (some field.id) = []) (distinct : dom.nodes.Nodup) :
    d.HasSlot L field w dom := by
  cases kind : field.kind with
  | panel =>
    refine h.slot_inline unfilled (fun parts => ?_) fun kids => ?_
    · unfold Field.face
      rw [kind]
      rfl
    · rw [kind]
      exact Iff.rfl
  | inlinePanel =>
    refine h.slot_inline unfilled (fun parts => ?_) fun kids => ?_
    · unfold Field.face
      rw [kind]
      rfl
    · rw [kind]
      exact Iff.rfl
  | header => exact h.slot_header kind unfilled distinct
  | disclosure => exact h.slot_disclosure kind unfilled distinct
  | _ =>
    rw [kind] at accepts
    cases accepts

end Draft

namespace Scene.Depicts

open Draft

variable {base : Page} {L : Layout} {s : Scene} {d : Draft} {f : FieldId} {field : Field}

/-- A scene depicts a draft in which the slot of a field was filled, when the tree of the widget
was, and the other trees stayed. -/
theorem filling (h : s.Depicts base L d) (sound : d.Sound) (hf : d.field? f = some field)
    {w : Widget} (hasWidget : s.widget? f = some w) {content : List Html} {L' : Layout} {p : Page}
    (holds : Page.Holds base p L') (ordered : L'.Ordered)
    (others : ∀ k, (∀ i, k ≠ .loose i) → k ≠ .tree (.widget f) → L' k = L k) {r : Region}
    (there : L' (.tree (.widget f)) = some r)
    (draws : (d.fill (some f) content).Draws L' field w r.dom)
    (roots : ∀ target n, L.RootAt target n → L'.RootAt target n) :
    ({ s with page := p } : Scene).Depicts base L' (d.fill (some f) content) := by
  have unchanged : ∀ {g field'}, d.field? g = some field' → g ≠ f →
      (d.fill (some f) content).filled (some field'.id) = d.filled (some field'.id) := by
    intro g field' found ne
    refine filled_fill_of_ne _ _ ?_
    rw [sound.ids found]
    simpa using ne
  refine ⟨holds, ordered, h.bare, ?_, ?_, ?_, ?_, ?_, ?_,
    fun g => (others _ (by simp) (by simp)).trans (h.hidden g)⟩
  · obtain ⟨kids, there, looks⟩ := h.root
    refine ⟨kids, (others _ (by simp) (by simp)).trans there, ?_⟩
    rw [filled_fill_of_ne _ _ (by simp), looks]
  · intro g field' w' found hasWidget'
    by_cases same : g = f
    · subst same
      obtain rfl : field = field' := Option.some.inj (hf.symm.trans found)
      have eq : w = w' := Option.some.inj (hasWidget.symm.trans hasWidget')
      subst eq
      exact ⟨r, there, draws⟩
    · obtain ⟨r', there', draws'⟩ := h.built found hasWidget'
      refine ⟨r', (others _ (by simp) (by simpa using same)).trans there', ?_⟩
      exact draws'.congr (Alike.refl field') rfl rfl (unchanged found same) rfl roots
  · intro g field' found noWidget
    have ne : g ≠ f := by
      rintro rfl
      have none : s.widget? g = none := noWidget
      rw [hasWidget] at none
      cases none
    obtain ⟨absent, blank⟩ := h.unbuilt found noWidget
    refine ⟨(others _ (by simp) (by simpa using ne)).trans absent, ?_, blank.attached,
      blank.exposure⟩
    rw [unchanged found ne, blank.filled]
  · intro g field' e found exposed
    obtain ⟨r', there', draws'⟩ := h.captioned found exposed
    exact ⟨r', (others _ (by simp) (by simp)).trans there', draws'⟩
  · exact fun found hidden => (others _ (by simp) (by simp)).trans (h.uncaptioned found hidden)
  · intro g absent
    have ne : g ≠ f := by
      rintro rfl
      have none : d.field? g = none := absent
      rw [hf] at none
      cases none
    have unknown := h.unknown (f := g) absent
    exact ⟨(others _ (by simp) (by simpa using ne)).trans unknown.1,
      (others _ (by simp) (by simp)).trans unknown.2⟩

/-- **Filling the slot of a field** with an element that lay nowhere. -/
theorem exec_fillContent (h : s.Depicts base L d) (sound : d.Sound)
    (hf : d.field? f = some field) (accepts : field.kind.acceptsPanel = true)
    (unfilled : d.filled (some f) = []) {x : Dom}
    (loose : L (.loose f.index) = some ⟨none, x⟩) :
    ∃ s' L', exec (PanelM.fillContent f x.root) s = (.ok true, s') ∧
      s'.Depicts base L' (d.fill (some f) [x.html]) ∧ s'.counters = s.counters ∧
      (∀ g, L.Free g → L'.Free g) ∧ L' (.loose f.index) = none ∧
      ∀ i, i ≠ f.index → L' (.loose i) = L (.loose i) := by
  obtain rfl := sound.ids hf
  obtain ⟨w, s₁, L₁, run₁, h₁, has₁, counters₁, _, gains₁⟩ := h.exec_widgetOf hf rfl
  obtain ⟨⟨place, dom⟩, before, draws⟩ := h₁.built hf has₁
  have loose₁ := gains₁.kept loose
  have later : (Owner.tree (.widget field.id)).rank < (Owner.loose field.id.index).rank := by
    show 2 * field.id.index + 2 < 2 * field.id.index + 3
    omega
  have distinct := h₁.holds.distinct before
  obtain ⟨slot, tag, attributes, hasSlot, found, fills⟩ :=
    draws.slot accepts unfilled distinct
  obtain ⟨p', L', run₂, holds, ordered, gone, after, others⟩ :=
    h₁.holds.absorb h₁.ordered before found loose₁ later
  have roots : ∀ target n, L₁.RootAt target n → L'.RootAt target n := by
    rintro target n ⟨r, hr, rfl⟩
    by_cases same : target = .widget field.id
    · subst same
      rw [before] at hr
      cases hr
      exact ⟨_, after, Dom.root_edit ..⟩
    · exact ⟨r, (others _ (by simp) (by simpa using same)).trans hr, rfl⟩
  refine ⟨{ s₁ with page := p' }, L', ?_, ?_, counters₁, ?_, gone, fun i ne =>
    (others _ (by simpa using ne) (by simp)).trans (gains₁.others (by simp))⟩
  · unfold PanelM.fillContent
    rw [exec_bind_ok (PanelM.exec_field (h.field_of hf))]
    dsimp only
    rw [accepts]
    refine (exec_bind_ok run₁).trans ?_
    rw [hasSlot]
    exact (exec_bind_ok (PanelM.exec_append run₂)).trans rfl
  · refine h₁.filling sound hf has₁ holds ordered (fun k notLoose notWidget => ?_) after
      (fills L' x roots) roots
    exact others k (notLoose _) notWidget
  · intro g isFree r there
    by_cases same : g = field.id
    · subst same
      rw [after] at there
      cases there
      have lies : place = none := gains₁.keepsFree isFree _ before
      exact lies
    · rw [others _ (by simp) (by simpa using same)] at there
      exact gains₁.keepsFree isFree r there

end Scene.Depicts

end Formwork
