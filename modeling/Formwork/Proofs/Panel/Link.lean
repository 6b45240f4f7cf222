import Formwork.Proofs.Panel.Realize

/-!
# Putting a field below another in a draft

A field that is put below another becomes content of it or a part of its own.  Content changes no
look.  A part does: it is the header of a disclosure or a page of a tab container, and a page that
wants to be shown takes the place of the page shown before.
-/

namespace Formwork

set_option autoImplicit false

namespace Draft

/-- What a field takes another for. -/
def roleIn (container child : Field) : Role :=
  if container.kind = .tabs ∧ child.kind = .panel then .part
  else if container.kind = .disclosure ∧ child.tagUri? = some Vocabulary.headerTag ∧
      container.attached = [] then .part
  else .content

/-- Put a field below another. -/
def link (d : Draft) (parent child : FieldId) (role : Role) : Draft :=
  { d with panel := { d.panel with table := d.panel.table.link parent child role } }

/-- Whether a field was shown as a page of a given field. -/
def exposureUnder? (d : Draft) (container : Field) (f : FieldId) : Option Exposure :=
  if container.kind = .tabs ∧ f ∈ container.attached then some (d.exposureIn container f) else none

theorem exposure?_eq (d : Draft) (field : Field) :
    d.exposure? field =
      (field.parent.bind d.field?).bind fun container => d.exposureUnder? container field.id := by
  unfold exposure? exposureUnder?
  cases field.parent.bind d.field? <;> rfl

/-- Two fields that look the same when the same was put into them. -/
structure Alike (a b : Field) : Prop where
  id : a.id = b.id
  kind : a.kind = b.kind
  name : a.name = b.name
  attributes : a.attributes = b.attributes

theorem Alike.refl (a : Field) : Alike a a := ⟨rfl, rfl, rfl, rfl⟩

/-- Looks depend on what a field was made from and on what was put into it. -/
theorem face_congr {d d' : Draft} {a b : Field} (alike : Alike a b)
    (messages : d'.panel.messages = d.panel.messages) (parts : d'.parts b = d.parts a) :
    d'.face b = d.face a := by
  obtain ⟨id, kind, name, attributes, parent, children, attached, widget⟩ := a
  obtain ⟨id', kind', name', attributes', parent', children', attached', widget'⟩ := b
  obtain ⟨rfl, rfl, rfl, rfl⟩ := alike
  unfold face
  rw [parts, messages]
  rfl

/-- A tree that is the widget of a field is, with other attributes, the widget of a field that looks
the same but for its exposure. -/
theorem Draws.exposed {d d' : Draft} {L L' : Layout} {a b : Field} {w : Widget} {dom : Dom}
    (h : d.Draws L a w dom) (alike : Alike a b) (attached : b.attached = a.attached)
    (messages : d'.panel.messages = d.panel.messages)
    (filled : d'.filled (some a.id) = d.filled (some a.id))
    {f : OrderedMap String String → OrderedMap String String}
    (exposure : ∀ m, Exposure.onto (d'.exposure? b) m = f (Exposure.onto (d.exposure? a) m))
    (roots : ∀ target n, L.RootAt target n → L'.RootAt target n) :
    d'.Draws L' b w (dom.withAttrs f) := by
  obtain ⟨kids, rfl, looks, fits, keeps⟩ := h
  have parts : d'.parts b = d.parts a := by
    unfold Draft.parts
    rw [attached, ← alike.id, filled]
  have face := face_congr alike messages parts
  refine ⟨kids, ?_, face ▸ looks, alike.kind ▸ fits, ?_⟩
  · rw [Dom.withAttrs, face]
    unfold attributes Field.lookAttributes
    rw [face, exposure, alike.attributes]
  · have moved := keeps.mono roots
    unfold Widget.Keeps at moved ⊢
    cases w <;> first | exact trivial | (rw [attached]; exact moved)

/-- A tree that is the widget of a field is the widget of a field that looks the same. -/
theorem Draws.congr {d d' : Draft} {L L' : Layout} {a b : Field} {w : Widget} {dom : Dom}
    (h : d.Draws L a w dom) (alike : Alike a b) (attached : b.attached = a.attached)
    (messages : d'.panel.messages = d.panel.messages)
    (filled : d'.filled (some a.id) = d.filled (some a.id))
    (exposure : d'.exposure? b = d.exposure? a)
    (roots : ∀ target n, L.RootAt target n → L'.RootAt target n) : d'.Draws L' b w dom := by
  have same := h.exposed (f := id) alike attached messages filled (fun m => by rw [exposure]; rfl)
    roots
  rwa [Dom.withAttrs_id] at same

section Link

variable {d : Draft} {p c g : FieldId} {container child field : Field} {role : Role}

theorem field?_link (ne : p ≠ c) (hc : d.field? c = some child) (free : child.parent = none)
    (role : Role) (g : FieldId) :
    (d.link p c role).field? g =
      if g = c then some { child with parent := some p }
      else if g = p then (d.field? p).map fun field => field.addChild role c
      else d.field? g := by
  have linked : (d.link p c role).field? g =
      ((d.panel.table.update p fun field => field.addChild role c).update c fun field =>
        { field with parent := some p }).field? g := by
    rw [← FieldTable.link_eq hc free]
    rfl
  rw [linked, FieldTable.field?_update]
  by_cases atChild : g = c
  · rw [if_pos atChild, if_pos atChild, FieldTable.field?_update_of_ne _ _ ne.symm]
    have there : d.panel.table.field? c = some child := hc
    rw [there]
    rfl
  · rw [if_neg atChild, if_neg atChild, FieldTable.field?_update]
    rfl

/-- The field as it is in the draft after a link. -/
def relinked (p c : FieldId) (role : Role) (field : Field) : Field :=
  if field.id = c then { field with parent := some p }
  else if field.id = p then field.addChild role c
  else field

theorem alike_relinked (p c : FieldId) (role : Role) (field : Field) :
    Alike field (relinked p c role field) := by
  unfold relinked
  split
  · exact ⟨rfl, rfl, rfl, rfl⟩
  · split
    · cases role <;> exact ⟨rfl, rfl, rfl, rfl⟩
    · exact Alike.refl field

theorem field?_link_eq (sound : d.Sound) (ne : p ≠ c) (hc : d.field? c = some child)
    (free : child.parent = none) (role : Role) (g : FieldId) :
    (d.link p c role).field? g = (d.field? g).map (relinked p c role) := by
  rw [field?_link ne hc free]
  by_cases atChild : g = c
  · subst atChild
    rw [if_pos rfl, hc, Option.map_some, relinked, if_pos (sound.ids hc)]
  · rw [if_neg atChild]
    by_cases atParent : g = p
    · subst atParent
      rw [if_pos rfl]
      cases found : d.field? g with
      | none => rfl
      | some field =>
        have id := sound.ids found
        rw [Option.map_some, Option.map_some, relinked, if_neg (by rw [id]; exact atChild),
          if_pos id]
    · rw [if_neg atParent]
      cases found : d.field? g with
      | none => rfl
      | some field =>
        have id := sound.ids found
        rw [Option.map_some, relinked, if_neg (by rw [id]; exact atChild),
          if_neg (by rw [id]; exact atParent)]

theorem isSelected_link (sound : d.Sound) (ne : p ≠ c) (hc : d.field? c = some child)
    (free : child.parent = none) (role : Role) (g : FieldId) :
    (d.link p c role).isSelected g = d.isSelected g := by
  unfold isSelected
  rw [field?_link_eq sound ne hc free, Option.map_map]
  congr 2
  funext field
  exact congrArg (fun m => Attributes.flag m Vocabulary.selectedKey false)
    (alike_relinked p c role field).attributes.symm

theorem chosen?_link (sound : d.Sound) (ne : p ≠ c) (hc : d.field? c = some child)
    (free : child.parent = none) (role : Role) {a b : Field} (attached : b.attached = a.attached) :
    (d.link p c role).chosen? b = d.chosen? a := by
  unfold chosen?
  rw [attached]
  congr 2
  funext g
  exact isSelected_link sound ne hc free role g

theorem exposureUnder?_link (sound : d.Sound) (ne : p ≠ c) (hc : d.field? c = some child)
    (free : child.parent = none) (role : Role) {a b : Field} (kind : b.kind = a.kind)
    (attached : b.attached = a.attached) (g : FieldId) :
    (d.link p c role).exposureUnder? b g = d.exposureUnder? a g := by
  unfold exposureUnder? exposureIn
  rw [kind, attached, chosen?_link sound ne hc free role attached,
    isSelected_link sound ne hc free role]

/-- A field without a parent is no part of any field. -/
theorem not_mem_attached (sound : d.Sound) (hp : d.field? p = some container)
    (hc : d.field? c = some child) (free : child.parent = none) : c ∉ container.attached := by
  intro mem
  obtain ⟨child', found, parent⟩ := sound.attached hp mem
  rw [hc] at found
  cases found
  rw [free] at parent
  cases parent

theorem nodup_attached_append (sound : d.Sound) (hp : d.field? p = some container)
    (hc : d.field? c = some child) (free : child.parent = none) :
    (container.attached ++ [c]).Nodup :=
  List.nodup_append.2 ⟨sound.distinct hp, List.nodup_singleton _, fun _ mem _ mem' same =>
    not_mem_attached sound hp hc free (List.mem_singleton.1 mem' ▸ same ▸ mem)⟩

theorem attached_relinked_of_ne (ne : field.id ≠ p) :
    (relinked p c role field).attached = field.attached := by
  unfold relinked
  rw [if_neg ne]
  split <;> rfl

theorem attached_relinked_content : (relinked p c .content field).attached = field.attached := by
  unfold relinked
  split
  · rfl
  · split <;> rfl

theorem parent_relinked_of_ne (ne : field.id ≠ c) :
    (relinked p c role field).parent = field.parent := by
  unfold relinked
  rw [if_neg ne]
  split
  · cases role <;> rfl
  · rfl

theorem parent_relinked (sound : d.Sound) (found : d.field? g = some field) :
    (relinked p c role field).parent = if g = c then some p else field.parent := by
  by_cases same : g = c
  · rw [if_pos same, relinked, if_pos ((sound.ids found).trans same)]
  · rw [if_neg same, parent_relinked_of_ne fun eq => same ((sound.ids found).symm.trans eq)]

/-- The exposure of a field that is not put below another is read off its parent. -/
theorem exposure?_link_of_ne (sound : d.Sound) (ne : p ≠ c) (hc : d.field? c = some child)
    (free : child.parent = none) (role : Role) (other : field.id ≠ c)
    (same : field.parent ≠ some p ∨ role = .content ∨
      ∀ container, d.field? p = some container → container.kind ≠ .tabs) :
    (d.link p c role).exposure? (relinked p c role field) = d.exposure? field := by
  rw [exposure?_eq, exposure?_eq, parent_relinked_of_ne other, ← (alike_relinked p c role field).id]
  cases parent : field.parent with
  | none => rfl
  | some q =>
    rw [Option.bind_some, Option.bind_some, field?_link_eq sound ne hc free]
    cases found : d.field? q with
    | none => rfl
    | some container =>
      rw [Option.map_some, Option.bind_some, Option.bind_some]
      have kind := (alike_relinked p c role container).kind
      by_cases attached : (relinked p c role container).attached = container.attached
      · exact exposureUnder?_link sound ne hc free role kind.symm attached _
      · -- only a tab container that takes a part is left, and it is not the parent
        have atParent : q = p := by
          by_contra elsewhere
          refine attached (attached_relinked_of_ne ?_)
          rw [sound.ids found]
          exact elsewhere
        subst atParent
        rcases same with elsewhere | content | noTabs
        · exact absurd parent elsewhere
        · subst content
          exact absurd attached_relinked_content attached
        · have notTabs := noTabs container found
          unfold exposureUnder?
          rw [if_neg fun h => notTabs (kind.trans h.1), if_neg fun h => notTabs h.1]

/-- A field that was put below another as content is no page. -/
theorem exposure?_link_content (sound : d.Sound) (ne : p ≠ c)
    (hp : d.field? p = some container) (hc : d.field? c = some child)
    (free : child.parent = none) (role : Role)
    (same : role = .content ∨ container.kind ≠ .tabs) :
    (d.link p c role).exposure? (relinked p c role child) = none := by
  have id := sound.ids hc
  have parent : (relinked p c role child).parent = some p := by
    unfold relinked
    rw [if_pos id]
  rw [exposure?_eq, parent, Option.bind_some, field?_link_eq sound ne hc free, hp,
    Option.map_some, Option.bind_some]
  unfold exposureUnder?
  rw [if_neg]
  rintro ⟨tabs, mem⟩
  rcases same with rfl | notTabs
  · rw [attached_relinked_content, ← (alike_relinked p c .content child).id, id] at mem
    exact not_mem_attached sound hp hc free mem
  · exact notTabs ((alike_relinked p c role container).kind.trans tabs)

/-- A field that is put below another changes no exposure, unless it becomes a page. -/
theorem exposure?_link (sound : d.Sound) (ne : p ≠ c) (hp : d.field? p = some container)
    (hc : d.field? c = some child) (free : child.parent = none) (role : Role)
    (same : role = .content ∨ container.kind ≠ .tabs) (hg : d.field? g = some field) :
    (d.link p c role).exposure? (relinked p c role field) = d.exposure? field := by
  by_cases atChild : field.id = c
  · obtain rfl : field = child := by
      rw [sound.ids hg] at atChild
      subst atChild
      exact Option.some.inj (hg.symm.trans hc)
    rw [exposure?_link_content sound ne hp hc free role same, exposure?_eq, free]
    rfl
  · refine exposure?_link_of_ne sound ne hc free role atChild (.inr (same.imp_right fun kind => ?_))
    intro container' hp'
    cases hp.symm.trans hp'
    exact kind

/-- A field of the draft after a link was there before. -/
theorem exists_of_field?_link (sound : d.Sound) (ne : p ≠ c) (hc : d.field? c = some child)
    (free : child.parent = none) {field' : Field} (found : (d.link p c role).field? g = some field') :
    ∃ field, d.field? g = some field ∧ relinked p c role field = field' := by
  rw [field?_link_eq sound ne hc free] at found
  exact Option.map_eq_some_iff.1 found

theorem label?_relinked (role : Role) (field : Field) (messages : Messages) :
    (relinked p c role field).label? messages = field.label? messages := by
  unfold Field.label? Field.attr?
  rw [(alike_relinked p c role field).attributes]

/-- A link puts nothing into a field that does not take the new one for a part. -/
theorem Blank.relinked (blank : d.Blank field)
    (attached : (relinked p c role field).attached = field.attached)
    (exposure : (d.link p c role).exposure? (relinked p c role field) = none) :
    (d.link p c role).Blank (Draft.relinked p c role field) where
  filled := by
    rw [← (alike_relinked p c role field).id]
    exact blank.filled
  attached := attached.trans blank.attached
  exposure := exposure

/-! ## Pages -/

/-- The page that a tab container shows when it took one more. -/
theorem chosen?_link_page (sound : d.Sound) (ne : p ≠ c) (hc : d.field? c = some child)
    (free : child.parent = none) {a b : Field} (attached : b.attached = a.attached ++ [c]) :
    (d.link p c .part).chosen? b = if d.isSelected c then some c else d.chosen? a := by
  have same : (d.link p c .part).isSelected = d.isSelected :=
    funext (isSelected_link sound ne hc free .part)
  unfold chosen?
  rw [attached, same, List.filter_append]
  cases wanted : d.isSelected c with
  | true =>
    rw [List.filter_cons_of_pos wanted, List.filter_nil, List.getLast?_append]
    rfl
  | false =>
    rw [List.filter_cons_of_neg (by simp [wanted]), List.filter_nil, List.append_nil]
    rfl

/-- The page that is shown is one that wants to be. -/
theorem isSelected_of_chosen? {a : Field} (h : d.chosen? a = some g) :
    g ∈ a.attached ∧ d.isSelected g = true := by
  unfold chosen? at h
  exact List.mem_filter.1 (List.mem_of_getLast? h)

theorem attached_relinked_part (id : container.id = p) (ne : p ≠ c) :
    (relinked p c .part container).attached = container.attached ++ [c] := by
  unfold relinked
  rw [if_neg (by rw [id]; exact ne), if_pos id]
  rfl

/-- A field has the parts that it had, and at most the new one. -/
theorem attached_relinked (sound : d.Sound) (ne : p ≠ c) (role : Role)
    (found : d.field? g = some field) :
    (relinked p c role field).attached = field.attached ∨
      g = p ∧ (relinked p c role field).attached = field.attached ++ [c] := by
  by_cases same : g = p
  · subst same
    cases role with
    | content => exact .inl attached_relinked_content
    | part => exact .inr ⟨rfl, attached_relinked_part (sound.ids found) ne⟩
  · exact .inl (attached_relinked_of_ne fun eq => same ((sound.ids found).symm.trans eq))

/-- The exposure of the other pages when a tab container takes one more. -/
theorem exposureUnder?_link_page (sound : d.Sound) (ne : p ≠ c)
    (hp : d.field? p = some container) (hc : d.field? c = some child)
    (free : child.parent = none) (other : g ≠ c) :
    (d.link p c .part).exposureUnder? (relinked p c .part container) g =
      if d.isSelected c then (d.exposureUnder? container g).map Exposure.replaced
      else d.exposureUnder? container g := by
  have attached := attached_relinked_part (sound.ids hp) ne
  have kind := (alike_relinked p c .part container).kind
  unfold exposureUnder?
  by_cases page : container.kind = .tabs ∧ g ∈ container.attached
  · have page' : (relinked p c .part container).kind = .tabs ∧
        g ∈ (relinked p c .part container).attached := by
      rw [attached]
      exact ⟨kind.symm.trans page.1, List.mem_append_left _ page.2⟩
    rw [if_pos page', if_pos page]
    unfold exposureIn
    rw [chosen?_link_page sound ne hc free attached, isSelected_link sound ne hc free]
    cases wanted : d.isSelected c with
    | false => rfl
    | true =>
      have notNew : some c ≠ some g := fun same => other (Option.some.inj same).symm
      rw [if_pos rfl, if_neg notNew, if_pos rfl, Option.map_some]
      by_cases shown : d.chosen? container = some g
      · rw [if_pos shown, if_pos (isSelected_of_chosen? shown).2]
        rfl
      · rw [if_neg shown]
        cases d.isSelected g <;> rfl
  · have page' : ¬((relinked p c .part container).kind = .tabs ∧
        g ∈ (relinked p c .part container).attached) := by
      rw [attached, ← kind]
      rintro ⟨tabs, mem⟩
      rcases List.mem_append.1 mem with old | new
      · exact page ⟨tabs, old⟩
      · exact other (List.mem_singleton.1 new)
    rw [if_neg page', if_neg page]
    cases d.isSelected c <;> rfl

/-- The exposure of the new page itself. -/
theorem exposure?_link_page (sound : d.Sound) (ne : p ≠ c)
    (hp : d.field? p = some container) (hc : d.field? c = some child)
    (free : child.parent = none) (tabs : container.kind = .tabs) :
    (d.link p c .part).exposure? (relinked p c .part child) =
      some (if d.isSelected c then .shown else .never) := by
  have id := sound.ids hc
  have parent : (relinked p c .part child).parent = some p := by
    unfold relinked
    rw [if_pos id]
  have attached := attached_relinked_part (sound.ids hp) ne
  rw [exposure?_eq, parent, Option.bind_some, field?_link_eq sound ne hc free, hp,
    Option.map_some, Option.bind_some, ← (alike_relinked p c .part child).id, id]
  unfold exposureUnder?
  rw [if_pos ⟨(alike_relinked p c .part container).kind.symm.trans tabs, by rw [attached]; simp⟩]
  unfold exposureIn
  rw [chosen?_link_page sound ne hc free attached, isSelected_link sound ne hc free]
  cases wanted : d.isSelected c with
  | true => rw [if_pos rfl, if_pos rfl, if_pos rfl]
  | false =>
    have notShown : d.chosen? container ≠ some c := by
      intro shown
      exact not_mem_attached sound hp hc free (isSelected_of_chosen? shown).1
    simp only [Bool.false_eq_true, if_false]
    rw [if_neg notShown]

end Link

end Draft

/-! ## Putting content below a field -/

namespace Scene

/-- A scene in which a field was put below another. -/
def link (s : Scene) (parent child : FieldId) (role : Role) : Scene :=
  { s with panel := { s.panel with table := s.panel.table.link parent child role } }

variable {s : Scene} {p c : FieldId} {field : Field}

theorem bare_link (found : s.panel.field? c = some field) (free : field.parent = none)
    (role : Role) :
    (s.link p c role).panel.bare =
      { s.panel.bare with table := s.panel.bare.table.link p c role } := by
  unfold link Panel.bare
  rw [FieldTable.bare_link found free]

theorem widget?_link (found : s.panel.field? c = some field) (free : field.parent = none)
    (ne : p ≠ c) (role : Role) (g : FieldId) : (s.link p c role).widget? g = s.widget? g := by
  unfold widget? Panel.field? link
  rw [FieldTable.link_eq found free, FieldTable.field?_update]
  by_cases atChild : g = c
  · subst atChild
    rw [if_pos rfl, FieldTable.field?_update_of_ne _ _ ne.symm]
    cases s.panel.table.field? g <;> rfl
  · rw [if_neg atChild, FieldTable.field?_update]
    by_cases atParent : g = p
    · subst atParent
      rw [if_pos rfl]
      cases s.panel.table.field? g with
      | none => rfl
      | some field => cases role <;> rfl
    · rw [if_neg atParent]

end Scene

namespace Scene.Depicts

open Draft

variable {base : Page} {L L' : Layout} {s : Scene} {d : Draft} {p c : FieldId}
  {container child : Field} {role : Role}

/-- **A scene in which a field was put below another** depicts the draft in which it was, when the
trees on its page look as the fields do there. -/
theorem of_link {field' : Field} (sound : d.Sound) (ne : p ≠ c) (hc : d.field? c = some child)
    (free : child.parent = none) (bare : s.panel.bare = d.panel)
    (found : s.panel.field? c = some field') (free' : field'.parent = none)
    (holds : Page.Holds base s.page L) (ordered : L.Ordered)
    (root : ∃ kids, L .panel = some ⟨none, .element s.panel.root "div" .empty kids⟩ ∧
      Dom.htmlOf kids = d.filled none)
    (built : ∀ {g field w}, d.field? g = some field → s.widget? g = some w →
      ∃ r, L (.tree (.widget g)) = some r ∧
        (d.link p c role).Draws L (relinked p c role field) w r.dom)
    (unbuilt : ∀ {g field}, d.field? g = some field → s.widget? g = none →
      L (.tree (.widget g)) = none ∧ (d.link p c role).Blank (relinked p c role field))
    (captioned : ∀ {g field e}, d.field? g = some field →
      (d.link p c role).exposure? (relinked p c role field) = some e →
      ∃ r, L (.tree (.caption g)) = some r ∧ field.DrawsCaption d.panel.messages e r.dom)
    (uncaptioned : ∀ {g field}, d.field? g = some field →
      (d.link p c role).exposure? (relinked p c role field) = none → L (.tree (.caption g)) = none)
    (unknown : ∀ {g}, d.field? g = none →
      L (.tree (.widget g)) = none ∧ L (.tree (.caption g)) = none)
    (hidden : ∀ g, L (.tree (.shown g)) = none) :
    (s.link p c role).Depicts base L (d.link p c role) where
  holds := holds
  ordered := ordered
  bare := by
    rw [Scene.bare_link found free', bare]
    rfl
  root := root
  built hg hasWidget := by
    obtain ⟨field, there, rfl⟩ := exists_of_field?_link sound ne hc free hg
    rw [Scene.widget?_link found free' ne] at hasWidget
    exact built there hasWidget
  unbuilt hg noWidget := by
    obtain ⟨field, there, rfl⟩ := exists_of_field?_link sound ne hc free hg
    rw [Scene.widget?_link found free' ne] at noWidget
    exact unbuilt there noWidget
  captioned hg exposed := by
    obtain ⟨field, there, rfl⟩ := exists_of_field?_link sound ne hc free hg
    obtain ⟨r, hr, n, kids, shape, looks⟩ := captioned there exposed
    exact ⟨r, hr, n, kids, shape, looks.trans (by rw [label?_relinked]; rfl)⟩
  uncaptioned hg hidden := by
    obtain ⟨field, there, rfl⟩ := exists_of_field?_link sound ne hc free hg
    exact uncaptioned there hidden
  unknown absent := by
    rw [field?_link_eq sound ne hc free, Option.map_eq_none_iff] at absent
    exact unknown absent
  hidden := hidden

/-- A link in which no look changes. -/
theorem link_content (h : s.Depicts base L d) (sound : d.Sound) (ne : p ≠ c)
    (hp : d.field? p = some container) (hc : d.field? c = some child)
    (free : child.parent = none) : (s.link p c .content).Depicts base L (d.link p c .content) := by
  have exposure : ∀ {g field}, d.field? g = some field →
      (d.link p c .content).exposure? (relinked p c .content field) = d.exposure? field :=
    exposure?_link sound ne hp hc free .content (.inl rfl)
  refine of_link sound ne hc free h.bare (h.field_of hc) free h.holds h.ordered h.root ?_ ?_ ?_ ?_
    h.unknown h.hidden
  · intro g field w there hasWidget
    obtain ⟨r, hr, draws⟩ := h.built there hasWidget
    exact ⟨r, hr, draws.congr (alike_relinked ..) attached_relinked_content rfl rfl
      (exposure there) fun _ _ root => root⟩
  · intro g field there noWidget
    obtain ⟨absent, blank⟩ := h.unbuilt there noWidget
    exact ⟨absent, blank.relinked attached_relinked_content ((exposure there).trans blank.exposure)⟩
  · exact fun there exposed => h.captioned there ((exposure there).symm.trans exposed)
  · exact fun there hidden => h.uncaptioned there ((exposure there).symm.trans hidden)

end Scene.Depicts

end Formwork
