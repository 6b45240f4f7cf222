import Formwork.Proofs.Page.Tabs
import Formwork.Proofs.Panel.Grounds

/-!
# Widgets that take parts

A tab container takes panels for its pages, and a disclosure takes a field for its header; the widget
of either remembers what it took (`Widget.parts`).  While a field is asked to take another, the scene
settles (`Scene.Settles`): widgets are built, a page is selected, a place for a header is cleared, and no
widget takes or loses a part.  Between two such spans a container takes the field (`Scene.Gains`).

Every one of these steps leaves a scene grounded, and `Scene.Grounded.exec_takePart` shows that
nothing else happens.
-/

namespace Formwork

set_option autoImplicit false

/-! ## Parts -/

/-- The fields that a widget took for parts of its own. -/
def Widget.parts : Widget → List FieldId
  | .disclosure _ _ _ header => header.toList
  | .tabs _ _ _ pages _ => pages.map TabPage.field
  | _ => []

theorem Widget.Hollow.parts {p : Page} {w : Widget} (h : w.Hollow p) : w.parts = [] := by
  cases w with
  | disclosure root slot content header =>
    obtain rfl : header = none := h
    rfl
  | tabs root bar deck pages selected =>
    obtain ⟨rfl, _⟩ := h
    rfl
  | _ => rfl

namespace Scene

variable {s s' : Scene} {f g p c : FieldId} {field field' : Field} {w w' : Widget}

/-- The fields that the widget of a field took; a field without a widget took none. -/
def parts (s : Scene) (f : FieldId) : List FieldId := (s.widget? f).elim [] Widget.parts

theorem Built.parts (h : s.Built f field w) : s.parts f = w.parts := by
  simp [Scene.parts, widget?, h.found, h.widget]

theorem parts_of_none (found : s.panel.field? f = some field) (unbuilt : field.widget = none) :
    s.parts f = [] := by
  simp [Scene.parts, widget?, found, unbuilt]

theorem parts_congr (same : s'.widget? f = s.widget? f) : s'.parts f = s.parts f := by
  rw [Scene.parts, same, Scene.parts]

theorem parts_withWidget {page : Page} (found : s.panel.field? f = some field) (g : FieldId) :
    (s.withWidget f w page).parts g = if g = f then w.parts else s.parts g := by
  split
  · case isTrue same =>
    subst same
    exact ((built_withWidget found).2 (.inl ⟨rfl, rfl, rfl⟩)).parts
  · case isFalse other => exact parts_congr (widget?_withWidget_of_ne other)

/-- Asking for a widget gives nobody a part. -/
theorem Realizes.parts (h : s.Realizes f w s') (g : FieldId) : s'.parts g = s.parts g := by
  by_cases same : g = f
  · subst same
    cases found : s.panel.field? g with
    | none =>
      have away : s'.panel.field? g = none := by
        rw [h.field?, found]
        rfl
      simp [Scene.parts, widget?, found, away]
    | some field =>
      rw [(h.built found).parts]
      rcases h.old_or_new found with old | ⟨unbuilt, hollow⟩
      · exact (Built.parts ⟨found, old⟩).symm
      · rw [hollow.parts, parts_of_none found unbuilt]
  · refine parts_congr ?_
    unfold widget?
    rw [h.field?]
    simp [same]

/-! ## Steps -/

/-- A step of a scene in which no widget takes or loses a part. -/
inductive Turns (s : Scene) : Scene → Prop
  | realized {f : FieldId} {w : Widget} {s' : Scene} : s.Realizes f w s' → Turns s s'
  | opened {f : FieldId} {field : Field} {root bar deck : NodeId} {pages : List TabPage}
      {selected : Option Nat} {index : Nat} :
      s.Built f field (.tabs root bar deck pages selected) → index < pages.length →
      Turns s (s.withWidget f (.tabs root bar deck pages (some index))
        (PanelM.showPage pages index s.page))
  | cleared {f : FieldId} {field : Field} {root slot content : NodeId} :
      s.Built f field (.disclosure root slot content none) →
      Turns s { s with page := s.page.clear slot }

/-- Some steps in which no widget takes or loses a part. -/
abbrev Settles : Scene → Scene → Prop := Relation.ReflTransGen Turns

/-- A container takes a field for a part: a tab container takes a panel for its last page, and a
disclosure whose place for a header is empty takes a field for its header. -/
inductive Gains (p c : FieldId) (s : Scene) : Scene → Prop
  | page {field child : Field} {root bar deck : NodeId} {pages : List TabPage}
      {selected : Option Nat} {w : Widget} {caption : NodeId} {page' : Page} :
      s.Built p field (.tabs root bar deck pages selected) → s.Built c child w →
      s.page.TakesPage bar deck caption w.root page' →
      Gains p c s (s.withWidget p
        (.tabs root bar deck (pages ++ [⟨c, caption, w.root⟩]) selected) page')
  | header {field child : Field} {root slot content : NodeId} {w : Widget} {page' : Page} :
      s.Built p field (.disclosure root slot content none) → s.Built c child w →
      s.page.children slot = [] → s.page.append slot w.root = .ok page' →
      Gains p c s (s.withWidget p (.disclosure root slot content (some c)) page')

theorem Turns.parts (h : s.Turns s') (f : FieldId) : s'.parts f = s.parts f := by
  cases h with
  | realized h => exact h.parts f
  | opened built _ =>
    rw [parts_withWidget built.found]
    split
    · case isTrue same =>
      subst same
      exact built.parts.symm
    · rfl
  | cleared _ => rfl

theorem Settles.parts (h : s.Settles s') (f : FieldId) : s'.parts f = s.parts f := by
  induction h with
  | refl => rfl
  | tail _ step ih => exact (step.parts f).trans ih

theorem Gains.parts (h : s.Gains p c s') (f : FieldId) :
    s'.parts f = s.parts f ++ if f = p then [c] else [] := by
  cases h with
  | page built _ _ | header built _ _ _ =>
    rw [parts_withWidget built.found]
    split
    · case isTrue same =>
      subst same
      rw [built.parts]
      simp [Widget.parts]
    · exact (List.append_nil _).symm

/-- Widgets stay when one of them is exchanged for a widget with the same topmost node. -/
theorem Built.stays_withWidget {p : Page} {field' : Field} {w' w'' : Widget} (built : s.Built g field w)
    (there : s.Built f field' w') (root : w''.root = w'.root) :
    ∃ field'' w₁, (s.withWidget f w'' p).Built g field'' w₁ ∧ w₁.root = w.root := by
  by_cases same : g = f
  · subst same
    obtain ⟨rfl, rfl⟩ := built.unique there
    exact ⟨_, _, (built_withWidget there.found).2 (.inl ⟨rfl, rfl, rfl⟩), root⟩
  · exact ⟨_, _, (built_withWidget there.found).2 (.inr ⟨same, built⟩), rfl⟩

/-- A widget that is there stays, and its topmost node is the same. -/
theorem Turns.stays (h : s.Turns s') (built : s.Built g field w) :
    ∃ field' w', s'.Built g field' w' ∧ w'.root = w.root := by
  cases h with
  | realized h => exact ⟨_, _, h.built_of_built built, rfl⟩
  | opened there _ => exact built.stays_withWidget there rfl
  | cleared _ => exact ⟨_, _, ⟨built.found, built.widget⟩, rfl⟩

theorem Settles.stays (h : s.Settles s') (built : s.Built g field w) :
    ∃ field' w', s'.Built g field' w' ∧ w'.root = w.root := by
  induction h with
  | refl => exact ⟨_, _, built, rfl⟩
  | tail _ step ih =>
    obtain ⟨_, _, built', root⟩ := ih
    obtain ⟨_, _, built'', root'⟩ := step.stays built'
    exact ⟨_, _, built'', root'.trans root⟩

/-- A field that is there stays, and is of its kind. -/
theorem Settles.exists_field? (h : s.Settles s') (found : s.panel.field? f = some field) :
    ∃ field', s'.panel.field? f = some field' ∧ field'.kind = field.kind := by
  induction h with
  | refl => exact ⟨field, found, rfl⟩
  | tail _ step ih =>
    obtain ⟨field₁, there, kind⟩ := ih
    cases step with
    | realized h =>
      refine ⟨_, (h.field? f).trans (congrArg _ there), ?_⟩
      split <;> exact kind
    | opened built _ =>
      rw [field?_withWidget built.found]
      split
      · case isTrue same =>
        subst same
        cases there.symm.trans built.found
        exact ⟨_, rfl, kind⟩
      · exact ⟨field₁, there, kind⟩
    | cleared _ => exact ⟨field₁, there, kind⟩

theorem Gains.stays (h : s.Gains p c s') (built : s.Built g field w) :
    ∃ field' w', s'.Built g field' w' ∧ w'.root = w.root := by
  cases h with
  | page there _ _ | header there _ _ _ => exact built.stays_withWidget there rfl

/-- No field of a kind took another. -/
def Untaken (kind : FieldKind) (c : FieldId) (s : Scene) : Prop :=
  ∀ f field w, s.Built f field w → field.kind = kind → c ∉ w.parts

theorem Untaken.settles {kind : FieldKind} (h : s.Untaken kind c) (steps : s.Settles s') :
    s'.Untaken kind c := by
  intro f field' w' built' is mem
  rw [← built'.parts, steps.parts] at mem
  -- a widget that took something was there before
  cases found : s.widget? f with
  | none => simp [Scene.parts, found] at mem
  | some w =>
    obtain ⟨field, there, widget⟩ := Option.bind_eq_some_iff.1 found
    have built : s.Built f field w := ⟨there, widget⟩
    obtain ⟨_, there', kind⟩ := steps.exists_field? there
    cases there'.symm.trans built'.found
    rw [built.parts] at mem
    exact h f field w built (kind.symm.trans is) mem

/-! ### Steps on the ground -/

namespace Grounded

/-- An anchor belongs to one widget. -/
theorem built_unique (h : s.Grounded) (built : s.Built f field w) (built' : s.Built g field' w')
    {n : NodeId} (mem : n ∈ w.anchors) (mem' : n ∈ w'.anchors) :
    f = g ∧ field = field' ∧ w = w' := by
  obtain rfl := h.eq_of_mem_anchors built built' mem mem'
  exact ⟨rfl, built.unique built'⟩

/-- The place for a header is neither a bar nor a deck. -/
theorem slot_apart {root root' bar deck slot content : NodeId} {pages : List TabPage}
    {selected : Option Nat} {header : Option FieldId} (h : s.Grounded)
    (there : s.Built f field (.tabs root bar deck pages selected))
    (there' : s.Built g field' (.disclosure root' slot content header)) :
    bar ≠ slot ∧ deck ≠ slot := by
  have apart : ∀ n ∈ (Widget.tabs root bar deck pages selected).anchors, n ≠ slot := by
    rintro n mem rfl
    obtain ⟨_, _, is⟩ := h.built_unique there there' mem (by simp)
    cases is
  exact ⟨apart bar (by simp), apart deck (by simp)⟩

/-- A step that changes what a widget remembers of its parts leaves a scene grounded.  What the places of
the widget gain is of no account, unless the bar of a tab container gains a widget. -/
theorem remember (h : s.Grounded) (built : s.Built p field w) (w' : Widget)
    (frame : w'.frame = w.frame) (kind : field.kind ≠ .panel) (gained : NodeId → NodeId → Prop)
    {page' : Page} (forest : page'.Forest)
    (tags : ∀ n, s.page.tag? n ≠ none → page'.tag? n ≠ none)
    (gains : ∀ n, s.page.tag? n ≠ none → ∀ c ∈ page'.children n,
      c ∈ s.page.children n ∨ gained n c)
    (into : ∀ n c, gained n c → n ∈ w.anchors)
    (new : ∀ {root bar deck pages selected c}, w = .tabs root bar deck pages selected →
      gained bar c → s.page.size ≤ c.index) : (s.withWidget p w' page').Grounded := by
  refine h.transfer gained forest (h.booked.congr (FieldTable.bare_update_widget ..)) ?_ tags
    gains ?_ ?_ ?_
  · intro g field₁ w₁ built₁
    rcases (built_withWidget built.found).1 built₁ with ⟨rfl, rfl, rfl⟩ | ⟨_, old⟩
    · exact ⟨field, w, built, rfl, frame⟩
    · exact ⟨field₁, w₁, old, rfl, rfl⟩
  · intro f₁ field₁ w₁ c built₁ panel gains₁
    obtain ⟨_, rfl, _⟩ := h.built_unique built₁ built w₁.root_mem_anchors (into _ c gains₁)
    exact kind panel
  · intro f₁ g₁ field₁ field₂ w₂ root₁ bar₁ deck₁ pages₁ selected₁ built₁ built₂ gains₁
    obtain ⟨_, _, is⟩ := h.built_unique built₁ built (by simp) (into _ _ gains₁)
    have old := Page.lt_size_of_tag? ((h.stands built₂).element _ w₂.root_mem_anchors)
    exact Nat.not_lt.2 (new is.symm gains₁) old
  · intro g field₁ found attached
    rw [field?_withWidget built.found] at found
    split at found
    · cases found
      exact nofun
    · exact h.realized found attached

theorem turns (h : s.Grounded) (step : s.Turns s') : s'.Grounded := by
  cases step with
  | realized step => exact step.grounded
  | @opened _ field root bar deck pages _ index built _ =>
    have kind : field.kind = .tabs := (h.stands built).suits
    obtain ⟨forest, children, tags⟩ := h.forest.showPage pages index
    refine h.remember built (.tabs root bar deck pages (some index)) rfl (by simp [kind])
      (fun _ _ => False) forest (fun n element => ?_) (fun n _ c mem => ?_) (fun _ _ => False.elim)
      fun _ => False.elim
    · rwa [tags]
    · exact .inl (children n ▸ mem)
  | @cleared _ _ _ slot _ built =>
    refine h.transfer (fun _ _ => False) (h.forest.clear slot).1 h.booked
      (fun built' => ⟨_, _, ⟨built'.found, built'.widget⟩, rfl, rfl⟩) (fun n element => ?_)
      (fun n _ c mem => ?_) (fun _ _ => id) (fun _ _ => id) h.realized
    · rwa [Page.tag?_congr (h.forest.content?_clear slot n)]
    · change c ∈ (s.page.clear slot).children n at mem
      rw [h.forest.children_clear] at mem
      split at mem
      · cases mem
      · exact .inl mem

theorem settles (h : s.Grounded) (steps : s.Settles s') : s'.Grounded := by
  induction steps with
  | refl => exact h
  | tail _ step ih => exact ih.turns step

theorem gains (h : s.Grounded) (step : s.Gains p c s') : s'.Grounded := by
  cases step with
  | @page field child root bar deck pages selected w caption page' built built' takes =>
    have stands := h.stands built
    have kind : field.kind = .tabs := stands.suits
    refine h.remember built (.tabs root bar deck (pages ++ [⟨c, caption, w.root⟩]) selected) rfl
      (by simp [kind]) (fun n x => (n = bar ∧ x = caption) ∨ n = deck) takes.forest takes.tags ?_ ?_ ?_
    · intro n element x mem
      rw [takes.children n (Page.lt_size_of_tag? element), List.append_assoc, List.mem_append,
        List.mem_append] at mem
      rcases mem with old | new | new
      · exact .inl (List.mem_of_mem_filter old)
      · split at new
        · case isTrue same => exact .inr (.inl ⟨same, List.mem_singleton.1 new⟩)
        · cases new
      · split at new
        · case isTrue same => exact .inr (.inr same)
        · cases new
    · rintro n x (⟨rfl, _⟩ | rfl) <;> simp
    · rintro _ _ _ _ _ x ⟨⟩ (⟨_, rfl⟩ | same)
      · exact takes.new
      · have distinct := stands.distinct
        simp [same] at distinct
  | @header field child root slot content w page' built built' empty run =>
    have kind : field.kind = .disclosure := (h.stands built).suits
    have isRoot := (h.stands built').element _ w.root_mem_anchors
    refine h.remember built (.disclosure root slot content (some c)) rfl (by simp [kind])
      (fun n _ => n = slot) (h.forest.append (Page.lt_size_of_tag? isRoot) run) ?_ ?_ ?_ nofun
    · intro n element
      rwa [Page.tag?_congr (Page.content?_append run n)]
    · intro n _ x mem
      rw [h.forest.children_append run, List.mem_append] at mem
      rcases mem with old | new
      · exact .inl (List.mem_of_mem_filter old)
      · split at new
        · case isTrue same => exact .inr same
        · cases new
    · rintro n x rfl
      simp

/-! ### What taking a part does -/

/-- Selecting a page settles a scene. -/
theorem exec_selectTab (h : s.Grounded) (found : s.panel.field? f = some field) (index : Nat) :
    ∃ answer s', exec (PanelM.selectTab f index) s = (.ok answer, s') ∧ s.Settles s' := by
  obtain ⟨w, s₁, run, realizes⟩ := h.exec_widgetOf found
  have step : s.Settles s₁ := .single (.realized realizes)
  unfold PanelM.selectTab
  rw [exec_bind_ok run]
  cases w with
  | tabs root bar deck pages selected =>
    dsimp only
    by_cases bound : index < pages.length
    · rw [if_pos bound]
      exact ⟨true, _, rfl, step.tail (.opened (realizes.built found) bound)⟩
    · rw [if_neg bound]
      exact ⟨false, s₁, rfl, step⟩
  | _ => exact ⟨false, s₁, rfl, step⟩

/-- **A tab container** takes every panel. -/
theorem exec_takePage (h : s.Grounded) (container : s.panel.field? p = some field)
    (kind : field.kind = .tabs) {child : Field} (found : s.panel.field? c = some child)
    (panel : child.kind = .panel) :
    ∃ s₁ s₂ s', exec (PanelM.takePage p child) s = (.ok (), s') ∧ s.Settles s₁ ∧ s₁.Gains p c s₂ ∧
      s₂.Settles s' := by
  obtain ⟨w, s₁, run₁, realizes₁⟩ := h.exec_widgetOf container
  have other : c ≠ p := by
    rintro rfl
    cases found.symm.trans container
    cases kind.symm.trans panel
  have found₁ : s₁.panel.field? c = some child := by
    rw [realizes₁.field?, found, Option.map_some, if_neg other]
  obtain ⟨w', s₂, run₂, realizes₂⟩ := realizes₁.grounded.exec_widget found₁
  have built := realizes₂.built_of_built (realizes₁.built container)
  have built' := realizes₂.built found₁
  have ground := realizes₂.grounded
  have stands := ground.stands built
  have stands' := ground.stands built'
  -- the widget of a tab container is one
  cases w with
  | tabs root bar deck pages selected =>
    have isRoot := stands'.element _ w'.root_mem_anchors
    have apart := ground.apart built' built other _ w'.root_mem_anchors
    simp only [Widget.anchors_tabs, List.mem_cons, List.not_mem_nil, or_false, not_or] at apart
    obtain ⟨p₂, p₃, run₃, run₄, takes⟩ := ground.forest.exists_takesPage
      (stands.element bar (by simp)) (stands.element deck (by simp))
      isRoot (stands'.blank panel) apart.2.1 apart.2.2 ((child.label? s.panel.messages).getD "")
    have own : child.id = c := h.booked.ids found
    rw [← own] at run₂
    have run := Depicts.exec_takePage_of child run₁ run₂ built.found rfl run₃ run₄
    rw [own] at run
    have settled : s.Settles s₂ := .tail (.single (.realized realizes₁)) (.realized realizes₂)
    have gain := Gains.page built built' takes
    rw [run]
    split
    · obtain ⟨answer, s', selects, last⟩ := (ground.gains gain).exec_selectTab
        ((built_withWidget built.found).2 (.inl ⟨rfl, rfl, rfl⟩)).found pages.length
      exact ⟨s₂, _, s', exec_bind_ok selects, settled, gain, last⟩
    · exact ⟨s₂, _, _, rfl, settled, gain, .refl⟩
  | disclosure _ _ _ _ => cases kind.symm.trans stands.suits
  | _ => exact absurd kind stands.suits.1

end Grounded

/-- How a field answers when it is asked to take another. -/
inductive Takes (p c : FieldId) (s : Scene) : Except FieldError Role → Scene → Prop
  | failed {e : FieldError} {s' : Scene} : s.Settles s' → Takes p c s (.error e) s'
  | content {s' : Scene} : s.Settles s' →
      (∀ container child, s.panel.field? p = some container → s.panel.field? c = some child →
        container.kind = .disclosure → child.tagUri? = some Vocabulary.headerTag → s.parts p ≠ []) →
      Takes p c s (.ok .content) s'
  | part {s₁ s₂ s' : Scene} : s.Settles s₁ → s₁.Gains p c s₂ → s₂.Settles s' →
      Takes p c s (.ok .part) s'

namespace Grounded

/-- The place for a header is cleared, and then it is filled, unless the page refuses. -/
theorem exec_fillPlace (h : s.Grounded) {root slot content : NodeId} {child : Field}
    (built : s.Built p field (.disclosure root slot content none)) (built' : s.Built c child w) :
    ∃ answer s₁ s', s.Settles s₁ ∧
      exec (do
        PanelM.onPage (PageM.clear slot)
        PanelM.onPage (PageM.append slot w.root)
        PanelM.changeField p fun field =>
          { field with widget := some (.disclosure root slot content (some c)) }
        return Role.part : PanelM Role) s = (answer, s') ∧
      ((∃ e, answer = .error e ∧ s' = s₁) ∨ answer = .ok .part ∧ s₁.Gains p c s') := by
  have cleared : s.Settles { s with page := s.page.clear slot } := .single (.cleared built)
  rw [exec_bind_ok (PanelM.exec_clear slot)]
  cases run : (s.page.clear slot).append slot w.root with
  | error e =>
    have fails : exec (PanelM.onPage (PageM.append slot w.root)) { s with page := s.page.clear slot } =
        (.error (.page e), { s with page := s.page.clear slot }) := by
      refine PanelM.exec_onPage_error ?_
      rw [PageM.exec_append, run]
      rfl
    exact ⟨_, _, _, cleared, exec_bind_error fails, .inl ⟨_, rfl, rfl⟩⟩
  | ok page' =>
    have empty : (s.page.clear slot).children slot = [] := by
      rw [h.forest.children_clear, if_pos rfl]
    refine ⟨_, _, _, cleared, ?_, .inr ⟨rfl, .header (s := { s with page := s.page.clear slot })
      ⟨built.found, built.widget⟩ ⟨built'.found, built'.widget⟩ empty run⟩⟩
    refine (exec_bind_ok (PanelM.exec_append
      (s := { s with page := s.page.clear slot }) run)).trans ?_
    exact exec_bind_ok (PanelM.exec_changeField _ _)

/-- **A disclosure** takes its first header, unless the header contains the disclosure. -/
theorem exec_takeHeader (h : s.Grounded) (container : s.panel.field? p = some field)
    (kind : field.kind = .disclosure) {child : Field} (found : s.panel.field? c = some child) :
    ∃ answer s', exec (PanelM.takeHeader p c) s = (answer, s') ∧ s.Takes p c answer s' := by
  obtain ⟨w, s₁, run₁, realizes₁⟩ := h.exec_widgetOf container
  have built₁ := realizes₁.built container
  have stands₁ := realizes₁.grounded.stands built₁
  have first : s.Settles s₁ := .single (.realized realizes₁)
  unfold PanelM.takeHeader
  rw [exec_bind_ok run₁]
  cases w with
  | disclosure root slot content header =>
    cases header with
    | some g =>
      refine ⟨.ok .content, s₁, rfl, .content first fun _ _ _ _ _ _ => ?_⟩
      rw [← first.parts, built₁.parts]
      exact List.cons_ne_nil _ _
    | none =>
      obtain ⟨child₁, found₁, _⟩ := first.exists_field? found
      obtain ⟨w', s₂, run₂, realizes₂⟩ := realizes₁.grounded.exec_widget found₁
      have built := realizes₂.built_of_built built₁
      have second := first.tail (.realized realizes₂)
      obtain ⟨answer, s₃, s', settled, run, outcome⟩ :=
        realizes₂.grounded.exec_fillPlace built (realizes₂.built found₁)
      refine ⟨answer, s', ?_, ?_⟩
      · refine (exec_bind_ok run₂).trans ?_
        exact (exec_bind_ok (PanelM.exec_widgetOf_built built.found built.widget)).trans run
      · rcases outcome with ⟨e, rfl, rfl⟩ | ⟨rfl, gain⟩
        · exact .failed (second.trans settled)
        · exact .part (second.trans settled) gain .refl
  | tabs _ _ _ _ _ => cases kind.symm.trans stands₁.suits
  | _ => exact absurd kind stands₁.suits.2

/-- **Asking a field to take another** settles the scene and gives the field the other, or nothing. -/
theorem exec_takePart (h : s.Grounded) (p c : FieldId) :
    ∃ answer s', exec (PanelM.takePart p c) s = (answer, s') ∧ s.Takes p c answer s' := by
  unfold PanelM.takePart
  rcases PanelM.exec_field_cases p s with ⟨container, there, run⟩ | ⟨_, fails⟩
  · rcases PanelM.exec_field_cases c s with ⟨child, found, run'⟩ | ⟨_, fails⟩
    · rw [exec_bind_ok run, exec_bind_ok run']
      by_cases page : container.kind = .tabs ∧ child.kind = .panel
      · rw [if_pos page]
        obtain ⟨s₁, s₂, s', taken, before, gain, behind⟩ := h.exec_takePage there page.1 found page.2
        exact ⟨_, _, exec_bind_ok taken, .part before gain behind⟩
      · rw [if_neg page]
        by_cases header : container.kind = .disclosure ∧ child.tagUri? = some Vocabulary.headerTag
        · rw [if_pos header]
          exact h.exec_takeHeader there header.1 found
        · rw [if_neg header]
          refine ⟨_, _, rfl, .content .refl fun container' child' there' found' kind tag => ?_⟩
          cases there.symm.trans there'
          cases found.symm.trans found'
          exact absurd ⟨kind, tag⟩ header
    · rw [exec_bind_ok run]
      exact ⟨_, _, exec_bind_error fails, .failed .refl⟩
  · exact ⟨_, _, exec_bind_error fails, .failed .refl⟩

end Grounded

end Scene

end Formwork
