import Formwork.Proofs.Page.Tabs
import Formwork.Proofs.Panel.Reached

/-!
# Additions that fail

Putting a field below another fails when one of them is not there, or when the page refuses to put
the widget of the one into that of the other because it contains it.  The fields are then what they
were, but for widgets that were built on the way.

The page is another matter: a tab container gives its bar a caption, and a disclosure empties the
place for its header, before the step that can be refused.  So a failed addition leaves the page as it was
exactly when it gets to neither (`Scene.Reached.addChild_refused`).
-/

namespace Formwork

set_option autoImplicit false

open Page (Confined nowhere)
open Panel (Request)
open PanelM (Asks)

namespace Page

variable {p p' base : Page} {n q c bar root : NodeId} {ns : List NodeId}

/-- Above a new node all nodes are new, and above an old one all are old. -/
theorem Rests.ascends (h : base.Rests p) (up : p.Ascends n ns) :
    ∀ m ∈ ns, base.size ≤ m.index ↔ base.size ≤ n.index := by
  induction up with
  | top =>
    intro m mem
    rw [List.mem_singleton.1 mem]
  | step lies _ ih =>
    intro m mem
    rcases List.mem_cons.1 mem with rfl | mem
    · exact Iff.rfl
    · exact (ih m mem).trans (h.new_of_parent lies).symm

/-- Appending a node moves no other. -/
theorem Forest.parent?_append (h : p.Forest) (known : c.index < p.size)
    (run : p.append q c = .ok p') (other : n ≠ c) : p'.parent? n = p.parent? n := by
  refine h.parent?_congr (h.append known run) fun m => ?_
  rw [h.children_append run, List.mem_append, List.mem_filter]
  constructor
  · rintro (⟨mem, _⟩ | mem)
    · exact mem
    · split at mem
      · exact absurd (List.mem_singleton.1 mem) other
      · cases mem
  · exact fun mem => .inl ⟨mem, decide_eq_true other⟩

/-- A new caption that joins a bar moves no node that was there. -/
theorem Forest.ascends_caption (h : p.Forest) {text : String}
    (run : (((((p.createElement "span").2.setAttr ⟨p.size⟩ "class" "tab").setText ⟨p.size⟩
      text).setFlag root "hidden" true).append bar ⟨p.size⟩ = .ok p')) (known : n.index < p.size)
    (up : p.Ascends n ns) : p'.Ascends n ns := by
  obtain ⟨p₀, made, forest₀, grown, size₀, _⟩ := h.caption_created text
  rw [made] at run
  obtain ⟨size₁, _, parents₁, _⟩ := setFlag_moves_nothing p₀ root "hidden" true
  have old := h.lt_size up known
  refine up.congr fun m mem => ?_
  rw [(forest₀.setFlag root "hidden" true).parent?_append (size₁.symm ▸ size₀) run
    (ne_of_lt_size (old m mem)), parents₁, grown.parent m (old m mem)]

end Page

namespace Scene

variable {s s' s₁ s₂ : Scene} {p c f g : FieldId} {field field' child : Field} {w w' : Widget}
  {e : FieldError}

/-! ## What may be left behind -/

/-- Nothing was done but to build some widgets: what else there is of the panel and of the page is as it
was. -/
structure Unharmed (s s' : Scene) : Prop where
  built : ∃ fs : List FieldId, s'.panel = (s.after (fs.map .widget)).panel ∧
    s'.page.size = (s.after (fs.map .widget)).page.size
  counters : s'.counters = s.counters
  nodes : ∀ n : NodeId, n.index < s.page.size → s'.page.node? n = s.page.node? n

/-- An addition that would be seen on the page even when it fails: the parent is a tab container, or a
disclosure without a header that has something in its place. -/
def Spoils (s : Scene) (p c : FieldId) : Prop :=
  ∃ field child, s.panel.field? p = some field ∧ s.panel.field? c = some child ∧
    (field.kind = .tabs ∨ ∃ root slot content,
      field.widget = some (.disclosure root slot content none) ∧ s.page.children slot ≠ [])

theorem after_widget {answer : Except FieldError NodeId}
    (run : exec (PanelM.widget f) s = (answer, s')) : Request.after (.widget f) s = s' := by
  unfold Request.after Request.perform
  rw [exec_bind, run]
  cases answer <;> rfl

theorem widget_of_widgetOf (run : exec (PanelM.widgetOf f) s = (.ok w, s')) :
    exec (PanelM.widget f) s = (.ok w.root, s') := by
  unfold PanelM.widget
  rw [exec_bind_ok run, exec_pure]

/-- Two widgets were asked for, one after the other. -/
structure AsksBoth (s : Scene) (p : FieldId) (container : Field) (w : Widget) (c : FieldId)
    (w' : Widget) (s₁ s₂ : Scene) : Prop where
  first : exec (PanelM.widgetOf p) s = (.ok w, s₁)
  second : exec (PanelM.widget c) s₁ = (.ok w'.root, s₂)
  asks : Asks .empty False s p container w s₁
  asks' : ∃ child, Asks .empty False s₁ c child w' s₂

namespace AsksBoth

theorem after (h : s.AsksBoth p field w c w' s₁ s₂) : s.after ([p, c].map .widget) = s₂ := by
  rw [List.map_cons, List.map_singleton, after_cons, after_cons, after_nil,
    after_widget (widget_of_widgetOf h.first), after_widget h.second]

theorem custody (h : s.AsksBoth p field w c w' s₁ s₂) : s₂.Custody .empty False := by
  obtain ⟨_, asks'⟩ := h.asks'
  exact asks'.leads.custody

theorem built (h : s.AsksBoth p field w c w' s₁ s₂) :
    s₂.Built p { field with widget := some w } w := by
  obtain ⟨_, asks'⟩ := h.asks'
  exact asks'.stays h.asks.built

theorem counters (h : s.AsksBoth p field w c w' s₁ s₂) : s₂.counters = s.counters := by
  obtain ⟨_, asks'⟩ := h.asks'
  exact asks'.counters.trans h.asks.counters

theorem grows (h : s.AsksBoth p field w c w' s₁ s₂) : s.page.Grows s₂.page := by
  obtain ⟨_, asks'⟩ := h.asks'
  exact h.asks.grows.trans asks'.grows

/-- Both widgets lie on a page that rests on the one that was there. -/
theorem rests (h : s.AsksBoth p field w c w' s₁ s₂) (forest : s.page.Forest) :
    s.page.Rests s₂.page := ⟨forest, h.custody.rests.forest, h.grows⟩

end AsksBoth

/-- Two widgets that are asked for are there. -/
theorem Custody.asksBoth (h : s.Custody .empty False) (container : s.panel.field? p = some field)
    (candidate : s.panel.field? c = some child) :
    ∃ w w' s₁ s₂, s.AsksBoth p field w c w' s₁ s₂ := by
  obtain ⟨w, s₁, first, asks⟩ := PanelM.exec_widgetOf h container
  have there : ∃ child', s₁.panel.field? c = some child' := by
    by_cases same : c = p
    · subst same
      exact ⟨_, asks.built.found⟩
    · exact ⟨child, (asks.others same).trans candidate⟩
  obtain ⟨child', there⟩ := there
  obtain ⟨w', s₂, second, asks'⟩ := PanelM.exec_widget asks.leads.custody there
  exact ⟨w, w', s₁, s₂, first, second, asks, child', asks'⟩

/-! ## A header that is refused -/

section Headers

variable {root slot content : NodeId}

/-- Taking a header fails when the place for it refuses the widget of the header; the place is empty then. -/
theorem AsksBoth.takeHeader_refused
    (h : s.AsksBoth p field (.disclosure root slot content none) c w s₁ s₂)
    (run : exec (PanelM.takeHeader p c) s = (.error e, s')) :
    s' = { s₂ with page := s₂.page.clear slot } := by
  unfold PanelM.takeHeader at run
  replace run := (exec_bind_ok h.first).symm.trans run
  replace run := (exec_bind_ok h.second).symm.trans run
  replace run := (exec_bind_ok (PanelM.exec_widgetOf_built h.built.found h.built.widget)).symm.trans run
  replace run := (exec_bind_ok (PanelM.exec_clear slot)).symm.trans run
  cases place : (s₂.page.clear slot).append slot w.root with
  | ok page' =>
    replace run := (exec_bind_ok (PanelM.exec_append
      (s := { s₂ with page := s₂.page.clear slot }) place)).symm.trans run
    cases run
  | error refusal =>
    have fails : exec (PanelM.onPage (PageM.append slot w.root))
        { s₂ with page := s₂.page.clear slot } =
          (.error (.page refusal), { s₂ with page := s₂.page.clear slot }) := by
      refine PanelM.exec_onPage_error ?_
      rw [PageM.exec_append, place]
      rfl
    replace run := (exec_bind_error fails).symm.trans run
    cases run
    rfl

/-- Emptying the place for a header is seen if the disclosure was built before and had something there. -/
theorem AsksBoth.clear_unseen_iff (h : s.Custody .empty False)
    (asked : s.AsksBoth p field (.disclosure root slot content none) c w s₁ s₂) :
    (∀ n : NodeId, n.index < s.page.size → (s₂.page.clear slot).node? n = s.page.node? n) ↔
      ∀ root slot content, field.widget = some (.disclosure root slot content none) →
        s.page.children slot = [] := by
  have forest := asked.custody.rests.forest
  have isSlot : slot ∈ (Widget.disclosure root slot content none).own := by simp [Widget.own]
  rcases asked.asks.fresh with old | ⟨unbuilt, fresh⟩
  · have known := h.own_known ⟨asked.asks.found, old⟩ isSlot
    constructor
    · intro same root' slot' content' is
      cases old.symm.trans is
      have emptied : (s₂.page.clear slot).children slot = [] := by
        rw [forest.children_clear, if_pos rfl]
      unfold Page.children at emptied ⊢
      rwa [same slot known] at emptied
    · intro empty n there
      have none : s₂.page.children slot = [] :=
        (asked.grows.children known).trans (empty root slot content old)
      exact (congrArg (Page.node? · n) (Page.clear_of_no_children none)).trans
        (asked.grows.old n there)
  · constructor
    · intro _ _ _ _ is
      cases unbuilt.symm.trans is
    · intro _ n there
      exact (Confined.clear (asked.rests h.rests.forest) (fresh.own slot isSlot).1).rests.grows.old n
        there

end Headers

/-- **A disclosure** that is refused its header has an empty place for it, and is otherwise what it
was. -/
theorem Custody.takeHeader_refused (h : s.Custody .empty False)
    (container : s.panel.field? p = some field) (kind : field.kind = .disclosure)
    (candidate : s.panel.field? c = some child)
    (run : exec (PanelM.takeHeader p c) s = (.error e, s')) :
    (∃ fs : List FieldId, s'.panel = (s.after (fs.map .widget)).panel ∧
      s'.page.size = (s.after (fs.map .widget)).page.size) ∧ s'.counters = s.counters ∧
      ((∀ n : NodeId, n.index < s.page.size → s'.page.node? n = s.page.node? n) ↔
        ∀ root slot content, field.widget = some (.disclosure root slot content none) →
          s.page.children slot = []) := by
  obtain ⟨w, w', s₁, s₂, asked⟩ := h.asksBoth container candidate
  have suits := asked.asks.leads.custody.kind asked.asks.built
  rw [show ({ field with widget := some w } : Field).kind = _ from kind] at suits
  cases w with
  | disclosure root slot content header =>
    cases header with
    | some g =>
      unfold PanelM.takeHeader at run
      rw [exec_bind_ok asked.first] at run
      cases run
    | none =>
      obtain rfl := asked.takeHeader_refused run
      refine ⟨⟨[p, c], ?_⟩, asked.counters, asked.clear_unseen_iff h⟩
      rw [asked.after]
      exact ⟨rfl, (asked.custody.rests.forest.clear slot).2.1⟩
  | _ => simp [Widget.kinds] at suits

/-! ## A page that is refused -/

section Tabs

variable {own bar deck : NodeId} {pages : List TabPage} {selected : Option Nat}

/-- A tab container that was built answers when it is asked to show a page. -/
theorem Built.exec_selectTab (built : s.Built f field (.tabs own bar deck pages selected))
    (index : Nat) : ∃ answer s', exec (PanelM.selectTab f index) s = (.ok answer, s') := by
  unfold PanelM.selectTab
  rw [exec_bind_ok (PanelM.exec_widgetOf_built built.found built.widget)]
  by_cases there : index < pages.length
  · exact ⟨true, _, by dsimp only; rw [if_pos there]; rfl⟩
  · exact ⟨false, s, by dsimp only; rw [if_neg there]; rfl⟩

/-- Taking a page fails when the deck refuses the widget of the page; the bar has got its caption then. -/
theorem AsksBoth.takePage_cases (h : s.AsksBoth p field (.tabs own bar deck pages selected) c w s₁ s₂)
    (id : child.id = c) {page : Page} (run : (((((s₂.page.createElement "span").2.setAttr
      ⟨s₂.page.size⟩ "class" "tab").setText ⟨s₂.page.size⟩
        ((child.label? s.panel.messages).getD "")).setFlag w.root "hidden" true).append bar
          ⟨s₂.page.size⟩ = .ok page)) :
    (∃ page', page.append deck w.root = .ok page' ∧ (exec (PanelM.takePage p child) s).1 = .ok ()) ∨
      ∃ refusal, page.append deck w.root = .error refusal ∧
        exec (PanelM.takePage p child) s = (.error (.page refusal), { s₂ with page := page }) := by
  have built := h.built
  have foundOn : ∀ q, (⟨s₂.panel, q, s₂.counters⟩ : Scene).panel.field? p = _ := fun _ => built.found
  have second := h.second
  rw [← id] at second
  cases place : page.append deck w.root with
  | ok page' =>
    refine .inl ⟨page', rfl, ?_⟩
    have taken := Depicts.exec_takePage_of child h.first second built.found built.widget run place
    have shown : (s₂.withWidget p (.tabs own bar deck (pages ++ [⟨child.id, ⟨s₂.page.size⟩, w.root⟩])
        selected) page').Built p _ _ := (built_withWidget built.found).2 (.inl ⟨rfl, rfl, rfl⟩)
    obtain ⟨answer, s₃, selects⟩ := shown.exec_selectTab pages.length
    rw [taken]
    split
    · exact congrArg Prod.fst (exec_bind_ok selects)
    · rfl
  | error refusal =>
    refine .inr ⟨refusal, rfl, ?_⟩
    unfold PanelM.takePage
    rw [exec_bind_ok (exec_get s)]
    dsimp only
    rw [exec_bind_ok h.first, exec_bind_ok second, exec_bind_ok (PanelM.exec_element "span"),
      exec_bind_ok (PanelM.exec_changePage _)]
    refine (exec_bind_ok (PanelM.exec_widgetOf_built (foundOn _) built.widget)).trans ?_
    dsimp only
    refine (exec_bind_ok (PanelM.exec_append (s := ⟨s₂.panel, _, s₂.counters⟩) run)).trans ?_
    refine exec_bind_error (PanelM.exec_onPage_error ?_)
    rw [PageM.exec_append, place]
    rfl

/-- The widget of a field does not lie above one that was built right before it was asked for. -/
theorem AsksBoth.not_mem_of_fresh {own : Widget} {n : NodeId} {ns : List NodeId}
    (h : s.Custody .empty False) (asked : s.AsksBoth p field own c w s₁ s₂) (other : c ≠ p)
    (mem : n ∈ own.own) (fresh : s.page.size ≤ n.index) (up : s₂.page.Ascends n ns) :
    w.root ∉ ns := by
  obtain ⟨child', asks'⟩ := asked.asks'
  intro above
  have new := ((asked.rests h.rests.forest).ascends up _ above).2 fresh
  rcases asks'.fresh with there | ⟨_, fresh'⟩
  · have found := (asked.asks.others other).symm.trans asks'.found
    exact Nat.not_lt.2 new (h.own_known ⟨found, there⟩ w.root_mem_own)
  · have first : s₁.page.Rests s₂.page :=
      ⟨asked.asks.leads.custody.rests.forest, asked.custody.rests.forest, asks'.grows⟩
    have later := (first.ascends up _ above).1 (fresh'.own _ w.root_mem_own).1
    exact Nat.not_lt.2 later (asked.asks.leads.custody.own_known asked.asks.built mem)

/-- A deck that refuses a page was there before: the widget of the page contains it. -/
theorem AsksBoth.built_of_refused (h : s.Custody .empty False)
    (asked : s.AsksBoth p field (.tabs own bar deck pages selected) c w s₁ s₂) (other : c ≠ p)
    {text : String} {page : Page} {refusal : PageError}
    (joined : (((((s₂.page.createElement "span").2.setAttr ⟨s₂.page.size⟩ "class" "tab").setText
      ⟨s₂.page.size⟩ text).setFlag w.root "hidden" true).append bar ⟨s₂.page.size⟩ = .ok page))
    (takes : s₂.page.TakesCaption bar ⟨s₂.page.size⟩ w.root page)
    (place : page.append deck w.root = .error refusal) :
    field.widget = some (.tabs own bar deck pages selected) := by
  have isOwn : deck ∈ (Widget.tabs own bar deck pages selected).own := by simp [Widget.own]
  have isDeck := (asked.custody.own asked.built deck isOwn).2
  have known := Page.lt_size_of_tag? isDeck
  refine asked.asks.fresh.resolve_right ?_
  rintro ⟨_, fresh⟩
  have forest := asked.custody.rests.forest
  obtain ⟨ns, up⟩ := forest.rises deck
  have outside := asked.not_mem_of_fresh h other isOwn (fresh.own deck isOwn).1 up
  have isDeck' : page.tag? deck ≠ none := by rwa [takes.tags deck known]
  obtain ⟨page', accepted⟩ :=
    takes.forest.exists_append isDeck' (forest.ascends_caption joined known up) outside
  cases place.symm.trans accepted

/-- **A tab container** that is refused a page has a caption for it: it had its widget before. -/
theorem Custody.takePage_refused (h : s.Custody .empty False)
    (container : s.panel.field? p = some field) (kind : field.kind = .tabs)
    (candidate : s.panel.field? c = some child) (panel : child.kind = .panel)
    (run : exec (PanelM.takePage p child) s = (.error e, s')) :
    (∃ fs : List FieldId, s'.panel = (s.after (fs.map .widget)).panel) ∧ s'.counters = s.counters ∧
      ∃ n : NodeId, n.index < s.page.size ∧ s'.page.node? n ≠ s.page.node? n := by
  obtain ⟨w, w', s₁, s₂, asked⟩ := h.asksBoth container candidate
  have other : c ≠ p := by
    rintro rfl
    cases container.symm.trans candidate
    cases kind.symm.trans panel
  have suits := asked.asks.leads.custody.kind asked.asks.built
  rw [show ({ field with widget := some w } : Field).kind = _ from kind] at suits
  cases w with
  | tabs own bar deck pages selected =>
    obtain ⟨child', asks'⟩ := asked.asks'
    have ground := asked.custody
    have isBar : bar ∈ (Widget.tabs own bar deck pages selected).own := by simp [Widget.own]
    obtain ⟨page, joined, takes⟩ := ground.rests.forest.exists_takesCaption
      (ground.own asked.built bar isBar).2 (ground.own asks'.built _ w'.root_mem_own).2
      ((child.label? s.panel.messages).getD "")
    rcases asked.takePage_cases (h.booked.ids candidate) joined with
      ⟨_, _, answers⟩ | ⟨refusal, place, fails⟩
    · rw [run] at answers
      cases answers
    · rw [run] at fails
      cases fails
      refine ⟨⟨[p, c], by rw [asked.after]⟩, asked.counters, ?_⟩
      have known := h.own_known ⟨container, asked.built_of_refused h other joined takes place⟩ isBar
      refine ⟨bar, known, fun same => ?_⟩
      have children := takes.children bar (Nat.lt_of_lt_of_le known asked.grows.size)
      rw [if_pos rfl, asked.grows.children known] at children
      unfold Page.children at children
      rw [same] at children
      simpa using congrArg List.length children
  | _ => simp [Widget.kinds] at suits

end Tabs

/-! ## Additions -/

/-- A scene in which nothing was done at all. -/
theorem Unharmed.refl (s : Scene) : s.Unharmed s := ⟨⟨[], rfl, rfl⟩, rfl, fun _ _ => rfl⟩

theorem spoils_iff (container : s.panel.field? p = some field) (candidate : s.panel.field? c = some child) :
    s.Spoils p c ↔ field.kind = .tabs ∨ ∃ root slot content,
      field.widget = some (.disclosure root slot content none) ∧ s.page.children slot ≠ [] := by
  constructor
  · rintro ⟨field', _, there, _, spoilt⟩
    cases container.symm.trans there
    exact spoilt
  · exact fun spoilt => ⟨field, child, container, candidate, spoilt⟩

/-- A disclosure is not spoilt if there is nothing in the place for its header. -/
theorem not_spoils_iff (container : s.panel.field? p = some field) (kind : field.kind = .disclosure)
    (candidate : s.panel.field? c = some child) :
    ¬ s.Spoils p c ↔ ∀ root slot content,
      field.widget = some (.disclosure root slot content none) → s.page.children slot = [] := by
  rw [spoils_iff container candidate]
  constructor
  · intro fine root slot content is
    by_contra full
    exact fine (.inr ⟨root, slot, content, is, full⟩)
  · rintro empty (tabs | ⟨root, slot, content, is, full⟩)
    · cases kind.symm.trans tabs
    · exact full (empty root slot content is)

/-- What a failed addition leaves of the fields, and when the page is as it was. -/
theorem Custody.takePart_refused (h : s.Custody .empty False)
    (run : exec (PanelM.takePart p c) s = (.error e, s')) :
    (∃ fs : List FieldId, s'.panel = (s.after (fs.map .widget)).panel) ∧ s'.counters = s.counters ∧
      (s.Unharmed s' ↔ ¬ s.Spoils p c) := by
  have still : ¬ s.Spoils p c → (∃ fs : List FieldId, s.panel = (s.after (fs.map .widget)).panel) ∧
      s.counters = s.counters ∧ (s.Unharmed s ↔ ¬ s.Spoils p c) := fun fine =>
    ⟨⟨[], rfl⟩, rfl, ⟨fun _ => fine, fun _ => .refl s⟩⟩
  unfold PanelM.takePart at run
  rcases PanelM.exec_field_cases p s with ⟨field, container, run₁⟩ | ⟨missing, run₁⟩
  · rw [exec_bind_ok run₁] at run
    rcases PanelM.exec_field_cases c s with ⟨child, candidate, run₂⟩ | ⟨missing, run₂⟩
    · rw [exec_bind_ok run₂] at run
      split at run
      · case isTrue kinds =>
        cases taken : exec (PanelM.takePage p child) s with
        | mk answer s₁ =>
          cases answer with
          | ok u =>
            rw [exec_bind_ok taken] at run
            cases run
          | error e' =>
            rw [exec_bind_error taken] at run
            cases run
            obtain ⟨built, counters, n, known, changed⟩ :=
              h.takePage_refused container kinds.1 candidate kinds.2 taken
            refine ⟨built, counters, fun unharmed => (changed (unharmed.nodes n known)).elim, ?_⟩
            exact fun fine => (fine ((spoils_iff container candidate).2 (.inl kinds.1))).elim
      · split at run
        · case isTrue kinds =>
          obtain ⟨⟨fs, panel, size⟩, counters, nodes⟩ :=
            h.takeHeader_refused container kinds.1 candidate run
          rw [not_spoils_iff container kinds.1 candidate, ← nodes]
          exact ⟨⟨fs, panel⟩, counters, Unharmed.nodes, fun same => ⟨⟨fs, panel, size⟩, counters, same⟩⟩
        · cases run
    · rw [exec_bind_error run₂] at run
      cases run
      exact still fun ⟨_, _, _, there, _⟩ => nomatch missing.symm.trans there
  · rw [exec_bind_error run₁] at run
    cases run
    exact still fun ⟨_, _, there, _⟩ => nomatch missing.symm.trans there

/-- **A failed addition** does nothing to the fields but to build widgets, and it leaves the page as it
was unless the parent is a tab container, or a disclosure without a header that has something in the place
for it. -/
theorem Reached.addChild_refused (h : s.Reached)
    (run : exec (PanelM.addChild p c) s = (.error e, s')) :
    (∃ fs : List FieldId, s'.panel = (s.after (fs.map .widget)).panel) ∧ s'.counters = s.counters ∧
      (s.Unharmed s' ↔ ¬ s.Spoils p c) := by
  refine h.custody.takePart_refused (e := e) ?_
  cases taken : exec (PanelM.takePart p c) s with
  | mk answer s₁ =>
    cases answer with
    | ok role =>
      rw [PanelM.exec_addChild_ok taken] at run
      cases run
    | error e' =>
      unfold PanelM.addChild at run
      rw [exec_bind_error taken] at run
      cases run
      rfl

/-- A disclosure that is put below a header, and the header that is to become its header. -/
def swallowing : List Request :=
  [.create .header (.ofList [(Vocabulary.nameKey, "a"), (Vocabulary.tagKey, Vocabulary.headerTag)]),
    .create .disclosure (.ofList [(Vocabulary.nameKey, "b"), (Vocabulary.labelKey, "More")]),
    .widget ⟨1⟩, .fill ⟨0⟩ ⟨1⟩]

/-- The scene behind it. -/
def swallowed : Scene := (opened .empty .empty ⟨0⟩ .empty).after swallowing

theorem addChild_refused_swallowed : swallowed.Reached ∧
    ∃ e s', exec (PanelM.addChild ⟨1⟩ ⟨0⟩) swallowed = (.error e, s') ∧ ¬ swallowed.Unharmed s' := by
  have reached : swallowed.Reached := by
    refine .step (.step (.step (.step (.opened .empty _ _ _) trivial) trivial) trivial) ?_
    change _ < _
    decide +kernel
  have failed : (exec (PanelM.addChild ⟨1⟩ ⟨0⟩) swallowed).1 = .error (.page .insideItself) := by
    decide +kernel
  have spoils : swallowed.Spoils ⟨1⟩ ⟨0⟩ := by
    have child : (swallowed.panel.field? ⟨0⟩).isSome := by decide +kernel
    have slot : (swallowed.panel.field? ⟨1⟩).bind Field.widget =
        some (.disclosure ⟨1⟩ ⟨2⟩ ⟨3⟩ none) := by decide +kernel
    obtain ⟨child, candidate⟩ := Option.isSome_iff_exists.1 child
    obtain ⟨field, container, widget⟩ := Option.bind_eq_some_iff.1 slot
    exact ⟨field, child, container, candidate, .inr ⟨_, _, _, widget, by decide +kernel⟩⟩
  refine ⟨reached, ?_⟩
  cases run : exec (PanelM.addChild ⟨1⟩ ⟨0⟩) swallowed with
  | mk answer s' =>
    rw [run] at failed
    obtain rfl : answer = _ := failed
    exact ⟨_, s', rfl, fun unharmed => (reached.addChild_refused run).2.2.1 unharmed spoils⟩

/-- The place for the header is emptied by an addition that fails. -/
theorem addChild_empties_header :
    (exec (PanelM.addChild ⟨1⟩ ⟨0⟩) swallowed).1 = .error (.page .insideItself) ∧
      swallowed.page.outerMarkup ⟨2⟩ = "<summary><span>More</span></summary>" ∧
      (exec (PanelM.addChild ⟨1⟩ ⟨0⟩) swallowed).2.page.outerMarkup ⟨2⟩ = "<summary></summary>" := by
  decide +kernel

end Scene

end Formwork
