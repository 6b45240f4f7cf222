import Formwork.Proofs.Page.Confined
import Formwork.Proofs.Widget.Cells

/-!
# Widgets keep their nodes to themselves

Every widget has nodes of its own, and no two widgets share one; all of them are newer than the page
that the panel was opened on (`Scene.Custody`).  So the nodes of other panels, and those of the older page, are
left alone by whatever is done to the widgets of a panel.

An operation on a panel keeps the custody, and no widget takes a node that was there before and belonged
to none (`Scene.Leads`).  While a panel is put together no operation gives a node that holds a value
anything: the flag `blank` says that the widgets hold no values yet, and that they are to stay so.
-/

namespace Formwork

set_option autoImplicit false

open Page (Confined nowhere)

/-! ## Widgets that remember other parts -/

namespace Widget

variable {w w' : Widget} {p p' : Page}

/-- Parts change neither the kinds of fields a widget is for, nor the nodes that hold its value. -/
theorem kinds_of_frame (same : w'.frame = w.frame) : w'.kinds = w.kinds ∧ w'.cells = w.cells := by
  have kinds : ∀ w : Widget, w.frame.kinds = w.kinds := by
    intro w
    cases w <;> rfl
  have cells : ∀ w : Widget, w.frame.cells = w.cells := by
    intro w
    cases w <;> rfl
  exact ⟨by rw [← kinds, same, kinds], by rw [← cells, same, cells]⟩

theorem vacant_of_frame (same : w'.frame = w.frame) : w'.Vacant p ↔ w.Vacant p := by
  have vacant : ∀ w : Widget, w.frame.Vacant p ↔ w.Vacant p := by
    intro w
    cases w <;> exact Iff.rfl
  rw [← vacant, same, vacant]

/-- A widget stays without a value when its cells are given nothing. -/
theorem Vacant.confined {base : Page} {into : NodeId → Prop} (h : w.Vacant p) (forest : p.Forest)
    (known : ∀ n ∈ w.own, p.tag? n ≠ none) (page : Confined base into p p')
    (missed : ∀ n ∈ w.cells, ¬ into n) : w.Vacant p' := by
  have fewer : ∀ n ∈ w.cells, ∀ c ∈ p'.children n, c ∈ p.children n := fun n mem =>
    page.fewer n (Page.lt_size_of_tag? (known n (cells_subset_own mem))) (missed n mem)
  cases w with
  | markup root =>
    refine List.eq_nil_iff_forall_not_mem.2 fun c mem => ?_
    have before := fewer root List.mem_cons_self c mem
    rw [show p.children root = [] from h] at before
    cases before
  | textArea root =>
    intro c mem
    have before := fewer root List.mem_cons_self c mem
    rw [page.tag c (Page.lt_size_of_parent? ((forest.agree _ _).1 before))]
    exact h c before
  | readOnly root hidden view =>
    obtain ⟨empty, unset⟩ := h
    have isView : view ∈ (readOnly root hidden view).cells := by simp [cells]
    have isHidden : hidden ∈ (readOnly root hidden view).cells := by simp [cells]
    refine ⟨List.eq_nil_iff_forall_not_mem.2 fun c mem => ?_, ?_⟩
    · have before := fewer view isView c mem
      rw [empty] at before
      cases before
    · rw [page.value hidden (Page.lt_size_of_tag? (known hidden (cells_subset_own isHidden)))
        (missed hidden isHidden), unset]
  | _ => trivial

end Widget

namespace Scene

variable {s s' s'' : Scene} {base : Page} {blank : Prop} {into : NodeId → Prop} {f g p c : FieldId}
  {field field' : Field} {w w' : Widget} {n : NodeId}

/-! ## Custody -/

/-- A node that no widget has for its own. -/
def Foreign (s : Scene) (n : NodeId) : Prop := ∀ f field w, s.Built f field w → n ∉ w.own

/-- Nothing is done to a node that holds the value of a widget. -/
def Misses (s : Scene) (into : NodeId → Prop) : Prop :=
  ∀ f field w, s.Built f field w → ∀ n ∈ w.cells, ¬ into n

/-- Each widget has nodes of its own, newer than an older page; while `blank`, none holds a value. -/
structure Custody (base : Page) (blank : Prop) (s : Scene) : Prop where
  rests : base.Rests s.page
  booked : s.panel.table.Booked
  kind : ∀ {f field w}, s.Built f field w → field.kind ∈ w.kinds
  own : ∀ {f field w}, s.Built f field w → ∀ n ∈ w.own, base.size ≤ n.index ∧ s.page.tag? n ≠ none
  shown : ∀ {f field w}, s.Built f field w → ∀ n ∈ w.shown, base.size ≤ n.index
  apart : ∀ {f g field field' w w'}, s.Built f field w → s.Built g field' w' → f ≠ g →
    ∀ n ∈ w.own, n ∉ w'.own
  root : base.size ≤ s.panel.root.index ∧ s.page.tag? s.panel.root ≠ none
  top : s.Foreign s.panel.root
  vacant : blank → ∀ {f field w}, s.Built f field w → w.Vacant s.page

/-- What an operation on a panel comes to: custody is kept, and no widget has a node for its own that
belonged to none before. -/
structure Leads (base : Page) (blank : Prop) (s s' : Scene) : Prop where
  custody : s'.Custody base blank
  size : s.page.size ≤ s'.page.size
  tag : ∀ n : NodeId, n.index < s.page.size → s'.page.tag? n = s.page.tag? n
  foreign : ∀ n : NodeId, n.index < s.page.size → s.Foreign n → s'.Foreign n
  root : s'.panel.root = s.panel.root

theorem Built.congr (h : s.Built f field w) (same : s'.panel = s.panel) : s'.Built f field w :=
  ⟨same ▸ h.found, h.widget⟩

theorem Foreign.congr (h : s.Foreign n) (same : s'.panel = s.panel) : s'.Foreign n :=
  fun f field w built => h f field w (built.congr same.symm)

theorem Misses.congr (h : s.Misses into) (same : s'.panel = s.panel) : s'.Misses into :=
  fun f field w built => h f field w (built.congr same.symm)

theorem misses_nowhere : s.Misses nowhere := fun _ _ _ _ _ _ => id

/-- A node that belongs to no widget holds no value. -/
theorem Foreign.misses (h : s.Foreign n) : s.Misses (· = n) := by
  rintro f field w built m mem rfl
  exact h f field w built (Widget.cells_subset_own mem)

namespace Leads

theorem refl (h : s.Custody base blank) : s.Leads base blank s :=
  ⟨h, Nat.le_refl _, fun _ _ => rfl, fun _ _ foreign => foreign, rfl⟩

theorem of_leads (h : s.Leads base blank s') : s'.Leads base blank s' := refl h.custody

theorem trans (h : s.Leads base blank s') (h' : s'.Leads base blank s'') :
    s.Leads base blank s'' where
  custody := h'.custody
  size := Nat.le_trans h.size h'.size
  tag n known := (h'.tag n (Nat.lt_of_lt_of_le known h.size)).trans (h.tag n known)
  foreign n known foreign :=
    h'.foreign n (Nat.lt_of_lt_of_le known h.size) (h.foreign n known foreign)
  root := h'.root.trans h.root

/-- A node of the page stays one. -/
theorem known (h : s.Leads base blank s') (old : n.index < s.page.size) : n.index < s'.page.size :=
  Nat.lt_of_lt_of_le old h.size

end Leads

namespace Custody

theorem own_element (h : s.Custody base blank) (built : s.Built f field w) :
    ∀ n ∈ w.own, s.page.tag? n ≠ none := fun n mem => (h.own built n mem).2

theorem own_known (h : s.Custody base blank) (built : s.Built f field w) (mem : n ∈ w.own) :
    n.index < s.page.size := Page.lt_size_of_tag? (h.own_element built n mem)

/-- What is known without the older page. -/
theorem forget (h : s.Custody base blank) : s.Custody .empty False where
  rests := ⟨.empty, h.rests.forest, Nat.zero_le _, nofun⟩
  booked := h.booked
  kind := h.kind
  own built n mem := ⟨Nat.zero_le _, (h.own built n mem).2⟩
  shown _ _ _ := Nat.zero_le _
  apart := h.apart
  root := ⟨Nat.zero_le _, h.root.2⟩
  top := h.top
  vacant := False.elim

/-- A node of a widget that has no value holds none. -/
theorem misses_own (h : s.Custody base blank) (built : s.Built f field w) (valueless : w.cells = [])
    (mem : n ∈ w.own) : s.Misses (· = n) := by
  rintro g field' w' built' m mem' rfl
  by_cases same : f = g
  · subst same
    obtain ⟨rfl, rfl⟩ := built.unique built'
    rw [valueless] at mem'
    cases mem'
  · exact h.apart built built' same m mem (Widget.cells_subset_own mem')

/-- **A confined step** that builds no widget. -/
theorem leads (h : s.Custody base blank) (page : Confined base into s.page s'.page)
    (missed : blank → s.Misses into) (booked : s'.panel.table.Booked)
    (root : s'.panel.root = s.panel.root)
    (before : ∀ {f field' w'}, s'.Built f field' w' → ∃ field w, s.Built f field w ∧
      field'.kind = field.kind ∧ w'.frame = w.frame ∧ ∀ n ∈ w'.shown, base.size ≤ n.index) :
    s.Leads base blank s' where
  custody :=
    { rests := page.rests
      booked := booked
      kind := fun built' => by
        obtain ⟨field, w, built, kind, frame, _⟩ := before built'
        rw [kind, (Widget.kinds_of_frame frame).1]
        exact h.kind built
      own := fun built' n mem => by
        obtain ⟨field, w, built, _, frame, _⟩ := before built'
        rw [Widget.own_of_frame frame] at mem
        obtain ⟨new, element⟩ := h.own built n mem
        exact ⟨new, page.element element⟩
      shown := fun built' => by
        obtain ⟨_, _, _, _, _, new⟩ := before built'
        exact new
      apart := fun built' built₁' other => by
        obtain ⟨_, w, built, _, frame, _⟩ := before built'
        obtain ⟨_, w₁, built₁, _, frame₁, _⟩ := before built₁'
        rw [Widget.own_of_frame frame, Widget.own_of_frame frame₁]
        exact h.apart built built₁ other
      root := by
        rw [root]
        exact ⟨h.root.1, page.element h.root.2⟩
      top := fun _ _ _ built' => by
        obtain ⟨_, w, built, _, frame, _⟩ := before built'
        rw [root, Widget.own_of_frame frame]
        exact h.top _ _ _ built
      vacant := fun is {f field' w'} built' => by
        obtain ⟨_, w, built, _, frame, _⟩ := before built'
        rw [Widget.vacant_of_frame frame]
        exact (h.vacant is built).confined h.rests.forest (h.own_element built) page
          (missed is _ _ _ built) }
  size := page.size
  tag := page.tag
  foreign n _ foreign := fun _ _ _ built' => by
    obtain ⟨_, w, built, _, frame, _⟩ := before built'
    rw [Widget.own_of_frame frame]
    exact foreign _ _ _ built
  root := root

/-- The page of a scene is changed. -/
theorem leads_page (h : s.Custody base blank) {p : Page} (page : Confined base into s.page p)
    (missed : blank → s.Misses into) : s.Leads base blank { s with page := p } :=
  h.leads page missed h.booked rfl fun built =>
    ⟨_, _, ⟨built.found, built.widget⟩, rfl, rfl, h.shown ⟨built.found, built.widget⟩⟩

/-- A widget remembers other parts, or shows another one. -/
theorem leads_parts (h : s.Custody base blank) (built : s.Built f field w) {p : Page}
    (page : Confined base into s.page p) (missed : blank → s.Misses into)
    (frame : w'.frame = w.frame) (new : ∀ n ∈ w'.shown, base.size ≤ n.index) :
    s.Leads base blank (s.withWidget f w' p) := by
  refine h.leads page missed (h.booked.congr (FieldTable.bare_update_widget ..)) rfl fun {g field' w''} built' => ?_
  rcases (built_withWidget built.found).1 built' with ⟨rfl, rfl, rfl⟩ | ⟨_, old⟩
  · exact ⟨field, w, built, rfl, frame, new⟩
  · exact ⟨field', w'', old, rfl, rfl, h.shown old⟩

/-- The tree of fields is changed, but no widget is built. -/
theorem leads_table (h : s.Custody base blank) (page : Confined base into s.page s'.page)
    (missed : blank → s.Misses into) (booked : s'.panel.table.Booked)
    (root : s'.panel.root = s.panel.root)
    (before : ∀ {f field' w}, s'.Built f field' w →
      ∃ field, s.panel.field? f = some field ∧ field'.kind = field.kind ∧ field'.widget = field.widget) :
    s.Leads base blank s' := by
  refine h.leads page missed booked root fun built' => ?_
  obtain ⟨field, found, kind, widget⟩ := before built'
  have built := Built.mk found (widget.symm.trans built'.widget)
  exact ⟨field, _, built, kind, rfl, h.shown built⟩

/-- **A new widget** has new nodes. -/
theorem leads_born (h : s.Custody base blank) (found : s.panel.field? f = some field)
    {label : Option String} {p : Page} (forest : p.Forest) (grows : s.page.Grows p)
    (born : w.Born field label s.page.size p) : s.Leads base blank (s.withWidget f w p) := by
  have page := Confined.of_grows h.rests forest grows
  have fresh : ∀ n ∈ w.own, s.page.size ≤ n.index := fun n mem => (born.own n mem).1
  have older : base.size ≤ s.page.size := h.rests.grows.size
  have foreign : ∀ n : NodeId, n.index < s.page.size → s.Foreign n → (s.withWidget f w p).Foreign n := by
    intro n known foreign g field' w' built mem
    rcases (built_withWidget found).1 built with ⟨rfl, _, rfl⟩ | ⟨_, old⟩
    · exact Nat.not_le.2 known (fresh n mem)
    · exact foreign _ _ _ old mem
  refine ⟨⟨page.rests, h.booked.congr (FieldTable.bare_update_widget ..), ?_, ?_, ?_, ?_, ?_, ?_, ?_⟩,
    grows.size, page.tag, foreign, rfl⟩
  · intro g field' w' built
    rcases (built_withWidget found).1 built with ⟨_, rfl, rfl⟩ | ⟨_, old⟩
    · exact born.kind
    · exact h.kind old
  · intro g field' w' built n mem
    rcases (built_withWidget found).1 built with ⟨_, _, rfl⟩ | ⟨_, old⟩
    · exact ⟨Nat.le_trans older (fresh n mem), (born.own n mem).2⟩
    · obtain ⟨new, element⟩ := h.own old n mem
      exact ⟨new, page.element element⟩
  · intro g field' w' built n mem
    rcases (built_withWidget found).1 built with ⟨_, _, rfl⟩ | ⟨_, old⟩
    · rw [born.shown] at mem
      cases mem
    · exact h.shown old n mem
  · intro g g' field' field'' w' w'' built built' other n mem mem'
    rcases (built_withWidget found).1 built with ⟨rfl, _, rfl⟩ | ⟨_, old⟩ <;>
      rcases (built_withWidget found).1 built' with ⟨rfl, _, rfl⟩ | ⟨_, old'⟩
    · exact other rfl
    · exact Nat.not_le.2 (h.own_known old' mem') (fresh n mem)
    · exact Nat.not_le.2 (h.own_known old mem) (fresh n mem')
    · exact h.apart old old' other n mem mem'
  · exact ⟨h.root.1, page.element h.root.2⟩
  · exact foreign _ (Page.lt_size_of_tag? h.root.2) h.top
  · intro is g field' w' built
    rcases (built_withWidget found).1 built with ⟨_, _, rfl⟩ | ⟨_, old⟩
    · exact born.vacant
    · exact (h.vacant is old).confined h.rests.forest (fun n mem => (h.own old n mem).2) page
        fun _ _ => id

end Custody

/-- A panel that was just opened. -/
theorem custody_opened {page : Page} (forest : page.Forest) (counters : CounterPool) (series : SeriesId)
    (messages : Messages) : (opened page counters series messages).Custody page blank := by
  have none : ∀ {f field w}, ¬ (opened page counters series messages).Built f field w := by
    rintro f field w ⟨found, _⟩
    cases found
  refine ⟨(Confined.create (.refl forest) _).rests, .empty, fun built => (none built).elim,
    fun built => (none built).elim, fun built => (none built).elim, fun built => (none built).elim,
    ⟨Nat.le_refl _, ?_⟩, fun _ _ _ built => (none built).elim, fun _ _ _ _ built => (none built).elim⟩
  exact Page.tag?_createElement page "div"

end Scene

/-! ## Operations -/

namespace PanelM

open Scene

variable {s s' : Scene} {base : Page} {blank : Prop} {into : NodeId → Prop} {f p c : FieldId}
  {field : Field} {α : Type}

theorem goes_field {R : Scene → Scene → Prop} (here : R s s) (f : FieldId) :
    Goes R s (PanelM.field f) fun field s' => s' = s ∧ s.panel.field? f = some field := by
  rcases exec_field_cases f s with ⟨field, found, run⟩ | ⟨_, run⟩
  · exact .of_exec run here fun _ same => ⟨rfl, Except.ok.inj same ▸ found⟩
  · exact .of_exec run here nofun

/-- A change of the page. -/
theorem goes_changePage (h : s.Custody base blank) {change : Page → Page}
    (page : Confined base into s.page (change s.page)) (missed : blank → s.Misses into) :
    Goes (Leads base blank) s (changePage change) fun _ s' => s' = { s with page := change s.page } :=
  .modify (h.leads_page page missed) rfl

/-- Changes of the page that may be refused. -/
theorem goes_onPage (h : s.Custody base blank) {changes : PageM α}
    (page : Confined base into s.page (exec changes s.page).2) (missed : blank → s.Misses into) :
    Goes (Leads base blank) s (onPage changes) fun a s' =>
      exec changes s.page = (.ok a, s'.page) ∧ s' = { s with page := s'.page } := by
  have step := h.leads_page page missed
  cases run : exec changes s.page with
  | mk answer p =>
    rw [run] at step
    cases answer with
    | ok a => exact .of_exec (exec_onPage_ok run) step fun _ same => ⟨Except.ok.inj same ▸ rfl, rfl⟩
    | error e => exact .of_exec (exec_onPage_error run) step nofun

theorem goes_draw (h : s.Custody base blank) (purpose : Counters.Purpose) :
    Goes (Leads base blank) s (draw purpose) fun _ _ => True :=
  .of_exec (exec_draw purpose) (h.leads_table (.refl h.rests : Confined base nowhere s.page s.page)
    (fun _ => misses_nowhere) h.booked rfl fun built => ⟨_, built.found, rfl, rfl⟩) fun _ _ => trivial

theorem goes_createField (h : s.Custody base blank) (kind : FieldKind) (attributes : Attributes) :
    Goes (Leads base blank) s (createField kind attributes) fun _ _ => True := by
  refine .of_exec (exec_createField kind attributes) (h.leads_table
    (.refl h.rests : Confined base nowhere s.page s.page) (fun _ => misses_nowhere)
    (h.booked.add rfl rfl rfl) rfl ?_) fun _ _ => trivial
  rintro f field' w ⟨found, widget⟩
  unfold Panel.field? at found
  rw [FieldTable.field?_add] at found
  split at found
  · cases found
    cases widget
  · exact ⟨field', found, rfl, rfl⟩

/-! ### Widgets -/

/-- What asking for the widget of a field comes to: it was there, or it is made of new nodes, and nothing
else is done. -/
structure Asks (base : Page) (blank : Prop) (s : Scene) (f : FieldId) (field : Field) (w : Widget)
    (s' : Scene) : Prop where
  found : s.panel.field? f = some field
  leads : s.Leads base blank s'
  grows : s.page.Grows s'.page
  counters : s'.counters = s.counters
  messages : s'.panel.messages = s.panel.messages
  bare : s'.panel.table.bare = s.panel.table.bare
  built : s'.Built f { field with widget := some w } w
  stays : ∀ {g field' w'}, s.Built g field' w' → s'.Built g field' w'
  others : ∀ {g}, g ≠ f → s'.panel.field? g = s.panel.field? g
  fresh : field.widget = some w ∨ field.widget = none ∧
    w.Born field (field.label? s.panel.messages) s.page.size s'.page

/-- The widgets that are there after one was asked for: those that were there, and a new one. -/
theorem Asks.built_cases {g : FieldId} {field' : Field} {w w' : Widget}
    (asks : Asks base blank s f field w s') (built : s'.Built g field' w') :
    s.Built g field' w' ∨ g = f ∧ field' = { field with widget := some w } ∧ w' = w ∧
      w.Born field (field.label? s.panel.messages) s.page.size s'.page := by
  by_cases same : g = f
  · subst same
    obtain ⟨rfl, rfl⟩ := built.unique asks.built
    rcases asks.fresh with there | ⟨_, born⟩
    · rw [← there]
      exact .inl ⟨asks.found, there⟩
    · exact .inr ⟨rfl, rfl, rfl, born⟩
  · exact .inl ⟨(asks.others same).symm.trans built.found, built.widget⟩

/-- **Asking for the widget** of a field. -/
theorem exec_widgetOf (h : s.Custody base blank) (found : s.panel.field? f = some field) :
    ∃ w s', exec (widgetOf f) s = (.ok w, s') ∧ Asks base blank s f field w s' := by
  cases widget : field.widget with
  | some w =>
    have built : s.Built f { field with widget := some w } w := by
      rw [← widget]
      exact ⟨found, widget⟩
    exact ⟨w, s, exec_widgetOf_built found widget, found, .refl h, .refl _, rfl, rfl, rfl, built, id,
      fun _ => rfl, .inl widget⟩
  | none =>
    obtain ⟨w, p, run, forest, grows, born⟩ := exec_realize_born h.rests.forest field
    rw [h.booked.ids found] at run
    refine ⟨w, _, (exec_widgetOf_unbuilt found widget).trans run, found,
      h.leads_born found forest grows born, grows, rfl, rfl, FieldTable.bare_update_widget ..,
      (built_withWidget found).2 (.inl ⟨rfl, rfl, rfl⟩), fun {g field' w'} built => ?_,
      fun other => field?_withWidget_of_ne other, .inr ⟨widget, born⟩⟩
    refine (built_withWidget found).2 (.inr ⟨?_, built⟩)
    rintro rfl
    cases built.found.symm.trans found
    cases widget.symm.trans built.widget

/-- Asking for the topmost node of the widget of a field. -/
theorem exec_widget (h : s.Custody base blank) (found : s.panel.field? f = some field) :
    ∃ w s', exec (widget f) s = (.ok w.root, s') ∧ Asks base blank s f field w s' := by
  obtain ⟨w, s', run, asks⟩ := exec_widgetOf h found
  refine ⟨w, s', ?_, asks⟩
  unfold widget
  rw [exec_bind_ok run, exec_pure]

/-- Whatever asking for a widget comes to, if it is there or is built. -/
theorem goes_asks {R : Scene → Scene → Prop} (h : s.Custody base blank) (here : R s s) (f : FieldId)
    (asked : ∀ {field w s'}, Asks base blank s f field w s' → R s s') :
    Goes R s (widgetOf f) fun w s' =>
      ∃ field, s.panel.field? f = some field ∧ s'.Built f { field with widget := some w } w := by
  rcases exec_field_cases f s with ⟨field, found, _⟩ | ⟨_, run⟩
  · obtain ⟨w, s', run, asks⟩ := exec_widgetOf h found
    exact .of_exec run (asked asks) fun _ same => Except.ok.inj same ▸ ⟨field, found, asks.built⟩
  · exact .of_exec (exec_bind_error run) here nofun

theorem goes_widgetOf (h : s.Custody base blank) (f : FieldId) :
    Goes (Leads base blank) s (widgetOf f) fun w s' =>
      ∃ field, s.panel.field? f = some field ∧ s'.Built f { field with widget := some w } w :=
  goes_asks h (.refl h) f Asks.leads

theorem goes_widget (h : s.Custody base blank) (f : FieldId) :
    Goes (Leads base blank) s (widget f) fun n s' => ∃ field w, n = w.root ∧
      s.panel.field? f = some field ∧ s'.Built f { field with widget := some w } w := by
  refine .bind .trans (goes_widgetOf h f) ?_
  rintro w s' step ⟨field, found, built⟩
  exact .pure step.of_leads ⟨field, w, rfl, found, built⟩

/-! ### Parts -/

/-- Showing a page gives values to no node. -/
theorem confined_showPage {pages : List TabPage} (index : Nat) : ∀ {p : Page}, base.Rests p →
    (∀ tab ∈ pages, base.size ≤ tab.caption.index ∧ base.size ≤ tab.page.index) →
    Confined base nowhere p (showPage pages index p) := by
  unfold showPage
  have walk : ∀ (shown : List (TabPage × Nat)) {p : Page}, base.Rests p →
      (∀ e ∈ shown, base.size ≤ e.1.caption.index ∧ base.size ≤ e.1.page.index) →
      Confined base nowhere p (shown.foldl (fun p e =>
        (p.setAttr e.1.caption "class" (if e.2 = index then "tab tab-selected" else "tab")).setFlag
          e.1.page "hidden" (e.2 ≠ index)) p) := by
    intro shown
    induction shown with
    | nil => exact fun rests _ => .refl rests
    | cons e shown ih =>
      intro p rests new
      obtain ⟨caption, page⟩ := new e List.mem_cons_self
      have classed : Confined base nowhere p (p.setAttr e.1.caption "class"
          (if e.2 = index then "tab tab-selected" else "tab")) := .setAttr rests caption _ (by decide)
      have hidden : Confined base nowhere _ (Page.setFlag _ e.1.page "hidden" (e.2 ≠ index)) :=
        .setFlag classed.rests page _ (by decide)
      exact (classed.trans hidden).trans
        (ih hidden.rests fun e' mem => new e' (List.mem_cons_of_mem _ mem))
  exact fun {p} rests new => walk _ rests fun e mem => new e.1 (List.fst_mem_of_mem_zipIdx mem)

theorem goes_selectTab (h : s.Custody base blank) (f : FieldId) (index : Nat) :
    Goes (Leads base blank) s (selectTab f index) fun _ _ => True := by
  refine .bind .trans (goes_widgetOf h f) ?_
  rintro w s' step ⟨field, _, built⟩
  cases w with
  | tabs root bar deck pages selected =>
    dsimp only
    by_cases there : index < pages.length
    · rw [if_pos there]
      have new := step.custody.shown built
      have page : Confined base nowhere _ (showPage pages index s'.page) :=
        confined_showPage index step.custody.rests fun tab mem =>
          ⟨new _ (List.mem_flatMap.2 ⟨tab, mem, by simp⟩),
            new _ (List.mem_flatMap.2 ⟨tab, mem, by simp⟩)⟩
      refine .bind .trans (goes_changePage step.custody page fun _ => misses_nowhere) ?_
      rintro _ _ step' rfl
      have turned := step'.custody.leads_parts ⟨built.found, built.widget⟩
        (.refl step'.custody.rests : Confined base nowhere _ _) (fun _ => misses_nowhere)
        (rfl : (Widget.tabs root bar deck pages (some index)).frame = _) new
      exact .bind .trans (.modify turned trivial : Goes _ _ _ fun _ _ => True) fun _ _ later _ =>
        .pure later.of_leads trivial
    · rw [if_neg there]
      exact .pure step.of_leads trivial
  | _ => exact .pure step.of_leads trivial

section Tabs

variable {own bar deck caption root : NodeId} {pages : List TabPage} {selected : Option Nat}

/-- A tab container remembers one more page. -/
theorem leads_page (h : s.Custody base blank) (built : s.Built f field (.tabs own bar deck pages selected))
    (newCaption : base.size ≤ caption.index) (newRoot : base.size ≤ root.index) (c : FieldId) :
    s.Leads base blank
      (s.withWidget f (.tabs own bar deck (pages ++ [⟨c, caption, root⟩]) selected) s.page) := by
  refine h.leads_parts built (.refl h.rests : Confined base nowhere _ _) (fun _ => misses_nowhere) rfl ?_
  intro n mem
  rw [Widget.shown, List.flatMap_append, List.mem_append] at mem
  rcases mem with old | new
  · exact h.shown built n old
  · simp only [List.flatMap_singleton, List.mem_cons, List.not_mem_nil, or_false] at new
    rcases new with rfl | rfl
    · exact newCaption
    · exact newRoot

/-- A caption joins the bar of a tab container, and a node joins the deck. -/
theorem goes_joinTabs (h : s.Custody base blank)
    (built : s.Built f field (.tabs own bar deck pages selected))
    (newCaption : base.size ≤ caption.index) (knownCaption : caption.index < s.page.size)
    (newRoot : base.size ≤ root.index) (knownRoot : root.index < s.page.size)
    {rest : PanelM α} {answers : α → Scene → Prop}
    (last : ∀ s' : Scene, s.Leads base blank s' →
      s'.Built f field (.tabs own bar deck pages selected) →
      Goes (Leads base blank) s' rest answers) :
    Goes (Leads base blank) s
      (do onPage (PageM.append bar caption); onPage (PageM.append deck root); rest) answers := by
  have places : ∀ n ∈ [own, bar, deck], base.size ≤ n.index ∧ s.Misses (· = n) := fun n mem =>
    ⟨(h.own built n mem).1, h.misses_own built rfl mem⟩
  obtain ⟨newBar, missesBar⟩ := places bar (by simp)
  obtain ⟨newDeck, missesDeck⟩ := places deck (by simp)
  refine .bind .trans (goes_onPage h (.exec_append h.rests newBar newCaption knownCaption)
    fun _ => missesBar) ?_
  rintro _ s₁ step₁ ⟨_, is₁⟩
  have same : s₁.panel = s.panel := by rw [is₁]
  refine .bind .trans (goes_onPage step₁.custody (.exec_append step₁.custody.rests newDeck newRoot
    (step₁.known knownRoot)) fun _ => missesDeck.congr same) ?_
  rintro _ s₂ step₂ ⟨_, is₂⟩
  exact last s₂ (step₁.trans step₂) (built.congr (by rw [is₂, same]))

/-- Taking a field as a page of a tab container. -/
theorem goes_takePage (h : s.Custody base blank) (f : FieldId) (page : Field) :
    Goes (Leads base blank) s (takePage f page) fun _ _ => True := by
  refine .get_bind (.bind .trans (goes_widgetOf h f) fun _ s₁ step₁ _ =>
    .bind .trans (goes_widget step₁.custody page.id) ?_)
  rintro root s₂ step₂ ⟨_, w, rfl, _, shown⟩
  -- the caption is an element that belongs to no widget
  have made := Confined.create step₂.custody.rests (.element "span" .empty)
  refine .bind .trans (goes_onPage step₂.custody made fun _ => misses_nowhere) ?_
  rintro caption s₃ step₃ ⟨created, is⟩
  obtain ⟨named, page'⟩ := Prod.mk.inj created
  obtain rfl := Except.ok.inj named
  have older : base.size ≤ s₂.page.size := step₂.custody.rests.grows.size
  have isCaption : s₃.page.tag? ⟨s₂.page.size⟩ ≠ none := by
    rw [← page']
    exact Page.tag?_createElement _ _
  have foreign : s₃.Foreign ⟨s₂.page.size⟩ := fun _ _ _ built mem =>
    Nat.lt_irrefl _ (step₂.custody.own_known (built.congr (by rw [is])) mem)
  have newRoot := (step₂.custody.own shown _ w.root_mem_own).1
  have classed : Confined base (· = ⟨s₂.page.size⟩) s₃.page
      (s₃.page.setAttr ⟨s₂.page.size⟩ "class" "tab") :=
    (Confined.setAttr step₃.custody.rests older "tab" (by decide)).of_nowhere
  have labelled := Confined.setText classed.rests older (classed.element isCaption)
    ((page.label? s.panel.messages).getD "")
  have hidden : Confined base (· = ⟨s₂.page.size⟩) _ (Page.setFlag _ w.root "hidden" true) :=
    (Confined.setFlag labelled.rests newRoot true (by decide)).of_nowhere
  refine .bind .trans (goes_changePage step₃.custody ((classed.trans labelled).trans hidden)
    fun _ => foreign.misses) fun _ s₄ step₄ _ => ?_
  refine .bind .trans (goes_widgetOf step₄.custody f) ?_
  rintro w' s₅ step₅ ⟨_, _, built⟩
  have later := step₄.trans step₅
  have knownCaption := later.known (Page.lt_size_of_tag? isCaption)
  have knownRoot := later.known (step₃.known (step₂.custody.own_known shown w.root_mem_own))
  cases w' with
  | tabs own bar deck pages selected =>
    refine goes_joinTabs step₅.custody built older knownCaption newRoot knownRoot
      fun s₆ step₆ built => ?_
    refine .bind .trans (.modify (leads_page step₆.custody built older newRoot page.id) trivial :
      Goes _ _ _ fun _ _ => True) fun _ s₇ step₇ _ => ?_
    split
    · exact .bind .trans (goes_selectTab step₇.custody f _) fun _ _ last _ =>
        .pure last.of_leads trivial
    · exact .pure step₇.of_leads trivial
  | _ => exact .pure step₅.of_leads trivial

end Tabs

/-- Taking a field as the header of a disclosure. -/
theorem goes_takeHeader (h : s.Custody base blank) (f c : FieldId) :
    Goes (Leads base blank) s (takeHeader f c) fun _ _ => True := by
  refine .bind .trans (goes_widgetOf h f) fun _ s₁ step₁ _ => ?_
  split
  · exact .pure step₁.of_leads trivial
  · refine .bind .trans (goes_widget step₁.custody c) ?_
    rintro _ s₂ step₂ ⟨_, w, rfl, _, shown⟩
    refine .bind .trans (goes_widgetOf step₂.custody f) ?_
    rintro w' s₃ step₃ ⟨_, _, built⟩
    cases w' with
    | disclosure root slot content header =>
      have isSlot : slot ∈ (Widget.disclosure root slot content header).own := by simp [Widget.own]
      have newSlot := (step₃.custody.own built slot isSlot).1
      have missed : s₃.Misses (· = slot) := step₃.custody.misses_own built rfl isSlot
      refine .bind .trans (goes_onPage step₃.custody (.clear step₃.custody.rests newSlot)
        fun _ => misses_nowhere) ?_
      rintro _ s₄ step₄ ⟨_, is₄⟩
      refine .bind .trans (goes_onPage step₄.custody (.exec_append step₄.custody.rests newSlot
        (step₂.custody.own shown _ w.root_mem_own).1
        (step₄.known (step₃.known (step₂.custody.own_known shown w.root_mem_own))))
        fun _ => missed.congr (by rw [is₄])) ?_
      rintro _ s₅ step₅ ⟨_, is₅⟩
      have taken := step₅.custody.leads_parts (built.congr (by rw [is₅, is₄]))
        (.refl step₅.custody.rests : Confined base nowhere _ _) (fun _ => misses_nowhere)
        (rfl : (Widget.disclosure root slot content (some c)).frame = _)
        fun _ mem => absurd mem List.not_mem_nil
      exact .bind .trans (.modify taken trivial : Goes _ _ _ fun _ _ => True) fun _ _ last _ =>
        .pure last.of_leads trivial
    | _ => exact .pure step₃.of_leads trivial

theorem goes_takePart (h : s.Custody base blank) (f c : FieldId) :
    Goes (Leads base blank) s (takePart f c) fun _ _ =>
      (s.panel.field? f).isSome ∧ (s.panel.field? c).isSome := by
  refine .bind .trans (goes_field (.refl h) f) ?_
  rintro container s₁ _ ⟨rfl, found⟩
  refine .bind .trans (goes_field (.refl h) c) ?_
  rintro candidate s₂ _ ⟨rfl, found'⟩
  have known : (s₂.panel.field? f).isSome ∧ (s₂.panel.field? c).isSome := by
    rw [found, found']
    exact ⟨rfl, rfl⟩
  split
  · exact .bind .trans (goes_takePage h f candidate) fun _ _ step _ => .pure step.of_leads known
  · split
    · exact (goes_takeHeader h f c).mono fun _ _ _ _ => known
    · exact .pure (.refl h) known

/-- Putting a field below another. -/
theorem goes_addChild (h : s.Custody base blank) (f c : FieldId) :
    Goes (Leads base blank) s (addChild f c) fun _ _ => True := by
  obtain ⟨step, known⟩ := goes_takePart h f c
  have spared := spares_takePart f c s
  cases run : exec (takePart f c) s with
  | mk answer s' =>
    rw [run] at step known spared
    cases answer with
    | error e => exact .of_exec (exec_bind_error run) step nofun
    | ok role =>
      have bare : s'.panel.table.bare = s.panel.table.bare := congrArg Prod.fst spared
      obtain ⟨container, candidate⟩ := known role rfl
      refine .of_exec (exec_addChild_ok run) (step.trans ?_) fun _ _ => trivial
      refine step.custody.leads_table (.refl step.custody.rests : Confined base nowhere _ _)
        (fun _ => misses_nowhere) (step.custody.booked.link
          ((FieldTable.isSome_field?_congr bare f).trans container)
          ((FieldTable.isSome_field?_congr bare c).trans candidate) role) rfl fun built => ?_
      have found := built.found
      rw [show (s'.link f c role).panel.field? _ = _ from step.custody.booked.field?_link f c role _]
        at found
      obtain ⟨field, there, rfl⟩ := Option.map_eq_some_iff.1 found
      exact ⟨field, there, Field.kind_relinked, Field.widget_relinked⟩

/-- Putting a node into the content slot of a field. -/
theorem goes_fillContent (h : s.Custody base blank) (f : FieldId) {content : NodeId}
    (new : base.size ≤ content.index) (known : content.index < s.page.size) :
    Goes (Leads base blank) s (fillContent f content) fun _ _ => True := by
  refine .bind .trans (goes_field (.refl h) f) ?_
  rintro field s₁ _ ⟨rfl, _⟩
  split
  · exact .pure (.refl h) trivial
  · refine .bind .trans (goes_widgetOf h f) ?_
    rintro w s₂ step₂ ⟨_, _, built⟩
    split
    · case h_1 slot is =>
      have mem := Widget.slot_mem_own is
      exact .bind .trans (goes_onPage step₂.custody (.exec_append step₂.custody.rests
        (step₂.custody.own built slot mem).1 new (step₂.known known)) fun _ =>
          step₂.custody.misses_own built (Widget.cells_of_slot is) mem) fun _ _ last _ =>
        .pure last.of_leads trivial
    · exact .pure step₂.of_leads trivial

/-- Showing a panel in a view. -/
theorem goes_setView (h : s.Custody base blank) (f : FieldId) {view : Panel}
    (new : base.size ≤ view.root.index) (known : view.root.index < s.page.size)
    (kind : blank → ∀ field, s.panel.field? f = some field → field.kind = .view) :
    Goes (Leads base blank) s (setView f view) fun _ _ => True := by
  refine .bind .trans (goes_widget h f) ?_
  rintro _ s₁ step₁ ⟨field, w, rfl, found, built⟩
  have missed : blank → s₁.Misses (· = w.root) := fun is => by
    have suits := step₁.custody.kind built
    rw [show ({ field with widget := some w } : Field).kind = _ from kind is field found] at suits
    refine step₁.custody.misses_own built ?_ w.root_mem_own
    by_contra some
    exact absurd ((Widget.hasValue_iff suits).2 some) (by decide)
  refine .bind .trans (goes_onPage step₁.custody (.exec_append step₁.custody.rests
    (step₁.custody.own built _ w.root_mem_own).1 new (step₁.known known)) missed)
    fun _ s₂ step₂ _ => ?_
  exact .modify (step₂.custody.leads_table (.refl step₂.custody.rests : Confined base nowhere _ _)
    (fun _ => misses_nowhere) step₂.custody.booked rfl fun built => ⟨_, built.found, rfl, rfl⟩) trivial

end PanelM

end Formwork
