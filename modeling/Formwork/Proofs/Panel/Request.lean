import Formwork.Panel.State
import Formwork.Panel.Hierarchy
import Formwork.Proofs.Panel.Create
import Formwork.Proofs.Panel.Overlooked

/-!
# Histories of a panel

A panel starts without fields and is changed by requests, each of which may fail; between two requests
others may change the page and draw from the counters.  What a request leaves is the scene that it had
reached when it answered or failed.

Few requests touch the tree of fields and the views (`Request.Turn`): creating a field, putting a field
below another, removing a field and showing a panel in a view.  Every other request, and every one
that fails, leaves the fields as they were but for their widgets.
-/

namespace Formwork

set_option autoImplicit false

namespace Panel

/-- A request to a panel. -/
inductive Request where
  | create (kind : FieldKind) (attributes : Attributes)
  | add (parent child : FieldId)
  | remove (f : FieldId)
  | widget (f : FieldId)
  | namedWidget (name : String)
  | namedWidgets (name : String)
  | fill (f : FieldId) (content : NodeId)
  | setView (f : FieldId) (view : Panel)
  | changeView (f : FieldId) (change : Panel → Panel)
  | select (f : FieldId) (index : Nat)
  | setOpen (f : FieldId) (isOpen : Bool)
  | read (f : FieldId)
  | readNamed (name : String)
  | readAll (name : String)
  | store (f : FieldId) (value : Option String)
  | storeMany (f : FieldId) (values : List String)
  | storeNamed (name : String) (value : Option String)
  | storeAll (name : String) (values : List String)
  | clearValue (f : FieldId)
  | clearNamed (name : String) (descendants : Bool)
  | clear
  | enable (enabled : Bool)
  | enableNamed (name : String) (enabled : Bool)
  | showNamed (name : String) (visible : Bool)
  | listenToSubmit (listener : String)
  | listenToCancel (listener : String)
  | listenToClick (name listener : String)
  | press (f : FieldId)
  /-- What others do to the page and the counters. -/
  | elsewhere (page : Page) (counters : CounterPool)

namespace Request

/-- What a request does to a scene. -/
def perform : Request → PanelM Unit
  | create kind attributes => do let _ ← PanelM.createField kind attributes
  | add parent child => do let _ ← PanelM.addChild parent child
  | remove f => PanelM.removeField f
  | widget f => do let _ ← PanelM.widget f
  | namedWidget name => do let _ ← PanelM.fieldWidget? name
  | namedWidgets name => do let _ ← PanelM.fieldWidgets name
  | fill f content => do let _ ← PanelM.fillContent f content
  | setView f view => PanelM.setView f view
  | changeView f change => modify fun s => { s with panel := s.panel.updateView f change }
  | select f index => do let _ ← PanelM.selectTab f index
  | setOpen f isOpen => do let _ ← PanelM.setOpen f isOpen
  | read f => do let _ ← PanelM.values f
  | readNamed name => do let _ ← PanelM.fieldValue? name
  | readAll name => do let _ ← PanelM.fieldValues name
  | store f value => do let _ ← PanelM.setValue f value
  | storeMany f values => do let _ ← PanelM.setValues f values
  | storeNamed name value => do let _ ← PanelM.setFieldValue name value
  | storeAll name values => do let _ ← PanelM.setFieldValues name values
  | clearValue f => PanelM.clearValue f
  | clearNamed name descendants => PanelM.clearField name descendants
  | clear => PanelM.clear
  | enable enabled => PanelM.setEnabled enabled
  | enableNamed name enabled => PanelM.setFieldEnabled name enabled
  | showNamed name visible => do let _ ← PanelM.setFieldVisible name visible
  | listenToSubmit listener => PanelM.listenToSubmit listener
  | listenToCancel listener => PanelM.listenToCancel listener
  | listenToClick name listener => PanelM.listenToClick name listener
  | press f => do let _ ← PanelM.press f
  | elsewhere page counters => modify fun s => { s with page := page, counters := counters }

/-- Whether a request answers. -/
def Answers (r : Request) (s : Scene) : Prop := (exec r.perform s).1 = .ok ()

instance (r : Request) (s : Scene) : Decidable (r.Answers s) :=
  inferInstanceAs (Decidable ((exec r.perform s).1 = .ok ()))

/-- The scene behind a request, whether it answered or failed. -/
def after (r : Request) (s : Scene) : Scene := (exec r.perform s).2

theorem after_eq {r : Request} {s s' : Scene} {answer : Except FieldError Unit}
    (run : exec r.perform s = (answer, s')) : r.after s = s' := congrArg Prod.snd run

theorem answers_iff {r : Request} {s s' : Scene} {answer : Except FieldError Unit}
    (run : exec r.perform s = (answer, s')) : r.Answers s ↔ answer = .ok () := by
  rw [Answers, run]

end Request

end Panel

namespace Scene

/-- The scene of a new panel. -/
def opened (page : Page) (counters : CounterPool) (series : SeriesId) (messages : Messages) : Scene :=
  ⟨(Panel.create page series messages).1, (Panel.create page series messages).2, counters⟩

/-- The scene behind some requests. -/
def after (s : Scene) (rs : List Panel.Request) : Scene := rs.foldl (fun s r => r.after s) s

@[simp]
theorem after_nil (s : Scene) : s.after [] = s := rfl

@[simp]
theorem after_cons (s : Scene) (r : Panel.Request) (rs : List Panel.Request) :
    s.after (r :: rs) = (r.after s).after rs := rfl

/-- What every request keeps holds behind any requests. -/
theorem after_induction {P : Scene → Prop} (step : ∀ s r, P s → P (Panel.Request.after r s)) :
    ∀ (rs : List Panel.Request) {s : Scene}, P s → P (s.after rs)
  | [], _, h => h
  | r :: rs, s, h => after_induction step rs (step s r h)

/-! ### Histories that stay clear of something -/

/-- Behind each of some requests, and before them, the scene has a property. -/
def Throughout (P : Scene → Prop) (s : Scene) (rs : List Panel.Request) : Prop :=
  ∀ before, before <+: rs → P (s.after before)

/-- None of some requests does in its scene what it should not do. -/
def Never (D : Scene → Panel.Request → Prop) (s : Scene) (rs : List Panel.Request) : Prop :=
  ∀ before r, before ++ [r] <+: rs → ¬ D (s.after before) r

variable {P : Scene → Prop} {D : Scene → Panel.Request → Prop}

theorem throughout_nil {s : Scene} : Throughout P s [] ↔ P s := by
  constructor
  · intro h
    exact h [] List.nil_prefix
  · intro h before short
    rw [List.prefix_nil.1 short]
    exact h

theorem throughout_cons {s : Scene} {r : Panel.Request} {rs : List Panel.Request} :
    Throughout P s (r :: rs) ↔ P s ∧ Throughout P (r.after s) rs := by
  constructor
  · intro h
    exact ⟨h [] List.nil_prefix, fun before short =>
      h (r :: before) (List.cons_prefix_cons.2 ⟨rfl, short⟩)⟩
  · rintro ⟨here, later⟩ before short
    cases before with
    | nil => exact here
    | cons r' before =>
      obtain ⟨rfl, rest⟩ := List.cons_prefix_cons.1 short
      exact later before rest

theorem never_nil {s : Scene} : Never D s [] := by
  intro before r short
  simp at short

theorem never_cons {s : Scene} {r : Panel.Request} {rs : List Panel.Request} :
    Never D s (r :: rs) ↔ ¬ D s r ∧ Never D (r.after s) rs := by
  constructor
  · intro h
    exact ⟨h [] r (List.cons_prefix_cons.2 ⟨rfl, List.nil_prefix⟩), fun before r' short =>
      h (r :: before) r' (List.cons_prefix_cons.2 ⟨rfl, short⟩)⟩
  · rintro ⟨here, later⟩ before r' short
    cases before with
    | nil =>
      obtain ⟨rfl, _⟩ := List.cons_prefix_cons.1 short
      exact here
    | cons r'' before =>
      obtain ⟨rfl, rest⟩ := List.cons_prefix_cons.1 short
      exact later before r' rest

/-- Whether none of some requests does what it should not do is found out by running them. -/
instance decidableNever [∀ s r, Decidable (D s r)] :
    ∀ (rs : List Panel.Request) (s : Scene), Decidable (Never D s rs)
  | [], _ => .isTrue never_nil
  | r :: rs, s =>
    have := decidableNever rs (r.after s)
    decidable_of_iff _ never_cons.symm

/-- A property that a request destroys exactly when it does what it should not do holds throughout the
histories in which none does. -/
theorem throughout_iff_never {B : Scene → Prop} {A : Panel.Request → Prop}
    (keeps : ∀ s r, A r → B s → B (r.after s))
    (step : ∀ s r, A r → B s → P s → (P (r.after s) ↔ ¬ D s r)) :
    ∀ (rs : List Panel.Request) {s : Scene}, (∀ r ∈ rs, A r) → B s → P s →
      (Throughout P s rs ↔ Never D s rs)
  | [], s, _, _, holds => by
    rw [throughout_nil]
    exact ⟨fun _ => never_nil, fun _ => holds⟩
  | r :: rs, s, allowed, base, holds => by
    have here := allowed r List.mem_cons_self
    have rest := @throughout_iff_never B A keeps step rs (r.after s)
      (fun r' mem => allowed r' (List.mem_cons_of_mem _ mem)) (keeps s r here base)
    rw [throughout_cons, never_cons, ← step s r here base holds]
    constructor
    · rintro ⟨_, later⟩
      have next : P (r.after s) := later [] List.nil_prefix
      exact ⟨next, (rest next).1 later⟩
    · rintro ⟨next, later⟩
      exact ⟨holds, (rest next).2 later⟩

end Scene

/-! ## What requests leave alone -/

/-- The fields of a panel without their widgets, and the fields that show other panels. -/
def Scene.books (s : Scene) : FieldTable × List FieldId :=
  (s.panel.table.bare, s.panel.views.map Prod.fst)

namespace PanelM

/-- A step leaves the books of the panel alone. -/
abbrev Spares {α : Type} (m : PanelM α) : Prop := Retains Scene.books m

theorem overlooks_books : Scene.Overlooks Scene.books where
  page _ _ := rfl
  widget s f w := Prod.ext (FieldTable.bare_update_widget s.panel.table f w) rfl

theorem spares_field (f : FieldId) : Spares (field f) := Scene.Overlooks.field _ f

theorem spares_changePage (change : Page → Page) : Spares (changePage change) :=
  overlooks_books.changePage change

theorem spares_onPage {α : Type} (changes : PageM α) : Spares (onPage changes) :=
  overlooks_books.onPage changes

/-! ### Widgets -/

theorem spares_widgetOf (f : FieldId) : Spares (widgetOf f) := overlooks_books.asked f

theorem spares_widget (f : FieldId) : Spares (widget f) := overlooks_books.root f

theorem spares_fieldWidget? (name : String) : Spares (fieldWidget? name) := by
  refine .bind .get fun s => ?_
  cases (s.panel.table.named name).head? with
  | some f => exact .bind (spares_widget f) fun _ => .pure _
  | none => exact .pure _

theorem spares_fieldWidgets (name : String) : Spares (fieldWidgets name) :=
  .bind .get fun _ => .mapM spares_widget _

/-! ### Parts -/

theorem spares_selectTab (f : FieldId) (index : Nat) : Spares (selectTab f index) :=
  overlooks_books.selectTab f index

theorem spares_takePart (parent child : FieldId) : Spares (takePart parent child) :=
  overlooks_books.takePart parent child

theorem spares_setOpen (f : FieldId) (isOpen : Bool) : Spares (setOpen f isOpen) := by
  refine .bind (spares_field f) fun field => ?_
  split
  · exact .pure _
  · exact .bind (spares_widget f) fun _ => .bind (spares_changePage _) fun _ => .pure _

theorem spares_fillContent (f : FieldId) (content : NodeId) : Spares (fillContent f content) :=
  overlooks_books.fillContent f content

/-! ### Values -/

theorem spares_value? (f : FieldId) : Spares (value? f) := by
  refine .bind (spares_field f) fun field => ?_
  split
  · exact .pure _
  · exact .bind (spares_widgetOf f) fun _ => .bind .get fun _ => .pure _

theorem spares_values (f : FieldId) : Spares (values f) := .bind (spares_value? f) fun _ => .pure _

theorem spares_setValue (f : FieldId) (value : Option String) : Spares (setValue f value) := by
  refine .bind (spares_field f) fun field => ?_
  split
  · exact .pure _
  · exact .bind .get fun _ => .bind (spares_widgetOf f) fun _ => spares_onPage _

theorem spares_setValues (f : FieldId) (values : List String) : Spares (setValues f values) :=
  .bind (spares_setValue f _) fun _ => .pure _

theorem spares_clearValue (f : FieldId) : Spares (clearValue f) := by
  refine .bind (spares_field f) fun field => ?_
  split
  · exact .pure _
  · exact .bind (spares_widgetOf f) fun _ => spares_changePage _

theorem spares_named (name : String) : Spares (named name) := .bind .get fun _ => .pure _

theorem spares_firstValue? : ∀ fs : List FieldId, Spares (firstValue? fs)
  | [] => .pure _
  | f :: fs => by
    refine .bind (spares_value? f) fun value => ?_
    cases value with
    | some value => exact .pure _
    | none => exact spares_firstValue? fs

theorem spares_offer (value : Option String) : ∀ fs : List FieldId, Spares (offer value fs)
  | [] => .pure _
  | f :: fs => by
    refine .bind (spares_setValue f value) fun accepted => ?_
    split
    · exact .pure _
    · exact spares_offer value fs

theorem spares_handOut : ∀ (fs : List FieldId) (values : List String), Spares (handOut fs values)
  | [], _ => .pure _
  | f :: fs, values => .bind (spares_setValues f values) fun rest => spares_handOut fs rest

theorem spares_subtree (f : FieldId) : Spares (subtree f) := by
  refine .get_bind fun s => ?_
  cases s.panel.table.subtree f <;> rfl

theorem spares_clear : Spares clear := .bind .get fun _ => .forM spares_clearValue _

theorem spares_clearField (name : String) (descendants : Bool) :
    Spares (clearField name descendants) := by
  refine .bind (spares_named name) fun fs => .forM (fun f => ?_) fs
  split
  · exact .bind (spares_subtree f) fun _ => .forM spares_clearValue _
  · exact spares_clearValue f

/-! ### State -/

theorem spares_enableUpTo : ∀ (levels : Nat) (f : FieldId) (enabled : Bool),
    Spares (enableUpTo levels f enabled)
  | 0, _, _ => .pure _
  | levels + 1, f, enabled => by
    refine .bind (spares_field f) fun field => ?_
    split
    · exact .bind (spares_widgetOf f) fun _ => spares_changePage _
    · exact .forM (fun child => spares_enableUpTo levels child enabled) _

theorem spares_enableTree (f : FieldId) (enabled : Bool) : Spares (enableTree f enabled) :=
  .bind .get fun _ => spares_enableUpTo _ f enabled

theorem spares_setFieldVisible (name : String) (visible : Bool) :
    Spares (setFieldVisible name visible) := by
  refine .bind (spares_named name) fun fs => .bind (.forM (fun f => ?_) fs) fun _ => .pure _
  exact .bind (spares_widget f) fun _ => spares_changePage _

theorem spares_press (f : FieldId) : Spares (press f) := by
  refine .bind (spares_field f) fun field => ?_
  split
  · exact .pure _
  · refine .bind .get fun s => ?_
    dsimp only
    split
    · split
      · exact .bind (spares_clearField _ _) fun _ => .pure _
      · exact .bind spares_clear fun _ => .pure _
    · exact .pure _
    · exact .pure _
    · exact .pure _

/-! ### What the others do -/

/-- A step that only looks up answers or fails where it started. -/
theorem exec_field_cases (f : FieldId) (s : Scene) :
    (∃ field, s.panel.field? f = some field ∧ exec (PanelM.field f) s = (.ok field, s)) ∨
      (s.panel.field? f = none ∧ exec (PanelM.field f) s = (.error (.unknownField f), s)) := by
  cases found : s.panel.field? f with
  | some field => exact .inl ⟨field, rfl, exec_field found⟩
  | none =>
    refine .inr ⟨rfl, ?_⟩
    unfold PanelM.field
    rw [exec_bind_ok (exec_get s), found]
    rfl

/-- A field whose widget is known is there. -/
theorem field?_of_widgetOf {f : FieldId} {w : Widget} {s s' : Scene}
    (run : exec (widgetOf f) s = (.ok w, s')) : (s.panel.field? f).isSome := by
  rcases exec_field_cases f s with ⟨field, found, _⟩ | ⟨_, fails⟩
  · rw [found]
    rfl
  · unfold widgetOf at run
    rw [exec_bind_error fails] at run
    cases run

/-- A field whose widget is known is there. -/
theorem field?_of_widget {f : FieldId} {n : NodeId} {s s' : Scene}
    (run : exec (widget f) s = (.ok n, s')) : (s.panel.field? f).isSome := by
  unfold widget at run
  obtain ⟨w, s₁, first, _⟩ := exec_bind_eq_ok.1 run
  exact field?_of_widgetOf first

/-- Only fields that are there are put below each other. -/
theorem field?_of_takePart {p c : FieldId} {role : Role} {s s' : Scene}
    (run : exec (takePart p c) s = (.ok role, s')) :
    (s.panel.field? p).isSome ∧ (s.panel.field? c).isSome := by
  unfold takePart at run
  obtain ⟨container, s₁, first, run⟩ := exec_bind_eq_ok.1 run
  obtain ⟨candidate, s₂, second, _⟩ := exec_bind_eq_ok.1 run
  rcases exec_field_cases p s with ⟨_, found, known⟩ | ⟨_, fails⟩
  · cases known.symm.trans first
    rcases exec_field_cases c s with ⟨_, found', _⟩ | ⟨_, fails⟩
    · rw [found, found']
      exact ⟨rfl, rfl⟩
    · cases fails.symm.trans second
  · cases fails.symm.trans first

/-- Fields are linked when the parent has taken the child. -/
theorem exec_addChild_ok {p c : FieldId} {role : Role} {s s' : Scene}
    (run : exec (takePart p c) s = (.ok role, s')) :
    exec (addChild p c) s = (.ok (decide (role = .content)), s'.link p c role) := by
  unfold addChild
  rw [exec_bind_ok run]
  exact exec_bind_ok (exec_changeTable _)

/-- **Putting a field below another** fails and leaves the books alone, or it answers when the parent has
taken the field and the two are linked. -/
theorem exec_addChild_cases (p c : FieldId) (s : Scene) :
    (∃ e s', exec (addChild p c) s = (.error e, s') ∧ s'.books = s.books) ∨
      ∃ role s', exec (takePart p c) s = (.ok role, s') ∧
        exec (addChild p c) s = (.ok (decide (role = .content)), s'.link p c role) := by
  have spared := spares_takePart p c s
  cases run : exec (takePart p c) s with
  | mk answer s' =>
    rw [run] at spared
    cases answer with
    | error e => exact .inl ⟨e, s', exec_bind_error run, spared⟩
    | ok role => exact .inr ⟨role, s', rfl, exec_addChild_ok run⟩

theorem exec_removeField {f : FieldId} {s : Scene} (known : (s.panel.field? f).isSome) :
    exec (removeField f) s = (.ok (),
      { s with
        panel := { s.panel with
          table := (s.panel.table.remove f).2
          views := s.panel.views.filter fun entry => entry.1 ∉ (s.panel.table.remove f).1.map Field.id }
        page := ((s.panel.table.remove f).1.filterMap Field.root?).foldl Page.detach s.page }) := by
  obtain ⟨field, found⟩ := Option.isSome_iff_exists.1 known
  unfold removeField
  rw [exec_bind_ok (exec_field found)]
  rfl

/-- Showing a panel in a view fails and leaves the books alone, or it keeps the panel for the view. -/
theorem exec_setView_cases (f : FieldId) (view : Panel) (s : Scene) :
    (∃ e s', exec (setView f view) s = (.error e, s') ∧ s'.books = s.books) ∨
      ∃ s' : Scene, exec (setView f view) s = (.ok (), { s' with
          panel := { s'.panel with
            views := s'.panel.views.filter (fun entry => entry.1 ≠ f) ++ [(f, view)] } }) ∧
        s'.books = s.books ∧ (s.panel.field? f).isSome := by
  have first := spares_widget f s
  cases run : exec (widget f) s with
  | mk answer s₁ =>
    rw [run] at first
    cases answer with
    | error e => exact .inl ⟨e, s₁, exec_bind_error run, first⟩
    | ok root =>
      have second := spares_onPage (PageM.append root view.root) s₁
      cases append : exec (onPage (PageM.append root view.root)) s₁ with
      | mk answer s₂ =>
        rw [append] at second
        cases answer with
        | error e =>
          refine .inl ⟨e, s₂, ?_, second.trans first⟩
          unfold setView
          rw [exec_bind_ok run]
          exact exec_bind_error append
        | ok u =>
          refine .inr ⟨s₂, ?_, second.trans first, field?_of_widget run⟩
          unfold setView
          rw [exec_bind_ok run, exec_bind_ok append]
          rfl

end PanelM

/-! ## What requests do to the books -/

namespace Panel.Request

/-- What a request did to the fields of a panel and to its views. -/
inductive Turn : Request → Scene → Scene → Prop
  /-- Fields stay what they were but for their widgets. -/
  | kept {r : Request} {s s' : Scene} : s'.books = s.books → (r.Answers s → ∀ p c, r ≠ .add p c) →
      Turn r s s'
  | created {kind : FieldKind} {attributes : Attributes} {s s' : Scene} (name : String) :
      s'.panel.table = s.panel.table.add (.create ⟨s.panel.table.slots.size⟩ kind name attributes) →
      s'.panel.views = s.panel.views → Turn (.create kind attributes) s s'
  | linked {p c : FieldId} {role : Role} {s s₁ s' : Scene} : s₁.books = s.books →
      (s.panel.field? p).isSome → (s.panel.field? c).isSome →
      s'.panel.table = s₁.panel.table.link p c role → s'.panel.views = s₁.panel.views →
      Request.Answers (.add p c) s → Turn (.add p c) s s'
  | removed {f : FieldId} {s s' : Scene} : (s.panel.field? f).isSome →
      s'.panel.table = (s.panel.table.remove f).2 →
      s'.panel.views = s.panel.views.filter
        (fun entry => entry.1 ∉ (s.panel.table.remove f).1.map Field.id) → Turn (.remove f) s s'
  | viewed {f : FieldId} {view : Panel} {s s₁ s' : Scene} : s₁.books = s.books →
      (s.panel.field? f).isSome → s'.panel.table = s₁.panel.table →
      s'.panel.views = s₁.panel.views.filter (fun entry => entry.1 ≠ f) ++ [(f, view)] →
      Turn (.setView f view) s s'

/-- Whether a request creates, links or removes fields, or shows a panel in a view. -/
def changesBooks : Request → Bool
  | .create _ _ | .add _ _ | .remove _ | .setView _ _ => true
  | _ => false

theorem spares_changeView (f : FieldId) (change : Panel → Panel) :
    PanelM.Spares (perform (.changeView f change)) := by
  intro s
  refine Prod.ext rfl ?_
  show (s.panel.updateView f change).views.map Prod.fst = s.panel.views.map Prod.fst
  unfold updateView
  rw [List.map_map]
  refine List.map_congr_left fun entry _ => ?_
  rw [Function.comp_apply]
  split
  · case isTrue same => exact same.symm
  · rfl

/-- **Every other request** leaves the books alone. -/
theorem spares_perform {r : Request} (other : r.changesBooks = false) : PanelM.Spares r.perform := by
  cases r with
  | create | add | remove | setView => cases other
  | changeView f change => exact spares_changeView f change
  | widget f => exact .bind (PanelM.spares_widget f) fun _ => .pure _
  | namedWidget name => exact .bind (PanelM.spares_fieldWidget? name) fun _ => .pure _
  | namedWidgets name => exact .bind (PanelM.spares_fieldWidgets name) fun _ => .pure _
  | fill f content => exact .bind (PanelM.spares_fillContent f content) fun _ => .pure _
  | select f index => exact .bind (PanelM.spares_selectTab f index) fun _ => .pure _
  | setOpen f isOpen => exact .bind (PanelM.spares_setOpen f isOpen) fun _ => .pure _
  | read f => exact .bind (PanelM.spares_values f) fun _ => .pure _
  | readNamed name =>
    refine .bind (.bind (PanelM.spares_named name) fun fs => ?_) fun _ => .pure _
    exact PanelM.spares_firstValue? fs
  | readAll name =>
    refine .bind (.bind (PanelM.spares_named name) fun fs => ?_) fun _ => .pure _
    exact .bind (.mapM PanelM.spares_values fs) fun _ => .pure _
  | store f value => exact .bind (PanelM.spares_setValue f value) fun _ => .pure _
  | storeMany f values => exact .bind (PanelM.spares_setValues f values) fun _ => .pure _
  | storeNamed name value =>
    refine .bind (.bind (PanelM.spares_named name) fun fs => ?_) fun _ => .pure _
    exact PanelM.spares_offer value fs
  | storeAll name values =>
    refine .bind (.bind (PanelM.spares_named name) fun fs => ?_) fun _ => .pure _
    exact PanelM.spares_handOut fs values
  | clearValue f => exact PanelM.spares_clearValue f
  | clearNamed name descendants => exact PanelM.spares_clearField name descendants
  | clear => exact PanelM.spares_clear
  | enable enabled =>
    refine .bind .get fun s => ?_
    exact .forM (fun f => PanelM.spares_enableTree f enabled) _
  | enableNamed name enabled =>
    refine .bind (PanelM.spares_named name) fun fs => ?_
    exact .forM (fun f => PanelM.spares_enableTree f enabled) fs
  | showNamed name visible => exact .bind (PanelM.spares_setFieldVisible name visible) fun _ => .pure _
  | listenToSubmit | listenToCancel | listenToClick => exact fun _ => rfl
  | press f => exact .bind (PanelM.spares_press f) fun _ => .pure _
  | elsewhere page counters => exact fun _ => rfl

theorem turn_add (p c : FieldId) (s : Scene) : Turn (.add p c) s (after (.add p c) s) := by
  rcases PanelM.exec_addChild_cases p c s with ⟨e, s', run, spared⟩ | ⟨role, s', taken, run⟩
  · have run' : exec (perform (.add p c)) s = _ := exec_bind_error run
    rw [after_eq run']
    exact .kept spared fun answers => nomatch (answers_iff run').1 answers
  · have known := PanelM.field?_of_takePart taken
    have spared := PanelM.spares_takePart p c s
    rw [taken] at spared
    have run' : exec (perform (.add p c)) s = _ := exec_bind_ok run
    rw [after_eq run']
    exact @Turn.linked p c role s s' _ spared known.1 known.2 rfl rfl ((answers_iff run').2 rfl)

theorem turn_remove (f : FieldId) (s : Scene) : Turn (.remove f) s (after (.remove f) s) := by
  rcases PanelM.exec_field_cases f s with ⟨field, found, _⟩ | ⟨_, fails⟩
  · have known : (s.panel.field? f).isSome := Option.isSome_of_mem found
    have run : exec (perform (.remove f)) s = _ := PanelM.exec_removeField known
    rw [after_eq run]
    exact .removed known rfl rfl
  · have run : exec (perform (.remove f)) s = _ := exec_bind_error fails
    rw [after_eq run]
    exact .kept rfl fun _ _ _ => nofun

theorem turn_setView (f : FieldId) (view : Panel) (s : Scene) :
    Turn (.setView f view) s (after (.setView f view) s) := by
  rcases PanelM.exec_setView_cases f view s with ⟨e, s', run, spared⟩ | ⟨s', run, spared, known⟩
  · have run' : exec (perform (.setView f view)) s = _ := run
    rw [after_eq run']
    exact .kept spared fun _ _ _ => nofun
  · have run' : exec (perform (.setView f view)) s = _ := run
    rw [after_eq run']
    exact .viewed spared known rfl rfl

/-- **What a request does** to the fields of a panel. -/
theorem turn (r : Request) (s : Scene) : Turn r s (r.after s) := by
  cases r with
  | create kind attributes =>
    have run : exec (perform (.create kind attributes)) s = _ :=
      exec_bind_ok (PanelM.exec_createField kind attributes)
    rw [after_eq run]
    exact .created (s.counters.nameField s.panel.series kind attributes).1 rfl rfl
  | add p c => exact turn_add p c s
  | remove f => exact turn_remove f s
  | setView f view => exact turn_setView f view s
  | _ => exact .kept (spares_perform rfl s) fun _ _ _ => nofun

end Panel.Request

end Formwork
