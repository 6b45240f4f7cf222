import Formwork.Proofs.Panel.Configured
import Formwork.Proofs.Panel.Refusal

/-!
# Clearing a field

A field that is cleared has the value that the attributes for its default say (`Field.resetValue?`), whatever
was done to it before (`Scene.exec_clearValue`).  This is the value that it had when its widget was
built, except for an input control to which an attribute `value` is passed on that is not the default
(`Field.Shadowed`): the attributes that are passed on are set behind the default when the widget is built, and
clearing knows of the default only.
-/

namespace Formwork

set_option autoImplicit false

open Panel (Request)
open PanelM (Asks)

/-! ## The two values -/

namespace Field

/-- The value that the attributes which are passed on give to the topmost node of a widget. -/
def passedValue? (f : Field) : Option String := (OrderedMap.ofList f.attributes.forWidget).get? "value"

/-- The value of a field that was cleared. -/
def resetValue? (f : Field) (messages : Messages) : Option String :=
  match f.kind with
  | .html | .inlineHtml | .readOnly => some ""
  | .textInput | .password | .hidden | .textArea => some (f.defaultValue?.getD "")
  | .checkbox | .radio => if f.initially then f.standsFor? messages else none
  | _ => none

/-- An attribute that is passed on to an input control takes the place of its default value. -/
def Shadowed (f : Field) : Prop :=
  f.kind ∈ [.textInput, .password, .hidden] ∧ ∃ v, f.passedValue? = some v ∧ v ≠ f.defaultValue?.getD ""

variable {f : Field} {messages : Messages}

theorem get?_inputAttributes (type name : String) : (Face.inputAttributes type name).get? "value" = none := by
  rw [Face.inputAttributes, OrderedMap.get?_insert_of_ne _ _ (by decide),
    OrderedMap.get?_insert_of_ne _ _ (by decide), OrderedMap.get?_empty]

/-- An input control is built with the default value. -/
theorem get?_textControl (type : String) : (Face.textControl type f).attributes.get? "value" = f.defaultValue? := by
  unfold Face.textControl
  cases f.defaultValue? with
  | none => exact get?_inputAttributes type f.name
  | some value => exact OrderedMap.get?_insert_self ..

theorem resetValue?_eq_none (valueless : f.kind.hasValue = false) : f.resetValue? messages = none := by
  unfold resetValue?
  cases kind : f.kind <;> rw [kind] at valueless <;> first | rfl | cases valueless

/-- An input control has the value that is passed on to it, or else the default. -/
theorem firstValue?_of_input (kind : f.kind ∈ [.textInput, .password, .hidden]) (label : Option String) :
    f.firstValue? label = some ((f.passedValue?.or f.defaultValue?).getD "") := by
  have attributes : ∃ type, f.face label .none = .textControl type f := by
    simp only [List.mem_cons, List.not_mem_nil, or_false] at kind
    unfold face
    rcases kind with kind | kind | kind <;> rw [kind] <;> exact ⟨_, rfl⟩
  obtain ⟨type, face⟩ := attributes
  have first : f.firstValue? label = some (((f.attributes.forWidget.foldl
      (fun m e => m.insert e.1 e.2) (f.face label .none).attributes).get? "value").getD "") := by
    simp only [List.mem_cons, List.not_mem_nil, or_false] at kind
    unfold firstValue?
    rcases kind with kind | kind | kind <;> rw [kind]
  rw [first, OrderedMap.get?_foldl_insert, ← OrderedMap.get?_ofList, face, get?_textControl, passedValue?]

/-- **Clearing gives a field the value that it had at first**, unless an attribute that was passed on had taken
the place of its default. -/
theorem resetValue?_eq_firstValue?_iff :
    f.resetValue? messages = f.firstValue? (f.label? messages) ↔ ¬ f.Shadowed := by
  by_cases input : f.kind ∈ [.textInput, .password, .hidden]
  · have reset : f.resetValue? messages = some (f.defaultValue?.getD "") := by
      simp only [List.mem_cons, List.not_mem_nil, or_false] at input
      unfold resetValue?
      rcases input with kind | kind | kind <;> rw [kind]
    rw [reset, firstValue?_of_input input]
    unfold Shadowed
    cases f.passedValue? with
    | none => simp
    | some v => simp [input, eq_comm]
  · refine iff_of_true ?_ fun shadowed => input shadowed.1
    unfold resetValue? firstValue?
    cases kind : f.kind <;> first | rfl | exact absurd (by rw [kind]; decide) input

end Field

/-! ## Resetting a widget -/

namespace Widget

variable {w : Widget} {f : Field} {messages : Messages} {p : Page}

/-- **The value of a widget that was reset** depends on the attributes of its field only. -/
theorem value?_resetValue (forest : p.Forest) (own : ∀ n ∈ w.own, p.tag? n ≠ none) (kind : f.kind ∈ w.kinds)
    (configured : w.Configured f messages) :
    w.value? (w.resetValue f.defaultValue? p) = f.resetValue? messages := by
  cases w with
  | plain | button | container | disclosure | tabs =>
    have valueless : f.kind.hasValue = false := by
      rw [← Bool.not_eq_true, hasValue_iff kind]
      exact fun some => some rfl
    exact (Field.resetValue?_eq_none valueless).symm
  | markup root =>
    have empty : (p.clear root).children root = [] := by rw [forest.children_clear, if_pos rfl]
    obtain ⟨cleared, _, tags⟩ := forest.clear root
    have element : (p.clear root).tag? root ≠ none := by
      rw [tags]
      exact own root List.mem_cons_self
    have shows : (markup root).value? ((markup root).resetValue f.defaultValue? p) = some "" :=
      congrArg some (cleared.innerMarkup_of_no_children element empty)
    simp only [kinds, List.mem_cons, List.not_mem_nil, or_false] at kind
    unfold Field.resetValue?
    rcases kind with kind | kind <;> rw [kind] <;> exact shows
  | input root =>
    have shows : (input root).value? ((input root).resetValue f.defaultValue? p) =
        some (f.defaultValue?.getD "") := by
      rw [resetValue, value?, Page.attr?_setAttr_self (own root List.mem_cons_self)]
      rfl
    simp only [kinds, List.mem_cons, List.not_mem_nil, or_false] at kind
    unfold Field.resetValue?
    rcases kind with kind | kind | kind <;> rw [kind] <;> exact shows
  | textArea root =>
    unfold Field.resetValue?
    rw [List.mem_singleton.1 kind]
    exact congrArg some (forest.textContent_setText (own root List.mem_cons_self) _)
  | check root box standsFor initially =>
    obtain ⟨rfl, rfl⟩ := configured
    have shows : (check root box (f.standsFor? messages) f.initially).value?
        ((check root box (f.standsFor? messages) f.initially).resetValue f.defaultValue? p) =
          if f.initially then f.standsFor? messages else none := by
      rw [resetValue, value?, Page.attr?_setFlag_self (own box (by simp [Widget.own]))]
      cases f.initially <;> rfl
    simp only [kinds, List.mem_cons, List.not_mem_nil, or_false] at kind
    unfold Field.resetValue?
    rcases kind with kind | kind <;> rw [kind] <;> exact shows
  | readOnly root hidden view =>
    have set : (p.setAttr hidden "value" "").Forest := forest.updateAttrs hidden _
    have stored : ((p.setAttr hidden "value" "").clear view).attr? hidden "value" = some "" := by
      rw [Page.attr?_congr (set.content?_clear view hidden)]
      exact Page.attr?_setAttr_self (own hidden (by simp [Widget.own])) "value" ""
    unfold Field.resetValue?
    rw [List.mem_singleton.1 kind, resetValue, value?, stored]
    rfl

end Widget

/-! ## Requests about values -/

/-- Building widgets and writing into them, which leaves the fields, the widgets that are there, and the
messages what they were. -/
structure Scene.Revalues (s s' : Scene) : Prop where
  custody : s'.Custody .empty False
  bare : s'.panel.table.bare = s.panel.table.bare
  messages : s'.panel.messages = s.panel.messages
  stays : ∀ {f field w}, s.Built f field w → s'.Built f field w

/-- Requests about values do no more than that. -/
theorem Scene.Revalues.permits : Permits Scene.Revalues (Scene.Custody .empty False) fun _ => True where
  refl h := ⟨h, rfl, rfl, fun built => built⟩
  holds := custody
  trans h h' := ⟨h'.custody, h'.bare.trans h.bare, h'.messages.trans h.messages,
    fun built => h'.stays (h.stays built)⟩
  custody h := h
  asks _ asks := ⟨asks.leads.custody, asks.bare, asks.messages, asks.stays⟩
  rewrites h into built page := ⟨(Scene.Leads.permits.rewrites h into built page).custody, rfl, rfl,
    fun built => ⟨built.found, built.widget⟩⟩

namespace Panel.Request

variable {s : Scene} {f : FieldId} {r : Request}

theorem allowed_of_handlesValues (handles : r.handlesValues = true) : s.Allows r := by
  cases r <;> trivial

/-- **A request about values**, or one for a widget, leaves the fields and the messages what they were. -/
theorem revalues (h : s.Custody .empty False) (handles : r = .widget f ∨ r.handlesValues = true) :
    s.Revalues (r.after s) := by
  have permits := Scene.Revalues.permits
  rcases handles with rfl | handles
  · exact after_of_goes permits.toUpholds (permits.map (permits.widgetOf h f)) rfl
  · exact permits.after h handles (fun _ _ => trivial) fun _ _ _ => .inr fun _ => trivial

end Panel.Request

namespace Scene

variable {s : Scene} {f : FieldId} {field : Field}

/-- Any number of them. -/
theorem Reached.after_values : ∀ {rs : List Request} {s : Scene}, s.Reached →
    (∀ r ∈ rs, r = .widget f ∨ r.handlesValues = true) → (s.after rs).Reached ∧ s.Revalues (s.after rs)
  | [], _, h, _ => ⟨h, Revalues.permits.refl h.custody⟩
  | r :: rs, s, h, handles => by
    have mem := handles r List.mem_cons_self
    have allowed : s.Allows r := by
      rcases mem with rfl | mem
      · trivial
      · exact Request.allowed_of_handlesValues mem
    obtain ⟨reached, later⟩ := (h.step allowed).after_values fun r' mem' =>
      handles r' (List.mem_cons_of_mem _ mem')
    rw [after_cons]
    exact ⟨reached, Revalues.permits.trans (Request.revalues h.custody mem) later⟩

/-! ## Clearing -/

/-- **Clearing a field** with a value always answers, and the value that it has then depends on its attributes
and the messages, and on nothing that was done before. -/
theorem exec_clearValue (h : s.Custody .empty False) (configured : s.Configured)
    (found : s.panel.field? f = some field) (valued : field.kind.hasValue = true) :
    ∃ s', exec (PanelM.clearValue f) s = (.ok (), s') ∧
      s'.value f = .ok (field.resetValue? s.panel.messages) := by
  obtain ⟨w, s₁, asked, opens⟩ := exec_opens h found
  have custody := opens.leads.custody
  have own := custody.own_element opens.built
  have kind := custody.kind opens.built
  have run : exec (PanelM.clearValue f) s =
      (.ok (), { s₁ with page := w.resetValue field.defaultValue? s₁.page }) := by
    unfold PanelM.clearValue
    rw [exec_bind_ok (PanelM.exec_field found), valued, if_neg (by decide), exec_bind_ok asked]
    rfl
  refine ⟨_, run, ?_⟩
  have forest := (Widget.rewrites_resetValue custody.rests.forest own field.defaultValue?).alters.forest
  rw [opens.built.value_page valued forest]
  exact congrArg _ (Widget.value?_resetValue custody.rests.forest own kind
    (opens.configured asked configured))

/-- A widget that is built has the first value of its field. -/
theorem Reached.value_built (h : s.Reached) (found : s.panel.field? f = some field)
    (valued : field.kind.hasValue = true) (unbuilt : field.widget = none) :
    (s.after [.widget f]).value f = .ok (field.firstValue? (field.label? s.panel.messages)) := by
  obtain ⟨w, s₁, asked, opens⟩ := exec_opens h.custody found
  have after : s.after [.widget f] = s₁ := after_widget (widget_of_widgetOf asked)
  rw [after, h.custody.value_asks opens.toAsks, value_eq h.custody.rests.forest, found, Option.elim_some]
  unfold reading
  rw [if_pos valued, unbuilt, Option.elim_none]

/-- **Clearing after any requests about values**: it answers, and gives the field the value that it had when its
widget was built, unless an attribute that was passed on had taken the place of the default. -/
theorem Reached.value_cleared (h : s.Reached) (found : s.panel.field? f = some field)
    (valued : field.kind.hasValue = true) (unbuilt : field.widget = none) {rs : List Request}
    (handles : ∀ r ∈ rs, r = .widget f ∨ r.handlesValues = true) :
    (Request.clearValue f).Answers (s.after rs) ∧
    (s.after [.widget f]).value f = .ok (field.firstValue? (field.label? s.panel.messages)) ∧
    (s.after (rs ++ [.clearValue f])).value f = .ok (field.resetValue? s.panel.messages) ∧
    ((s.after (rs ++ [.clearValue f])).value f = (s.after [.widget f]).value f ↔ ¬ field.Shadowed) := by
  obtain ⟨reached, revalues⟩ := h.after_values handles
  obtain ⟨field', found', bare⟩ := FieldTable.exists_field?_congr revalues.bare.symm found
  have kind : field.kind = field'.kind := (congrArg Field.kind bare :)
  have reset : field'.resetValue? s.panel.messages = field.resetValue? s.panel.messages :=
    (congrArg (fun f => f.resetValue? s.panel.messages) bare.symm :)
  obtain ⟨s', answers, cleared⟩ := exec_clearValue reached.custody reached.configured found' (kind ▸ valued)
  have run : exec (Request.clearValue f).perform (s.after rs) = (.ok (), s') := answers
  have after : s.after (rs ++ [.clearValue f]) = s' := by
    rw [Scene.after, List.foldl_append]
    exact Request.after_eq run
  rw [revalues.messages, reset] at cleared
  have first := h.value_built found valued unbuilt
  rw [after]
  refine ⟨(Request.answers_iff run).2 rfl, first, cleared, ?_⟩
  rw [cleared, first, Except.ok.injEq]
  exact Field.resetValue?_eq_firstValue?_iff

/-- A line of text that an attribute `value` is passed on to, and that has no default. -/
def prefilled : Scene := (opened .empty .empty ⟨0⟩ .empty).after [.create .textInput (.ofList [("value", "x")])]

/-- The line is cleared after a value was stored in it. -/
theorem value_cleared_prefilled :
    (prefilled.after [.store ⟨0⟩ (some "y"), .clearValue ⟨0⟩]).value ⟨0⟩ = .ok (some "") := by
  have reached : prefilled.Reached := .step (.opened .empty _ _ _) trivial
  have known : (prefilled.panel.field? ⟨0⟩).map (fun field =>
      (field.kind, field.widget, field.resetValue? prefilled.panel.messages)) =
        some (.textInput, none, some "") := by decide +kernel
  obtain ⟨field, found, is⟩ := Option.map_eq_some_iff.1 known
  obtain ⟨kind, unbuilt, reset⟩ : _ ∧ _ ∧ _ := by simpa only [Prod.mk.injEq] using is
  have valued : field.kind.hasValue = true := by rw [kind]; rfl
  have handles : ∀ r ∈ [Request.store ⟨0⟩ (some "y")], r = .widget ⟨0⟩ ∨ r.handlesValues = true :=
    fun r mem => .inr (List.mem_singleton.1 mem ▸ rfl)
  have cleared := (reached.value_cleared found valued unbuilt handles).2.2.1
  rwa [reset] at cleared

/-- Clearing the line does not give it the value that it had at first. -/
theorem prefilled_not_restored : prefilled.Reached ∧
    (prefilled.after [.widget ⟨0⟩]).value ⟨0⟩ = .ok (some "x") ∧
    (prefilled.after [.widget ⟨0⟩, .clearValue ⟨0⟩]).value ⟨0⟩ = .ok (some "") :=
  ⟨.step (.opened .empty _ _ _) trivial, by decide +kernel⟩

end Scene

end Formwork
