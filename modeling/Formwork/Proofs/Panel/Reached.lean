import Formwork.Proofs.Panel.Storing

/-!
# The scenes that a panel reaches

A panel is opened on a forest, requests are made to it, and between them others change the page; no
request names a node that the page does not have (`Scene.Allows`).  Every scene that is reached so
(`Scene.Reached`) is one in which each widget has nodes of its own: every request keeps the custody,
whether it answers or fails (`Panel.Request.leads`).
-/

namespace Formwork

set_option autoImplicit false

open Page (Confined nowhere)
open Panel (Request)

/-! ## Operations -/

namespace Scene

/-- Values may be read and written in the custody of the widgets. -/
theorem Leads.permits : Permits (Leads .empty False) (Custody .empty False) fun _ => True where
  refl := refl
  holds := custody
  trans := trans
  custody h := h
  asks _ asks := asks.leads
  rewrites h _ _ page :=
    h.leads_page (page.alters.confined h.rests fun _ _ => Nat.zero_le _) nofun

end Scene

theorem Widget.control_mem_own (w : Widget) : w.control ∈ w.own := by
  cases w <;> simp [control, own, Widget.root]

namespace PanelM

open Scene

variable {s : Scene} {f : FieldId}

/-! ### Widgets of named fields -/

theorem goes_fieldWidget? (h : s.Custody .empty False) (name : String) :
    Goes (Leads .empty False) s (fieldWidget? name) fun _ _ => True := by
  refine .get_bind ?_
  cases (s.panel.table.named name).head? with
  | some f => exact Leads.permits.map (goes_widget h f)
  | none => exact .pure (.refl h) trivial

theorem goes_fieldWidgets (h : s.Custody .empty False) (name : String) :
    Goes (Leads .empty False) s (fieldWidgets name) fun _ _ => True :=
  .get_bind (Leads.permits.mapM h fun f _ _ h => (goes_widget h f).mono fun _ _ _ _ => trivial)

/-! ### State -/

/-- Setting a flag of a node of the widget of a field. -/
theorem goes_flag (h : s.Custody .empty False) {field : Field} {w : Widget} (built : s.Built f field w)
    {n : NodeId} (mem : n ∈ w.own) {name : String} (other : name ≠ "value") (on : Bool) :
    Goes (Leads .empty False) s (changePage fun p => p.setFlag n name on) fun _ _ => True :=
  (goes_changePage h (.setFlag h.rests (h.own built n mem).1 on other) nofun).mono
    fun _ _ _ _ => trivial

theorem goes_setOpen (h : s.Custody .empty False) (f : FieldId) (isOpen : Bool) :
    Goes (Leads .empty False) s (setOpen f isOpen) fun _ _ => True := by
  refine .bind .trans (goes_field (.refl h) f) ?_
  rintro field s₁ _ ⟨rfl, _⟩
  split
  · exact .pure (.refl h) trivial
  · refine .bind .trans (goes_widget h f) ?_
    rintro _ s₂ step ⟨_, w, rfl, _, built⟩
    exact .bind .trans (goes_flag step.custody built w.root_mem_own (by decide) isOpen)
      fun _ _ last _ => .pure last.of_leads trivial

theorem goes_enableUpTo : ∀ (levels : Nat) (f : FieldId) (enabled : Bool) {s : Scene},
    s.Custody .empty False → Goes (Leads .empty False) s (enableUpTo levels f enabled) fun _ _ => True
  | 0, _, _, _, h => .pure (.refl h) trivial
  | levels + 1, f, enabled, _, h => by
    refine .bind .trans (goes_field (.refl h) f) ?_
    rintro field s₁ _ ⟨rfl, _⟩
    split
    · refine .bind .trans (goes_widgetOf h f) ?_
      rintro w s₂ step ⟨_, _, built⟩
      exact goes_flag step.custody built w.control_mem_own (by decide) (!enabled)
    · exact Leads.permits.forM h fun child _ _ h => goes_enableUpTo levels child enabled h

theorem goes_enableTree (h : s.Custody .empty False) (f : FieldId) (enabled : Bool) :
    Goes (Leads .empty False) s (enableTree f enabled) fun _ _ => True :=
  .get_bind (goes_enableUpTo _ f enabled h)

theorem goes_setFieldVisible (h : s.Custody .empty False) (name : String) (visible : Bool) :
    Goes (Leads .empty False) s (setFieldVisible name visible) fun _ _ => True := by
  refine .get_bind (Leads.permits.map (Leads.permits.forM h fun f _ s h => ?_))
  refine .bind .trans (goes_widget h f) ?_
  rintro _ s₂ step ⟨_, w, rfl, _, built⟩
  exact goes_flag step.custody built w.root_mem_own (by decide) (!visible)

theorem goes_press (h : s.Custody .empty False) (f : FieldId) :
    Goes (Leads .empty False) s (press f) fun _ _ => True := by
  refine .bind .trans (goes_field (.refl h) f) ?_
  rintro field s₁ _ ⟨rfl, _⟩
  split
  · exact .pure (.refl h) trivial
  · refine .get_bind ?_
    dsimp only
    split
    · split
      · exact Leads.permits.map
          (Leads.permits.clearField h (fun _ _ => trivial) fun _ _ _ => .inr fun _ => trivial)
      · exact Leads.permits.map (Leads.permits.clear h fun _ _ => trivial)
    · exact .pure (.refl h) trivial
    · exact .pure (.refl h) trivial
    · exact .pure (.refl h) trivial

/-- Removing a field takes the widgets that are gone out of the trees they lie in. -/
theorem goes_removeField (h : s.Custody .empty False) (f : FieldId) :
    Goes (Leads .empty False) s (removeField f) fun _ _ => True := by
  rcases exec_field_cases f s with ⟨field, found, _⟩ | ⟨_, run⟩
  · refine .of_exec (exec_removeField (Option.isSome_of_mem found)) (h.leads_table (?_ : Confined .empty nowhere _ _) nofun
      (h.booked.remove f) rfl ?_) fun _ _ => trivial
    · have roots : ∀ n ∈ (s.panel.table.remove f).1.filterMap Field.root?, Page.empty.size ≤ n.index := by
        intro n mem
        obtain ⟨gone, listed, root⟩ := List.mem_filterMap.1 mem
        obtain ⟨w, widget, rfl⟩ := Option.map_eq_some_iff.1 root
        have there := (h.booked.cleared_remove f).1.there gone listed
        rw [h.booked.field?_unlink] at there
        obtain ⟨before, found, is⟩ := Option.map_eq_some_iff.1 there
        have built : s.Built gone.id before w := ⟨found, (congrArg Field.widget is).trans widget⟩
        exact (h.own built _ w.root_mem_own).1
      have walk : ∀ (ns : List NodeId) {p : Page}, Page.empty.Rests p → (∀ n ∈ ns, Page.empty.size ≤ n.index) →
          Confined .empty nowhere p (ns.foldl Page.detach p) := by
        intro ns
        induction ns with
        | nil => exact fun rests _ => .refl rests
        | cons n ns ih =>
          intro p rests new
          have first := Confined.detach rests (new n List.mem_cons_self)
          exact first.trans (ih first.rests fun m mem => new m (List.mem_cons_of_mem _ mem))
      exact walk _ h.rests roots
    · intro g field' w built
      obtain ⟨before, found, rfl⟩ := h.booked.exists_field?_of_remove built.found
      exact ⟨before, found, rfl, rfl⟩
  · exact .of_exec (exec_bind_error run) (.refl h) nofun

end PanelM

/-! ## Requests -/

namespace Scene

/-- A request names no node that the page does not have; others leave the page a forest, and take no
node away. -/
def Allows (s : Scene) : Request → Prop
  | .fill _ content => content.index < s.page.size
  | .setView _ view => view.root.index < s.page.size
  | .elsewhere page _ => page.Forest ∧ s.page.size ≤ page.size ∧
      ∀ n : NodeId, n.index < s.page.size → page.tag? n = s.page.tag? n
  | _ => True

/-- The scenes that a panel reaches. -/
inductive Reached : Scene → Prop
  | opened {page : Page} (forest : page.Forest) (counters : CounterPool) (series : SeriesId)
      (messages : Messages) : Reached (opened page counters series messages)
  | step {s : Scene} {r : Request} : Reached s → s.Allows r → Reached (r.after s)

end Scene

open Scene (Leads)

namespace Panel.Request

variable {s : Scene} {α : Type}

theorem leads_of_goes {r : Request} {m : PanelM α} {answers : α → Scene → Prop}
    (h : Goes (Leads .empty False) s m answers) (is : r.perform = do let _ ← m) :
    s.Leads .empty False (r.after s) := after_of_goes Leads.permits.toUpholds h is

/-- **Every request** keeps the custody of the widgets. -/
theorem leads (h : s.Custody .empty False) {r : Request} (allowed : s.Allows r) :
    s.Leads .empty False (r.after s) := by
  have same : ∀ {s' : Scene}, s'.panel.table = s.panel.table → s'.panel.root = s.panel.root →
      s'.page = s.page → s.Leads .empty False s' := by
    intro s' table root page
    refine h.leads_table (by rw [page]; exact (.refl h.rests : Confined _ nowhere _ _)) nofun
      (by rw [table]; exact h.booked) root fun built => ⟨_, ?_, rfl, rfl⟩
    have found := built.found
    unfold Panel.field? at found ⊢
    rwa [table] at found
  cases r with
  | create kind attributes => exact leads_of_goes (PanelM.goes_createField h kind attributes) rfl
  | add p c => exact leads_of_goes (PanelM.goes_addChild h p c) rfl
  | remove f => exact (PanelM.goes_removeField h f).1
  | widget f => exact leads_of_goes (PanelM.goes_widget h f) rfl
  | namedWidget name => exact leads_of_goes (PanelM.goes_fieldWidget? h name) rfl
  | namedWidgets name => exact leads_of_goes (PanelM.goes_fieldWidgets h name) rfl
  | fill f content => exact leads_of_goes (PanelM.goes_fillContent h f (Nat.zero_le _) allowed) rfl
  | setView f view => exact (PanelM.goes_setView h f (Nat.zero_le _) allowed nofun).1
  | changeView f change => exact same rfl rfl rfl
  | select f index => exact leads_of_goes (PanelM.goes_selectTab h f index) rfl
  | setOpen f isOpen => exact leads_of_goes (PanelM.goes_setOpen h f isOpen) rfl
  | read | readNamed | readAll | store | storeMany | storeNamed | storeAll | clearValue | clearNamed
  | clear =>
    exact Leads.permits.after h rfl (fun _ _ => trivial) fun _ _ _ => .inr fun _ => trivial
  | enable enabled =>
    exact (Goes.get_bind (Leads.permits.forM h fun f _ _ h => PanelM.goes_enableTree h f enabled)).1
  | enableNamed name enabled =>
    exact (Goes.get_bind (Leads.permits.forM h fun f _ _ h => PanelM.goes_enableTree h f enabled)).1
  | showNamed name visible => exact leads_of_goes (PanelM.goes_setFieldVisible h name visible) rfl
  | listenToSubmit listener => exact same rfl rfl rfl
  | listenToCancel listener => exact same rfl rfl rfl
  | listenToClick name listener => exact same rfl rfl rfl
  | press f => exact leads_of_goes (PanelM.goes_press h f) rfl
  | elsewhere page counters =>
    obtain ⟨forest, size, tags⟩ := allowed
    have moved : Confined .empty (fun _ => True) s.page page :=
      ⟨⟨.empty, forest, Nat.zero_le _, nofun⟩, size, tags, fun _ _ outside => (outside trivial).elim,
        fun _ _ outside => (outside trivial).elim⟩
    exact h.leads_table (moved : Confined _ _ s.page _) nofun h.booked rfl fun built =>
      ⟨_, built.found, rfl, rfl⟩

end Panel.Request

namespace Scene

/-- **In every scene that a panel reaches** each widget has nodes of its own. -/
theorem Reached.custody {s : Scene} (h : s.Reached) : s.Custody .empty False := by
  induction h with
  | opened forest counters series messages =>
    have start : (Scene.opened _ counters series messages).Custody _ False :=
      custody_opened forest counters series messages
    exact start.forget
  | step _ allowed custody => exact (Panel.Request.leads custody allowed).custody

end Scene

end Formwork
