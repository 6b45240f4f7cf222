import Formwork.Proofs.Panel.Parts

/-!
# Arranging the fields of a panel

A panel is arranged by creating fields, asking for their widgets, putting one below another, selecting
pages and removing fields (`Panel.Request.Arranges`).  Whatever is arranged on a forest, the scene stays
grounded (`Scene.Grounded.after`).

The fields that a container took are recorded twice: its widget remembers them, and they are attached
to it.  The two records agree (`Scene.Listed`) until a field that a container took is put elsewhere,
or removed while the container stays (`Scene.Displaces`): its widget is not told
(`Scene.Grounded.listed_after_iff`).
-/

namespace Formwork

set_option autoImplicit false

open Panel (Request)

/-- A request that arranges the fields of a panel and their widgets. -/
def Panel.Request.Arranges : Request → Prop
  | .create _ _ | .widget _ | .add _ _ | .select _ _ | .remove _ => True
  | _ => False

/-- The field that a request puts below another or removes. -/
def Panel.Request.subject? : Request → Option FieldId
  | .add _ c | .remove c => some c
  | _ => none

namespace Scene

variable {s s' s₁ : Scene} {r : Request} {f g p c : FieldId} {field field' : Field}
  {w : Widget} {role : Role} {kind : FieldKind}

/-! ## What requests do to a grounded scene -/

/-- What a request that arranges a panel did to the scene. -/
inductive Arranged : Request → Scene → Scene → Prop
  /-- No field was put below another, and none was created or removed. -/
  | settled {r : Request} {s s' : Scene} : s.Settles s' → s'.books = s.books →
      (r.Answers s → r.subject? = none) → Arranged r s s'
  | created {kind : FieldKind} {attributes : Attributes} {s s' : Scene} (name : String) :
      s'.panel.table = s.panel.table.add (.create ⟨s.panel.table.slots.size⟩ kind name attributes) →
      s'.page = s.page → Arranged (.create kind attributes) s s'
  | linked {p c : FieldId} {role : Role} {s s₁ s' : Scene} : s.Takes p c (.ok role) s₁ →
      s₁.books = s.books → (s.panel.field? p).isSome → (s.panel.field? c).isSome →
      Request.Answers (.add p c) s → s' = s₁.link p c role → Arranged (.add p c) s s'
  | removed {f : FieldId} {s s' : Scene} : s'.panel.table = (s.panel.table.remove f).2 →
      s'.page = ((s.panel.table.remove f).1.filterMap Field.root?).foldl Page.detach s.page →
      Request.Answers (.remove f) s → Arranged (.remove f) s s'

namespace Grounded

/-- A request that begins by asking for a field, and otherwise only has widgets made and pages shown. -/
theorem arranged_settled (f : FieldId) (same : (r.after s).books = s.books)
    (missing : ∀ e, exec (PanelM.field f) s = (.error e, s) → r.after s = s)
    (steps : ∀ field ∈ s.panel.field? f, s.Settles (r.after s)) (none : r.subject? = none) :
    Arranged r s (r.after s) := by
  refine .settled ?_ same fun _ => none
  rcases PanelM.exec_field_cases f s with ⟨field, found, _⟩ | ⟨_, fails⟩
  · exact steps field found
  · rw [missing _ fails]

theorem arranged_widget (h : s.Grounded) (f : FieldId) :
    Arranged (.widget f) s (Request.after (.widget f) s) := by
  refine arranged_settled f ((PanelM.spares_widget f).bind (fun _ => Retains.pure ()) s) ?_ ?_ rfl
  · intro e fails
    have run : exec (Request.perform (.widget f)) s = _ :=
      exec_bind_error (exec_bind_error (exec_bind_error fails))
    exact Request.after_eq run
  · intro field found
    obtain ⟨w, s', run, realizes⟩ := h.exec_widget found
    have run' : exec (Request.perform (.widget f)) s = _ := exec_bind_ok run
    rw [Request.after_eq run']
    exact .single (.realized realizes)

theorem arranged_select (h : s.Grounded) (f : FieldId) (index : Nat) :
    Arranged (.select f index) s (Request.after (.select f index) s) := by
  refine arranged_settled f ((PanelM.spares_selectTab f index).bind (fun _ => Retains.pure ()) s)
    ?_ ?_ rfl
  · intro e fails
    have run : exec (Request.perform (.select f index)) s = _ :=
      exec_bind_error (exec_bind_error (exec_bind_error fails))
    exact Request.after_eq run
  · intro field found
    obtain ⟨answer, s', run, steps⟩ := h.exec_selectTab found index
    have run' : exec (Request.perform (.select f index)) s = _ := exec_bind_ok run
    rw [Request.after_eq run']
    exact steps

theorem arranged_add (h : s.Grounded) (p c : FieldId) :
    Arranged (.add p c) s (Request.after (.add p c) s) := by
  obtain ⟨answer, s₁, run, takes⟩ := h.exec_takePart p c
  have same := PanelM.spares_takePart p c s
  rw [run] at same
  cases answer with
  | error e =>
    have fails : exec (PanelM.addChild p c) s = _ := exec_bind_error run
    have run' : exec (Request.perform (.add p c)) s = _ := exec_bind_error fails
    rw [Request.after_eq run']
    cases takes with
    | failed steps =>
      exact .settled steps same fun answers => nomatch (Request.answers_iff run').1 answers
  | ok role =>
    obtain ⟨there, known⟩ := PanelM.field?_of_takePart run
    have links := PanelM.exec_addChild_ok run
    have run' : exec (Request.perform (.add p c)) s = _ := exec_bind_ok links
    rw [Request.after_eq run']
    exact .linked takes same there known ((Request.answers_iff run').2 rfl) rfl

theorem arranged_remove (f : FieldId) : Arranged (.remove f) s (Request.after (.remove f) s) := by
  rcases PanelM.exec_field_cases f s with ⟨field, found, _⟩ | ⟨_, fails⟩
  · have run : exec (Request.perform (.remove f)) s = _ :=
      PanelM.exec_removeField (Option.isSome_of_mem found)
    rw [Request.after_eq run]
    exact .removed rfl rfl ((Request.answers_iff run).2 rfl)
  · have run : exec (Request.perform (.remove f)) s = _ := exec_bind_error fails
    rw [Request.after_eq run]
    exact .settled .refl rfl fun answers => nomatch (Request.answers_iff run).1 answers

/-- **What a request does** that arranges a panel. -/
theorem arranged (h : s.Grounded) (allowed : r.Arranges) : Arranged r s (r.after s) := by
  cases r with
  | create kind attributes =>
    have run : exec (Request.perform (.create kind attributes)) s = _ :=
      exec_bind_ok (PanelM.exec_createField kind attributes)
    rw [Request.after_eq run]
    exact .created (s.counters.nameField s.panel.series kind attributes).1 rfl rfl
  | widget f => exact h.arranged_widget f
  | select f index => exact h.arranged_select f index
  | add p c => exact h.arranged_add p c
  | remove f => exact arranged_remove f
  | _ => exact allowed.elim

end Grounded

/-! ## What is left of the fields -/

/-- A change of the tree of fields: the fields that are left have the widgets that they had, a field is
no longer attached where it was, and some fields may be attached anew. -/
structure Relists (s : Scene) (c : FieldId) (gained : FieldId → List FieldId) (s' : Scene) : Prop where
  left : ∀ {f field'}, s'.panel.field? f = some field' → ∃ field, s.panel.field? f = some field ∧
    field'.kind = field.kind ∧ field'.widget = field.widget ∧
    field'.attached = field.attached.filter (· ≠ c) ++ gained f

/-- A change that leaves widgets as they are; those of removed fields leave their places. -/
structure Strips (s s' : Scene) : Prop where
  before : ∀ {f field' w}, s'.Built f field' w → ∃ field, s.Built f field w ∧ field'.kind = field.kind
  stays : ∀ {f field w}, s.Built f field w → (s'.panel.field? f).isSome → ∃ field', s'.Built f field' w
  contents : ∀ n, s'.page.content? n = s.page.content? n
  children : ∃ gone : List NodeId,
    (∀ n, s'.page.children n = (s.page.children n).filter (· ∉ gone)) ∧
      ∀ m ∈ gone, ∃ g field w, s.Built g field w ∧ m = w.root ∧ s'.panel.field? g = none

/-- Widgets that are left stand where they stood. -/
theorem Strips.grounded (strips : s.Strips s') (h : s.Grounded) (forest : s'.page.Forest)
    (booked : s'.panel.table.Booked)
    (realized : ∀ {f field}, s'.panel.field? f = some field → field.attached ≠ [] →
      field.widget ≠ none) : s'.Grounded := by
  obtain ⟨gone, children, _⟩ := strips.children
  refine h.transfer (fun _ _ => False) forest booked ?_ ?_ ?_ (fun _ _ => id) (fun _ _ => id) realized
  · intro f field' w built'
    obtain ⟨field, built, kind⟩ := strips.before built'
    exact ⟨field, w, built, kind, rfl⟩
  · intro n element
    rwa [Page.tag?_congr (strips.contents n)]
  · intro n _ c mem
    rw [children] at mem
    exact .inl (List.mem_of_mem_filter mem)

namespace Relists

variable {gained : FieldId → List FieldId}

theorem parts (h : s.Relists c gained s') (found : s'.panel.field? f = some field') :
    s'.parts f = s.parts f := by
  obtain ⟨field, there, _, widget, _⟩ := h.left found
  refine parts_congr ?_
  simp [widget?, found, there, widget]

theorem strips (h : s.Relists c gained s') (contents : ∀ n, s'.page.content? n = s.page.content? n)
    (gone : List NodeId)
    (children : ∀ n, s'.page.children n = (s.page.children n).filter (· ∉ gone))
    (removed : ∀ m ∈ gone, ∃ g field w, s.Built g field w ∧ m = w.root ∧ s'.panel.field? g = none) :
    s.Strips s' where
  before built' := by
    obtain ⟨field, found, kind, widget, _⟩ := h.left built'.found
    exact ⟨field, ⟨found, widget ▸ built'.widget⟩, kind⟩
  stays built left := by
    obtain ⟨field', found⟩ := Option.isSome_iff_exists.1 left
    obtain ⟨field, there, _, widget, _⟩ := h.left found
    cases there.symm.trans built.found
    exact ⟨field', found, widget.trans built.widget⟩
  contents := contents
  children := ⟨gone, children, removed⟩

/-- A field to which others are attached has a widget, if those that gain one have. -/
theorem realized (relists : s.Relists c gained s') (h : s.Grounded)
    (gains : ∀ f, gained f ≠ [] → ∃ field w, s.Built f field w)
    (found : s'.panel.field? f = some field') (attached : field'.attached ≠ []) :
    field'.widget ≠ none := by
  obtain ⟨field, there, _, widget, is⟩ := relists.left found
  rw [widget]
  by_cases more : gained f = []
  · refine h.realized there fun none => attached ?_
    rw [is, none, more]
    rfl
  · obtain ⟨_, w, built⟩ := gains f more
    cases there.symm.trans built.found
    rw [built.widget]
    exact nofun

end Relists

/-! ### Putting a field below another -/

/-- The field that gains a part when another is put below it. -/
def gainOf (p c : FieldId) (role : Role) (f : FieldId) : List FieldId :=
  if f = p ∧ role = .part then [c] else []

theorem field?_link (h : s.Grounded) (p c : FieldId) (role : Role) (f : FieldId) :
    (s.link p c role).panel.field? f =
      (s.panel.field? f).map fun field => field.relinked p c role := h.booked.field?_link p c role f

theorem relists_link (h : s.Grounded) (p c : FieldId) (role : Role) :
    s.Relists c (gainOf p c role) (s.link p c role) := by
  refine ⟨fun {f field'} found => ?_⟩
  rw [field?_link h] at found
  obtain ⟨field, there, rfl⟩ := Option.map_eq_some_iff.1 found
  refine ⟨field, there, Field.kind_relinked, Field.widget_relinked, ?_⟩
  rw [Field.attached_relinked, h.booked.ids there]
  rfl

theorem strips_link (h : s.Grounded) (p c : FieldId) (role : Role) :
    s.Strips (s.link p c role) :=
  (relists_link h p c role).strips (fun _ => rfl) []
    (fun _ => (List.filter_eq_self.2 fun _ _ => rfl).symm) nofun

/-! ### Removing a field -/

theorem relists_remove (h : s.Grounded) (table : s'.panel.table = (s.panel.table.remove f).2) :
    s.Relists f (fun _ => []) s' := by
  refine ⟨fun {g field'} found => ?_⟩
  unfold Panel.field? at found
  rw [table] at found
  obtain ⟨field, there, rfl⟩ := h.booked.exists_field?_of_remove found
  exact ⟨field, there, rfl, rfl, (List.append_nil _).symm⟩

theorem strips_remove (h : s.Grounded) (table : s'.panel.table = (s.panel.table.remove f).2)
    (page : s'.page = ((s.panel.table.remove f).1.filterMap Field.root?).foldl Page.detach s.page) :
    s.Strips s' := by
  obtain ⟨_, children, contents⟩ :=
    h.forest.detachAll ((s.panel.table.remove f).1.filterMap Field.root?)
  refine (relists_remove h table).strips (fun n => by rw [page, contents]) _
    (fun n => by rw [page, children]) fun m mem => ?_
  obtain ⟨field, listed, root⟩ := List.mem_filterMap.1 mem
  obtain ⟨w, widget, rfl⟩ := Option.map_eq_some_iff.1 root
  have found := (h.booked.cleared_remove f).1.there field listed
  rw [h.booked.field?_unlink] at found
  obtain ⟨field', there, is⟩ := Option.map_eq_some_iff.1 found
  refine ⟨field.id, field', w, ⟨there, ?_⟩, rfl, ?_⟩
  · rw [← widget, ← is]
    rfl
  · unfold Panel.field?
    rw [table, h.booked.field?_remove, if_pos (List.mem_map_of_mem listed)]

/-! ### Creating a field -/

theorem field?_created {attributes : Attributes} {name : String}
    (table : s'.panel.table =
      s.panel.table.add (.create ⟨s.panel.table.slots.size⟩ kind name attributes)) (f : FieldId) :
    s'.panel.field? f = if f = ⟨s.panel.table.slots.size⟩ then
      some (.create ⟨s.panel.table.slots.size⟩ kind name attributes) else s.panel.field? f := by
  unfold Panel.field?
  rw [table, FieldTable.field?_add]

theorem strips_created {attributes : Attributes} {name : String}
    (table : s'.panel.table =
      s.panel.table.add (.create ⟨s.panel.table.slots.size⟩ kind name attributes))
    (page : s'.page = s.page) : s.Strips s' where
  before built := by
    have found := built.found
    rw [field?_created table] at found
    split at found
    · cases found
      cases built.widget
    · exact ⟨_, ⟨found, built.widget⟩, rfl⟩
  stays {f field w} built _ := by
    refine ⟨field, ?_, built.widget⟩
    rw [field?_created table, if_neg]
    · exact built.found
    · rintro rfl
      exact Nat.lt_irrefl _ (FieldTable.lt_size_of_field? built.found)
  contents _ := by rw [page]
  children := ⟨[], fun _ => by rw [page]; exact (List.filter_eq_self.2 fun _ _ => rfl).symm, nofun⟩

/-! ## Histories on the ground -/

namespace Takes

/-- A field that takes another has a widget. -/
theorem built (h : s.Takes p c (.ok .part) s') : ∃ field w, s'.Built p field w := by
  cases h with
  | part _ gain behind =>
    cases gain with
    | page built _ _ | header built _ _ _ =>
      obtain ⟨_, _, there, _⟩ := behind.stays
        ((built_withWidget built.found).2 (.inl ⟨rfl, rfl, rfl⟩))
      exact ⟨_, _, there⟩

theorem grounded {answer : Except FieldError Role} (takes : s.Takes p c answer s')
    (h : s.Grounded) : s'.Grounded := by
  cases takes with
  | failed steps | content steps _ => exact h.settles steps
  | part before gain behind => exact ((h.settles before).gains gain).settles behind

theorem parts (h : s.Takes p c (.ok role) s') (f : FieldId) :
    s'.parts f = s.parts f ++ gainOf p c role f := by
  cases h with
  | content steps _ =>
    rw [steps.parts]
    simp [gainOf]
  | part before gain behind =>
    rw [behind.parts, gain.parts, before.parts]
    simp [gainOf]

end Takes

theorem Arranged.grounded (arranged : Arranged r s s') (h : s.Grounded) : s'.Grounded := by
  cases arranged with
  | settled steps _ _ => exact h.settles steps
  | created name table page =>
    refine (strips_created table page).grounded h (page ▸ h.forest) ?_ fun found attached => ?_
    · rw [table]
      exact h.booked.add rfl rfl rfl
    · rw [field?_created table] at found
      split at found
      · cases found
        exact absurd rfl attached
      · exact h.realized found attached
  | @linked p c role _ s₁ _ takes same there known _ is =>
    subst is
    have ground := takes.grounded h
    have bare := congrArg Prod.fst same
    refine (strips_link ground p c role).grounded ground ground.forest ?_
      ((relists_link ground p c role).realized ground fun f gains => ?_)
    · exact ground.booked.link ((FieldTable.isSome_field?_congr bare p).trans there)
        ((FieldTable.isSome_field?_congr bare c).trans known) role
    · unfold gainOf at gains
      split at gains
      · case isTrue taken =>
        obtain ⟨rfl, rfl⟩ := taken
        exact takes.built
      · exact absurd rfl gains
  | removed table page _ =>
    refine (strips_remove h table page).grounded h ?_ ?_
      ((relists_remove h table).realized h fun _ => absurd rfl)
    · rw [page]
      exact (h.forest.detachAll _).1
    · rw [table]
      exact h.booked.remove _

/-- A request that arranges a grounded scene leaves it grounded. -/
theorem Grounded.after (h : s.Grounded) (allowed : r.Arranges) : (r.after s).Grounded :=
  (h.arranged allowed).grounded h

/-- A new panel is grounded on a forest. -/
theorem Grounded.opened {page : Page} (forest : page.Forest) (counters : CounterPool)
    (series : SeriesId) (messages : Messages) :
    (Scene.opened page counters series messages).Grounded where
  forest := forest.create _
  booked := .empty
  stands built := nomatch built.found
  apart built := nomatch built.found
  captions built := nomatch built.found
  realized found := nomatch found

/-! ## Two records of the same parts -/

/-- The widgets of the fields of a kind remember the fields that are attached to them. -/
def Listed (kind : FieldKind) (s : Scene) : Prop :=
  ∀ f field, s.panel.field? f = some field → field.kind = kind → s.parts f = field.attached

/-- A field of a kind has another attached to it, and is left in a later scene. -/
def Attaches (kind : FieldKind) (c : FieldId) (s s' : Scene) : Prop :=
  ∃ f field, s.panel.field? f = some field ∧ field.kind = kind ∧ c ∈ field.attached ∧
    (s'.panel.field? f).isSome

instance (kind : FieldKind) (c : FieldId) (s s' : Scene) : Decidable (Attaches kind c s s') :=
  decidable_of_iff (∃ i < s.panel.table.slots.size, ∃ field ∈ s.panel.field? ⟨i⟩,
      field.kind = kind ∧ c ∈ field.attached ∧ (s'.panel.field? ⟨i⟩).isSome)
    ⟨fun ⟨i, _, field, found, rest⟩ => ⟨⟨i⟩, field, found, rest⟩,
      fun ⟨f, field, found, rest⟩ =>
        ⟨f.index, FieldTable.lt_size_of_field? found, field, found, rest⟩⟩

/-- A request removes a field or puts it below another, and a field of some kind to which it was attached
stays. -/
def Displaces (kind : FieldKind) (s : Scene) (r : Request) : Prop :=
  ∃ c ∈ r.subject?, r.Answers s ∧ Attaches kind c s (r.after s)

instance (kind : FieldKind) (s : Scene) (r : Request) : Decidable (Displaces kind s r) :=
  inferInstanceAs (Decidable (∃ c ∈ r.subject?, r.Answers s ∧ Attaches kind c s (r.after s)))

/-- To a field without a widget nothing is attached. -/
theorem Grounded.parts_of_unbuilt (h : s.Grounded) (found : s.panel.field? f = some field)
    (unbuilt : field.widget = none) : s.parts f = field.attached := by
  rw [parts_of_none found unbuilt]
  by_contra attached
  exact h.realized found (Ne.symm attached) unbuilt

/-- A field of a scene with the same books. -/
theorem exists_field?_of_books (same : s'.books = s.books) (found : s'.panel.field? f = some field') :
    ∃ field, s.panel.field? f = some field ∧ field'.kind = field.kind ∧
      field'.attached = field.attached := by
  obtain ⟨field, there, bare⟩ := FieldTable.exists_field?_congr (congrArg Prod.fst same) found
  exact ⟨field, there, (congrArg Field.kind bare :), (congrArg Field.attached bare :)⟩

/-- A widget is not told when a field is no longer attached to its own. -/
theorem Listed.relists_iff {gained : FieldId → List FieldId} (listed : s.Listed kind)
    (relists : s₁.Relists c gained s') (same : s₁.books = s.books)
    (parts : ∀ f, s₁.parts f = s.parts f ++ gained f) :
    s'.Listed kind ↔ ¬ Attaches kind c s s' := by
  -- but for their widgets the fields are the same before
  have before : ∀ {f field'}, s'.panel.field? f = some field' → ∃ field,
      s.panel.field? f = some field ∧ field'.kind = field.kind ∧
        s'.parts f = s.parts f ++ gained f ∧
        field'.attached = field.attached.filter (· ≠ c) ++ gained f := by
    intro f field' found
    obtain ⟨field₁, there, kind, _, attached⟩ := relists.left found
    obtain ⟨field, found', kind', attached'⟩ := exists_field?_of_books same there
    refine ⟨field, found', kind.trans kind', (relists.parts found).trans (parts f), ?_⟩
    rw [attached, attached']
  have kept : ∀ l : List FieldId, l = l.filter (· ≠ c) ↔ c ∉ l := by
    intro l
    rw [eq_comm, List.filter_eq_self]
    simp only [ne_eq, decide_eq_true_eq]
    exact ⟨fun differ mem => differ c mem rfl, fun absent g mem same => absent (same ▸ mem)⟩
  constructor
  · rintro listed' ⟨f, field, found, is, mem, left⟩
    obtain ⟨field', found'⟩ := Option.isSome_iff_exists.1 left
    obtain ⟨_, there, kind', parts', attached⟩ := before found'
    cases found.symm.trans there
    have lists := listed' _ _ found' (kind'.trans is)
    rw [parts', listed _ _ found is, attached] at lists
    exact (kept _).1 (List.append_cancel_right lists) mem
  · intro none f field' found' is
    obtain ⟨field, found, kind', parts', attached⟩ := before found'
    have is' := kind'.symm.trans is
    have absent : c ∉ field.attached := fun mem =>
      none ⟨f, field, found, is', mem, Option.isSome_of_mem found'⟩
    rw [parts', listed _ _ found is', attached, ← (kept _).2 absent]

/-- **One request** keeps the records of the fields of a kind alike exactly when it displaces none of
their parts. -/
theorem Grounded.listed_after_iff (h : s.Grounded) (allowed : r.Arranges) (listed : s.Listed kind) :
    (r.after s).Listed kind ↔ ¬ s.Displaces kind r := by
  have arranged := h.arranged allowed
  unfold Displaces
  generalize r.after s = s' at arranged
  cases arranged with
  | settled steps same still =>
    constructor
    · rintro - ⟨c, is, answers, _⟩
      rw [still answers] at is
      cases is
    · rintro - f field' found' is
      obtain ⟨field, found, kind', attached⟩ := exists_field?_of_books same found'
      rw [steps.parts, listed _ _ found (kind'.symm.trans is), attached]
  | created name table page =>
    constructor
    · rintro - ⟨c, is, _⟩
      cases is
    · rintro - f field' found' is
      have found := found'
      rw [field?_created table] at found
      split at found
      · cases found
        exact parts_of_none found' rfl
      · refine Eq.trans (parts_congr ?_) (listed _ _ found is)
        unfold widget?
        rw [found', found]
  | linked takes same there known answers is =>
    subst is
    rw [listed.relists_iff (relists_link (takes.grounded h) _ _ _) same takes.parts]
    refine not_congr ⟨fun attaches => ⟨_, rfl, answers, attaches⟩, ?_⟩
    rintro ⟨c, ⟨⟩, _, attaches⟩
    exact attaches
  | removed table page answers =>
    rw [listed.relists_iff (relists_remove h table) rfl fun f => (List.append_nil _).symm]
    refine not_congr ⟨fun attaches => ⟨_, rfl, answers, attaches⟩, ?_⟩
    rintro ⟨c, ⟨⟩, _, attaches⟩
    exact attaches

/-! ## What a page shows of the parts -/

/-- What a page shows of the parts of the fields of a kind, kept by every step that does not take a part
from a container that remembers it. -/
structure Upkeep (kind : FieldKind) (Shown : Scene → Prop) : Prop where
  turns : ∀ {s s'}, s.Grounded → Shown s → s.Turns s' → Shown s'
  gains : ∀ {s s' p c}, s.Grounded → s.Untaken kind c → Shown s → s.Gains p c s' → Shown s'
  strips : ∀ {s s'}, s.Grounded → s'.Grounded → s'.Listed kind → Shown s → s.Strips s' → Shown s'

namespace Upkeep

variable {Shown : Scene → Prop}

theorem settles (upkeep : Upkeep kind Shown) (h : s.Grounded) (shown : Shown s)
    (steps : s.Settles s') : Shown s' := by
  induction steps with
  | refl => exact shown
  | tail steps step ih => exact upkeep.turns (h.settles steps) ih step

theorem takes (upkeep : Upkeep kind Shown) (h : s.Grounded) (untaken : s.Untaken kind c)
    (shown : Shown s) (takes : s.Takes p c (.ok role) s') : Shown s' := by
  cases takes with
  | content steps _ => exact upkeep.settles h shown steps
  | part before gain behind =>
    have ground := h.settles before
    have gained := upkeep.gains ground (untaken.settles before) (upkeep.settles h shown before) gain
    exact upkeep.settles (ground.gains gain) gained behind

/-- A field that no container that is left has attached was taken by none. -/
theorem untaken_of_not_attaches (listed : s.Listed kind) (kept : s'.books = s.books)
    (none : ¬ Attaches kind c s (s'.link p c role)) (ground : s'.Grounded) : s.Untaken kind c := by
  intro f field w built is mem
  rw [← built.parts, listed _ _ built.found is] at mem
  refine none ⟨f, field, built.found, is, mem, ?_⟩
  rw [field?_link ground, Option.isSome_map]
  refine (FieldTable.isSome_field?_congr (congrArg Prod.fst kept) f).trans ?_
  exact Option.isSome_of_mem built.found

/-- **One request** that displaces no part keeps what is shown. -/
theorem after (upkeep : Upkeep kind Shown) (h : s.Grounded) (allowed : r.Arranges)
    (listed : s.Listed kind) (shown : Shown s) (fine : ¬ s.Displaces kind r) : Shown (r.after s) := by
  have arranged := h.arranged allowed
  have ground' := h.after allowed
  have listed' := (h.listed_after_iff allowed listed).2 fine
  unfold Displaces at fine
  generalize r.after s = s' at arranged ground' listed' fine
  cases arranged with
  | settled steps _ _ => exact upkeep.settles h shown steps
  | created name table page => exact upkeep.strips h ground' listed' shown (strips_created table page)
  | linked takes same _ _ answers is =>
    subst is
    have ground := takes.grounded h
    have untaken := untaken_of_not_attaches listed same
      (fun attaches => fine ⟨_, rfl, answers, attaches⟩) ground
    exact upkeep.strips ground ground' listed' (upkeep.takes h untaken shown takes)
      (strips_link ground _ _ _)
  | removed table page _ =>
    exact upkeep.strips h ground' listed' shown (strips_remove h table page)

/-- **Throughout a history** the containers of a kind are in order exactly when no request displaces one
of their parts. -/
theorem throughout_iff (upkeep : Upkeep kind Shown) {P : Scene → Prop}
    (means : ∀ {s}, s.Grounded → (P s ↔ s.Listed kind ∧ Shown s)) {page : Page}
    (forest : page.Forest) (counters : CounterPool) (series : SeriesId) (messages : Messages)
    (start : Shown (Scene.opened page counters series messages)) {rs : List Request}
    (allowed : ∀ r ∈ rs, r.Arranges) :
    Throughout P (Scene.opened page counters series messages) rs ↔
      Never (Displaces kind) (Scene.opened page counters series messages) rs := by
  have ground := Grounded.opened forest counters series messages
  refine @throughout_iff_never P (Displaces kind) Grounded Request.Arranges
    (fun _ _ allowed h => h.after allowed) ?_ rs _ allowed ground ?_
  · intro s r allowed h holds
    obtain ⟨listed, shown⟩ := (means h).1 holds
    rw [means (h.after allowed)]
    constructor
    · rintro ⟨listed', _⟩
      exact (h.listed_after_iff allowed listed).1 listed'
    · intro fine
      exact ⟨(h.listed_after_iff allowed listed).2 fine, upkeep.after h allowed listed shown fine⟩
  · exact (means ground).2 ⟨fun _ _ found => (nomatch found), start⟩

end Upkeep

end Scene

end Formwork
