import Formwork.Proofs.Panel.Storing

/-!
# Values are cells of their own

Every widget has its value in nodes of its own, and no other widget lies below a node whose content is a
value (`Scene.Secluded`).  So a value that is stored or reset is that of one field, and all other fields keep
theirs (`Scene.Writes`), even if their widgets are taken off the page with the header of a disclosure.

A panel that nobody gave a value to yet is secluded (`Scene.Custody.secluded`), and stays so.  From then on
every value is what it is until a request reaches the field (`Scene.Secluded.cellular`).
-/

namespace Formwork

set_option autoImplicit false

open Panel (Request)
open PanelM (Asks)

/-! ## Walks -/

namespace FieldTable

variable {t u : FieldTable}

theorem subtreeUpTo_congr (same : u.bare = t.bare) : ∀ (levels : Nat) (f : FieldId),
    u.subtreeUpTo levels f = t.subtreeUpTo levels f
  | 0, _ => rfl
  | levels + 1, f => by
    rw [subtreeUpTo, subtreeUpTo]
    cases found : u.field? f with
    | none =>
      have none : t.field? f = none := by
        rw [← Option.isNone_iff_eq_none, ← Option.not_isSome, ← isSome_field?_congr same, found]
        rfl
      rw [none]
    | some field =>
      obtain ⟨field', found', bare⟩ := exists_field?_congr same found
      have contents : field.contents = field'.contents := (congrArg Field.contents bare :)
      have walk : u.subtreeUpTo levels = t.subtreeUpTo levels :=
        funext (subtreeUpTo_congr same levels)
      rw [found']
      dsimp only
      rw [contents, walk]

/-- What lies below a field does not depend on the widgets. -/
theorem subtree_congr (same : u.bare = t.bare) (f : FieldId) : u.subtree f = t.subtree f := by
  unfold subtree
  rw [← size_slots_bare u, same, size_slots_bare, subtreeUpTo_congr same]

end FieldTable

namespace Scene

variable {s s' s'' : Scene} {base p : Page} {blank : Prop} {f g : FieldId} {fs : List FieldId}
  {field field' : Field} {w w' : Widget}

/-- What is answered when the value of a field is asked for. -/
def value (s : Scene) (f : FieldId) : Except FieldError (Option String) :=
  (exec (PanelM.value? f) s).1

theorem value_eq (forest : s.page.Forest) (f : FieldId) : s.value f =
    (s.panel.field? f).elim (.error (.unknownField f)) fun field => .ok (s.reading field) :=
  PanelM.exec_value? forest f

/-- A field has the value that it had, if it is what it was and its widget has the value that it had. -/
theorem value_congr (forest : s.page.Forest) (forest' : s'.page.Forest)
    (field : s'.panel.field? g = s.panel.field? g) (messages : s'.panel.messages = s.panel.messages)
    (widget : ∀ field w, s.Built g field w → w.value? s'.page = w.value? s.page) :
    s'.value g = s.value g := by
  rw [value_eq forest', value_eq forest, field]
  cases found : s.panel.field? g with
  | none => rfl
  | some field =>
    refine congrArg Except.ok ?_
    unfold reading
    rw [messages]
    cases is : field.widget with
    | none => rfl
    | some w => rw [Option.elim_some, Option.elim_some, widget field w ⟨found, is⟩]

/-- Asking for a widget, which may be built, changes the value of no field. -/
theorem Custody.value_asks (h : s.Custody .empty False) (asks : Asks .empty False s f field w s')
    (g : FieldId) : s'.value g = s.value g := by
  have forest := h.rests.forest
  have forest' := asks.leads.custody.rests.forest
  have widget : ∀ field w, s.Built g field w → w.value? s'.page = w.value? s.page :=
    fun _ _ built => Widget.value?_grows forest forest' asks.grows fun n mem => h.own_known built mem
  by_cases same : g = f
  · subst same
    rcases asks.fresh with there | ⟨none, born⟩
    · refine value_congr forest forest' ?_ asks.messages widget
      rw [asks.built.found, asks.found, ← there]
    · rw [value_eq forest', value_eq forest, asks.built.found, asks.found]
      refine congrArg Except.ok ?_
      unfold reading
      rw [none, Option.elim_none, Option.elim_some, born.value]
  · exact value_congr forest forest' (asks.others same) asks.messages widget

/-! ## Secluded values -/

/-- Below a node whose content is the value of a widget lies no node that a widget has for its own, and
every widget shows the value that it has. -/
structure Secluded (s : Scene) : Prop where
  custody : s.Custody .empty False
  sealed : ∀ {f g field field' w w'}, s.Built f field w → s.Built g field' w' →
    ∀ n ∈ w.panes, ∀ m ∈ w'.own, s.page.Within n m → m = n
  mirrored : ∀ {f field w}, s.Built f field w → w.Mirrored s.page

/-- Widgets that were given no values yet. -/
theorem Custody.secluded (h : s.Custody base True) : s.Secluded where
  custody := h.forget
  sealed built built' _ mem _ mem' below :=
    (h.vacant trivial built).sealed h.rests.forest mem (h.own built' _ mem').2 below
  mirrored built := (h.vacant trivial built).mirrored h.rests.forest (h.own_element built)

/-- What storing values in some fields comes to: but for widgets that were built the fields are what they
were, and those in which nothing was stored have the values that they had. -/
structure Writes (fs : List FieldId) (s s' : Scene) : Prop where
  secluded : s'.Secluded
  bare : s'.panel.table.bare = s.panel.table.bare
  others : ∀ g, g ∉ fs → s'.value g = s.value g

namespace Writes

theorem refl (h : s.Secluded) : s.Writes fs s := ⟨h, rfl, fun _ _ => rfl⟩

theorem trans (h : Writes fs s s') (h' : Writes fs s' s'') : Writes fs s s'' where
  secluded := h'.secluded
  bare := h'.bare.trans h.bare
  others g spared := (h'.others g spared).trans (h.others g spared)

end Writes

/-! ## Steps -/

namespace Secluded

/-- A widget that is asked for, and may be built, is as secluded as the others. -/
theorem asks (h : s.Secluded) (asks : Asks .empty False s f field w s') : s'.Secluded := by
  have custody := asks.leads.custody
  have forest := h.custody.rests.forest
  have forest' := custody.rests.forest
  have rests : s.page.Rests s'.page := ⟨forest, forest', asks.grows⟩
  have old : ∀ {g field w}, s.Built g field w → ∀ n ∈ w.own, s.page.Shares s'.page n :=
    fun built n mem => asks.grows.shares forest (h.custody.own_known built mem)
  refine ⟨custody, fun {g g' field₁ field₂ w₁ w₂} built built' n mem m mem' below => ?_,
    fun {g field₁ w₁} built => ?_⟩
  · have own := Widget.cells_subset_own (Widget.panes_subset_cells mem)
    rcases asks.built_cases built with before | ⟨_, _, rfl, born⟩
    · have within := (old before n own).within below
      rcases asks.built_cases built' with before' | ⟨_, _, rfl, born⟩
      · exact h.sealed before before' n mem m mem' within
      · have known := within.known forest (h.custody.own_known before own)
        exact absurd known (Nat.not_lt.2 (born.own m mem').1)
    · have new := rests.new_of_within (born.own n own).1 below
      rcases asks.built_cases built' with before' | ⟨_, _, rfl, _⟩
      · exact absurd (h.custody.own_known before' mem') (Nat.not_lt.2 new)
      · exact born.vacant.sealed forest' mem (born.own m mem').2 below
  · rcases asks.built_cases built with before | ⟨_, _, rfl, born⟩
    · exact (h.mirrored before).congr forest forest' (h.custody.own_element before)
        (fun n mem => (old before n mem n .self).1)
        fun n mem => old before n (Widget.cells_subset_own (Widget.panes_subset_cells mem))
    · exact born.vacant.mirrored forest' fun n mem => (born.own n mem).2

/-- What is done to the nodes of one widget leaves those of another alone, and what it shows of its
value. -/
theorem shares (h : s.Secluded) (built : s.Built f field w) (built' : s.Built g field' w')
    (other : g ≠ f) (alters : Page.Alters (· ∈ w.own) s.page p) :
    (∀ n ∈ w'.own, p.content? n = s.page.content? n) ∧ ∀ n ∈ w'.panes, s.page.Shares p n := by
  have known : ∀ n ∈ w'.own, n.index < s.page.size := fun n => h.custody.own_known built'
  have apart : ∀ n ∈ w'.own, n ∉ w.own := h.custody.apart built' built other
  refine ⟨fun n mem => alters.content n (known n mem) (apart n mem), fun n mem => ?_⟩
  have own := Widget.cells_subset_own (Widget.panes_subset_cells mem)
  refine alters.shares h.custody.rests.forest (known n own) fun m below mem' => ?_
  rw [h.sealed built' built n mem m mem' below] at mem'
  exact apart n own mem'

/-- **A widget that is written into** changes the value of no other field. -/
theorem rewrites (h : s.Secluded) (built : s.Built f field w) (mem : f ∈ fs)
    (page : w.Rewrites s.page p) : s.Writes fs { s with page := p } := by
  obtain ⟨alters, mirrored⟩ := page
  have forest := h.custody.rests.forest
  have step := h.custody.leads_page (alters.confined h.custody.rests fun _ _ => Nat.zero_le _) nofun
  have before : ∀ {g field w}, Built { s with page := p } g field w → s.Built g field w :=
    fun built => built.congr rfl
  refine ⟨⟨step.custody, fun built₁ built₂ n pane m own below => ?_, fun {g field₁ w₁} built₁ => ?_⟩,
    rfl, fun g spared => ?_⟩
  · exact h.sealed (before built₁) (before built₂) n pane m own
      (alters.within (h.custody.own_known (before built₂) own) below)
  · by_cases same : g = f
    · subst same
      rwa [((before built₁).unique built).2]
    · obtain ⟨content, panes⟩ := h.shares built (before built₁) same alters
      exact (h.mirrored (before built₁)).congr forest alters.forest
        (h.custody.own_element (before built₁)) content panes
  · have other : g ≠ f := fun same => spared (same ▸ mem)
    refine value_congr forest alters.forest rfl rfl fun field₁ w₁ built₁ => ?_
    obtain ⟨content, panes⟩ := h.shares built built₁ other alters
    exact Widget.value?_congr forest alters.forest (fun n own => h.custody.own_known built₁ own)
      content panes

end Secluded

/-- Storing values permits building widgets and writing into them. -/
theorem Writes.permits : Permits (Writes fs) Secluded (· ∈ fs) where
  refl := refl
  holds := secluded
  trans := trans
  custody := Secluded.custody
  asks h asks := ⟨h.asks asks, asks.bare, fun g _ => h.custody.value_asks asks g⟩
  rewrites h mem built := h.rewrites built mem

/-! ## Requests -/

/-- **A request about values** changes those of the fields that it reaches. -/
theorem Secluded.writes (h : s.Secluded) {r : Request} (handles : r.handlesValues = true) :
    s.Writes (r.reached s) (r.after s) :=
  Writes.permits.after h handles (fun _ => id) fun _ step f =>
    .inl (FieldTable.subtree_congr step.bare f)

/-- None of some requests reaches a field when its turn comes. -/
def Avoids (f : FieldId) : Scene → List Request → Prop
  | _, [] => True
  | s, r :: rs => f ∉ r.reached s ∧ Avoids f (r.after s) rs

/-- **Requests about values**, any number of them, keep the values secluded, and that of a field that none
reaches. -/
theorem Secluded.after : ∀ {rs : List Request} {s : Scene}, s.Secluded →
    (∀ r ∈ rs, r.handlesValues = true) →
    (s.after rs).Secluded ∧ ∀ f, Avoids f s rs → (s.after rs).value f = s.value f
  | [], _, h, _ => ⟨h, fun _ _ => rfl⟩
  | r :: rs, s, h, handles => by
    have step := h.writes (handles r List.mem_cons_self)
    obtain ⟨secluded, kept⟩ := step.secluded.after fun r' mem => handles r' (List.mem_cons_of_mem _ mem)
    rw [after_cons]
    exact ⟨secluded, fun f avoids => (kept f avoids.2).trans (step.others f avoids.1)⟩

/-- The values of the fields are cells of their own: a value that was accepted stays until a request
reaches its field, no request changes the value of a field that it does not reach, and what a read-only field
shows is its value. -/
structure Cellular (s : Scene) : Prop where
  stored : ∀ f v s', exec (PanelM.setValue f (some v)) s = (.ok true, s') →
    (∀ field, s.panel.field? f = some field → field.kind.keepsValues = true) →
    ∀ later : List Request, (∀ r ∈ later, r.handlesValues = true) → s'.Avoids f later →
      (s'.after later).value f = .ok (some v)
  kept : ∀ r : Request, r.handlesValues = true → ∀ f, f ∉ r.reached s →
    (r.after s).value f = s.value f
  mirrored : ∀ f field root hidden view, s.Built f field (.readOnly root hidden view) →
    s.page.innerMarkup view =
      (s.page.setMarkupOrText view ((s.page.attr? hidden "value").getD "")).innerMarkup view

theorem Secluded.cellular {s : Scene} (h : s.Secluded) : s.Cellular where
  stored f v s' run keeps later handles avoids := by
    have goes := Writes.permits.setValue h (List.mem_singleton.2 rfl : f ∈ [f]) (some v)
    unfold Goes at goes
    rw [run] at goes
    obtain ⟨step, accepted⟩ := goes
    obtain ⟨field, found⟩ : ∃ field, s.panel.field? f = some field := by
      rcases PanelM.exec_field_cases f s with ⟨field, found, _⟩ | ⟨_, missing⟩
      · exact ⟨field, found⟩
      · cases (exec_bind_error missing).symm.trans run
    obtain ⟨w, built, value⟩ := accepted true rfl rfl v field rfl found (keeps field found)
    rw [(step.secluded.after handles).2 f avoids, value_eq step.secluded.custody.rests.forest,
      built.found, Option.elim_some]
    unfold reading
    rw [if_pos (FieldKind.hasValue_of_keepsValues (keeps field found)), Option.elim_some, value]
  kept r handles f := (h.writes handles).others f
  mirrored _ _ _ _ _ built := h.mirrored built

end Scene

end Formwork
