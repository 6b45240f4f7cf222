import Formwork.Proofs.Panel.Told

/-!
# What a page shows of the values that were stored last

When values are stored in the fields of a panel, the nodes that were on the page change in one way only: the
widget of a field that took a value bears that value, whatever it held before (`Widget.Bears`).  All other
nodes are what they were, and have the children that they had (`Scene.Pictured`).

New nodes are numbered as they come, so two pages with the same values need not have the same nodes; but
they are written out alike (`Scene.Pictured.innerMarkup_eq`).
-/

namespace Formwork

set_option autoImplicit false

open Page (wrapMarkup Alters)
open Markup (Escape.text)

/-- A widget bears a value on a page, compared with an earlier one: its nodes are marked, and filled. -/
structure Widget.Bears (w : Widget) (v : String) (p₀ p : Page) : Prop where
  content : ∀ n ∈ w.own, p.content? n = (p₀.content? n).map (w.marked v n)
  children : ∀ n ∈ w.own, n ∉ w.filled → p.children n = p₀.children n
  renders : ∀ n ∈ w.filled, p.Renders Escape.text wrapMarkup (p.children n)
    (Html.writtenOf Escape.text wrapMarkup (w.filling v))

namespace Scene

variable {s s₀ s' : Scene} {σ σ' : FieldId → Option String} {f g : FieldId} {field field' : Field}
  {w w' : Widget} {v : String} {n : NodeId}

/-- No widget that was there and has a node for its own took a value. -/
def Untouched (s₀ : Scene) (σ : FieldId → Option String) (n : NodeId) : Prop :=
  ∀ f field w, s₀.Built f field w → n ∈ w.own → σ f = none

/-- The page as it was, but for the values that fields took last. -/
structure Pictured (s₀ : Scene) (σ : FieldId → Option String) (s : Scene) : Prop where
  size : s₀.page.size ≤ s.page.size
  stays : ∀ {f field w}, s₀.Built f field w → s.Built f field w
  newer : ∀ {f field w}, s.Built f field w → s₀.Built f field w ∨ ∀ n ∈ w.own, s₀.page.size ≤ n.index
  untouched : ∀ n : NodeId, n.index < s₀.page.size → s₀.Untouched σ n →
    s.page.content? n = s₀.page.content? n ∧ s.page.children n = s₀.page.children n
  bears : ∀ {f field w v}, s₀.Built f field w → σ f = some v → w.Bears v s₀.page s.page
  /-- What lies in a value belongs to no widget. -/
  sealed : ∀ {f field w v}, s₀.Built f field w → σ f = some v → ∀ n ∈ w.filled,
    ∀ {g field' w'}, s.Built g field' w' → ∀ m ∈ w'.own, s.page.Within n m → m = n

namespace Pictured

/-- Nothing was stored yet. -/
theorem start (s : Scene) : s.Pictured (fun _ => none) s where
  size := Nat.le_refl _
  stays built := built
  newer built := .inl built
  untouched _ _ _ := ⟨rfl, rfl⟩
  bears _ some := nomatch some
  sealed _ some := nomatch some

/-- **Asking for a widget**: if it is built, it is made of new nodes that lie nowhere. -/
theorem opens (h : s₀.Pictured σ s) (custody : s.Custody .empty False) (custody₀ : s₀.Custody .empty False)
    (opens : s.Opens f field w s') : s₀.Pictured σ s' := by
  have forest := custody.rests.forest
  have grows := opens.grows
  have rests : s.page.Rests s'.page := ⟨forest, opens.leads.custody.rests.forest, grows⟩
  have old : ∀ n : NodeId, n.index < s₀.page.size → n.index < s.page.size := fun n known =>
    Nat.lt_of_lt_of_le known h.size
  refine ⟨Nat.le_trans h.size grows.size, fun built => opens.stays (h.stays built), fun built => ?_,
    fun n known untouched => ?_, fun {g field₁ w₁ v} built is => ?_,
    fun {g field₁ w₁ v} built is n mem g' field₂ w₂ built' m own below => ?_⟩
  · rcases opens.built_cases built with before | ⟨_, _, rfl, born⟩
    · exact h.newer before
    · exact .inr fun n mem => Nat.le_trans h.size (born.own n mem).1
  · rw [grows.content? (old n known), grows.children (old n known)]
    exact h.untouched n known untouched
  · have bears := h.bears built is
    have known : ∀ n ∈ w₁.own, n.index < s.page.size := fun n mem => old n (custody₀.own_known built mem)
    refine ⟨fun n mem => ?_, fun n mem other => ?_, fun n mem => ?_⟩
    · rw [grows.content? (known n mem)]
      exact bears.content n mem
    · rw [grows.children (known n mem)]
      exact bears.children n mem other
    · rw [grows.children (known n (Widget.filled_subset_own mem))]
      exact (bears.renders n mem).congr fun c child =>
        grows.shares forest (Page.lt_size_of_parent? ((forest.agree n c).1 child))
  · have known := old n (custody₀.own_known built (Widget.filled_subset_own mem))
    have within := (grows.shares forest known).within below
    rcases opens.built_cases built' with before | ⟨_, _, rfl, born⟩
    · exact h.sealed built is n mem before m own within
    · exact absurd (within.known forest known) (Nat.not_lt.2 (born.own m own).1)

/-- A node that is untouched afterwards was so before, and is not one of the widget. -/
theorem untouched_before (h : s₀.Pictured σ s) (built : s.Built f field w) (self : σ' f = some v)
    (others : ∀ g, g ≠ f → σ' g = σ g) (known : n.index < s₀.page.size) (untouched : s₀.Untouched σ' n) :
    n ∉ w.own ∧ s₀.Untouched σ n := by
  have apart : n ∉ w.own := fun mem => by
    rcases h.newer built with there | new
    · exact Option.some_ne_none v (self.symm.trans (untouched f field w there mem))
    · exact Nat.not_lt.2 (new n mem) known
  refine ⟨apart, fun g field' w' built' mem => ?_⟩
  have other : g ≠ f := by
    rintro rfl
    obtain ⟨rfl, rfl⟩ := (h.stays built').unique built
    exact apart mem
  rw [← others g other]
  exact untouched g field' w' built' mem

/-- The widget bears the new value. -/
theorem bears_self (h : s₀.Pictured σ s) (custody₀ : s₀.Custody .empty False) {p : Page}
    (stored : w.Stored v s.page p) (there : s₀.Built f field w) : w.Bears v s₀.page p := by
  have known : ∀ n ∈ w.own, n.index < s.page.size := fun n mem =>
    Nat.lt_of_lt_of_le (custody₀.own_known there mem) h.size
  -- no other widget has the node for its own, so nothing else can have touched it
  have untouched : σ f = none → ∀ n ∈ w.own, s₀.Untouched σ n := by
    intro none n mem g field' w' built' mem'
    by_cases same : f = g
    · exact same ▸ none
    · exact absurd mem' (custody₀.apart there built' same n mem)
  refine ⟨fun n mem => ?_, fun n mem other => ?_, stored.renders⟩
  · rw [stored.content n (known n mem)]
    cases is : σ f with
    | none => rw [(h.untouched n (custody₀.own_known there mem) (untouched is n mem)).1]
    | some u =>
      rw [(h.bears there is).content n mem, Option.map_map]
      exact Option.map_congr fun c _ => w.marked_marked u v n c
  · rw [stored.children n (known n mem) other]
    cases is : σ f with
    | none => exact (h.untouched n (custody₀.own_known there mem) (untouched is n mem)).2
    | some u => exact (h.bears there is).children n mem other

/-- Another widget bears the value that it bore. -/
theorem bears_other (h : s₀.Pictured σ s) (custody : s.Custody .empty False) (built : s.Built f field w)
    {p : Page} (stored : w.Stored v s.page p) (there : s₀.Built g field' w') (other : g ≠ f) {u : String}
    (is : σ g = some u) : w'.Bears u s₀.page p := by
  have bears := h.bears there is
  have known : ∀ n ∈ w'.own, n.index < s.page.size := fun n mem => custody.own_known (h.stays there) mem
  have apart : ∀ n ∈ w'.own, n ∉ w.own := custody.apart (h.stays there) built other
  refine ⟨fun n mem => ?_, fun n mem unfilled => ?_, fun n mem => ?_⟩
  · rw [stored.alters.content n (known n mem) (apart n mem)]
    exact bears.content n mem
  · rw [stored.alters.children n (known n mem) (apart n mem)]
    exact bears.children n mem unfilled
  · have own := Widget.filled_subset_own mem
    rw [stored.alters.children n (known n own) (apart n own)]
    refine (bears.renders n mem).congr fun c child => ?_
    refine stored.alters.shares custody.rests.forest
      (Page.lt_size_of_parent? ((custody.rests.forest.agree n c).1 child)) fun m below mem' => ?_
    have same := h.sealed there is n mem built m mem' (.trans (.child .self child) below)
    exact apart n own (same ▸ mem')

/-- **Storing a value** in a widget that takes it. -/
theorem stores (h : s₀.Pictured σ s) (custody : s.Custody .empty False)
    (custody₀ : s₀.Custody .empty False) (built : s.Built f field w) (taken : w.takes v = true)
    (self : σ' f = some v) (others : ∀ g, g ≠ f → σ' g = σ g) :
    s₀.Pictured σ' { s with page := w.stored s.page v } := by
  have stored := Widget.stored_of_takes custody.rests.forest (custody.own_element built) taken
  have before : ∀ {g field w'}, Built { s with page := w.stored s.page v } g field w' → s.Built g field w' :=
    fun built => built.congr rfl
  refine ⟨Nat.le_trans h.size stored.alters.size, fun built => (h.stays built).congr rfl,
    fun built => h.newer (before built), fun n known untouched => ?_, fun {g field₁ w₁ u} there is => ?_,
    fun {g field₁ w₁ u} there is n mem g' field₂ w₂ built' m own below => ?_⟩
  · obtain ⟨apart, earlier⟩ := h.untouched_before built self others known untouched
    have old := Nat.lt_of_lt_of_le known h.size
    rw [stored.alters.content n old apart, stored.alters.children n old apart]
    exact h.untouched n known earlier
  · by_cases same : g = f
    · subst same
      obtain ⟨rfl, rfl⟩ := (h.stays there).unique built
      cases self.symm.trans is
      exact h.bears_self custody₀ stored there
    · rw [others g same] at is
      exact h.bears_other custody built stored there same is
  · have known := custody.own_known (before built') own
    by_cases same : g = f
    · subst same
      obtain ⟨rfl, rfl⟩ := (h.stays there).unique built
      exact (stored.alters.new_of_within (stored.new n mem) below).resolve_right (Nat.not_le.2 known)
    · rw [others g same] at is
      exact h.sealed there is n mem (before built') m own (stored.alters.within known below)

/-! ## Writing out -/

section Written

variable (h : s₀.Pictured σ s) (h' : s₀.Pictured σ s')
include h h'

/-- A node that was there is the same on two pages that show the same values, and it has the children that it
had, unless they are part of a value. -/
theorem same_node (known : n.index < s₀.page.size) : s'.page.content? n = s.page.content? n ∧
    (s'.page.children n = s.page.children n ∧ (∀ c ∈ s.page.children n, c ∈ s₀.page.children n) ∨
      ∃ text, s.page.Renders Escape.text wrapMarkup (s.page.children n) text ∧
        s'.page.Renders Escape.text wrapMarkup (s'.page.children n) text) := by
  by_cases untouched : s₀.Untouched σ n
  · obtain ⟨content, children⟩ := h.untouched n known untouched
    obtain ⟨content', children'⟩ := h'.untouched n known untouched
    rw [content, content', children, children']
    exact ⟨rfl, .inl ⟨rfl, fun _ => id⟩⟩
  · unfold Untouched at untouched
    push Not at untouched
    obtain ⟨f, field, w, built, mem, some⟩ := untouched
    obtain ⟨v, is⟩ := Option.ne_none_iff_exists'.1 some
    have bears := h.bears built is
    have bears' := h'.bears built is
    rw [bears.content n mem, bears'.content n mem]
    refine ⟨rfl, ?_⟩
    by_cases filled : n ∈ w.filled
    · exact .inr ⟨_, bears.renders n filled, bears'.renders n filled⟩
    · rw [bears.children n mem filled, bears'.children n mem filled]
      exact .inl ⟨rfl, fun _ => id⟩

/-- Nodes that were there are written out alike on two pages that show the same values. -/
theorem renders (forest₀ : s₀.page.Forest) {ns : List NodeId} {text : String}
    (shown : s.page.Renders Escape.text wrapMarkup ns text) :
    (∀ n ∈ ns, n.index < s₀.page.size) → s'.page.Renders Escape.text wrapMarkup ns text := by
  induction shown with
  | nil => exact fun _ => .nil
  | @text n _ _ _ _ _ found _ ih =>
    intro known
    have same := (h.same_node h' (known n List.mem_cons_self)).1
    rw [Page.content?_eq found] at same
    exact .text (Page.node?_of_content? same) (ih fun m mem => known m (List.mem_cons_of_mem _ mem))
  | @element n _ _ _ _ _ _ _ found inner _ ihInner ih =>
    intro known
    obtain ⟨same, kids⟩ := h.same_node h' (known n List.mem_cons_self)
    rw [Page.content?_eq found] at same
    refine .element (Page.node?_of_content? same) ?_ (ih fun m mem => known m (List.mem_cons_of_mem _ mem))
    rw [Page.children_eq found] at kids
    rcases kids with ⟨children, old⟩ | ⟨text, filled, filled'⟩
    · rw [children]
      exact ihInner fun c mem => Page.lt_size_of_parent? ((forest₀.agree n c).1 (old c mem))
    · rwa [inner.unique filled] at filled'

end Written

/-- **Panels that show the same values are written out alike.** -/
theorem innerMarkup_eq (h : s₀.Pictured σ s) (h' : s₀.Pictured σ s') (told : s₀.Told σ s)
    (told' : s₀.Told σ s') (custody₀ : s₀.Custody .empty False) :
    s'.page.innerMarkup s'.panel.root = s.page.innerMarkup s.panel.root := by
  have known := Page.lt_size_of_tag? custody₀.root.2
  have untouched : s₀.Untouched σ s₀.panel.root := fun f field w built mem =>
    absurd mem (custody₀.top f field w built)
  obtain ⟨_, children⟩ := h.untouched _ known untouched
  obtain ⟨_, children'⟩ := h'.untouched _ known untouched
  have shown := told.secluded.custody.rests.forest.renders_innerMarkup told.secluded.custody.root.2
  have shown' := told'.secluded.custody.rests.forest.renders_innerMarkup told'.secluded.custody.root.2
  rw [told.root] at shown ⊢
  rw [told'.root] at shown' ⊢
  rw [children] at shown
  rw [children'] at shown'
  have forest₀ := custody₀.rests.forest
  exact (h.renders h' forest₀ shown fun c mem =>
    Page.lt_size_of_parent? ((forest₀.agree _ c).1 mem)).unique shown'

end Pictured

end Scene

end Formwork
