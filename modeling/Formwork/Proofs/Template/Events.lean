import Formwork.Proofs.Panel.Request
import Formwork.Proofs.Template.Identifiers

/-!
# What an event does

A panel is assembled by events.  What the fields look like is of no concern to the frames: putting
widgets together leaves the tree of fields, the counters and the frames alone, and it does not fail for
an event that is out of place.

So there are few things that an event can come to.  A field that begins is added to the table, takes its
place below the field of the frame it lies in, and its marker is written there if it became content
(`AssemblyM.exec_beginField_cases`).  A frame that ends is left behind (`AssemblyM.exec_endField_cases`).
-/

namespace Formwork

set_option autoImplicit false

/-! ## The places of fields -/

namespace FieldTable

variable {t u : FieldTable} {c f g p : FieldId} {field : Field}

/-- The parent of a field, and its content. -/
def standing? (t : FieldTable) (f : FieldId) : Option (Option FieldId × List FieldId) :=
  (t.field? f).map fun field => (field.parent, field.children)

theorem standing?_congr (same : u.bare = t.bare) (f : FieldId) : u.standing? f = t.standing? f := by
  have bare : ∀ v : FieldTable, v.standing? f = v.bare.standing? f := by
    intro v
    unfold standing?
    rw [field?_bare, Option.map_map]
    rfl
  rw [bare, same, ← bare]

theorem standing?_add (t : FieldTable) (field : Field) (f : FieldId) :
    (t.add field).standing? f =
      if f = ⟨t.slots.size⟩ then some (field.parent, field.children) else t.standing? f := by
  unfold standing?
  rw [field?_add]
  split <;> rfl

theorem lt_size_of_standing? {place : Option FieldId × List FieldId}
    (known : t.standing? f = some place) : f.index < t.slots.size := by
  obtain ⟨field, found, _⟩ := Option.map_eq_some_iff.1 known
  exact lt_size_of_field? found

/-- A field that had no parent is put below another. -/
theorem standing?_link {own : List FieldId} (here : t.standing? c = some (none, own)) (other : p ≠ c)
    (role : Role) (f : FieldId) :
    (t.link p c role).standing? f =
      if f = c then some (some p, own)
      else (t.standing? f).map fun (q, cs) =>
        (q, if role = .content ∧ f = p then cs ++ [c] else cs) := by
  obtain ⟨field, found, place⟩ := Option.map_eq_some_iff.1 here
  obtain ⟨free, rfl⟩ := Prod.mk.inj place
  unfold standing?
  rw [link_eq found free, field?_update]
  by_cases new : f = c
  · rw [if_pos new, if_pos new, field?_update_of_ne _ _ (Ne.symm other), found]
    rfl
  · rw [if_neg new, if_neg new, field?_update]
    by_cases parent : f = p
    · subst parent
      rw [if_pos rfl, Option.map_map, Option.map_map]
      refine congrArg (fun change => (t.field? f).map change) (funext fun field => ?_)
      cases role <;> simp [Field.addChild]
    · rw [if_neg parent, Option.map_map]
      refine congrArg (fun change => (t.field? f).map change) (funext fun field => ?_)
      simp [parent]

end FieldTable

/-! ## What the frames are not concerned with -/

/-- What is seen of a scene without its page and the widgets of its fields. -/
def Scene.ledger (s : Scene) : FieldTable × SeriesId × CounterPool :=
  (s.panel.table.bare, s.panel.series, s.counters)

theorem Scene.overlooks_ledger : Overlooks ledger where
  page _ _ := rfl
  widget s f w := Prod.ext (FieldTable.bare_update_widget s.panel.table f w) rfl

/-- An error that tells of an event out of place. -/
def BuildError.IsUnbalanced (e : BuildError) : Prop := e.kind = "unbalanced-fields"

theorem BuildError.not_isUnbalanced_field (e : FieldError) : ¬ (field e).IsUnbalanced :=
  (by decide : "field" ≠ "unbalanced-fields")

theorem BuildError.not_isUnbalanced_page (e : PageError) : ¬ (page e).IsUnbalanced :=
  (by decide : "dom" ≠ "unbalanced-fields")

namespace BuildM

variable {α τ : Type} {view : Scene → τ} {s : Scene}

theorem exec_onPanel (operation : PanelM α) (s : Scene) : exec (onPanel operation) s =
    ((exec operation s).1.mapError .field, (exec operation s).2) := rfl

theorem retains_onPanel {operation : PanelM α} (h : Retains view operation) :
    Retains view (onPanel operation) := fun s => by rw [exec_onPanel]; exact h s

theorem retains_onPage (h : Scene.Overlooks view) (changes : PageM α) :
    Retains view (onPage changes) := by
  rw [onPage_eq_within]
  intro s
  cases run : exec changes s.page with
  | mk answer p =>
    cases answer with
    | ok a =>
      rw [exec_within_ok run]
      exact h.page s p
    | error e =>
      rw [exec_within_error run]
      exact h.page s p

theorem retains_splice (h : Scene.Overlooks view) (container : NodeId) (html : String)
    (placeholders : Placeholders) : Retains view (splice container html placeholders) := by
  have replaced : ∀ m : Marker, Retains view (replaceMarker m) := fun m =>
    .bind (retains_onPanel (h.root m.field)) fun _ =>
      .bind (retains_onPage h _) fun _ => retains_onPage h _
  refine .get_bind fun s => ?_
  dsimp only
  cases s.page.readMarkup container html with
  | error e => rfl
  | ok nodes =>
    rw [exec_bind_ok (exec_modify _ _)]
    exact (Retains.forM replaced _ _).trans (h.page s _)

theorem fails_onPanel (operation : PanelM α) : Fails (¬ ·.IsUnbalanced) (onPanel operation) := by
  intro s e failed
  rw [exec_onPanel] at failed
  cases run : (exec operation s).1 with
  | ok a =>
    rw [run] at failed
    cases failed
  | error e' =>
    rw [run] at failed
    cases failed
    exact BuildError.not_isUnbalanced_field e'

theorem fails_onPage (changes : PageM α) : Fails (¬ ·.IsUnbalanced) (onPage changes) := by
  rw [onPage_eq_within]
  intro s e failed
  cases run : exec changes s.page with
  | mk answer p =>
    cases answer with
    | ok a =>
      rw [exec_within_ok run] at failed
      cases failed
    | error e' =>
      rw [exec_within_error run] at failed
      cases failed
      exact BuildError.not_isUnbalanced_page e'

theorem fails_splice (container : NodeId) (html : String) (placeholders : Placeholders) :
    Fails (¬ ·.IsUnbalanced) (splice container html placeholders) := by
  have replaced : ∀ m : Marker, Fails (¬ ·.IsUnbalanced) (replaceMarker m) := fun m =>
    .bind (fails_onPanel _) fun _ => .bind (fails_onPage _) fun _ => fails_onPage _
  refine .bind .get fun s => ?_
  dsimp only
  split
  · exact .throw (BuildError.not_isUnbalanced_page _)
  · exact .bind (.modify _) fun _ => .forM replaced _

end BuildM

/-- What the frames of an assembly are concerned with: all but the page and the widgets of fields. -/
def Assembly.sheet (a : Assembly) : (FieldTable × SeriesId × CounterPool) × List Frame × Bool :=
  (a.toScene.ledger, a.frames, a.finished)

namespace AssemblyM

variable {α : Type} {a : Assembly}

theorem exec_build (operation : BuildM α) (a : Assembly) : exec (build operation) a =
    ((exec operation a.toScene).1, { a with toScene := (exec operation a.toScene).2 }) := by
  cases run : exec operation a.toScene with
  | mk answer s =>
    cases answer with
    | ok x => exact exec_build_ok run
    | error e => exact exec_build_error run

theorem retains_build {operation : BuildM α} (h : Retains Scene.ledger operation) :
    Retains Assembly.sheet (build operation) := fun a => by
  rw [exec_build]
  exact congrArg (·, a.frames, a.finished) (h a.toScene)

theorem fails_build {operation : BuildM α} (h : Fails (¬ ·.IsUnbalanced) operation) :
    Fails (¬ ·.IsUnbalanced) (build operation) := fun a e failed =>
  h a.toScene e (by rwa [exec_build] at failed)

/-- Collected markup is put on the page without a change to the sheet. -/
theorem retains_install (frame : Frame) (isRoot : Bool) :
    Retains Assembly.sheet (install frame isRoot) := by
  have spliced := fun container buffer placeholders => retains_build
    (BuildM.retains_splice Scene.overlooks_ledger container buffer placeholders)
  unfold install
  split
  · split
    · exact .pure _
    · split
      · exact .bind .get fun _ => spliced _ _ _
      · split
        · exact .bind (retains_build (BuildM.retains_onPage Scene.overlooks_ledger _)) fun _ =>
            .bind (spliced _ _ _) fun _ => .bind (retains_build (BuildM.retains_onPanel
              (Scene.overlooks_ledger.fillContent _ _))) fun _ => .pure _
        · exact .pure _
  · exact .pure _

theorem fails_install (frame : Frame) (isRoot : Bool) :
    Fails (¬ ·.IsUnbalanced) (install frame isRoot) := by
  have spliced := fun container buffer placeholders => fails_build
    (BuildM.fails_splice container buffer placeholders)
  unfold install
  split
  · split
    · exact .pure _
    · split
      · exact .bind .get fun _ => spliced _ _ _
      · split
        · exact .bind (fails_build (BuildM.fails_onPage _)) fun _ => .bind (spliced _ _ _) fun _ =>
            .bind (fails_build (BuildM.fails_onPanel _)) fun _ => .pure _
        · exact .pure _
  · exact .pure _

end AssemblyM

/-! ## Drawing from the counters -/

namespace CounterPool

variable {c c' c'' : CounterPool} {series other : SeriesId}

/-- Counters that were drawn from, and to which others may have been added. -/
structure Grows (c c' : CounterPool) : Prop where
  size : c.sets.size ≤ c'.sets.size
  placeholder : ∀ series, (c.get series).placeholder ≤ (c'.get series).placeholder

theorem Grows.refl (c : CounterPool) : c.Grows c := ⟨Nat.le_refl _, fun _ => Nat.le_refl _⟩

theorem Grows.trans (h : c.Grows c') (h' : c'.Grows c'') : c.Grows c'' :=
  ⟨Nat.le_trans h.size h'.size, fun series => Nat.le_trans (h.placeholder series) (h'.placeholder series)⟩

theorem get_next_of_ne (c : CounterPool) (apart : other ≠ series) (purpose : Counters.Purpose) :
    (c.next series purpose).2.get other = c.get other := by
  have index : series.index ≠ other.index := fun eq => apart (by cases other; cases series; cases eq; rfl)
  unfold next get
  dsimp only
  rw [Array.getElem?_modify, if_neg index]

theorem grows_next (known : series.index < c.sets.size) (purpose : Counters.Purpose) :
    c.Grows (c.next series purpose).2 := by
  refine ⟨Nat.le_of_eq (size_next c series purpose).symm, fun other => ?_⟩
  by_cases same : other = series
  · subst same
    rw [get_next known]
    cases purpose <;> simp [Counters.next]
  · rw [get_next_of_ne c same]

theorem grows_nameField (known : series.index < c.sets.size) (kind : FieldKind)
    (attributes : Attributes) : c.Grows (c.nameField series kind attributes).2 := by
  unfold nameField
  split
  · exact .refl c
  · exact grows_next known _

/-- Identifiers that are drawn after each other are different. -/
structure Draws (c : CounterPool) (series : SeriesId) (identifier : String) (c' : CounterPool) : Prop where
  grows : c.Grows c'
  number : ∃ n, (c.get series).placeholder ≤ n ∧ n < (c'.get series).placeholder ∧
    identifier = Counters.Purpose.identifier .placeholder n

/-- An identifier that is drawn is not among those that were drawn before. -/
theorem Draws.unused {identifier : String} (h : c.Draws series identifier c') {old : List String}
    (drawn : ∀ o ∈ old, ∃ n < (c.get series).placeholder,
      o = Counters.Purpose.identifier .placeholder n) : identifier ∉ old := by
  intro mem
  obtain ⟨n, low, _, rfl⟩ := h.number
  obtain ⟨m, high, same⟩ := drawn _ mem
  rw [(Counters.Purpose.identifier_injective same).2] at low
  exact Nat.not_lt_of_le low high

theorem draws_next (known : series.index < c.sets.size) :
    c.Draws series (c.next series .placeholder).1 (c.next series .placeholder).2 :=
  ⟨grows_next known _, _, Nat.le_refl _, by rw [get_next known]; exact Nat.lt_succ_self _, rfl⟩

theorem Grows.draws (h : c.Grows c') {identifier : String} (h' : c'.Draws series identifier c'') :
    c.Draws series identifier c'' := by
  obtain ⟨n, low, high, drawn⟩ := h'.number
  exact ⟨h.trans h'.grows, n, Nat.le_trans (h.placeholder series) low, high, drawn⟩

end CounterPool

/-! ## The frame that a field lies in -/

namespace Frame

/-- The field of the innermost frame that does not pass everything on. -/
def targetField? (frames : List Frame) : Option FieldId := (target? frames).bind Frame.field

/-- Either all frames pass everything on, or there is an innermost one that does not. -/
theorem target_cases (frames : List Frame) :
    (target? frames = none ∧ (∀ f ∈ frames, f.passes = true) ∧
        ∀ change, updateTarget change frames = frames) ∨
      ∃ passing target rest, frames = passing ++ target :: rest ∧
        (∀ f ∈ passing, f.passes = true) ∧ target.passes = false ∧
        target? frames = some target ∧
        ∀ change, updateTarget change frames = passing ++ change target :: rest := by
  induction frames with
  | nil => exact .inl ⟨rfl, List.forall_mem_nil _, fun _ => rfl⟩
  | cons f fs ih =>
    unfold target? at ih ⊢
    rw [List.find?_cons]
    simp only [updateTarget]
    cases passes : f.passes with
    | false => exact .inr ⟨[], f, fs, rfl, List.forall_mem_nil _, passes, rfl, fun _ => rfl⟩
    | true =>
      rcases ih with ⟨found, all, same⟩ | ⟨passing, target, rest, rfl, all, here, found, changed⟩
      · exact .inl ⟨found, List.forall_mem_cons.2 ⟨passes, all⟩, fun change => by
          rw [if_pos rfl, same]⟩
      · refine .inr ⟨f :: passing, target, rest, rfl, ?_, here, found, fun change => ?_⟩
        · exact List.forall_mem_cons.2 ⟨passes, all⟩
        · rw [if_pos rfl, changed, List.cons_append]

theorem mem_of_targetField? {frames : List Frame} {p : FieldId}
    (found : targetField? frames = some p) : p ∈ frames.filterMap field := by
  obtain ⟨f, target, own⟩ := Option.bind_eq_some_iff.1 found
  exact List.mem_filterMap.2 ⟨f, List.mem_of_find?_eq_some target, own⟩

end Frame

/-! ## What an event comes to -/

namespace AssemblyM

variable {a : Assembly}

/-- A new field takes its place in the frame it lies in: it is marked there if it became content. -/
structure Settles (t t' : FieldTable) (frames frames' : List Frame) (identifier : String) (f : FieldId)
    (accepted : Bool) : Prop where
  marked : frames' = if accepted then Frame.updateTarget (·.addMarker identifier f) frames else frames
  /-- A frame without a field does not refuse. -/
  unasked : Frame.targetField? frames = none → accepted = true
  places : ∀ g, t'.standing? g =
    if g = f then some (Frame.targetField? frames, [])
    else (t.standing? g).map fun (q, cs) =>
      (q, if accepted = true ∧ Frame.targetField? frames = some g then cs ++ [f] else cs)

/-- A field that was made has taken its place among those that were there before. -/
theorem Settles.of_added {t₀ t t' : FieldTable} {frames frames' : List Frame} {identifier : String}
    {f : FieldId} {accepted : Bool} (h : Settles t t' frames frames' identifier f accepted)
    (added : ∀ g, t.standing? g = if g = f then some (none, []) else t₀.standing? g) :
    Settles t₀ t' frames frames' identifier f accepted := by
  refine ⟨h.marked, h.unasked, fun g => ?_⟩
  rw [h.places g]
  split
  · rfl
  · case isFalse old => rw [added g, if_neg old]

/-- Putting a field without a parent below another changes their places, and nothing else that is
seen; or it fails and changes nothing that is seen. -/
theorem exec_addChild_seen {p f : FieldId} {own : List FieldId}
    (here : a.panel.table.standing? f = some (none, own)) (older : p ≠ f) :
    ∃ answer a', exec (onPanel (PanelM.addChild p f)) a = (answer, a') ∧ a'.frames = a.frames ∧
      a'.finished = a.finished ∧ a'.panel.series = a.panel.series ∧ a'.counters = a.counters ∧
      ((∃ accepted : Bool, answer = .ok accepted ∧ ∀ g, a'.panel.table.standing? g =
          if g = f then some (some p, own)
          else (a.panel.table.standing? g).map fun (q, cs) =>
            (q, if accepted = true ∧ g = p then cs ++ [f] else cs)) ∨
        ∃ e, answer = .error e ∧ ¬ e.IsUnbalanced ∧
          ∀ g, a'.panel.table.standing? g = a.panel.table.standing? g) := by
  have seen := Scene.overlooks_ledger.takePart p f a.toScene
  unfold onPanel
  rw [exec_build, BuildM.exec_onPanel]
  cases run : exec (PanelM.takePart p f) a.toScene with
  | mk answer s =>
    rw [run] at seen
    obtain ⟨bare, rest⟩ := Prod.mk.inj seen
    obtain ⟨series, counters⟩ := Prod.mk.inj rest
    have places := FieldTable.standing?_congr bare
    cases answer with
    | error e =>
      have refused : exec (PanelM.addChild p f) a.toScene = (.error e, s) := exec_bind_error run
      rw [refused]
      exact ⟨_, _, rfl, rfl, rfl, series, counters, .inr ⟨_, rfl,
        BuildError.not_isUnbalanced_field e, places⟩⟩
    | ok role =>
      rw [PanelM.exec_addChild_ok run]
      refine ⟨_, _, rfl, rfl, rfl, series, counters, .inl ⟨_, rfl, fun g => ?_⟩⟩
      have linked := FieldTable.standing?_link ((places f).trans here) older role g
      rw [places g] at linked
      simp only [decide_eq_true_eq]
      exact linked

/-- **A new field takes its place**, or the step fails and has not changed anything that is seen. -/
theorem exec_register_cases {f : FieldId} (here : a.panel.table.standing? f = some (none, []))
    (older : ∀ p, Frame.targetField? a.frames = some p → p ≠ f) (identifier : String) :
    ∃ answer a', exec (register identifier f) a = (answer, a') ∧ a'.finished = a.finished ∧
      a'.panel.series = a.panel.series ∧ a'.counters = a.counters ∧
      ((∃ accepted, answer = .ok () ∧
          Settles a.panel.table a'.panel.table a.frames a'.frames identifier f accepted) ∨
        ∃ e, answer = .error e ∧ ¬ e.IsUnbalanced ∧ a'.frames = a.frames ∧
          ∀ g, a'.panel.table.standing? g = a.panel.table.standing? g) := by
  unfold register
  rw [exec_bind_ok (exec_get a)]
  rcases Frame.target_cases a.frames with ⟨none, _, same⟩ | ⟨_, target, _, _, _, _, some, _⟩
  · have nowhere : Frame.targetField? a.frames = .none := by rw [Frame.targetField?, none]; rfl
    rw [none]
    refine ⟨_, a, rfl, rfl, rfl, rfl, .inl ⟨true, rfl, ?_, fun _ => rfl, fun g => ?_⟩⟩
    · rw [if_pos rfl, same]
    · rw [nowhere]
      split
      · case isTrue new => rw [new, here]
      · simp
  · have lies : Frame.targetField? a.frames = target.field := by rw [Frame.targetField?, some]; rfl
    rw [some]
    dsimp only
    cases parent : target.field with
    | none =>
      rw [parent] at lies
      refine ⟨_, _, rfl, rfl, rfl, rfl, .inl ⟨true, rfl, rfl, fun _ => rfl, fun g => ?_⟩⟩
      rw [lies]
      split
      · case isTrue new => rw [new]; exact here
      · simp
    | some p =>
      rw [parent] at lies
      obtain ⟨answer, a₁, run, frames, finished, series, counters, outcome⟩ :=
        exec_addChild_seen here (older p lies)
      rcases outcome with ⟨accepted, rfl, places⟩ | ⟨e, rfl, sort, places⟩
      · dsimp only
        rw [exec_bind_ok run]
        have settled : ∀ frames' : List Frame, frames' = (if accepted = true then
            Frame.updateTarget (·.addMarker identifier f) a.frames else a.frames) →
            Settles a.panel.table a₁.panel.table a.frames frames' identifier f accepted := by
          intro frames' marked
          refine ⟨marked, fun nowhere => absurd (nowhere.symm.trans lies) nofun, fun g => ?_⟩
          rw [places g, lies]
          simp [eq_comm]
        cases accepted with
        | true =>
          refine ⟨_, _, rfl, finished, series, counters, .inl ⟨true, rfl, settled _ ?_⟩⟩
          rw [if_pos rfl, ← frames]
        | false => exact ⟨_, _, rfl, finished, series, counters, .inl ⟨false, rfl, settled _ frames⟩⟩
      · dsimp only
        rw [exec_bind_error run]
        exact ⟨_, _, rfl, finished, series, counters, .inr ⟨e, rfl, sort, frames, places⟩⟩

/-- What it comes to when a field begins, or an element without a field. -/
inductive Begins (a a' : Assembly) (identifier : String) : Except BuildError Unit → Prop where
  /-- A factory made no field. -/
  | element (frames : a'.frames = ⟨none, if a.frames.isEmpty then .fresh else .passing⟩ :: a.frames)
      (places : ∀ g, a'.panel.table.standing? g = a.panel.table.standing? g) :
      Begins a a' identifier (.ok ())
  /-- A field was made and has taken its place. -/
  | field {kind : Frame.Kind} {rest : List Frame} {accepted : Bool}
      (settles : Settles a.panel.table a'.panel.table a.frames rest identifier
        ⟨a.panel.table.slots.size⟩ accepted)
      (fresh : kind = .fresh ∨ kind = .dropping)
      (frames : a'.frames = ⟨some ⟨a.panel.table.slots.size⟩, kind⟩ :: rest) :
      Begins a a' identifier (.ok ())
  /-- A field was made and found no place. -/
  | fails {e : BuildError} (sort : ¬ e.IsUnbalanced) (frames : a'.frames = a.frames)
      (places : ∀ g, g.index < a.panel.table.slots.size →
        a'.panel.table.standing? g = a.panel.table.standing? g) :
      Begins a a' identifier (.error e)

/-- Making a field adds it to the table, without a place. -/
theorem exec_makeField_some {factory : Option Factory} {kind : FieldKind}
    (makes : factory.bind Factory.makes = some kind) (attributes : Attributes)
    (known : a.panel.series.index < a.counters.sets.size) :
    ∃ a', exec (makeField factory attributes) a =
        (.ok (some (⟨a.panel.table.slots.size⟩, kind)), a') ∧
      a'.frames = a.frames ∧ a'.finished = a.finished ∧ a'.panel.series = a.panel.series ∧
      a.counters.Grows a'.counters ∧
      ∀ g, a'.panel.table.standing? g =
        if g = ⟨a.panel.table.slots.size⟩ then some (none, []) else a.panel.table.standing? g := by
  unfold makeField
  rw [makes]
  exact ⟨_, (exec_bind_ok (exec_onPanel_ok (PanelM.exec_createField kind attributes))).trans rfl,
    rfl, rfl, rfl, CounterPool.grows_nameField known _ _, FieldTable.standing?_add _ _⟩

/-- **A field begins.**  An identifier is drawn, and the frame of the field is the innermost one if
nothing fails. -/
theorem exec_beginField_cases (allowed : ¬ (a.frames.isEmpty = true ∧ a.finished = true))
    (known : a.panel.series.index < a.counters.sets.size)
    (older : ∀ p ∈ a.frames.filterMap Frame.field, p.index < a.panel.table.slots.size)
    (factory : Option Factory) (attributes : Attributes) :
    ∃ answer a' identifier, exec (beginField factory attributes) a = (answer, a') ∧
      a'.finished = a.finished ∧ a'.panel.series = a.panel.series ∧
      a.counters.Draws a.panel.series identifier a'.counters ∧ Begins a a' identifier answer := by
  unfold beginField
  rw [exec_bind_ok (exec_get a)]
  dsimp only
  rw [if_neg allowed]
  cases makes : factory.bind Factory.makes with
  | none =>
    have made : exec (makeField factory attributes) a = (.ok none, a) := by
      unfold makeField
      rw [makes]
      rfl
    rw [exec_bind_ok made, exec_bind_ok (exec_onPanel_ok (PanelM.exec_draw .placeholder))]
    exact ⟨_, _, _, rfl, rfl, rfl, CounterPool.draws_next known, .element rfl fun _ => rfl⟩
  | some kind =>
    obtain ⟨a₁, made, frames, finished, series, grows, places⟩ :=
      exec_makeField_some makes attributes known
    have known₁ : a₁.panel.series.index < a₁.counters.sets.size := by
      rw [series]
      exact Nat.lt_of_lt_of_le known grows.size
    rw [exec_bind_ok made, exec_bind_ok (exec_onPanel_ok (PanelM.exec_draw .placeholder))]
    dsimp only
    have older₁ : ∀ p, Frame.targetField? a₁.frames = some p → p ≠ ⟨a.panel.table.slots.size⟩ := by
      rintro p found rfl
      exact Nat.lt_irrefl _ (older _ (frames ▸ Frame.mem_of_targetField? found))
    obtain ⟨answer, a₂, run, finished₂, series₂, counters₂, outcome⟩ := exec_register_cases
      (a := { a₁ with counters := (a₁.counters.next a₁.panel.series .placeholder).2 })
      ((places _).trans (if_pos rfl)) older₁ (a₁.counters.next a₁.panel.series .placeholder).1
    have draws : a.counters.Draws a.panel.series (a₁.counters.next a₁.panel.series .placeholder).1
        a₂.counters := by
      rw [counters₂, ← series]
      exact grows.draws (CounterPool.draws_next known₁)
    rcases outcome with ⟨accepted, rfl, settles⟩ | ⟨e, rfl, sort, frames₂, places₂⟩
    · rw [exec_bind_ok run]
      refine ⟨_, _, _, rfl, finished₂.trans finished, series₂.trans series, draws,
        .field (frames ▸ settles.of_added places) ?_ rfl⟩
      cases kind.acceptsPanel with
      | true => exact .inl rfl
      | false => exact .inr rfl
    · rw [exec_bind_error run]
      refine ⟨_, _, _, rfl, finished₂.trans finished, series₂.trans series, draws,
        .fails sort (frames₂.trans frames) fun g old => ?_⟩
      rw [places₂ g]
      refine (places g).trans (if_neg ?_)
      rintro rfl
      exact Nat.lt_irrefl _ old

theorem exec_beginField_refused (none : a.frames = []) (ended : a.finished = true)
    (factory : Option Factory) (attributes : Attributes) :
    exec (beginField factory attributes) a = (.error .beginAfterEnd, a) := by
  unfold beginField
  rw [exec_bind_ok (exec_get a)]
  dsimp only
  rw [if_pos ⟨by rw [none]; rfl, ended⟩]
  rfl

theorem exec_endField_refused (none : a.frames = []) :
    exec endField a = (.error .endWithoutBegin, a) := by
  unfold endField
  rw [exec_bind_ok (exec_get a), none]
  rfl

/-- **A field ends**: its frame is left behind, whatever becomes of the markup in it. -/
theorem exec_endField_cases {frame : Frame} {rest : List Frame} (frames : a.frames = frame :: rest) :
    ∃ answer a', exec endField a = (answer, a') ∧
      a'.sheet = (a.toScene.ledger, rest, a.finished || rest.isEmpty) ∧
      ∀ e, answer = .error e → ¬ e.IsUnbalanced := by
  unfold endField
  rw [exec_bind_ok (exec_get a), frames]
  dsimp only
  rw [exec_bind_ok (exec_modify _ _)]
  exact ⟨_, _, rfl, retains_install _ _ _, fun e failed => fails_install _ _ _ e failed⟩

/-- Nothing may be left open when all is over. -/
theorem exec_finish (a : Assembly) : exec finish a =
    (if a.frames = [] then .ok () else .error (.leftOpen a.frames.length), a) := by
  unfold finish
  rw [exec_bind_ok (exec_get a)]
  dsimp only
  cases a.frames with
  | nil => rfl
  | cons f fs => rfl

end AssemblyM

end Formwork
