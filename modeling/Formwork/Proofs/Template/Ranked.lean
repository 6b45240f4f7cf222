import Formwork.Proofs.Panel.Ancestry
import Formwork.Proofs.Panel.Configured
import Formwork.Proofs.Template.Values
import Formwork.Proofs.Template.Workshop

/-!
# The fields of a panel that is built

A field that begins is put below one that is open, and the open fields are older.  So the fields of a panel
that is built are ranked by their numbers (`Scene.Ranked`): a parent comes before its children, and no field lies
above itself (`Scene.Ranked.acyclic`).  The widgets are what the attributes of their fields say.

Both are kept by every step of building, whether it answers or fails: by those that only look fields up, ask for
widgets and change the page because they keep every invariant that outlasts these (`Scene.Outlasts`), and by
those that create fields and link them because a field is linked when it is the youngest.
-/

namespace Formwork

set_option autoImplicit false

open Panel (Request)
open Scene (Outlasts)

/-- No field lies above itself if parents come before their children. -/
theorem FieldTable.acyclic_of_older {t : FieldTable}
    (older : ∀ {f p}, t.parent? f = some p → p.index < f.index) : t.Acyclic := by
  have lower : ∀ {a f}, t.Above a f → a.index < f.index := by
    intro a f above
    induction above with
    | single lies => exact older lies
    | tail _ lies ih => exact Nat.lt_trans (older lies) ih
  exact fun f round => Nat.lt_irrefl _ (lower round)

namespace Scene

variable {s s' : Scene} {n : Nat}

/-- Parents come before their children, there are at least `n` fields, and every widget is what the attributes of
its field say. -/
structure Ranked (n : Nat) (s : Scene) : Prop where
  configured : s.Configured
  older : ∀ {f p}, s.panel.table.parent? f = some p → p.index < f.index
  size : n ≤ s.panel.table.slots.size

namespace Ranked

theorem acyclic (h : s.Ranked n) : s.panel.table.Acyclic := FieldTable.acyclic_of_older h.older

theorem mono (h : s.Ranked n) {m : Nat} (le : m ≤ n) : s.Ranked m :=
  ⟨h.configured, h.older, Nat.le_trans le h.size⟩

/-- The widgets are changed, but not the tree of fields. -/
theorem of_bare (h : s.Ranked n) (configured : s'.Configured)
    (bare : s'.panel.table.bare = s.panel.table.bare) : s'.Ranked n where
  configured := configured
  older lies := h.older ((FieldTable.parent?_congr bare _).symm.trans lies)
  size := by
    rw [← FieldTable.size_slots_bare, bare, FieldTable.size_slots_bare]
    exact h.size

theorem outlasts (n : Nat) : Outlasts (Ranked n) where
  congr h table messages :=
    h.of_bare (Configured.outlasts.congr h.configured table messages) (by rw [table])
  asked f s h := h.of_bare (Configured.asked f s h.configured) (congrArg Prod.fst (PanelM.spares_widgetOf f s))
  remembers f w valueless s h := h.of_bare (Configured.outlasts.remembers f w valueless s h.configured)
    (FieldTable.bare_update_widget ..)

/-- A field that is created is the youngest, and has no parent. -/
theorem create (h : s.Ranked n) (kind : FieldKind) (attributes : Attributes) :
    ∃ s', exec (PanelM.createField kind attributes) s = (.ok ⟨s.panel.table.slots.size⟩, s') ∧
      s'.Ranked (s.panel.table.slots.size + 1) := by
  have configured := Configured.create kind attributes s h.configured
  rw [PanelM.exec_createField] at configured
  refine ⟨_, PanelM.exec_createField kind attributes, configured, fun lies => ?_, ?_⟩
  · exact h.older ((FieldTable.Booked.parent?_add _ rfl _).symm.trans lies)
  · exact Nat.le_of_eq (FieldTable.size_slots_add ..).symm

/-- A field is put below an older one, or it is not put anywhere. -/
theorem add {p c : FieldId} (younger : p.index < c.index) : Preserves (Ranked n) (PanelM.addChild p c) := by
  refine PanelM.preserves_addChild ((outlasts n).takePart p c) fun role s h parent child => ?_
  have booked := h.configured.booked
  refine ⟨h.configured.link parent child role, fun {f q} lies => ?_, ?_⟩
  · have there : (s.panel.table.link p c role).parent? f = some q := lies
    rw [booked.parent?_link child] at there
    split at there
    · case isTrue same =>
      cases there
      rwa [same]
    · exact h.older there
  · exact Nat.le_trans h.size (Nat.le_of_eq (FieldTable.Booked.size_link ..).symm)

/-- Requests that leave the tree of fields alone keep the ranks. -/
theorem after : ∀ {rs : List Request} {s : Scene}, s.Ranked n →
    (∀ r ∈ rs, r.changesTree = false) → (s.after rs).Ranked n
  | [], _, h, _ => h
  | r :: rs, s, h, keeps => by
    rw [after_cons]
    exact ((outlasts n).perform (keeps r List.mem_cons_self) s h).after fun r' mem =>
      keeps r' (List.mem_cons_of_mem _ mem)

end Ranked

end Scene

/-! ## Building on a panel -/

namespace BuildM

variable {inv : Scene → Prop} {α : Type}

theorem preserves_onPanel {operation : PanelM α} (keeps : Preserves inv operation) :
    Preserves inv (onPanel operation) := fun s here => by
  rw [exec_onPanel]
  exact keeps s here

theorem preserves_onPage (h : Outlasts inv) (changes : PageM α) : Preserves inv (onPage changes) := by
  rw [onPage_eq_within]
  intro s here
  cases run : exec changes s.page with
  | mk answer p =>
    cases answer with
    | ok a =>
      rw [exec_within_ok run]
      exact h.congr here rfl rfl
    | error e =>
      rw [exec_within_error run]
      exact h.congr here rfl rfl

theorem preserves_splice (h : Outlasts inv) (container : NodeId) (html : String)
    (placeholders : Placeholders) : Preserves inv (splice container html placeholders) := by
  have replaced : ∀ m : Marker, Preserves inv (replaceMarker m) := fun m =>
    .bind (preserves_onPanel (h.widget m.field)) fun _ =>
      .bind (preserves_onPage h _) fun _ => preserves_onPage h _
  refine .get_bind fun s => ?_
  dsimp only
  cases s.page.readMarkup container html with
  | error e => exact fun _ => id
  | ok nodes => exact .bind (fun _ here => h.congr here rfl rfl) fun _ => .forM replaced _

end BuildM

/-! ## Assembling a panel -/

/-- The fields are ranked, and those that are open are among the first. -/
structure Assembly.Ranked (m n : Nat) (a : Assembly) : Prop where
  fields : a.toScene.Ranked n
  frames : ∀ f ∈ a.frames.filterMap Frame.field, f.index < m

namespace AssemblyM

open Assembly (Ranked)

variable {a : Assembly} {m n : Nat} {α : Type}

theorem preserves_build {operation : BuildM α} (keeps : Preserves (Scene.Ranked n) operation) :
    Preserves (Ranked m n) (build operation) := fun a h => by
  rw [exec_build]
  exact ⟨keeps _ h.fields, h.frames⟩

theorem preserves_onPanel {operation : PanelM α} (keeps : Preserves (Scene.Ranked n) operation) :
    Preserves (Ranked m n) (onPanel operation) := preserves_build (BuildM.preserves_onPanel keeps)

theorem preserves_changeFrames {change : List Frame → List Frame}
    (fields : ∀ fs, (change fs).filterMap Frame.field ⊆ fs.filterMap Frame.field) :
    Preserves (Ranked m n) (changeFrames change) := fun _ h => ⟨h.fields, fun f mem => h.frames f (fields _ mem)⟩

/-- Changing what the innermost frame collects. -/
theorem preserves_updateTarget {change : Frame → Frame} (same : ∀ f, (change f).field = f.field) :
    Preserves (Ranked m n) (changeFrames (Frame.updateTarget change)) :=
  preserves_changeFrames fun fs _ mem => by rwa [Frame.filterMap_field_updateTarget same fs] at mem

/-- A field takes its place below an open one, which is older. -/
theorem preserves_register (identifier : String) {child : FieldId} (younger : m ≤ child.index) :
    Preserves (Ranked m n) (register identifier child) := by
  intro a h
  unfold register
  rw [exec_bind_ok (exec_get a)]
  have marked : ∀ accepted : Bool, Preserves (Ranked m n) (if accepted then
      changeFrames (Frame.updateTarget fun f => f.addMarker identifier child) else pure ()) := by
    intro accepted
    cases accepted with
    | true => exact preserves_updateTarget (Frame.addMarker_field · identifier child)
    | false => exact .pure _
  cases is : Frame.target? a.frames with
  | none => exact h
  | some target =>
    dsimp only
    cases parent : target.field with
    | some p =>
      have lies : Frame.targetField? a.frames = some p := by
        rw [Frame.targetField?, is]
        exact parent
      have older : p.index < child.index :=
        Nat.lt_of_lt_of_le (h.frames p (Frame.mem_of_targetField? lies)) younger
      exact Preserves.bind (preserves_onPanel (Scene.Ranked.add older)) marked a h
    | none => exact marked true a h

/-- A field that is made is younger than the open ones. -/
theorem exec_makeField_ranked (h : a.Ranked n n) (factory : Option Factory) (attributes : Attributes) :
    ∃ made a', exec (makeField factory attributes) a = (.ok made, a') ∧ a'.Ranked n n ∧
      ∀ f kind, made = some (f, kind) → n ≤ f.index ∧ a'.Ranked n (f.index + 1) := by
  unfold makeField
  cases factory.bind Factory.makes with
  | none => exact ⟨none, a, rfl, h, nofun⟩
  | some kind =>
    obtain ⟨s', run, ranked⟩ := h.fields.create kind attributes
    refine ⟨_, { a with toScene := s' }, (exec_bind_ok (exec_onPanel_ok run)).trans rfl,
      ⟨ranked.mono (Nat.le_succ_of_le h.fields.size), h.frames⟩, ?_⟩
    rintro f kind' ⟨⟩
    exact ⟨h.fields.size, ranked, h.frames⟩

theorem preserves_beginField (factory : Option Factory) (attributes : Attributes) :
    Preserves (fun a => ∃ n, Ranked n n a) (beginField factory attributes) := by
  rintro a ⟨n, h⟩
  unfold beginField
  rw [exec_bind_ok (exec_get a)]
  dsimp only
  split
  · exact ⟨n, h⟩
  · obtain ⟨made, a₁, run, h₁, new⟩ := exec_makeField_ranked h factory attributes
    rw [exec_bind_ok run]
    have drawn {m n : Nat} : Preserves (Ranked m n) (onPanel (PanelM.draw .placeholder)) :=
      preserves_onPanel fun s here => (Scene.Ranked.outlasts n).congr here rfl rfl
    cases made with
    | none =>
      refine ⟨n, Preserves.bind drawn (fun _ => preserves_changeFrames fun fs => ?_) a₁ h₁⟩
      exact List.Subset.refl _
    | some made =>
      obtain ⟨f, kind⟩ := made
      obtain ⟨younger, h₂⟩ := new f kind rfl
      refine ⟨f.index + 1, ?_⟩
      have h₃ := drawn a₁ h₂
      rw [exec_bind_ok (exec_onPanel_ok (PanelM.exec_draw .placeholder))]
      rw [exec_onPanel_ok (PanelM.exec_draw .placeholder)] at h₃
      have h₄ := preserves_register (a₁.counters.next a₁.panel.series .placeholder).1 younger _ h₃
      dsimp only
      rw [exec_bind]
      cases registered : exec (register (a₁.counters.next a₁.panel.series .placeholder).1 f)
          { a₁ with counters := (a₁.counters.next a₁.panel.series .placeholder).2 } with
      | mk answer a₂ =>
        rw [registered] at h₄
        have older : ∀ g ∈ a₂.frames.filterMap Frame.field, g.index < f.index + 1 := fun g mem =>
          Nat.lt_succ_of_lt (Nat.lt_of_lt_of_le (h₄.frames g mem) younger)
        cases answer with
        | ok u => exact ⟨h₄.fields, List.forall_mem_cons.2 ⟨Nat.lt_succ_self _, older⟩⟩
        | error e => exact ⟨h₄.fields, older⟩

/-- Collected markup is put on the page. -/
theorem preserves_install (frame : Frame) (isRoot : Bool) : Preserves (Ranked m n) (install frame isRoot) := by
  have outlasts := Scene.Ranked.outlasts n
  have spliced := fun container buffer placeholders => preserves_build (m := m)
    (BuildM.preserves_splice outlasts container buffer placeholders)
  unfold install
  split
  · split
    · exact .pure _
    · split
      · exact .get_bind fun _ => spliced _ _ _
      · split
        · exact .bind (preserves_build (BuildM.preserves_onPage outlasts _)) fun _ =>
            .bind (spliced _ _ _) fun _ => .bind (preserves_onPanel (outlasts.fillContent _ _)) fun _ =>
              .pure _
        · exact .pure _
  · exact .pure _

theorem preserves_endField : Preserves (Ranked m n) endField := by
  intro a h
  unfold endField
  rw [exec_bind_ok (exec_get a)]
  cases frames : a.frames with
  | nil => exact h
  | cons frame rest =>
    dsimp only
    rw [exec_bind_ok (exec_modify _ _)]
    refine preserves_install frame _ _ ⟨h.fields, fun f mem => h.frames f ?_⟩
    rw [frames]
    exact ((List.sublist_cons_self frame rest).filterMap Frame.field).subset mem

mutual
/-- An item of a template is brought to life. -/
theorem preserves_replayItem : ∀ item : Cache.Item Blueprint,
    Preserves (fun a => ∃ n, Ranked n n a) (replayItem item)
  | .text run => fun a ⟨n, h⟩ => ⟨n, preserves_updateTarget (Frame.addText_field · run) a h⟩
  | .composite blueprint items => by
    rw [replayItem]
    exact .bind (preserves_beginField blueprint.factory blueprint.attributes) fun _ =>
      .bind (preserves_replayItems items) fun _ a ⟨n, h⟩ => ⟨n, preserves_endField a h⟩

theorem preserves_replayItems : ∀ items : List (Cache.Item Blueprint),
    Preserves (fun a => ∃ n, Ranked n n a) (replayItems items)
  | [] => .pure _
  | item :: items => by
    rw [replayItems]
    exact .bind (preserves_replayItem item) fun _ => preserves_replayItems items
end

end AssemblyM

/-! ## Building -/

namespace Builder

variable {b : Builder} {w w' : Workspace} {p p' : Panel} {n : Nat}

/-- The ranks of the fields of a panel do not depend on the page. -/
theorem ranked_page (h : (Scene.mk p w.page w.counters).Ranked n) (w' : Workspace) :
    (Scene.mk p w'.page w'.counters).Ranked n := (Scene.Ranked.outlasts n).congr h rfl rfl

theorem ranked_of_assemble {t : Template} (run : exec (b.assemble t) w = (.ok p, w')) :
    ∃ n, (Scene.mk p w'.page w'.counters).Ranked n := by
  rw [assemble_eq_within] at run
  obtain ⟨_, a, steps, rfl, rfl⟩ := exec_within_eq_ok run
  have start : (b.start w).Ranked 0 0 := by
    refine ⟨⟨⟨.empty, fun built => ?_⟩, fun lies => ?_, Nat.zero_le _⟩, List.forall_mem_nil _⟩
    · cases built.found
    · cases lies
  have whole : Preserves (fun a => ∃ n, Assembly.Ranked n n a) (Builder.steps t) :=
    .bind (AssemblyM.preserves_replayItem t.toItem) fun _ a h => by rwa [AssemblyM.exec_finish]
  obtain ⟨n, ranked⟩ := whole _ ⟨0, start⟩
  rw [steps] at ranked
  exact ⟨n, ranked.fields⟩

/-- Views are filled by asking for their widgets, and what is built for them is on panels of its own. -/
theorem ranked_of_fillViews {build : String → WorkM (Option Panel)} :
    ∀ {views : List (FieldId × Option String)} {p p' : Panel} {w w' : Workspace},
      (Scene.mk p w.page w.counters).Ranked n → exec (fillViews build p views) w = (.ok p', w') →
      (Scene.mk p' w'.page w'.counters).Ranked n
  | [], _, _, _, _, h, run => by
    cases run
    exact h
  | (_, none) :: views, _, _, _, _, h, run => by
    rw [fillViews] at run
    exact ranked_of_fillViews h run
  | (f, some name) :: views, p, p', w, w', h, run => by
    rw [fillViews] at run
    obtain ⟨shown, w₁, _, run⟩ := exec_bind_eq_ok.1 run
    cases shown with
    | none => exact ranked_of_fillViews (ranked_page h w₁) run
    | some shown =>
      obtain ⟨⟨_, p₁⟩, w₂, filled, run⟩ := exec_bind_eq_ok.1 run
      have step := (Scene.Ranked.outlasts n).setView f shown _ (ranked_page h w₁)
      rw [exec_onPanel_eq_ok filled] at step
      exact ranked_of_fillViews step run

/-- **The fields of a panel that was built** are ranked, and its widgets are what their attributes say. -/
theorem ranked_of_build {name : String} (run : exec (b.build name) w = (.ok (some p), w')) :
    ∃ n, (Scene.mk p w'.page w'.counters).Ranked n := by
  unfold build at run
  rw [buildUpTo] at run
  split at run
  · cases run
  · rw [if_neg List.not_mem_nil] at run
    obtain ⟨q, w₁, assembled, run⟩ := exec_bind_eq_ok.1 run
    obtain ⟨p', w₂, filled, run⟩ := exec_bind_eq_ok.1 run
    cases run
    obtain ⟨n, ranked⟩ := ranked_of_assemble assembled
    exact ⟨n, ranked_of_fillViews ranked filled⟩

end Builder

end Formwork
