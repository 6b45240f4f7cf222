import Formwork.Proofs.Template.Replay
import Formwork.Template.Builder

/-!
# Assembling a template

A template as a whole is played on the draft of a new panel.  Its own element may stand for a field
as well; that field lies below no other, and what it shows goes into the panel.

Assembling a template leaves a scene that depicts what was played, and it fails only when markup that
was collected cannot be read (`Builder.exec_assemble`).
-/

namespace Formwork

set_option autoImplicit false

/-! ## Playing a template -/

/-- The draft of a new panel. -/
def Draft.blank (panel : Panel) : Draft := ⟨panel, fun _ => []⟩

namespace Piece

/-- The field that a template as a whole stands for, what lies in it, and the counters after its
names and identifiers were drawn. -/
def ofTemplate (series : SeriesId) (c : CounterPool) (t : Template) :
    Option Made × List Piece × CounterPool :=
  match t.payload.factory.bind Factory.makes with
  | none => (none, ofItems series (c.next series .placeholder).2 t.items)
  | some kind =>
    let made := make series c kind t.payload.attributes
    (some made.1, ofItems series made.2 t.items)

end Piece

namespace Play

/-- The field that the template as a whole stands for. -/
def rootField (d : Draft) (root : Option Made) : Option FieldId := root.map fun _ => ⟨d.size⟩

/-- Whether what lies in the template is shown. -/
def rootCollects (root : Option Made) : Bool := root.all fun m => m.kind.acceptsPanel

/-- The start of a template. -/
def rootPlay (d : Draft) (root : Option Made) : Play := ⟨root.elim d (d.enter none), "", .empty⟩

/-- Play a template as a whole. -/
def template (d : Draft) (root : Option Made) (inner : List Piece) : Except Markup.Error Draft :=
  (pieces (rootField d root) (rootCollects root) inner (rootPlay d root)).bind
    fun played => played.settle none id

end Play

/-! ## A new panel -/

namespace Draft

theorem field?_blank {panel : Panel} (empty : panel.table = .empty) (f : FieldId) :
    (blank panel).field? f = none := by
  unfold field? Panel.field? blank FieldTable.field?
  rw [empty]
  rfl

theorem Sound.blank {panel : Panel} (empty : panel.table = .empty) : (blank panel).Sound where
  ids found := by
    rw [field?_blank empty] at found
    cases found
  attached found := by
    rw [field?_blank empty] at found
    cases found
  distinct found := by
    rw [field?_blank empty] at found
    cases found
  older found := by
    rw [field?_blank empty] at found
    cases found

end Draft

theorem Play.Open.blank {panel : Panel} (empty : panel.table = .empty) :
    Play.Open none ⟨Draft.blank panel, "", .empty⟩ where
  sound := Draft.Sound.blank empty
  known q eq := nomatch eq
  unfilled q eq := nomatch eq
  fresh _ _ := rfl
  marked identifier f found := by
    rw [OrderedMap.get?_empty] at found
    cases found

/-- The layout of a page with a new panel. -/
def Layout.start (root : NodeId) : Layout :=
  Function.update (fun _ => none) .panel (some ⟨none, .element root "div" .empty []⟩)

/-- A new panel shows nothing. -/
theorem Scene.Depicts.create (page : Page) (series : SeriesId) (messages : Messages)
    (counters : CounterPool) :
    (⟨(Panel.create page series messages).1, (Panel.create page series messages).2, counters⟩ :
      Scene).Depicts page (Layout.start ⟨page.size⟩)
      (Draft.blank (Panel.create page series messages).1) := by
  have empty : (Panel.create page series messages).1.table = .empty := rfl
  have bare : (Panel.create page series messages).1.bare = (Panel.create page series messages).1 := by
    unfold Panel.bare
    rw [empty, FieldTable.bare_empty]
    rfl
  have elsewhere : ∀ {k}, k ≠ .panel → Layout.start ⟨page.size⟩ k = none :=
    fun ne => Function.update_of_ne ne ..
  refine ⟨(Page.Holds.empty page).create .panel "div" .empty, Layout.Ordered.empty.add rfl rfl, bare,
    ⟨[], Function.update_self .., rfl⟩, ?_, ?_, ?_, ?_, ?_, fun _ => elsewhere (by simp)⟩
  · intro f field w found
    rw [Draft.field?_blank empty] at found
    cases found
  · intro f field found
    rw [Draft.field?_blank empty] at found
    cases found
  · intro f field e found
    rw [Draft.field?_blank empty] at found
    cases found
  · intro f field found
    rw [Draft.field?_blank empty] at found
    cases found
  · exact fun _ => ⟨elsewhere (by simp), elsewhere (by simp)⟩

/-! ## Running a template -/

section Run

variable {base : Page} {L : Layout} {a : Assembly} {panel : Panel} {t : Template}

/-- The field of the template itself is not registered anywhere. -/
theorem AssemblyM.exec_register_root (frames : a.frames = []) (identifier : String) (f : FieldId) :
    exec (AssemblyM.register identifier f) a = (.ok (), a) := by
  unfold AssemblyM.register
  rw [exec_bind_ok (exec_get a), frames]
  rfl

/-- Open the frame of a field that was made, or of an element without one. -/
def AssemblyM.openFrame (identifier : String) : Option (FieldId × FieldKind) → AssemblyM Unit
  | some (field, kind) => do
    AssemblyM.register identifier field
    AssemblyM.changeFrames fun fs =>
      ⟨some field, if kind.acceptsPanel then .fresh else .dropping⟩ :: fs
  | none =>
    AssemblyM.changeFrames fun fs => ⟨none, if fs.isEmpty then .fresh else .passing⟩ :: fs

/-- A field may begin as long as the template has not ended. -/
theorem AssemblyM.exec_beginField_unfinished (unfinished : a.finished = false)
    (factory : Option Factory) (attributes : Attributes) :
    exec (AssemblyM.beginField factory attributes) a = exec (do
      let made ← AssemblyM.makeField factory attributes
      let identifier ← AssemblyM.onPanel (PanelM.draw .placeholder)
      AssemblyM.openFrame identifier made) a := by
  unfold AssemblyM.beginField
  have unended : ¬ (a.frames.isEmpty = true ∧ a.finished = true) := by simp [unfinished]
  refine (exec_bind_ok (exec_get a)).trans ?_
  refine (congrArg (fun step => exec step a) (if_neg unended)).trans ?_
  refine congrArg (fun step => exec step a) (bind_congr fun made => bind_congr fun identifier => ?_)
  cases made <;> rfl

/-- **A template begins**: its element may stand for a field, which lies below no other. -/
theorem AssemblyM.exec_beginField_root (depicts : a.toScene.Depicts base L (Draft.blank panel))
    (empty : panel.table = .empty) (loose : ∀ i, L (.loose i) = none) (frames : a.frames = [])
    (unfinished : a.finished = false) {root : Option Made} {inner : List Piece} {c : CounterPool}
    (pieces : Piece.ofTemplate panel.series a.counters t = (root, inner, c)) :
    ∃ a', exec (AssemblyM.beginField t.payload.factory t.payload.attributes) a = (.ok (), a') ∧
      Playing base L a' (Play.rootField (Draft.blank panel) root) (Play.rootCollects root)
        (Play.rootPlay (Draft.blank panel) root) [] [] ∧ a'.finished = false ∧
      Piece.ofItems panel.series a'.counters t.items = (inner, c) := by
  have same : a.panel.series = panel.series := depicts.series
  rw [AssemblyM.exec_beginField_unfinished unfinished]
  unfold Piece.ofTemplate at pieces
  unfold AssemblyM.makeField
  cases makes : t.payload.factory.bind Factory.makes with
  | none =>
    rw [makes] at pieces
    obtain ⟨rfl, below⟩ := Prod.mk.inj pieces
    refine ⟨{ a with
      counters := (a.counters.next a.panel.series .placeholder).2
      frames := [⟨none, .fresh⟩] }, ?_, ⟨depicts.counters _, loose, rfl, nofun, Play.Open.blank empty,
        ?_⟩, unfinished, ?_⟩
    · refine (exec_bind_ok (exec_pure _ a)).trans ?_
      refine (exec_bind_ok (AssemblyM.exec_onPanel_ok (PanelM.exec_draw _))).trans ?_
      refine (AssemblyM.exec_changeFrames _).trans ?_
      dsimp only
      rw [frames]
      rfl
    · intro identifier f found
      rw [Play.rootPlay, OrderedMap.get?_empty] at found
      cases found
    · dsimp only
      rw [same, below]
  | some kind =>
    rw [makes] at pieces
    obtain ⟨rfl, below⟩ := Prod.mk.inj pieces
    obtain ⟨s₁, run₁, depicts₁, counters₁, _⟩ := depicts.exec_createField (Draft.Sound.blank empty)
      kind t.payload.attributes rfl
    have series : s₁.panel.series = panel.series := depicts₁.series
    rw [same] at depicts₁ counters₁
    refine ⟨{ a with
      toScene := { s₁ with counters := (s₁.counters.next s₁.panel.series .placeholder).2 }
      frames := [⟨some ⟨(Draft.blank panel).size⟩,
        if kind.acceptsPanel then .fresh else .dropping⟩] }, ?_,
      ⟨depicts₁.counters _, loose, rfl, nofun, (Play.Open.blank empty).inner true,
        ?_⟩, unfinished, ?_⟩
    · refine (exec_bind_ok ((exec_bind_ok (AssemblyM.exec_onPanel_ok run₁)).trans rfl)).trans ?_
      refine (exec_bind_ok (AssemblyM.exec_onPanel_ok (PanelM.exec_draw _))).trans ?_
      dsimp only
      refine (exec_bind_ok (AssemblyM.exec_register_root (a := { a with
        toScene := { s₁ with
          counters := (s₁.counters.next s₁.panel.series .placeholder).2 } }) frames _ _)).trans ?_
      refine (AssemblyM.exec_changeFrames _).trans ?_
      dsimp only
      rw [frames]
    · intro identifier f found
      rw [Play.rootPlay, OrderedMap.get?_empty] at found
      cases found
    · dsimp only
      rw [series, counters₁]
      exact below

/-- A template ends when its content was played. -/
theorem AssemblyM.exec_endField_root {parent : Option FieldId} {collects : Bool} {p : Play}
    (h : Playing base L a parent collects p [] []) (empty : p.draft.filled none = [])
    (dropped : collects = false → p.markup = "") :
    (∀ settled, p.settle none id = .ok settled → ∃ a' L',
      exec AssemblyM.endField a = (.ok (), a') ∧ a'.frames = [] ∧
        a'.toScene.Depicts base L' settled ∧ a'.counters = a.counters) ∧
    ∀ e, p.settle none id = .error e → ∃ a',
      exec AssemblyM.endField a = (.error (.page (.invalidMarkup e)), a') := by
  have unfolded : exec AssemblyM.endField a =
      exec (AssemblyM.install (Frame.ofPlay parent collects p) true)
        { a with frames := [], finished := true } := by
    unfold AssemblyM.endField
    rw [exec_bind_ok (exec_get a), h.frames]
    refine (exec_bind_ok (exec_modify _ _)).trans ?_
    rw [List.isEmpty_nil, Bool.or_true]
  rw [unfolded]
  cases collects with
  | false =>
    unfold Play.settle
    rw [if_pos (dropped rfl)]
    refine ⟨fun settled run => ?_, fun e run => by cases run⟩
    cases run
    exact ⟨{ a with frames := [], finished := true }, L, rfl, rfl, h.depicts, rfl⟩
  | true =>
    obtain ⟨done, refused⟩ := AssemblyM.exec_install_panel
      (a := { a with frames := [], finished := true }) h.depicts h.relies empty
      fun g ⟨identifier, found⟩ => h.free identifier g found
    refine ⟨fun settled run => ?_, refused⟩
    obtain ⟨s', L', run', depicts, counters⟩ := done settled run
    exact ⟨_, L', run', rfl, depicts, counters⟩

end Run

namespace Builder

variable {b : Builder} {t : Template} {w : Workspace} {root : Option Made} {inner : List Piece}
  {c : CounterPool}

/-- The panel that a template is assembled on. -/
def newPanel (b : Builder) (page : Page) : Panel := (Panel.create page b.series b.messages).1

/-- What a template is played to. -/
def played (b : Builder) (page : Page) (root : Option Made) (inner : List Piece) :
    Except Markup.Error Draft := Play.template (.blank (b.newPanel page)) root inner

/-- The steps of assembling a template. -/
def steps (t : Template) : AssemblyM Unit := do
  AssemblyM.replay t
  AssemblyM.finish

/-- An assembly in which nothing has happened. -/
def start (b : Builder) (w : Workspace) : Assembly :=
  .start ⟨b.newPanel w.page, (Panel.create w.page b.series b.messages).2, w.counters⟩

theorem assemble_eq_within (b : Builder) (t : Template) : b.assemble t = within (steps t) b.start
    (fun _ a => ⟨a.page, a.counters⟩) (fun _ a => a.panel) id := by
  unfold assemble within
  refine bind_congr fun w => ?_
  dsimp only [steps, start, newPanel]
  rcases Panel.create w.page b.series b.messages with ⟨panel, page⟩
  dsimp only
  rcases (AssemblyM.replay t >>= fun _ => AssemblyM.finish).run.run _ with ⟨_ | _, _⟩ <;> rfl

theorem exec_assemble_of_ok {a : Assembly} (run : exec (steps t) (b.start w) = (.ok (), a)) :
    exec (b.assemble t) w = (.ok a.panel, ⟨a.page, a.counters⟩) := by
  rw [assemble_eq_within]
  exact exec_within_ok run

theorem exec_assemble_of_error {a : Assembly} {e : BuildError}
    (run : exec (steps t) (b.start w) = (.error e, a)) :
    exec (b.assemble t) w = (.error e, ⟨a.page, a.counters⟩) := by
  rw [assemble_eq_within]
  exact exec_within_error run

/-- **Assembling a template** plays it, and fails only when collected markup cannot be read. -/
theorem exec_assemble (pieces : Piece.ofTemplate b.series w.counters t = (root, inner, c)) :
    (∀ d, b.played w.page root inner = .ok d → ∃ (s : Scene) (L : Layout),
      exec (b.assemble t) w = (.ok s.panel, ⟨s.page, s.counters⟩) ∧ s.Depicts w.page L d ∧
        s.counters = c) ∧
    ∀ e, b.played w.page root inner = .error e → ∃ w',
      exec (b.assemble t) w = (.error (.page (.invalidMarkup e)), w') := by
  have empty : (b.newPanel w.page).table = .empty := rfl
  have depicts : (b.start w).toScene.Depicts w.page (Layout.start ⟨w.page.size⟩)
      (.blank (b.newPanel w.page)) := Scene.Depicts.create w.page b.series b.messages w.counters
  obtain ⟨a₁, run₁, h₁, unfinished, below⟩ := AssemblyM.exec_beginField_root depicts empty
    (fun i => Function.update_of_ne (by simp) ..) rfl rfl pieces
  have series : (Play.rootPlay (.blank (b.newPanel w.page)) root).draft.panel.series =
      (b.newPanel w.page).series := by
    unfold Play.rootPlay
    cases root with
    | none => rfl
    | some m => exact Play.series_enter (.blank (b.newPanel w.page)) none m
  have follows := replay_items t.items h₁ series
  rw [below] at follows
  unfold played Play.template
  dsimp only at follows
  cases played : Play.pieces (Play.rootField (.blank (b.newPanel w.page)) root)
      (Play.rootCollects root) inner (Play.rootPlay (.blank (b.newPanel w.page)) root) with
  | error e =>
    rw [played] at follows
    obtain ⟨a₂, run₂⟩ := follows
    refine ⟨fun d run => (by cases run), fun e' run => ?_⟩
    cases run
    have run : exec (AssemblyM.replay t) (b.start w) = (.error (.page (.invalidMarkup e)), a₂) :=
      (exec_bind_ok run₁).trans (exec_bind_error run₂)
    exact ⟨_, exec_assemble_of_error (exec_bind_error run)⟩
  | ok p =>
    rw [played] at follows
    obtain ⟨a₂, L₂, run₂, h₂, _, counters₂, _⟩ := follows
    obtain ⟨grows, _⟩ := Play.pieces_grows _ played h₁.relies
    have unfilled : p.draft.filled none = [] := by
      rw [grows.filled none nofun]
      unfold Play.rootPlay
      cases root with
      | none => rfl
      | some m => exact congrFun (Play.filled_enter (.blank (b.newPanel w.page)) none m) none
    have dropped : Play.rootCollects root = false → p.markup = "" := by
      intro declines
      rw [declines] at played
      exact Play.markup_pieces_dropping _ played
    obtain ⟨done, refused⟩ := AssemblyM.exec_endField_root h₂ unfilled dropped
    rw [Except.bind]
    refine ⟨fun d run => ?_, fun e run => ?_⟩
    · obtain ⟨a₃, L₃, run₃, frames₃, depicts, counters₃⟩ := done d run
      refine ⟨a₃.toScene, L₃, exec_assemble_of_ok ?_, depicts, counters₃.trans counters₂⟩
      refine (exec_bind_ok ((exec_bind_ok run₁).trans ((exec_bind_ok run₂).trans run₃))).trans ?_
      unfold AssemblyM.finish
      rw [exec_bind_ok (exec_get a₃), frames₃]
      rfl
    · obtain ⟨a₃, run₃⟩ := refused e run
      have run : exec (AssemblyM.replay t) (b.start w) = (.error (.page (.invalidMarkup e)), a₃) :=
        (exec_bind_ok run₁).trans ((exec_bind_ok run₂).trans run₃)
      exact ⟨_, exec_assemble_of_error (exec_bind_error run)⟩

end Builder

end Formwork
