import Formwork.Proofs.Template.Play

/-!
# Replaying a template

Replaying a template on a scene does to the draft that the scene depicts what playing its pieces
does.  `Playing` relates an assembly to a play: the innermost frame that does not pass everything on
has collected what the play has collected.  It is preserved by every item
(`Playing.replay_items`), by induction over the items.
-/

namespace Formwork

set_option autoImplicit false

namespace AssemblyM

variable {α : Type} {a : Assembly} {x : α} {s : Scene}

theorem build_eq_within (operation : BuildM α) : build operation = within operation
    Assembly.toScene (fun a s => { a with toScene := s }) (fun x _ => x) id := by
  unfold build within
  refine bind_congr fun a => ?_
  rcases operation.run.run a.toScene with ⟨_ | _, _⟩ <;> rfl

theorem exec_build_ok {operation : BuildM α} (run : exec operation a.toScene = (.ok x, s)) :
    exec (build operation) a = (.ok x, { a with toScene := s }) := by
  rw [build_eq_within]
  exact exec_within_ok run

theorem exec_build_error {operation : BuildM α} {e : BuildError}
    (run : exec operation a.toScene = (.error e, s)) :
    exec (build operation) a = (.error e, { a with toScene := s }) := by
  rw [build_eq_within]
  exact exec_within_error run

theorem exec_onPanel_ok {operation : PanelM α} (run : exec operation a.toScene = (.ok x, s)) :
    exec (onPanel operation) a = (.ok x, { a with toScene := s }) :=
  exec_build_ok (BuildM.exec_onPanel_ok run)

theorem exec_changeFrames (change : List Frame → List Frame) :
    exec (changeFrames change) a = (.ok (), { a with frames := change a.frames }) := rfl

end AssemblyM

/-! ## Frames -/

namespace Frame

/-- The frame of a play. -/
def ofPlay (parent : Option FieldId) (collects : Bool) (p : Play) : Frame :=
  ⟨parent, if collects then .collecting p.markup p.marks else .dropping⟩

variable {parent : Option FieldId} {collects : Bool} {p : Play} {passing rest : List Frame}

theorem passes_ofPlay (parent : Option FieldId) (collects : Bool) (p : Play) :
    (ofPlay parent collects p).passes = false := by
  unfold ofPlay passes
  cases collects <;> rfl

theorem isEmpty_append (passing : List Frame) (p : Play) (rest : List Frame) :
    (passing ++ ofPlay parent collects p :: rest).isEmpty = false := by
  cases passing <;> rfl

theorem target?_append (passes : ∀ f ∈ passing, f.passes = true) :
    target? (passing ++ ofPlay parent collects p :: rest) = some (ofPlay parent collects p) := by
  unfold target?
  induction passing with
  | nil => rw [List.nil_append, List.find?_cons, passes_ofPlay]; rfl
  | cons f fs ih =>
    rw [List.cons_append, List.find?_cons, passes f List.mem_cons_self]
    exact ih fun f' mem => passes f' (List.mem_cons_of_mem _ mem)

theorem updateTarget_append (passes : ∀ f ∈ passing, f.passes = true) (change : Frame → Frame) :
    updateTarget change (passing ++ ofPlay parent collects p :: rest) =
      passing ++ change (ofPlay parent collects p) :: rest := by
  induction passing with
  | nil =>
    rw [List.nil_append, updateTarget, passes_ofPlay]
    rfl
  | cons f fs ih =>
    rw [List.cons_append, updateTarget, passes f List.mem_cons_self,
      ih fun f' mem => passes f' (List.mem_cons_of_mem _ mem)]
    rfl

theorem addText_ofPlay (text : String) :
    (ofPlay parent collects p).addText text = ofPlay parent collects (p.write collects text) := by
  unfold ofPlay addText Play.write
  cases collects <;> rfl

end Frame

/-! ## The relation -/

/-- An assembly is where a play is. -/
structure Playing (base : Page) (L : Layout) (a : Assembly) (parent : Option FieldId)
    (collects : Bool) (p : Play) (passing rest : List Frame) : Prop where
  depicts : a.toScene.Depicts base L p.draft
  loose : ∀ i, L (.loose i) = none
  frames : a.frames = passing ++ Frame.ofPlay parent collects p :: rest
  passes : ∀ f ∈ passing, f.passes = true
  relies : Play.Open parent p
  free : ∀ identifier f, p.marks.get? identifier = some f → L.Free f

/-- What a step of an assembly does when a play of it ends in `r`. -/
def Follows (base : Page) (L : Layout) (a : Assembly) (parent : Option FieldId) (collects : Bool)
    (p : Play) (passing rest : List Frame) (step : AssemblyM Unit) (c' : CounterPool) :
    Except Markup.Error Play → Prop
  | .ok p' => ∃ a' L', exec step a = (.ok (), a') ∧
      Playing base L' a' parent collects p' passing rest ∧ a'.finished = a.finished ∧
      a'.counters = c' ∧ ∀ g : FieldId, g.index < p.draft.size → L.Free g → L'.Free g
  | .error e => ∃ a', exec step a = (.error (.page (.invalidMarkup e)), a')

namespace Playing

variable {base : Page} {L : Layout} {a : Assembly} {parent : Option FieldId} {collects : Bool}
  {p : Play} {passing rest : List Frame}

theorem frames_ne_nil (h : Playing base L a parent collects p passing rest) :
    a.frames.isEmpty = false := by
  rw [h.frames]
  exact Frame.isEmpty_append passing p rest

theorem series (h : Playing base L a parent collects p passing rest) :
    a.panel.series = p.draft.panel.series := h.depicts.series

/-- A run of markup is collected. -/
theorem addText (h : Playing base L a parent collects p passing rest) (text : String) :
    Follows base L a parent collects p passing rest (AssemblyM.addText text) a.counters
      (.ok (p.write collects text)) := by
  have draft : (p.write collects text).draft = p.draft := by
    unfold Play.write
    split <;> rfl
  have marks : (p.write collects text).marks = p.marks := by
    unfold Play.write
    split <;> rfl
  refine ⟨_, L, AssemblyM.exec_changeFrames _, ⟨?_, h.loose, ?_, h.passes, h.relies.write text, ?_⟩,
    rfl, rfl, fun _ _ isFree => isFree⟩
  · rw [draft]
    exact h.depicts
  · dsimp only
    rw [h.frames, Frame.updateTarget_append h.passes, Frame.addText_ofPlay]
  · rw [marks]
    exact h.free

end Playing

/-! ## A field begins -/

section Begin

variable {base : Page} {L : Layout} {a : Assembly} {parent : Option FieldId} {collects : Bool}
  {p : Play} {passing rest : List Frame} {kind : FieldKind} {attributes : Attributes}

theorem Frame.addMarker_enter (m : Made) (content : p.draft.roleUnder parent m = .content) :
    (Frame.ofPlay parent collects p).addMarker m.identifier ⟨p.draft.size⟩ =
      Frame.ofPlay parent collects (p.enter parent collects m) := by
  unfold Frame.ofPlay Frame.addMarker Play.enter
  cases collects with
  | true => simp [content]
  | false => rfl

theorem Frame.ofPlay_enter (m : Made) (part : p.draft.roleUnder parent m ≠ .content) :
    Frame.ofPlay parent collects p = Frame.ofPlay parent collects (p.enter parent collects m) := by
  unfold Frame.ofPlay Play.enter
  simp [part]

/-- **A new field is registered**: it joins the field around it, and its marker is written when it
became content there. -/
theorem AssemblyM.exec_register (m : Made)
    (depicts : a.toScene.Depicts base L (p.draft.add (p.draft.made m)))
    (frames : a.frames = passing ++ Frame.ofPlay parent collects p :: rest)
    (passes : ∀ f ∈ passing, f.passes = true) (relies : Play.Open parent p)
    (blank : a.toScene.widget? ⟨p.draft.size⟩ = none) :
    ∃ s' L', exec (AssemblyM.register m.identifier ⟨p.draft.size⟩) a = (.ok (), { a with
          toScene := s'
          frames := passing ++ Frame.ofPlay parent collects (p.enter parent collects m) :: rest }) ∧
      s'.Depicts base L' (p.draft.enter parent m) ∧ s'.counters = a.counters ∧
      L.Spares L' fun g => g = ⟨p.draft.size⟩ ∧ p.draft.roleUnder parent m ≠ .content := by
  unfold AssemblyM.register
  rw [exec_bind_ok (exec_get a), frames, Frame.target?_append passes]
  cases parent with
  | none =>
    refine ⟨a.toScene, L, ?_, depicts, rfl, Layout.Spares.refl L⟩
    refine (exec_bind_ok (exec_pure true a)).trans ?_
    dsimp only
    rw [if_pos rfl, AssemblyM.exec_changeFrames, frames, Frame.updateTarget_append passes,
      Frame.addMarker_enter m rfl]
  | some q =>
    obtain ⟨container, hq⟩ := relies.known q rfl
    have sound : (p.draft.add (p.draft.made m)).Sound := relies.sound.add rfl rfl rfl
    have there := Draft.field?_add_of_some hq (p.draft.made m)
    have new := Play.field?_made p.draft m
    have younger : q.index < (⟨p.draft.size⟩ : FieldId).index := Draft.lt_size hq
    obtain ⟨s', L', run, depicts', counters, spares⟩ :=
      depicts.exec_addChild sound younger there new rfl (relies.unfilled q rfl) blank
    have role : Draft.roleIn container (p.draft.made m) = p.draft.roleUnder (some q) m := by
      show _ = (p.draft.add (p.draft.made m)).roleOf q ⟨p.draft.size⟩
      unfold Draft.roleOf
      rw [there, new]
    rw [role] at run depicts' spares
    refine ⟨s', L', ?_, depicts', counters, spares⟩
    refine (exec_bind_ok (AssemblyM.exec_onPanel_ok run)).trans ?_
    by_cases content : p.draft.roleUnder (some q) m = .content
    · dsimp only
      rw [if_pos (decide_eq_true content), AssemblyM.exec_changeFrames]
      dsimp only
      rw [frames, Frame.updateTarget_append passes, Frame.addMarker_enter m content]
    · dsimp only
      rw [if_neg (by simpa using content), ← Frame.ofPlay_enter m content, ← frames]
      rfl

variable (attributes) in
/-- An element whose factory declines passes everything on. -/
theorem Playing.exec_beginField_none (h : Playing base L a parent collects p passing rest)
    {factory : Option Factory} (declines : factory.bind Factory.makes = none) :
    ∃ a', exec (AssemblyM.beginField factory attributes) a = (.ok (), a') ∧
      Playing base L a' parent collects p (⟨none, .passing⟩ :: passing) rest ∧
      a'.finished = a.finished ∧
      a'.counters = (a.counters.next a.panel.series .placeholder).2 := by
  refine ⟨{ a with
    counters := (a.counters.next a.panel.series .placeholder).2
    frames := ⟨none, .passing⟩ :: a.frames }, ?_, ⟨h.depicts.counters _, h.loose, ?_, ?_, h.relies,
      h.free⟩, rfl, rfl⟩
  · unfold AssemblyM.beginField
    rw [exec_bind_ok (exec_get a), h.frames_ne_nil]
    simp only [Bool.false_eq_true, false_and, if_false]
    unfold AssemblyM.makeField
    rw [declines]
    refine (exec_bind_ok (exec_pure _ a)).trans ?_
    refine (exec_bind_ok (AssemblyM.exec_onPanel_ok (PanelM.exec_draw _))).trans ?_
    refine (AssemblyM.exec_changeFrames _).trans ?_
    dsimp only
    rw [h.frames_ne_nil]
    rfl
  · dsimp only
    rw [h.frames]
    rfl
  · intro f mem
    rcases List.mem_cons.1 mem with rfl | old
    · rfl
    · exact h.passes f old

/-- **A field begins**: it joins the field around it, and gets a frame of its own. -/
theorem Playing.exec_beginField (h : Playing base L a parent collects p passing rest)
    {factory : Option Factory} (makes : factory.bind Factory.makes = some kind) {m : Made}
    {c : CounterPool} (make : Piece.make a.panel.series a.counters kind attributes = (m, c)) :
    ∃ a' L', exec (AssemblyM.beginField factory attributes) a = (.ok (), a') ∧
      Playing base L' a' (some ⟨p.draft.size⟩) kind.acceptsPanel
        ⟨(p.enter parent collects m).draft, "", .empty⟩ []
        (passing ++ Frame.ofPlay parent collects (p.enter parent collects m) :: rest) ∧
      a'.finished = a.finished ∧ a'.counters = c ∧
      L.Spares L' fun g => g = ⟨p.draft.size⟩ ∧ p.draft.roleUnder parent m ≠ .content := by
  cases make
  obtain ⟨s₁, run₁, depicts₁, counters₁, blank⟩ := h.depicts.exec_createField h.relies.sound kind
    attributes (h.relies.fresh _ (Nat.le_refl _))
  have drawn := depicts₁.counters (s₁.counters.next s₁.panel.series .placeholder).2
  have series : s₁.panel.series = a.panel.series := depicts₁.series.trans h.depicts.series.symm
  obtain ⟨s', L', run₂, depicts₂, counters₂, spares⟩ := AssemblyM.exec_register
    (a := { a with toScene := { s₁ with
      counters := (s₁.counters.next s₁.panel.series .placeholder).2 } })
    (Piece.make a.panel.series a.counters kind attributes).1 drawn h.frames h.passes h.relies blank
  rw [series, counters₁] at run₂ counters₂
  refine ⟨{ a with
      toScene := s'
      frames := ⟨some ⟨p.draft.size⟩, if kind.acceptsPanel then .fresh else .dropping⟩ ::
        (passing ++ Frame.ofPlay parent collects (p.enter parent collects
          (Piece.make a.panel.series a.counters kind attributes).1) :: rest) }, L', ?_,
    ⟨depicts₂, fun i => (spares.loose i).trans (h.loose i), rfl, nofun,
      h.relies.inner _, fun identifier f found => ?_⟩, rfl, counters₂, spares⟩
  · unfold AssemblyM.beginField
    rw [exec_bind_ok (exec_get a), h.frames_ne_nil]
    simp only [Bool.false_eq_true, false_and, if_false]
    unfold AssemblyM.makeField
    rw [makes]
    refine (exec_bind_ok ((exec_bind_ok (AssemblyM.exec_onPanel_ok run₁)).trans rfl)).trans ?_
    refine (exec_bind_ok (AssemblyM.exec_onPanel_ok (PanelM.exec_draw _))).trans ?_
    dsimp only
    rw [series, counters₁]
    refine (exec_bind_ok run₂).trans ?_
    exact AssemblyM.exec_changeFrames _
  · rw [OrderedMap.get?_empty] at found
    cases found

end Begin

/-! ## A field ends -/

section Install

variable {base : Page} {L : Layout} {s : Scene} {d : Draft} {a : Assembly} {f : FieldId}
  {field : Field} {collects : Bool} {p : Play} {fields : FieldId → Prop}

/-- Splicing starts at an empty tree. -/
theorem Splicing.start (h : s.Depicts base L d) (site : SpliceSite)
    (there : L site.owner = some ⟨site.place, site.dom []⟩)
    (empty : site.owner = .panel → d.filled none = []) (free : ∀ f, fields f → L.Free f) :
    Splicing base d site fields s L [] where
  depicts := by
    have same : d.regard site.owner (Dom.htmlOf []) = d := by
      unfold Draft.regard
      split
      · case isTrue atPanel =>
        have none : Dom.htmlOf [] = d.filled none := (empty atPanel).symm
        unfold Draft.fill
        rw [none, Function.update_eq_self]
      · rfl
    rw [same]
    exact h
  there := there
  inside l hl := nomatch hl
  within f r q marked hr lies := by
    rw [free f marked r hr] at lies
    cases lies

/-- The fields that stand for markers of a play. -/
def Play.Marks (p : Play) (f : FieldId) : Prop := ∃ identifier, p.marks.get? identifier = some f

/-- The element around the content of a field. -/
def SpliceSite.slot (f : FieldId) (n : NodeId) : SpliceSite := ⟨.loose f.index, none, n, "div", .empty⟩

/-- The tree of the panel. -/
def SpliceSite.panel (n : NodeId) : SpliceSite := ⟨.panel, none, n, "div", .empty⟩

theorem Play.Open.admits_slot (h : Play.Open (some f) p) (n : NodeId) :
    (SpliceSite.slot f n).Admits p.draft p.Marks where
  known g marked := by
    obtain ⟨identifier, found⟩ := marked
    obtain ⟨⟨field, known⟩, _⟩ := h.marked identifier g found
    exact ⟨field, known, h.sound.ids known⟩
  later g marked := by
    obtain ⟨identifier, found⟩ := marked
    have later := (h.marked identifier g found).2 f rfl
    show 2 * f.index + 3 < 2 * g.index + 2
    omega
  apart target := by
    rintro ⟨⟩

theorem Play.Open.admits_panel {parent : Option FieldId} (h : Play.Open parent p) (n : NodeId) :
    (SpliceSite.panel n).Admits p.draft p.Marks where
  known g marked := by
    obtain ⟨identifier, found⟩ := marked
    obtain ⟨⟨field, known⟩, _⟩ := h.marked identifier g found
    exact ⟨field, known, h.sound.ids known⟩
  later g _ := by
    show 0 < 2 * g.index + 2
    omega
  apart target := by
    rintro ⟨⟩

/-- A new element that lies nowhere. -/
theorem Scene.Depicts.exec_element (h : s.Depicts base L d) {i : Nat} (absent : L (.loose i) = none) :
    ∃ s', exec (BuildM.onPage (PageM.element "div")) s = (.ok ⟨s.page.size⟩, s') ∧
      s'.Depicts base (Function.update L (.loose i)
        (some ⟨none, .element ⟨s.page.size⟩ "div" .empty []⟩)) d ∧
      s'.counters = s.counters := by
  have elsewhere : ∀ {k}, k ≠ .loose i → Function.update L (.loose i)
      (some ⟨none, .element ⟨s.page.size⟩ "div" .empty []⟩) k = L k :=
    fun ne => Function.update_of_ne ne ..
  refine ⟨_, BuildM.exec_onPage_ok rfl, ?_, rfl⟩
  refine h.relayout rfl (fun _ => rfl) (h.holds.create (.loose i) "div" .empty)
    (h.ordered.add absent rfl) (fun target => ?_) ?_
  · rw [elsewhere (by simp)]
  · obtain ⟨kids, there, looks⟩ := h.root
    exact ⟨kids, (elsewhere (by simp)).trans there, looks⟩

/-- **Installing the content of a field** is settling its play. -/
theorem AssemblyM.exec_install (depicts : a.toScene.Depicts base L p.draft)
    (loose : ∀ i, L (.loose i) = none) (relies : Play.Open (some f) p)
    (hf : p.draft.field? f = some field) (free : ∀ g, p.Marks g → L.Free g)
    (dropped : field.kind.acceptsPanel = false → p.markup = "") :
    (∀ settled, p.settle (some f) Play.wrapped = .ok settled → ∃ s' L',
      exec (AssemblyM.install (Frame.ofPlay (some f) field.kind.acceptsPanel p) false) a =
        (.ok (), { a with toScene := s' }) ∧ s'.Depicts base L' settled ∧
        s'.counters = a.counters ∧ (∀ i, L' (.loose i) = none) ∧
        ∀ g, ¬ p.Marks g → L.Free g → L'.Free g) ∧
    ∀ e, p.settle (some f) Play.wrapped = .error e → ∃ a',
      exec (AssemblyM.install (Frame.ofPlay (some f) field.kind.acceptsPanel p) false) a =
        (.error (.page (.invalidMarkup e)), a') := by
  unfold AssemblyM.install Frame.ofPlay
  cases accepts : field.kind.acceptsPanel with
  | false =>
    have nothing := dropped accepts
    unfold Play.settle
    rw [if_pos nothing]
    refine ⟨fun settled run => ?_, fun e run => by cases run⟩
    cases run
    exact ⟨a.toScene, L, rfl, depicts, rfl, loose, fun _ _ isFree => isFree⟩
  | true =>
    simp only [if_true, Bool.false_eq_true, if_false]
    by_cases nothing : p.markup = ""
    · unfold Play.settle
      rw [if_pos nothing, if_pos nothing]
      refine ⟨fun settled run => ?_, fun e run => by cases run⟩
      cases run
      exact ⟨a.toScene, L, rfl, depicts, rfl, loose, fun _ _ isFree => isFree⟩
    · rw [if_neg nothing]
      obtain ⟨s₁, run₁, depicts₁, counters₁⟩ := depicts.exec_element (loose f.index)
      have before := AssemblyM.exec_build_ok run₁
      have splicing := Splicing.start depicts₁
        (SpliceSite.slot f ⟨a.page.size⟩) (Function.update_self ..) nofun fun g marked r hr =>
          free g marked r (by rw [← hr]; exact (Function.update_of_ne (by simp) ..).symm)
      unfold Play.settle
      rw [if_neg nothing]
      cases read : Markup.parseFragment p.markup with
      | error e =>
        refine ⟨fun settled run => (by cases run), fun e' run => ?_⟩
        cases run
        have refused := AssemblyM.exec_build_error (a := { a with toScene := s₁ })
          (splicing.exec_splice_error p.marks read)
        exact ⟨_, (exec_bind_ok before).trans (exec_bind_error refused)⟩
      | ok ns =>
        refine ⟨fun settled run => ?_, fun e run => by cases run⟩
        cases run
        obtain ⟨s₂, L₂, kids, run₂, splicing₂, looks, counters₂, spares⟩ :=
          splicing.exec_splice (relies.admits_slot _) (fun identifier g found => ⟨identifier, found⟩)
            read
        have depicts₂ : s₂.Depicts base L₂ p.draft := splicing₂.depicts
        obtain ⟨s₃, L₃, run₃, depicts₃, counters₃, free₃, gone, loose₃⟩ :=
          depicts₂.exec_fillContent relies.sound hf accepts (relies.unfilled f rfl) splicing₂.there
        have content : (SpliceSite.slot f ⟨a.page.size⟩).dom kids =
            .element ⟨a.page.size⟩ "div" .empty kids := rfl
        rw [content, Dom.html, looks] at depicts₃
        refine ⟨s₃, L₃, ?_, depicts₃, counters₃.trans (counters₂.trans counters₁), ?_, ?_⟩
        · refine (exec_bind_ok before).trans ?_
          refine (exec_bind_ok (AssemblyM.exec_build_ok run₂)).trans ?_
          exact exec_bind_ok (AssemblyM.exec_onPanel_ok run₃)
        · intro i
          by_cases same : i = f.index
          · rw [same, gone]
          · rw [loose₃ i same, spares.loose i (by simpa [SpliceSite.slot] using Ne.symm same),
              Function.update_of_ne (by simpa using same), loose i]
        · intro g other isFree
          refine free₃ g (spares.free other fun r hr => isFree r ?_)
          rw [← hr, Function.update_of_ne (by simp)]

/-- **Installing the content of the panel** is settling its play. -/
theorem AssemblyM.exec_install_panel {parent : Option FieldId}
    (depicts : a.toScene.Depicts base L p.draft) (relies : Play.Open parent p)
    (empty : p.draft.filled none = []) (free : ∀ g, p.Marks g → L.Free g) :
    (∀ settled, p.settle none id = .ok settled → ∃ s' L',
      exec (AssemblyM.install (Frame.ofPlay parent true p) true) a = (.ok (), { a with toScene := s' }) ∧
        s'.Depicts base L' settled ∧ s'.counters = a.counters) ∧
    ∀ e, p.settle none id = .error e → ∃ a',
      exec (AssemblyM.install (Frame.ofPlay parent true p) true) a =
        (.error (.page (.invalidMarkup e)), a') := by
  unfold AssemblyM.install Frame.ofPlay Play.settle
  simp only [if_true]
  by_cases nothing : p.markup = ""
  · rw [if_pos nothing, if_pos nothing]
    refine ⟨fun settled run => ?_, fun e run => by cases run⟩
    cases run
    exact ⟨a.toScene, L, rfl, depicts, rfl⟩
  · rw [if_neg nothing, if_neg nothing]
    obtain ⟨kids, there, looks⟩ := depicts.root
    rw [empty] at looks
    obtain rfl := Dom.eq_nil_of_htmlOf looks
    have splicing := Splicing.start depicts (SpliceSite.panel a.panel.root) there
      (fun _ => empty) free
    cases read : Markup.parseFragment p.markup with
    | error e =>
      refine ⟨fun settled run => (by cases run), fun e' run => ?_⟩
      cases run
      have refused := AssemblyM.exec_build_error (a := a)
        (splicing.exec_splice_error p.marks read)
      exact ⟨_, (exec_bind_ok (exec_get a)).trans refused⟩
    | ok ns =>
      refine ⟨fun settled run => ?_, fun e run => by cases run⟩
      cases run
      obtain ⟨s', L', kids, run', splicing', looks', counters, _⟩ :=
        splicing.exec_splice (relies.admits_panel _) (fun identifier g found => ⟨identifier, found⟩)
          read
      have depicts' : s'.Depicts base L' (p.draft.fill none (Dom.htmlOf kids)) := splicing'.depicts
      rw [looks'] at depicts'
      exact ⟨s', L', (exec_bind_ok (exec_get a)).trans (AssemblyM.exec_build_ok run'), depicts',
        counters⟩

end Install

/-! ## Running a template -/

section Run

variable {base : Page} {series : SeriesId}

/-- A field that has begun ends when its content was played. -/
theorem Playing.exec_endField {L : Layout} {a : Assembly} {f : FieldId} {field : Field} {p : Play}
    {frames : List Frame} (h : Playing base L a (some f) field.kind.acceptsPanel p [] frames)
    (inside : frames.isEmpty = false) (hf : p.draft.field? f = some field)
    (dropped : field.kind.acceptsPanel = false → p.markup = "") :
    (∀ settled, p.settle (some f) Play.wrapped = .ok settled → ∃ a' L',
      exec AssemblyM.endField a = (.ok (), a') ∧ a'.toScene.Depicts base L' settled ∧
        a'.frames = frames ∧ a'.finished = a.finished ∧ a'.counters = a.counters ∧
        (∀ i, L' (.loose i) = none) ∧ ∀ g, ¬ p.Marks g → L.Free g → L'.Free g) ∧
    ∀ e, p.settle (some f) Play.wrapped = .error e → ∃ a',
      exec AssemblyM.endField a = (.error (.page (.invalidMarkup e)), a') := by
  have unfolded : exec AssemblyM.endField a =
      exec (AssemblyM.install (Frame.ofPlay (some f) field.kind.acceptsPanel p) false)
        { a with frames := frames } := by
    unfold AssemblyM.endField
    rw [exec_bind_ok (exec_get a), h.frames]
    refine (exec_bind_ok (exec_modify _ _)).trans ?_
    rw [inside, Bool.or_false]
  obtain ⟨done, refused⟩ := AssemblyM.exec_install (a := { a with frames := frames })
    h.depicts h.loose h.relies hf (fun g ⟨identifier, found⟩ => h.free identifier g found) dropped
  rw [unfolded]
  refine ⟨fun settled run => ?_, refused⟩
  obtain ⟨s', L', run', depicts, counters, loose, free⟩ := done settled run
  exact ⟨_, L', run', depicts, rfl, rfl, counters, loose, free⟩

/-- The frame of an element whose factory declines is left behind. -/
theorem Playing.exec_endField_none {L : Layout} {a : Assembly} {parent : Option FieldId}
    {collects : Bool} {p : Play} {passing rest : List Frame}
    (h : Playing base L a parent collects p (⟨none, .passing⟩ :: passing) rest) :
    ∃ a', exec AssemblyM.endField a = (.ok (), a') ∧
      Playing base L a' parent collects p passing rest ∧ a'.finished = a.finished ∧
      a'.counters = a.counters := by
  refine ⟨{ a with frames := passing ++ Frame.ofPlay parent collects p :: rest }, ?_,
    ⟨h.depicts, h.loose, rfl, fun f mem => h.passes f (List.mem_cons_of_mem _ mem), h.relies,
      h.free⟩, rfl, rfl⟩
  unfold AssemblyM.endField
  rw [exec_bind_ok (exec_get a), h.frames, List.cons_append]
  refine (exec_bind_ok (exec_modify _ _)).trans ?_
  rw [Frame.isEmpty_append, Bool.or_false]
  rfl

theorem Play.pieces_singleton (parent : Option FieldId) (collects : Bool) (x : Piece) (p : Play) :
    pieces parent collects [x] p = piece parent collects x p := by
  rw [pieces]
  cases piece parent collects x p <;> rfl

theorem Play.series_enter (d : Draft) (parent : Option FieldId) (m : Made) :
    (d.enter parent m).panel.series = d.panel.series := by
  unfold Draft.enter
  cases parent <;> rfl

/-- A step that changes nothing a play knows of goes before what follows a play. -/
theorem Follows.after {L : Layout} {a a₁ : Assembly} {parent : Option FieldId} {collects : Bool}
    {p : Play} {passing rest : List Frame} {step next : AssemblyM Unit} {c : CounterPool} :
    ∀ {r : Except Markup.Error Play}, Follows base L a₁ parent collects p passing rest next c r →
      exec step a = (.ok (), a₁) → a₁.finished = a.finished →
      Follows base L a parent collects p passing rest (step >>= fun _ => next) c r
  | .error _, ⟨a', refused⟩, run, _ => ⟨a', (exec_bind_ok run).trans refused⟩
  | .ok _, ⟨a', L', done, h, finished', counters, free⟩, run, finished =>
    ⟨a', L', (exec_bind_ok run).trans done, h, finished'.trans finished, counters, free⟩

/-- **A field that was played ends**: its content is settled, and the play of the field around it
goes on. -/
theorem Playing.leaves {L L₁ L₂ : Layout} {a a₁ a₂ : Assembly} {parent : Option FieldId}
    {collects : Bool} {p inner : Play} {m : Made} {passing rest : List Frame} {xs : List Piece}
    (h : Playing base L a parent collects p passing rest)
    (begun : Playing base L₁ a₁ (some ⟨p.draft.size⟩) m.kind.acceptsPanel
      ⟨(p.enter parent collects m).draft, "", .empty⟩ []
      (passing ++ Frame.ofPlay parent collects (p.enter parent collects m) :: rest))
    (spares : L.Spares L₁ fun g => g = ⟨p.draft.size⟩ ∧ p.draft.roleUnder parent m ≠ .content)
    (played : Play.pieces (some ⟨p.draft.size⟩) m.kind.acceptsPanel xs
      ⟨(p.enter parent collects m).draft, "", .empty⟩ = .ok inner)
    (ends : Playing base L₂ a₂ (some ⟨p.draft.size⟩) m.kind.acceptsPanel inner []
      (passing ++ Frame.ofPlay parent collects (p.enter parent collects m) :: rest))
    (kept : ∀ g : FieldId, g.index < (p.draft.enter parent m).size → L₁.Free g → L₂.Free g) :
    Follows base L a₂ parent collects p passing rest AssemblyM.endField a₂.counters
      ((inner.settle (some ⟨p.draft.size⟩) Play.wrapped).bind fun settled =>
        .ok { p.enter parent collects m with draft := settled }) := by
  obtain ⟨grows, opened⟩ := Play.pieces_grows _ played begun.relies
  obtain ⟨field, hf, alike, _⟩ := grows.fields (Play.field?_enter (m := m) h.relies.known)
  have accepts : field.kind.acceptsPanel = m.kind.acceptsPanel := by
    rw [← alike.kind]
    rfl
  rw [← accepts] at ends played
  have dropped : field.kind.acceptsPanel = false → inner.markup = "" := by
    intro declines
    rw [declines] at played
    exact Play.markup_pieces_dropping _ played
  obtain ⟨done, refused⟩ := ends.exec_endField
    (Frame.isEmpty_append passing (p.enter parent collects m) rest) hf dropped
  cases settle : inner.settle (some ⟨p.draft.size⟩) Play.wrapped with
  | error e => exact refused e settle
  | ok settled =>
    obtain ⟨a₃, L₃, run, depicts, frames, finished, counters, loose, free⟩ := done settled settle
    -- no widget that was free before this field ended has been moved
    have keeps : ∀ g : FieldId, g.index ≤ p.draft.size → L₁.Free g → L₃.Free g := by
      intro g old isFree
      refine free g ?_ (kept g ?_ isFree)
      · rintro ⟨identifier, found⟩
        exact absurd ((opened.marked identifier g found).2 _ rfl) (Nat.not_lt_of_le old)
      · rw [Play.size_enter]
        exact Nat.lt_succ_of_le old
    refine ⟨a₃, L₃, run, ⟨depicts, loose, frames, h.passes, h.relies.field grows opened settle, ?_⟩,
      finished, counters, ?_⟩
    · intro identifier g found
      rcases Play.mark_enter found with ⟨rfl, content⟩ | before
      · refine keeps _ (Nat.le_refl _) (spares.free (fun part => part.2 content) ?_)
        intro r there
        rw [(h.depicts.unknown p.draft.field?_size).1] at there
        cases there
      · obtain ⟨⟨_, known⟩, _⟩ := h.relies.marked identifier g before
        have old := Draft.lt_size known
        refine keeps g (Nat.le_of_lt old) (spares.free ?_ (h.free identifier g before))
        rintro ⟨rfl, _⟩
        exact Nat.lt_irrefl _ old
    · intro g old isFree
      refine keeps g (Nat.le_of_lt old) (spares.free ?_ isFree)
      rintro ⟨rfl, _⟩
      exact Nat.lt_irrefl _ old

mutual
/-- **Replaying an item** does to an assembly what playing it does to a play. -/
theorem replay_item : ∀ (item : Cache.Item Blueprint) {L : Layout} {a : Assembly}
    {parent : Option FieldId} {collects : Bool} {p : Play} {passing rest : List Frame},
    Playing base L a parent collects p passing rest → p.draft.panel.series = series →
      Follows base L a parent collects p passing rest (AssemblyM.replayItem item)
        (Piece.ofItem series a.counters item).2
        (Play.pieces parent collects (Piece.ofItem series a.counters item).1 p)
  | .text text, L, a, parent, collects, p, passing, rest, h, _ => by
    rw [AssemblyM.replayItem, Piece.ofItem, Play.pieces_singleton, Play.piece]
    exact h.addText text
  | .composite b items, L, a, parent, collects, p, passing, rest, h, same => by
    have series' : a.panel.series = series := h.series.trans same
    rw [AssemblyM.replayItem, Piece.ofItem]
    cases makes : b.factory.bind Factory.makes with
    | none =>
      obtain ⟨a₁, run₁, h₁, finished₁, counters₁⟩ :=
        h.exec_beginField_none b.attributes makes
      have inner := replay_items items h₁ same
      rw [counters₁, series'] at inner
      dsimp only
      refine Follows.after ?_ run₁ finished₁
      cases played : Play.pieces parent collects
          (Piece.ofItems series (a.counters.next series .placeholder).2 items).1 p with
      | error e =>
        rw [played] at inner
        obtain ⟨a', run⟩ := inner
        exact ⟨a', exec_bind_error run⟩
      | ok p' =>
        rw [played] at inner
        obtain ⟨a₂, L₂, run₂, h₂, finished₂, counters₂, free⟩ := inner
        obtain ⟨a₃, run₃, h₃, finished₃, counters₃⟩ := h₂.exec_endField_none
        exact ⟨a₃, L₂, (exec_bind_ok run₂).trans run₃, h₃, finished₃.trans finished₂,
          counters₃.trans counters₂, free⟩
    | some kind =>
      obtain ⟨m, c, make⟩ : ∃ m c, Piece.make series a.counters kind b.attributes = (m, c) :=
        ⟨_, _, rfl⟩
      obtain rfl : m.kind = kind := by
        have first := congrArg (fun made => made.1.kind) make
        exact first.symm
      dsimp only
      rw [make, Play.pieces_singleton, Play.piece]
      rw [← series'] at make
      obtain ⟨a₁, L₁, run₁, h₁, finished₁, counters₁, spares⟩ := h.exec_beginField makes make
      have inner := replay_items items h₁ (by rw [← same]; exact Play.series_enter ..)
      rw [counters₁] at inner
      refine Follows.after ?_ run₁ finished₁
      cases played : Play.pieces (some ⟨p.draft.size⟩) m.kind.acceptsPanel
          (Piece.ofItems series c items).1 ⟨(p.enter parent collects m).draft, "", .empty⟩ with
      | error e =>
        rw [played] at inner
        obtain ⟨a', run⟩ := inner
        exact ⟨a', exec_bind_error run⟩
      | ok inner' =>
        rw [played] at inner
        obtain ⟨a₂, L₂, run₂, h₂, finished₂, counters₂, free₂⟩ := inner
        rw [← counters₂]
        exact Follows.after (h.leaves h₁ spares played h₂ free₂) run₂ finished₂

/-- **Replaying items** does to an assembly what playing them does to a play. -/
theorem replay_items : ∀ (items : List (Cache.Item Blueprint)) {L : Layout} {a : Assembly}
    {parent : Option FieldId} {collects : Bool} {p : Play} {passing rest : List Frame},
    Playing base L a parent collects p passing rest → p.draft.panel.series = series →
      Follows base L a parent collects p passing rest (AssemblyM.replayItems items)
        (Piece.ofItems series a.counters items).2
        (Play.pieces parent collects (Piece.ofItems series a.counters items).1 p)
  | [], L, a, parent, collects, p, passing, rest, h, _ =>
    ⟨a, L, rfl, h, rfl, rfl, fun _ _ isFree => isFree⟩
  | item :: items, L, a, parent, collects, p, passing, rest, h, same => by
    have first := replay_item item h same
    rw [AssemblyM.replayItems, Piece.ofItems, Play.pieces_append]
    dsimp only
    cases played : Play.pieces parent collects (Piece.ofItem series a.counters item).1 p with
    | error e =>
      rw [played] at first
      obtain ⟨a', run⟩ := first
      exact ⟨a', exec_bind_error run⟩
    | ok p₁ =>
      rw [played] at first
      obtain ⟨a₁, L₁, run₁, h₁, finished₁, counters₁, free₁⟩ := first
      obtain ⟨grows, _⟩ := Play.pieces_grows _ played h.relies
      have second := replay_items items h₁ (by rw [grows.panel]; exact same)
      rw [counters₁] at second
      rw [Except.bind]
      cases played₂ : Play.pieces parent collects
          (Piece.ofItems series (Piece.ofItem series a.counters item).2 items).1 p₁ with
      | error e =>
        rw [played₂] at second
        obtain ⟨a', run⟩ := second
        exact ⟨a', (exec_bind_ok run₁).trans run⟩
      | ok p₂ =>
        rw [played₂] at second
        obtain ⟨a₂, L₂, run₂, h₂, finished₂, counters₂, free₂⟩ := second
        exact ⟨a₂, L₂, (exec_bind_ok run₁).trans run₂, h₂, finished₂.trans finished₁, counters₂,
          fun g old isFree => free₂ g (Nat.lt_of_lt_of_le old grows.size) (free₁ g old isFree)⟩
end

end Run

end Formwork
