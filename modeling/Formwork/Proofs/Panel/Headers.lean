import Formwork.Proofs.Panel.Arranging

/-!
# Disclosures and their headers

The header of a disclosure is recorded in three places: it is attached to the disclosure, the widget
remembers it, and its own widget is all there is in the place for a header.  A disclosure takes a field
made from a header element when its widget remembers no header.

However a panel is arranged, all of these agree, and a disclosure takes a header exactly when it has none
(`Scene.Headed`), for as long as no header is put elsewhere, added again or removed
(`Scene.headed_iff_never_displaces`).  A disclosure is not told when it loses its header: it takes no
other one (`Scene.not_headed_beheaded`).
-/

namespace Formwork

set_option autoImplicit false

open Panel (Request)

namespace Scene

variable {s s' : Scene} {f g h p c : FieldId} {field field' child : Field} {w w' : Widget}
  {root slot content : NodeId} {header : Option FieldId}

/-! ## What is shown of a header -/

/-- The widget of the header is all there is in the place for it. -/
def ShowsHeader (s : Scene) (slot : NodeId) (h : FieldId) : Prop :=
  ∃ child w, s.Built h child w ∧ s.page.children slot = [w.root]

/-- The header of every disclosure that has one is shown. -/
def HeadersShown (s : Scene) : Prop :=
  ∀ f field root slot content h,
    s.Built f field (.disclosure root slot content (some h)) → s.ShowsHeader slot h

/-- A step that leaves the place for a header alone. -/
theorem ShowsHeader.transfer (shows : s.ShowsHeader slot h)
    (kept : ∀ child w, s.Built h child w → s.page.children slot = [w.root] →
      s'.page.children slot = s.page.children slot)
    (built : ∀ {child w}, s.Built h child w → ∃ child' w', s'.Built h child' w' ∧ w'.root = w.root) :
    s'.ShowsHeader slot h := by
  obtain ⟨child, w, there, only⟩ := shows
  obtain ⟨child', w', there', root⟩ := built there
  exact ⟨child', w', there', by rw [kept child w there only, only, root]⟩

/-- The places of two disclosures are different. -/
theorem Grounded.slots_apart {root' slot' content' : NodeId} {header' : Option FieldId}
    (ground : s.Grounded) (there : s.Built f field (.disclosure root slot content header))
    (there' : s.Built g field' (.disclosure root' slot' content' header')) (other : f ≠ g) :
    slot ≠ slot' := by
  rintro rfl
  exact ground.apart there there' other slot (by simp) (by simp)

theorem HeadersShown.turns (shown : s.HeadersShown) (ground : s.Grounded) (step : s.Turns s') :
    s'.HeadersShown := by
  intro f₁ field₁ root₁ slot₁ content₁ h₁ built₁
  have stays : ∀ {g field w}, s.Built g field w →
      ∃ field' w', s'.Built g field' w' ∧ w'.root = w.root := step.stays
  cases step with
  | realized realizes =>
    obtain ⟨field, _, _, old | ⟨_, rfl, _, hollow⟩⟩ := realizes.built_cases built₁
    · refine (shown _ _ _ _ _ _ old).transfer (fun _ _ _ _ => ?_) stays
      refine realizes.grows.children (Page.lt_size_of_tag? ?_)
      exact (ground.stands old).element _ (by simp)
    · cases hollow
  | @opened _ _ _ _ _ pages _ index there _ =>
    rcases (built_withWidget there.found).1 built₁ with ⟨_, _, is⟩ | ⟨_, old⟩
    · cases is
    · exact (shown _ _ _ _ _ _ old).transfer
        (fun _ _ _ _ => (ground.forest.showPage pages index).2.1 slot₁) stays
  | @cleared f _ _ slot _ there =>
    have old : s.Built f₁ field₁ (.disclosure root₁ slot₁ content₁ (some h₁)) :=
      ⟨built₁.found, built₁.widget⟩
    have other : f₁ ≠ f := by
      rintro rfl
      cases (old.unique there).2
    refine (shown _ _ _ _ _ _ old).transfer (fun _ _ _ _ => ?_) stays
    refine (ground.forest.children_clear slot slot₁).trans ?_
    rw [if_neg (ground.slots_apart old there other)]

/-- A header stays in its place when another widget is put somewhere else. -/
theorem ShowsHeader.filter_root (ground : s.Grounded) {child₁ : Field} {w₁ : Widget}
    (there : s.Built c child w) (there₁ : s.Built h child₁ w₁)
    (only : s.page.children slot = [w₁.root]) (other : c ≠ h) :
    (s.page.children slot).filter (· ≠ w.root) = s.page.children slot := by
  refine Page.filter_ne_of_not_mem fun mem => other ?_
  rw [only, List.mem_singleton] at mem
  exact ground.eq_of_mem_anchors there there₁ w.root_mem_anchors (mem ▸ w₁.root_mem_anchors)

theorem HeadersShown.gains (shown : s.HeadersShown) (ground : s.Grounded)
    (untaken : s.Untaken .disclosure c) (step : s.Gains p c s') : s'.HeadersShown := by
  intro f₁ field₁ root₁ slot₁ content₁ h₁ built₁
  have stays : ∀ {g field w}, s.Built g field w →
      ∃ field' w', s'.Built g field' w' ∧ w'.root = w.root := step.stays
  have other : ∀ {f field root slot content h},
      s.Built f field (.disclosure root slot content (some h)) → c ≠ h := by
    rintro f field root slot content h there rfl
    exact untaken _ _ _ there (ground.stands there).suits (by simp [Widget.parts])
  cases step with
  | @page _ _ _ bar deck _ _ _ _ _ there there' takes =>
    rcases (built_withWidget there.found).1 built₁ with ⟨_, _, is⟩ | ⟨_, old⟩
    · cases is
    · have known := Page.lt_size_of_tag? ((ground.stands old).element slot₁ (by simp))
      obtain ⟨notBar, notDeck⟩ := ground.slot_apart there old
      refine (shown _ _ _ _ _ _ old).transfer (fun _ _ there₁ only => ?_) stays
      refine (takes.children slot₁ known).trans ?_
      rw [if_neg notBar.symm, if_neg notDeck.symm, List.append_nil, List.append_nil]
      exact ShowsHeader.filter_root ground there' there₁ only (other old)
  | @header _ child _ slot _ w page' there there' empty run =>
    have children := ground.forest.children_append run
    rcases (built_withWidget there.found).1 built₁ with ⟨_, _, is⟩ | ⟨ne, old⟩
    · cases is
      obtain ⟨child', w', new, root⟩ := stays there'
      refine ⟨child', w', new, (children slot₁).trans ?_⟩
      rw [empty, if_pos rfl, root]
      rfl
    · refine (shown _ _ _ _ _ _ old).transfer (fun _ _ there₁ only => ?_) stays
      refine (children slot₁).trans ?_
      rw [if_neg (ground.slots_apart old there ne), List.append_nil]
      exact ShowsHeader.filter_root ground there' there₁ only (other old)

/-- The header of a disclosure that is left is left. -/
theorem HeadersShown.strips (shown : s.HeadersShown) (ground : s.Grounded) (ground' : s'.Grounded)
    (listed : s'.Listed .disclosure) (strips : s.Strips s') : s'.HeadersShown := by
  intro f₁ field₁ root₁ slot₁ content₁ h₁ built₁
  obtain ⟨field, old, _⟩ := strips.before built₁
  have left : (s'.panel.field? h₁).isSome := by
    have parts := listed _ _ built₁.found (ground'.stands built₁).suits
    rw [built₁.parts] at parts
    have attached : h₁ ∈ field₁.attached := parts ▸ List.mem_singleton_self h₁
    obtain ⟨_, found, _⟩ :=
      ground'.booked.exists_of_mem_contents built₁.found (List.mem_append_right _ attached)
    exact Option.isSome_of_mem found
  obtain ⟨gone, children, removed⟩ := strips.children
  refine (shown _ _ _ _ _ _ old).transfer (fun child w there only => ?_) fun {child w} there => ?_
  · rw [children, only]
    refine List.filter_eq_self.2 fun m mem => decide_eq_true fun away => ?_
    rw [List.mem_singleton.1 mem] at away
    obtain ⟨g, _, w', there', root, none⟩ := removed _ away
    have same := ground.eq_of_mem_anchors there there' w.root_mem_anchors
      (root ▸ w'.root_mem_anchors)
    rw [same, none] at left
    cases left
  · obtain ⟨child', there'⟩ := strips.stays there left
    exact ⟨child', w, there', rfl⟩

theorem upkeep_headers : Upkeep .disclosure HeadersShown where
  turns ground shown step := shown.turns ground step
  gains ground untaken shown step := shown.gains ground untaken step
  strips ground ground' listed shown strips := shown.strips ground ground' listed strips

/-! ## Taking a header -/

/-- A disclosure takes a field made from a header element exactly when its widget remembers no header. -/
theorem Takes.part_iff {container : Field} {role : Role} (takes : s.Takes p c (.ok role) s')
    (ground : s.Grounded) (found : s.panel.field? p = some container)
    (disclosure : container.kind = .disclosure) (there : s.panel.field? c = some child)
    (tag : child.tagUri? = some Vocabulary.headerTag) : role = .part ↔ s.parts p = [] := by
  cases takes with
  | content _ refuses =>
    exact ⟨nofun, fun none => absurd none (refuses container child found there disclosure tag)⟩
  | part before gain _ =>
    refine ⟨fun _ => ?_, fun _ => rfl⟩
    obtain ⟨container', found', kind⟩ := before.exists_field? found
    rw [← before.parts]
    cases gain with
    | page built _ _ =>
      -- a disclosure is no tab container
      have tabs : _ = FieldKind.tabs := ((ground.settles before).stands built).suits
      cases found'.symm.trans built.found
      cases tabs.symm.trans (kind.trans disclosure)
    | header built _ _ _ => exact built.parts

/-- A disclosure takes a header, instead of letting it become content, exactly when nothing is attached
to it. -/
theorem Grounded.exec_addChild_header {container : Field} (ground : s.Grounded)
    (listed : s.Listed .disclosure) (found : s.panel.field? p = some container)
    (disclosure : container.kind = .disclosure) (there : s.panel.field? c = some child)
    (tag : child.tagUri? = some Vocabulary.headerTag) (answers : Request.Answers (.add p c) s) :
    (exec (PanelM.addChild p c) s).1 = .ok false ↔ container.attached = [] := by
  obtain ⟨answer, s₁, run, takes⟩ := ground.exec_takePart p c
  cases answer with
  | error e =>
    have fails : exec (PanelM.addChild p c) s = _ := exec_bind_error run
    have fails' : exec (Request.perform (.add p c)) s = _ := exec_bind_error fails
    exact nomatch (Request.answers_iff fails').1 answers
  | ok role =>
    rw [PanelM.exec_addChild_ok run, ← listed _ _ found disclosure,
      ← takes.part_iff ground found disclosure there tag]
    cases role <;> simp

/-! ## Histories -/

/-- Every disclosure that has a widget is in order: the widget remembers the field that is attached to it,
and this is shown; and a disclosure takes a header when it has none. -/
structure Headed (s : Scene) : Prop where
  listed : ∀ {f field root slot content header},
    s.Built f field (.disclosure root slot content header) →
      ∀ h, header = some h ↔ h ∈ field.attached
  shown : ∀ {f field root slot content h},
    s.Built f field (.disclosure root slot content (some h)) → s.ShowsHeader slot h
  /-- A field made from a header element is not put below a disclosure as content when the disclosure has
  no header, and only then. -/
  taken : ∀ {p c container child}, s.panel.field? p = some container →
    container.kind = .disclosure → s.panel.field? c = some child →
      child.tagUri? = some Vocabulary.headerTag → Request.Answers (.add p c) s →
        ((exec (PanelM.addChild p c) s).1 = .ok false ↔ container.attached = [])

/-- A list without repetitions whose only member may be a header. -/
theorem toList_header {l : List FieldId} (distinct : l.Nodup) (members : ∀ h, header = some h ↔ h ∈ l) :
    header.toList = l := by
  match l, header with
  | [], none => rfl
  | [], some h => exact nomatch (members h).1 rfl
  | f :: _, none => exact nomatch (members f).2 List.mem_cons_self
  | [f], some h =>
    cases (members f).2 List.mem_cons_self
    rfl
  | f :: g :: _, some h =>
    cases (members f).2 List.mem_cons_self
    cases (members g).2 (List.mem_cons_of_mem _ List.mem_cons_self)
    exact absurd List.mem_cons_self (List.nodup_cons.1 distinct).1

theorem Grounded.headed_iff (ground : s.Grounded) :
    s.Headed ↔ s.Listed .disclosure ∧ s.HeadersShown := by
  constructor
  · intro headed
    refine ⟨fun f field found kind => ?_, fun _ _ _ _ _ _ => headed.shown⟩
    cases widget : field.widget with
    | none => exact ground.parts_of_unbuilt found widget
    | some w =>
      have built : s.Built f field w := ⟨found, widget⟩
      have suits := (ground.stands built).suits
      cases w with
      | disclosure root slot content header =>
        have distinct := (List.nodup_append.1 (ground.booked.nodup_contents found)).2.1
        exact built.parts.trans (toList_header distinct (headed.listed built))
      | tabs _ _ _ _ _ => cases kind.symm.trans suits
      | _ => exact absurd kind suits.2
  · rintro ⟨listed, shown⟩
    refine ⟨fun built h => ?_, fun built => shown _ _ _ _ _ _ built, ?_⟩
    · rw [← listed _ _ built.found (ground.stands built).suits, built.parts]
      exact Option.mem_toList.symm
    · exact fun found disclosure there tag answers =>
        ground.exec_addChild_header listed found disclosure there tag answers

/-- **Disclosures are in order** throughout exactly those histories in which no header is put elsewhere,
added again or removed from a disclosure that stays. -/
theorem headed_iff_never_displaces {page : Page} (forest : page.Forest) (counters : CounterPool)
    (series : SeriesId) (messages : Messages) {rs : List Request} (allowed : ∀ r ∈ rs, r.Arranges) :
    Throughout Headed (opened page counters series messages) rs ↔
      Never (Displaces .disclosure) (opened page counters series messages) rs := by
  refine upkeep_headers.throughout_iff Grounded.headed_iff forest counters series messages ?_ allowed
  exact fun _ _ _ _ _ _ built => nomatch built.found

/-- The attributes of a field made from a header element. -/
def headerAttributes (name : String) : Attributes :=
  .ofList [(Vocabulary.nameKey, name), (Vocabulary.tagKey, Vocabulary.headerTag)]

/-- A disclosure and two headers; the first one becomes its header and the second one content. -/
def heading : List Request :=
  [.create .disclosure (.ofList [(Vocabulary.nameKey, "a")]), .create .header (headerAttributes "b"),
    .create .header (headerAttributes "c"), .add ⟨0⟩ ⟨1⟩, .add ⟨0⟩ ⟨2⟩]

theorem throughout_headed_heading : Page.empty.Forest ∧ (∀ r ∈ heading, r.Arranges) ∧
    Throughout Headed (opened .empty .empty ⟨0⟩ .empty) heading := by
  have allowed : ∀ r ∈ heading, r.Arranges := by simp [heading, Panel.Request.Arranges]
  have never : Never (Displaces .disclosure) (opened .empty .empty ⟨0⟩ .empty) heading := by
    decide +kernel
  exact ⟨.empty, allowed, (headed_iff_never_displaces .empty .empty ⟨0⟩ .empty allowed).2 never⟩

/-- A disclosure and two headers; the first one becomes its header and is removed. -/
def beheading : List Request :=
  [.create .disclosure (.ofList [(Vocabulary.nameKey, "a")]), .create .header (headerAttributes "b"),
    .create .header (headerAttributes "c"), .add ⟨0⟩ ⟨1⟩, .remove ⟨1⟩]

/-- A disclosure whose header was removed has none, and yet it does not take the next one. -/
theorem not_headed_beheaded :
    ¬ Throughout Headed (opened .empty .empty ⟨0⟩ .empty) beheading := by
  intro throughout
  have headed := throughout beheading (List.prefix_refl _)
  have left : (((opened .empty .empty ⟨0⟩ .empty).after beheading).panel.field? ⟨0⟩).map
      (fun field => (field.kind, field.attached)) = some (.disclosure, []) := by
    decide +kernel
  have second : (((opened .empty .empty ⟨0⟩ .empty).after beheading).panel.field? ⟨2⟩).map
      Field.tagUri? = some (some Vocabulary.headerTag) := by
    decide +kernel
  have added : (exec (PanelM.addChild ⟨0⟩ ⟨2⟩)
      ((opened .empty .empty ⟨0⟩ .empty).after beheading)).1.toOption = some true := by
    decide +kernel
  generalize (opened .empty .empty ⟨0⟩ .empty).after beheading = s at headed left second added
  obtain ⟨container, found, is⟩ := Option.map_eq_some_iff.1 left
  obtain ⟨child, there, tag⟩ := Option.map_eq_some_iff.1 second
  obtain ⟨disclosure, none⟩ := Prod.mk.inj is
  cases run : exec (PanelM.addChild ⟨0⟩ ⟨2⟩) s with
  | mk answer s' =>
    rw [run] at added
    cases answer with
    | error e => cases added
    | ok content =>
      cases added
      have answers : Request.Answers (.add ⟨0⟩ ⟨2⟩) s :=
        (Request.answers_iff (exec_bind_ok run)).2 rfl
      have taken := (headed.taken found disclosure there tag answers).2 none
      rw [run] at taken
      cases taken

end Scene

end Formwork
