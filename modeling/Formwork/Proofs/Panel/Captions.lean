import Formwork.Proofs.Page.Literal
import Formwork.Proofs.Panel.Resetting

/-!
# The label of a disclosure

A disclosure that took no header shows its label: as a text when its widget is built
(`Scene.exec_realize_caption`), and as markup when its value is taken away
(`Scene.Built.exec_setValue_none`).  Both show the same for a label that cannot be read as markup, and
for one without tags and references, but for no other (`Scene.Reached.caption_restored`).
-/

namespace Formwork

set_option autoImplicit false

open Page (wrapMarkup)
open Panel (Request)
open PanelM (setValue widgetOf)

/-- A caption with some markup in it. -/
def Page.caption (inner : String) : String := "<span>" ++ inner ++ "</span>"

theorem Page.writtenOf_caption (content : List Html) : Html.writtenOf Markup.Escape.text wrapMarkup
    [.element "span" .empty content] = caption (Html.writtenOf Markup.Escape.text wrapMarkup content) := by
  have opening : Html.openMarkup "span" .empty = "<span>" := by decide +kernel
  have closing : "</" ++ "span" ++ ">" = "</span>" := by decide +kernel
  rw [Html.writtenOf, Html.writtenOf, Html.written, String.append_empty, wrapMarkup, caption, opening,
    ← closing]
  simp only [String.append_assoc]

theorem Page.caption_injective {inner inner' : String} (same : caption inner = caption inner') :
    inner = inner' := by
  unfold caption at same
  simpa using same

/-- A value is shown by the header of a disclosure as markup. -/
theorem Widget.innerMarkup_stored_disclosure {root header content : NodeId} {headerField : Option FieldId}
    {p : Page} (forest : p.Forest)
    (own : ∀ n ∈ (disclosure root header content headerField).own, p.tag? n ≠ none) (v : String) :
    ((disclosure root header content headerField).stored p v).innerMarkup header =
      Page.caption (Page.shown v) := by
  have there := stored_disclosure forest own (v := v)
  have element := own header (by simp [Widget.own])
  have shows := there.renders header List.mem_cons_self
  rw [filling, Page.writtenOf_caption] at shows
  refine shows.unique (there.alters.forest.renders_innerMarkup ?_)
  rwa [there.alters.tag header (Page.lt_size_of_tag? element)]

namespace Scene

variable {s : Scene} {f : FieldId} {field : Field}

/-! ## When the widget is built -/

/-- **The widget of a disclosure** is built with its label as a text. -/
theorem exec_realize_caption (forest : s.page.Forest) (kind : field.kind = .disclosure) :
    ∃ root header content p, exec (PanelM.realize field) s =
        (.ok (.disclosure root header content none), s.withWidget field.id (.disclosure root header content none) p) ∧
      p.innerMarkup header =
        Page.caption (Markup.Escape.text ((field.label? s.panel.messages).getD "")) := by
  obtain ⟨w, _, p, kids, _, run, forest', _, new, there, _⟩ := exec_realize_tree forest field
  obtain ⟨⟨_, shape, looks, fits⟩, unlinked, empty⟩ := new
  cases shape
  rw [kind] at fits
  obtain ⟨header, content, caption, slot, headerField, is, rfl⟩ := fits
  rw [is] at empty
  cases (empty : headerField = none)
  unfold Field.face at looks
  rw [kind] at looks
  simp only [Face.disclosureSection, Dom.htmlOf, Dom.html, List.cons.injEq, Html.element.injEq, true_and,
    and_true, Parts.none, Option.getD_none] at looks
  refine ⟨w.root, header, content, p, is ▸ run, ?_⟩
  have below : p.Has (some w.root) (.element header "summary" .empty caption) := there.2.1
  have unlinked' : Dom.linksOf caption = [] := by
    simp only [Dom.links, Dom.linksOf, List.append_eq_nil_iff] at unlinked
    exact unlinked.1
  have written : p.Renders Markup.Escape.text wrapMarkup (caption.map Dom.root)
      (Html.writtenOf Markup.Escape.text wrapMarkup (Dom.htmlOf caption)) := below.2.renders unlinked'
  have read := forest'.renders_innerMarkup below.tag?
  rw [Page.children_eq below.1] at read
  rw [written.unique read, looks.1, Page.writtenOf_caption, Face.shownText, Page.writtenOf_textNodes]

/-- **The widget of a disclosure that has none yet** shows the label as a text. -/
theorem Custody.exec_widgetOf_caption (h : s.Custody .empty False) (found : s.panel.field? f = some field)
    (kind : field.kind = .disclosure) (unbuilt : field.widget = none) : ∃ root header content s₁,
      exec (widgetOf f) s = (.ok (.disclosure root header content none), s₁) ∧
      s.Opens f field (.disclosure root header content none) s₁ ∧
      s₁.page.innerMarkup header =
        Page.caption (Markup.Escape.text ((field.label? s.panel.messages).getD "")) := by
  obtain ⟨root, header, content, p, realized, labelled⟩ := exec_realize_caption h.rests.forest kind
  have run : exec (widgetOf f) s = (.ok (.disclosure root header content none),
      s.withWidget field.id (.disclosure root header content none) p) :=
    (PanelM.exec_widgetOf_unbuilt found unbuilt).trans realized
  obtain ⟨_, _, asked, opens⟩ := exec_opens h found
  cases run.symm.trans asked
  exact ⟨root, header, content, _, run, opens, labelled⟩

/-! ## When its value is taken away -/

variable {root header content : NodeId} {headerField : Option FieldId}

/-- **Taking the value of a disclosure away** shows its label as markup, whatever its header showed. -/
theorem Built.exec_setValue_none (h : s.Custody .empty False) (kind : field.kind = .disclosure)
    (built : s.Built f field (.disclosure root header content headerField)) :
    ∃ p, exec (setValue f none) s = (.ok true, { s with page := p }) ∧
      p.innerMarkup header = Page.caption (Page.shown ((field.label? s.panel.messages).getD "")) := by
  have forest := h.rests.forest
  have own := h.own_element built
  have stores : ¬ (!field.kind.hasValue ∧ field.kind ≠ .disclosure) := fun both => both.2 kind
  -- the label stands in for the value that is missing
  have stored : exec ((Widget.disclosure root header content headerField).setValue none
      (field.label? s.panel.messages)) s.page = (.ok true,
        (Widget.disclosure root header content headerField).stored s.page
          ((field.label? s.panel.messages).getD "")) := by
    refine Eq.trans ?_ (Widget.exec_setValue forest own ((field.label? s.panel.messages).getD "") none)
    cases field.label? s.panel.messages <;> rfl
  refine ⟨(Widget.disclosure root header content headerField).stored s.page
    ((field.label? s.panel.messages).getD ""), ?_, ?_⟩
  · unfold setValue
    rw [exec_bind_ok (PanelM.exec_field built.found), if_neg stores, exec_bind_ok (exec_get s),
      exec_bind_ok (PanelM.exec_widgetOf_built built.found built.widget), PanelM.exec_onPage_ok stored]
  · exact Widget.innerMarkup_stored_disclosure forest own _

/-! ## Both -/

/-- **Taking the value away restores the header** that a disclosure was built with, after any requests about
values, exactly if its label cannot be read as markup or has neither tags nor references. -/
theorem Reached.caption_restored (h : s.Reached) (found : s.panel.field? f = some field)
    (kind : field.kind = .disclosure) (unbuilt : field.widget = none) {label : String}
    (resolved : (field.label? s.panel.messages).getD "" = label) : ∃ root header content s₁,
      exec (widgetOf f) s = (.ok (.disclosure root header content none), s₁) ∧
      s₁.page.innerMarkup header = Page.caption (Markup.Escape.text label) ∧
      ∀ rs : List Request, (∀ r ∈ rs, r = .widget f ∨ r.handlesValues = true) → ∃ s₂,
        exec (setValue f none) (s₁.after rs) = (.ok true, s₂) ∧
        s₂.page.innerMarkup header = Page.caption (Page.shown label) ∧
        (s₂.page.innerMarkup header = s₁.page.innerMarkup header ↔
          (Markup.parseFragment label).isOk = false ∨ ∀ c ∈ label.toList, c ≠ '<' ∧ c ≠ '&') := by
  obtain ⟨root, header, content, s₁, run, opens, first⟩ :=
    h.custody.exec_widgetOf_caption found kind unbuilt
  rw [resolved] at first
  refine ⟨root, header, content, s₁, run, first, fun rs handles => ?_⟩
  -- the widget is still there after the requests
  have reached : s₁.Reached := by
    have next : ((Request.widget f).after s).Reached := h.step trivial
    have after : s.after [.widget f] = s₁ := after_widget (widget_of_widgetOf run)
    rwa [← after]
  obtain ⟨later, revalues⟩ := reached.after_values handles
  have there := revalues.stays opens.built
  have label' : ((Field.label? { field with widget := some (.disclosure root header content none) }
      (s₁.after rs).panel.messages).getD "") = label := by
    rw [revalues.messages, opens.messages]
    exact resolved
  obtain ⟨p₂, taken, shows⟩ := Built.exec_setValue_none later.custody
    (show Field.kind { field with widget := some _ } = .disclosure from kind) there
  rw [label'] at shows
  refine ⟨_, taken, shows, ?_⟩
  rw [first, shows, ← Page.shown_eq_text_iff]
  exact ⟨Page.caption_injective, congrArg Page.caption⟩

/-- A panel with a disclosure that has a label. -/
def annotated (label : String) : Scene := (opened .empty .empty ⟨0⟩ .empty).after
  [.create .disclosure (.ofList [(Vocabulary.labelKey, label)])]

/-- The label is shown again after markup was stored. -/
theorem caption_restored_annotated : ∃ root header content s₁ s₂,
    exec (widgetOf ⟨0⟩) (annotated "More >") = (.ok (.disclosure root header content none), s₁) ∧
    exec (setValue ⟨0⟩ none) (s₁.after [.store ⟨0⟩ (some "<i>x</i>")]) = (.ok true, s₂) ∧
    s₂.page.innerMarkup header = s₁.page.innerMarkup header := by
  have reached : (annotated "More >").Reached := .step (.opened .empty _ _ _) trivial
  have known : ((annotated "More >").panel.field? ⟨0⟩).map (fun field =>
      (field.kind, field.widget, (field.label? (annotated "More >").panel.messages).getD "")) =
        some (.disclosure, none, "More >") := by decide +kernel
  obtain ⟨field, found, is⟩ := Option.map_eq_some_iff.1 known
  obtain ⟨kind, unbuilt, resolved⟩ : _ ∧ _ ∧ _ := by simpa only [Prod.mk.injEq] using is
  obtain ⟨root, header, content, s₁, run, _, restores⟩ := reached.caption_restored found kind unbuilt resolved
  obtain ⟨s₂, taken, _, same⟩ := restores [.store ⟨0⟩ (some "<i>x</i>")] fun r mem =>
    .inr (List.mem_singleton.1 mem ▸ rfl)
  have plain : ∀ c ∈ "More >".toList, c ≠ '<' ∧ c ≠ '&' := by
    simp
  exact ⟨root, header, content, s₁, s₂, run, taken, same.2 (.inr plain)⟩

/-- A label with a tag is a text when the widget is built, and markup when the value is taken away. -/
theorem caption_not_restored : (annotated "<b>x</b>").Reached ∧
    (((annotated "<b>x</b>").after [.widget ⟨0⟩]).panel.field? ⟨0⟩).map Field.widget =
      some (some (.disclosure ⟨1⟩ ⟨2⟩ ⟨3⟩ none)) ∧
    ((annotated "<b>x</b>").after [.widget ⟨0⟩]).page.innerMarkup ⟨2⟩ =
      "<span>&lt;b&gt;x&lt;/b&gt;</span>" ∧
    ((annotated "<b>x</b>").after [.widget ⟨0⟩, .store ⟨0⟩ none]).page.innerMarkup ⟨2⟩ =
      "<span><b>x</b></span>" :=
  ⟨.step (.opened .empty _ _ _) trivial, by decide +kernel⟩

end Scene

end Formwork
