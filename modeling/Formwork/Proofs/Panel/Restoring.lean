import Formwork.Proofs.Page.Settled
import Formwork.Proofs.Panel.Configured

/-!
# Saving content and setting it again

A field for content takes any text, and shows it as the markup that it is, or as the text that it is
when it cannot be read (`Scene.Reached.exec_setValue_content`).  What it shows can be stored in it
again: it is shown unchanged, unless it may not occur in markup and holds a character that is
written as a reference (`Scene.Reached.value_content_again`).
-/

namespace Formwork

set_option autoImplicit false

open Markup (IsMarkupText)
open Panel (Request)
open PanelM (setValue value?)

namespace Scene

variable {s : Scene} {f : FieldId} {field : Field}

/-- **Storing content**: it is taken, and read back as what is shown of it. -/
theorem Reached.exec_setValue_content (h : s.Reached) (found : s.panel.field? f = some field)
    (content : field.kind ∈ [.html, .inlineHtml]) (u : String) : ∃ s₁ field₁,
      exec (setValue f (some u)) s = (.ok true, s₁) ∧
      exec (value? f) s₁ = (.ok (some (Page.shown u)), s₁) ∧
      s₁.Reached ∧ s₁.panel.field? f = some field₁ ∧ field₁.kind = field.kind := by
  have valued : field.kind.hasValue = true := by
    revert content
    cases field.kind <;> decide
  have stores : ¬ (!field.kind.hasValue ∧ field.kind ≠ .disclosure) := fun both => by
    rw [valued] at both
    exact absurd both.1 (by decide)
  obtain ⟨w, s₁, _, opens, run⟩ := exec_setValue_opens h.custody found stores u
  have custody := opens.leads.custody
  have own := custody.own_element opens.built
  have kind := custody.kind opens.built
  obtain ⟨root, rfl⟩ : ∃ root, w = .markup root := by
    cases w with
    | markup root => exact ⟨root, rfl⟩
    | _ =>
      simp only [Widget.kinds, List.mem_cons, List.not_mem_nil, or_false] at kind content
      rcases content with content | content <;> simp [content] at kind
  rw [← opens.takes] at run
  refine ⟨_, _, run, ?_, ?_, opens.built.found, rfl⟩
  · have forest := (Widget.rewrites_stored custody.rests.forest own u).alters.forest
    have shows := custody.rests.forest.innerMarkup_setMarkupOrText (own root List.mem_cons_self) u
    have built : ({ s₁ with page := (Widget.markup root).stored s₁.page u } : Scene).Built f
        { field with widget := some (.markup root) } (.markup root) :=
      ⟨opens.built.found, rfl⟩
    unfold value?
    rw [exec_bind_ok (PanelM.exec_field built.found), valued, if_neg (by decide),
      exec_bind_ok (PanelM.exec_widgetOf_built built.found built.widget), exec_bind_ok (exec_get _)]
    exact congrArg (fun v => (Except.ok (some v), _)) shows
  · have allowed : s.Allows (.store f (some u)) := trivial
    have next := h.step allowed
    have after : (Request.store f (some u)).after s = _ := Request.after_eq (exec_bind_ok run)
    rwa [after] at next

/-- **Content that was saved and is set again**: it is read back as it was saved exactly if it may occur in
markup, or holds no character that is written as a reference.  Otherwise it becomes a text. -/
theorem Reached.value_content_again (h : s.Reached) (found : s.panel.field? f = some field)
    (content : field.kind ∈ [.html, .inlineHtml]) (u : String) : ∃ s₁ s₂,
      exec (setValue f (some u)) s = (.ok true, s₁) ∧
      exec (value? f) s₁ = (.ok (some (Page.shown u)), s₁) ∧
      exec (setValue f (some (Page.shown u))) s₁ = (.ok true, s₂) ∧
      exec (value? f) s₂ = (.ok (some (if IsMarkupText (Page.shown u) then Page.shown u
        else Markup.Escape.text (Page.shown u))), s₂) ∧
      (s₂.value f = s₁.value f ↔ IsMarkupText (Page.shown u) ∨
        ∀ c ∈ (Page.shown u).toList, c ≠ '&' ∧ c ≠ '<' ∧ c ≠ '>') := by
  obtain ⟨s₁, field₁, saved, read, reached, found₁, kind⟩ := h.exec_setValue_content found content u
  obtain ⟨s₂, _, restored, again, _⟩ :=
    reached.exec_setValue_content found₁ (kind ▸ content) (Page.shown u)
  refine ⟨s₁, s₂, saved, read, restored, Page.shown_shown u ▸ again, ?_⟩
  have first : s₁.value f = .ok (some (Page.shown u)) := congrArg Prod.fst read
  have second : s₂.value f = .ok (some (Page.shown (Page.shown u))) := congrArg Prod.fst again
  rw [first, second, Except.ok.injEq, Option.some.injEq]
  exact Page.shown_shown_eq_iff u

/-- A panel with a field for content. -/
def jotter : Scene := (opened .empty .empty ⟨0⟩ .empty).after [.create .html .empty]

/-- Markup with a repeated attribute and references is saved and set again. -/
theorem value_content_again_jotter : ∃ s₁ s₂,
    exec (setValue ⟨0⟩ (some "<b c='1' c='&lt;'>&#65;&amp;<br/></b>")) jotter = (.ok true, s₁) ∧
    exec (value? ⟨0⟩) s₁ = (.ok (some "<b c=\"&lt;\">A&amp;<br></br></b>"), s₁) ∧
    exec (setValue ⟨0⟩ (some "<b c=\"&lt;\">A&amp;<br></br></b>")) s₁ = (.ok true, s₂) ∧
    s₂.value ⟨0⟩ = s₁.value ⟨0⟩ := by
  have reached : jotter.Reached := .step (.opened .empty _ _ _) trivial
  have known : (jotter.panel.field? ⟨0⟩).map Field.kind = some .html := by decide +kernel
  obtain ⟨field, found, kind⟩ := Option.map_eq_some_iff.1 known
  have shows : Page.shown "<b c='1' c='&lt;'>&#65;&amp;<br/></b>" =
      "<b c=\"&lt;\">A&amp;<br></br></b>" := by decide +kernel
  obtain ⟨s₁, s₂, saved, read, restored, _, same⟩ := reached.value_content_again found
    (by rw [kind]; decide) "<b c='1' c='&lt;'>&#65;&amp;<br/></b>"
  rw [shows] at read restored same
  exact ⟨s₁, s₂, saved, read, restored, same.2 (.inl (by decide +kernel))⟩

/-- A reference to a control character is saved as that character, which is refused when it is set again. -/
theorem content_not_restored : jotter.Reached ∧
    (jotter.after [.store ⟨0⟩ (some "<b>&#1;</b>")]).value ⟨0⟩ = .ok (some "<b>\x01</b>") ∧
    (jotter.after [.store ⟨0⟩ (some "<b>&#1;</b>"), .store ⟨0⟩ (some "<b>\x01</b>")]).value ⟨0⟩ =
      .ok (some "&lt;b&gt;\x01&lt;/b&gt;") :=
  ⟨.step (.opened .empty _ _ _) trivial, by decide +kernel⟩

end Scene

end Formwork
