import Formwork.Proofs.Panel.Handing
import Formwork.Proofs.Template.Frame

/-!
# The values of a panel that was built

No widget of a panel that was just built holds a value yet, whatever its template is, so no widget lies
below a node that will be rewritten.  From then on the values of the fields are cells of their own
(`Builder.build_cellular`): this covers fields that lie in one another, and those in the header of a
disclosure whose header gives way to a caption.

A value that is stored by name is read again by name unless a control is checked that has the same name, lies
in front of the field that accepted the value, and stands for another one (`Builder.build_reads_back`).
A list of values that is stored by name is handed out, one value to each field (`Builder.build_hands_out`).
-/

namespace Formwork

set_option autoImplicit false

open Panel (Request)

namespace Builder

theorem secluded_of_build {b : Builder} {name : String} {w w' : Workspace} {p : Panel}
    (forest : w.page.Forest) (run : exec (b.build name) w = (.ok (some p), w')) :
    (Scene.mk p w'.page w'.counters).Secluded := by
  obtain ⟨_, built⟩ := goes_buildUpTo (b.templates.size + 1) [] name forest
  have whole : exec (b.buildUpTo (b.templates.size + 1) [] name) w = (.ok (some p), w') := run
  rw [whole] at built
  have lodges : Lodges w.page p w' := built (some p) rfl p rfl
  exact lodges.secluded

/-- **The values of a panel that was built** are cells of their own, behind any requests that read, store or
reset values. -/
theorem build_cellular {b : Builder} {name : String} {w w' : Workspace} {p : Panel}
    (forest : w.page.Forest) (run : exec (b.build name) w = (.ok (some p), w')) {rs : List Request}
    (handles : ∀ r ∈ rs, r.handlesValues = true) :
    ((Scene.mk p w'.page w'.counters).after rs).Cellular :=
  ((secluded_of_build forest run).after handles).1.cellular

/-- A disclosure with a header, in which there is a text to edit, and a text to read. -/
def headedTemplate : Template :=
  ⟨⟨none, "", .empty⟩, [.composite ⟨some ⟨0, some .disclosure⟩, "", .empty⟩
    [.composite ⟨some ⟨1, some .header⟩, "", OrderedMap.empty.insert Vocabulary.tagKey
        Vocabulary.headerTag⟩ [.composite ⟨some ⟨2, some .textInput⟩, "", .empty⟩ []],
      .composite ⟨some ⟨3, some .readOnly⟩, "", .empty⟩ []]]⟩

/-- A builder that knows it. -/
def headedBuilder : Builder :=
  ⟨.empty 4, .empty, ⟨0⟩, OrderedMap.empty.insert "headed" headedTemplate, .empty⟩

/-- Whether a build gives a panel that passes a test. -/
def givesSuch (test : Scene → Bool) (built : Except BuildError (Option Panel) × Workspace) : Bool :=
  match built with
  | (.ok (some p), w) => test ⟨p, w.page, w.counters⟩
  | _ => false

theorem exists_of_givesSuch {test : Scene → Bool} {built : Except BuildError (Option Panel) × Workspace}
    (given : givesSuch test built = true) :
    ∃ p w, built = (.ok (some p), w) ∧ test ⟨p, w.page, w.counters⟩ = true := by
  match built, given with
  | (.ok (some p), w), passed => exact ⟨p, w, rfl, passed⟩

/-- Behind some requests. -/
theorem exists_behind_of_givesSuch {test : Scene → Bool} {rs : List Request}
    {built : Except BuildError (Option Panel) × Workspace}
    (given : givesSuch (test ∘ fun s => s.after rs) built = true) :
    ∃ p w s, built = (.ok (some p), w) ∧ s = (Scene.mk p w.page w.counters).after rs ∧ test s = true := by
  obtain ⟨p, w, run, passed⟩ := exists_of_givesSuch given
  exact ⟨p, w, _, run, rfl, passed⟩

theorem build_cellular_headed : ∃ p w' s',
    exec (headedBuilder.build "headed") ⟨.empty, ⟨#[.initial]⟩⟩ = (.ok (some p), w') ∧
      exec (PanelM.setValue ⟨2⟩ (some "x")) ⟨p, w'.page, w'.counters⟩ = (.ok true, s') ∧
      (s'.after [.store ⟨0⟩ (some "<b>y</b>")]).value ⟨2⟩ = .ok (some "x") := by
  have given : givesSuch (fun s => (exec (PanelM.setValue ⟨2⟩ (some "x")) s).1 = .ok true ∧
      (s.panel.field? ⟨2⟩).all fun field => field.kind.keepsValues)
      (exec (headedBuilder.build "headed") ⟨.empty, ⟨#[.initial]⟩⟩) = true := by
    decide +kernel
  obtain ⟨p, w', run, passed⟩ := exists_of_givesSuch given
  obtain ⟨accepted, keeps⟩ := of_decide_eq_true passed
  have cellular := build_cellular .empty run (nofun : ∀ r ∈ ([] : List Request), r.handlesValues = true)
  rw [Scene.after_nil] at cellular
  refine ⟨p, w', _, run, Prod.ext accepted rfl, ?_⟩
  refine cellular.stored ⟨2⟩ "x" _ (Prod.ext accepted rfl) (fun field found => ?_) _ ?_ ?_
  · rw [found] at keeps
    exact keeps
  · simp [Request.handlesValues]
  · exact ⟨by simp [Request.reached], trivial⟩

/-! ## Storing and reading by name -/

/-- Two controls to check that share a name, and a text to edit. -/
def choiceTemplate : Template :=
  ⟨⟨none, "", .empty⟩, [
    .composite ⟨some ⟨0, some .radio⟩, "", (OrderedMap.empty.insert Vocabulary.nameKey "r").insert
      Vocabulary.valueKey "a"⟩ [],
    .composite ⟨some ⟨1, some .radio⟩, "", (OrderedMap.empty.insert Vocabulary.nameKey "r").insert
      Vocabulary.valueKey "b"⟩ [],
    .composite ⟨some ⟨2, some .textInput⟩, "", OrderedMap.empty.insert Vocabulary.nameKey "user"⟩ []]⟩

/-- A builder that knows them. -/
def choiceBuilder : Builder :=
  ⟨.empty 3, .empty, ⟨0⟩, OrderedMap.empty.insert "choice" choiceTemplate, .empty⟩

/-- **Handing out values** to the fields with a name, behind any requests that read, store or reset values:
each field uses up one value, whether it accepts it or not, and is left in the state in which storing that
value alone leaves it; when there are no values left it is as if there was none to store.  All other fields
keep their values.  And what is read by name is the first of all values that are read by name. -/
theorem build_hands_out {b : Builder} {name : String} {w w' : Workspace} {p : Panel}
    (forest : w.page.Forest) (run : exec (b.build name) w = (.ok (some p), w')) {rs : List Request}
    (handles : ∀ r ∈ rs, r.handlesValues = true) {s : Scene}
    (behind : s = (Scene.mk p w'.page w'.counters).after rs) (called : String) (values : List String) :
    ∃ fs s', s.panel.table.named called = fs ∧
      (∀ f, f ∈ fs ↔ ∃ field, s.panel.field? f = some field ∧ field.name = called) ∧
      (fs.Pairwise fun f g => f.index < g.index) ∧
      exec (PanelM.setFieldValues called values) s =
        (.ok (values.drop (min fs.length values.length)), s') ∧
      (∀ (i : Nat) (f : FieldId), fs[i]? = some f →
        s'.state f = (exec (PanelM.setValue f values[i]?) s).2.state f) ∧
      (∀ g, g ∉ fs → s'.value g = s.value g) ∧
      ∃ all, (exec (PanelM.fieldValues called) s).1 = .ok all ∧
        (exec (PanelM.fieldValue? called) s).1 = .ok all.head? := by
  subst behind
  have secluded := ((secluded_of_build forest run).after handles).1
  obtain ⟨s', handed, hands⟩ := PanelM.exec_setFieldValues secluded called values
  rw [List.drop_eq_drop_min] at handed
  exact ⟨_, s', rfl, secluded.custody.booked.named called, secluded.custody.booked.ascending called, handed,
    hands.state, fun g other => (hands.others g other).value,
    _, PanelM.exec_fieldValues secluded called, PanelM.exec_fieldValue?_head secluded called⟩

/-- Of three values the first is refused, the second is accepted, and the third is left over. -/
theorem build_hands_out_choice : ∃ p w' s s',
    exec (choiceBuilder.build "choice") ⟨.empty, ⟨#[.initial]⟩⟩ = (.ok (some p), w') ∧
      s = (Scene.mk p w'.page w'.counters).after [.store ⟨2⟩ (some "me")] ∧
      exec (PanelM.setFieldValues "r" ["b", "b", "x"]) s = (.ok ["x"], s') ∧
      s'.value ⟨0⟩ = .ok none ∧ s'.value ⟨1⟩ = .ok (some "b") ∧ s'.value ⟨2⟩ = .ok (some "me") := by
  have given : givesSuch ((fun s => s.panel.table.named "r" = [⟨0⟩, ⟨1⟩] ∧
      (exec (PanelM.setValue ⟨0⟩ ["b", "b", "x"][0]?) s).2.value ⟨0⟩ = .ok none ∧
      (exec (PanelM.setValue ⟨1⟩ ["b", "b", "x"][1]?) s).2.value ⟨1⟩ = .ok (some "b") ∧
      s.value ⟨2⟩ = .ok (some "me")) ∘ fun s => s.after [.store ⟨2⟩ (some "me")])
      (exec (choiceBuilder.build "choice") ⟨.empty, ⟨#[.initial]⟩⟩) = true := by
    decide +kernel
  obtain ⟨p, w', s, run, behind, passed⟩ := exists_behind_of_givesSuch given
  obtain ⟨named, first, second, third⟩ := of_decide_eq_true passed
  have handles : ∀ r ∈ [Request.store ⟨2⟩ (some "me")], r.handlesValues = true := by
    simp [Request.handlesValues]
  obtain ⟨fs, s', is, _, _, handed, states, others, _⟩ :=
    build_hands_out .empty run handles behind "r" ["b", "b", "x"]
  obtain rfl := is.symm.trans named
  refine ⟨p, w', s, s', run, behind, handed, ?_, ?_, ?_⟩
  · exact (congrArg Prod.fst (states 0 ⟨0⟩ rfl)).trans first
  · exact (congrArg Prod.fst (states 1 ⟨1⟩ rfl)).trans second
  · exact (others ⟨2⟩ (by simp)).trans third

end Builder

end Formwork
