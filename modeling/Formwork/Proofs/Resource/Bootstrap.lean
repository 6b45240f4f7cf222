import Mathlib.Data.List.Perm.Basic
import Formwork.Proofs.Resource.Barrier
import Formwork.Proofs.Template.Loading
import Formwork.Resource.Bootstrap

/-!
# Filling a builder does not depend on the order of arrival

Messages and templates are installed by two callbacks that work on one builder, as their loads end.  What
the one writes the other neither reads nor writes (`Builder.installTemplates_installMessages`), so the
builder that is left is told by what could be used of the two answers (`Builder.filled`), and neither the
order in which they came nor the failure of one of them shows in it (`Builder.loadBy_of_fair`).
-/

namespace Formwork

set_option autoImplicit false

/-! ## What can be used of an answer -/

namespace Answer

/-- The text in an answer that holds what was asked for. -/
def text? : Answer → Option String
  | .response r => if r.status = 200 then some r.text else none
  | .failed _ => none
  | .brokenOff => none

/-- The root of the document in an answer. -/
def root? (a : Answer) : Option Markup.Element :=
  a.text?.bind fun text => (Markup.parseDocument text).toOption

end Answer

namespace LoadKind

theorem toOption_load_text (url : String) : ∀ a : Answer,
    ((LoadKind.text.load url a).result url).toOption = a.text?
  | .response r => by
    simp only [load, convert, TaskEnd.result, Response.isOk, beq_iff_eq, Answer.text?]
    split <;> rfl
  | .failed _ => rfl
  | .brokenOff => rfl

theorem toOption_load_document (url : String) : ∀ a : Answer,
    ((LoadKind.document.load url a).result url).toOption = a.root?
  | .response r => by
    simp only [load, convert, TaskEnd.result, Response.isOk, beq_iff_eq, Answer.root?, Answer.text?]
    split
    · rw [Option.bind_some]
      cases Markup.parseDocument r.text <;> rfl
    · rfl
  | .failed _ => rfl
  | .brokenOff => rfl

end LoadKind

theorem failure?_eq_none {α : Type} : ∀ {result : Except LoadError α},
    failure? result = none ↔ result.toOption.isSome
  | .ok _ => by simp [failure?, Except.toOption]
  | .error _ => by simp [failure?, Except.toOption]

namespace Builder

/-! ## Installing -/

theorem installMessages_eq (b : Builder) : ∀ result : Except LoadError String,
    installMessages result b = { b with messages := result.toOption.elim b.messages .parse }
  | .ok _ => rfl
  | .error _ => rfl

theorem installTemplates_eq (b : Builder) : ∀ result : Except LoadError Markup.Element,
    installTemplates result b = result.toOption.elim b fun root => (b.addTemplates root).2
  | .ok _ => rfl
  | .error _ => rfl

theorem addElement_withMessages (b : Builder) (m : Messages) (element : Markup.Element) :
    addElement { b with messages := m } element = { b.addElement element with messages := m } := by
  unfold addElement
  cases templateName? element <;> rfl

/-- Templates are compiled without the messages. -/
theorem addTemplates_withMessages (b : Builder) (m : Messages) (root : Markup.Element) :
    (addTemplates { b with messages := m } root).2 = { (b.addTemplates root).2 with messages := m } := by
  rw [addTemplates_eq_foldl, addTemplates_eq_foldl]
  generalize root.elements = elements
  induction elements generalizing b with
  | nil => rfl
  | cons element elements ih => rw [List.foldl_cons, List.foldl_cons, addElement_withMessages, ih]

/-- Adding templates leaves the messages. -/
theorem messages_addTemplates (b : Builder) (root : Markup.Element) :
    (b.addTemplates root).2.messages = b.messages :=
  congrArg (fun b => b.messages) (addTemplates_withMessages b b.messages root)

/-- The builder with the messages of a text and the templates of a document, as far as there are any. -/
def filled (b : Builder) (text : Option String) (root : Option Markup.Element) : Builder :=
  { root.elim b fun root => (b.addTemplates root).2 with messages := text.elim b.messages .parse }

/-- Installing messages and then templates. -/
theorem installTemplates_installMessages (b : Builder) (text : Except LoadError String)
    (document : Except LoadError Markup.Element) :
    installTemplates document (installMessages text b) = b.filled text.toOption document.toOption := by
  rw [installMessages_eq, installTemplates_eq]
  unfold filled
  cases document.toOption with
  | none => rfl
  | some root => exact addTemplates_withMessages b _ root

/-- Installing templates and then messages. -/
theorem installMessages_installTemplates (b : Builder) (text : Except LoadError String)
    (document : Except LoadError Markup.Element) :
    installMessages text (installTemplates document b) = b.filled text.toOption document.toOption := by
  rw [installMessages_eq, installTemplates_eq]
  unfold filled
  cases document.toOption with
  | none => rfl
  | some root =>
    dsimp only [Option.elim_some]
    rw [messages_addTemplates]

theorem installTemplates_filled (b : Builder) (document : Except LoadError Markup.Element) :
    installTemplates document b = b.filled none document.toOption := by
  rw [installTemplates_eq]
  unfold filled
  cases document.toOption with
  | none => rfl
  | some root => exact (addTemplates_withMessages b b.messages root)

/-! ## Loading -/

section Loading

variable (b : Builder) (base : String) (messages : Option String) (templates : String)
  (text document : Answer)

/-- The answer to a load that fills a builder. -/
def answerOf (text document : Answer) : LoadKind → Answer
  | .text => text
  | _ => document

/-- How a load that fills a builder ends. -/
def bootstrapEnd (i : Fin (bootstrapLoads base messages templates).length) :
    TaskEnd (bootstrapLoads base messages templates)[i].loader.kind.Output :=
  let loader := (bootstrapLoads base messages templates)[i].loader
  loader.kind.load loader.url (answerOf text document loader.kind)

/-- The result of a load that fills a builder. -/
def bootstrapResult (i : Fin (bootstrapLoads base messages templates).length) :
    Except LoadError (bootstrapLoads base messages templates)[i].loader.kind.Output :=
  (bootstrapLoads base messages templates)[i].result (bootstrapEnd base messages templates text document i)

/-- What a load that fills a builder installs. -/
def bootstrapTell (b : Builder) (i : Fin (bootstrapLoads base messages templates).length) : Builder :=
  (bootstrapLoads base messages templates)[i].tell (bootstrapResult base messages templates text document i) b

/-- It does not matter which load is installed first. -/
theorem bootstrapTell_comm : ∀ (messages : Option String)
    (i j : Fin (bootstrapLoads base messages templates).length) (b : Builder),
    bootstrapTell base messages templates text document
        (bootstrapTell base messages templates text document b i) j =
      bootstrapTell base messages templates text document
        (bootstrapTell base messages templates text document b j) i
  | none, ⟨0, _⟩, ⟨0, _⟩, _ => rfl
  | some _, ⟨0, _⟩, ⟨0, _⟩, _ => rfl
  | some _, ⟨0, _⟩, ⟨1, _⟩, b =>
    (installTemplates_installMessages b _ _).trans (installMessages_installTemplates b _ _).symm
  | some _, ⟨1, _⟩, ⟨0, _⟩, b =>
    (installMessages_installTemplates b _ _).trans (installTemplates_installMessages b _ _).symm
  | some _, ⟨1, _⟩, ⟨1, _⟩, _ => rfl

/-- All loads, installed one after the other. -/
theorem foldl_bootstrapTell : ∀ messages : Option String,
    (List.finRange (bootstrapLoads base messages templates).length).foldl
        (bootstrapTell base messages templates text document) b =
      b.filled (messages.bind fun _ => text.text?) document.root?
  | none => by
    rw [← LoadKind.toOption_load_document (base ++ templates) document]
    exact installTemplates_filled b _
  | some path => by
    rw [Option.bind_some, ← LoadKind.toOption_load_text (base ++ path) text,
      ← LoadKind.toOption_load_document (base ++ templates) document]
    exact installTemplates_installMessages b _ _

/-- All loads succeed when all that was asked for could be used. -/
theorem forall_failure?_eq_none : ∀ messages : Option String,
    (∀ i, failure? (bootstrapResult base messages templates text document i) = none) ↔
      (messages.isSome → text.text?.isSome) ∧ document.root?.isSome
  | none => by
    rw [← LoadKind.toOption_load_document (base ++ templates) document]
    constructor
    · intro all
      exact ⟨nofun, failure?_eq_none.1 (all ⟨0, Nat.one_pos⟩)⟩
    · rintro ⟨-, document⟩ ⟨_ | _, below⟩
      · exact failure?_eq_none.2 document
      · exact absurd (Nat.lt_of_succ_lt_succ below) (Nat.not_lt_zero _)
  | some path => by
    rw [← LoadKind.toOption_load_text (base ++ path) text,
      ← LoadKind.toOption_load_document (base ++ templates) document]
    constructor
    · intro all
      exact ⟨fun _ => failure?_eq_none.1 (all ⟨0, Nat.two_pos⟩),
        failure?_eq_none.1 (all ⟨1, Nat.one_lt_two⟩)⟩
    · rintro ⟨text, document⟩ ⟨_ | _ | _, below⟩
      · exact failure?_eq_none.2 (text rfl)
      · exact failure?_eq_none.2 document
      · exact absurd (Nat.lt_of_succ_lt_succ (Nat.lt_of_succ_lt_succ below)) (Nat.not_lt_zero _)

/-- What is reported of an outcome is its first failure. -/
theorem reported_eq (o : Outcome) : reported o = o.failures.head?.elim (.ok ()) .error := by
  unfold reported
  cases o.failures <;> rfl

theorem elim_error_eq_ok : ∀ failure : Option LoadError,
    failure.elim (.ok ()) .error = (.ok () : Except LoadError Unit) ↔ failure = none
  | none => by simp
  | some _ => by simp

/-- How the loads that fill a builder end. -/
def bootstrapEnds : Nat → TaskEnd Loaded :=
  Registration.endsOf _ (bootstrapEnd base messages templates text document)

variable {run : Runtime}

/-- The builder that is left when tasks end in any order. -/
theorem loadBy_snd (fair : run.Fair (bootstrapLoads base messages templates).length) :
    (b.loadBy run (bootstrapEnds base messages templates text document) base messages templates).2 =
      b.filled (messages.bind fun _ => text.text?) document.root? :=
  calc _ = (run.order _).foldl (bootstrapTell base messages templates text document) b :=
        congrArg Prod.snd
          (Registration.carryOut_entries (bootstrapEnd base messages templates text document) fair b)
    _ = (List.finRange _).foldl (bootstrapTell base messages templates text document) b :=
        fair.once.foldl_eq'
          (fun i _ j _ b => bootstrapTell_comm base templates text document messages i j b) b
    _ = _ := foldl_bootstrapTell b base templates text document messages

/-- What is reported when tasks end in any order. -/
theorem loadBy_fst (fair : run.Fair (bootstrapLoads base messages templates).length) :
    (b.loadBy run (bootstrapEnds base messages templates text document) base messages templates).1 =
      ((run.order _).findSome? fun i =>
        failure? (bootstrapResult base messages templates text document i)).elim (.ok ()) .error :=
  calc _ = reported _ := congrArg (fun p : Outcome × Builder => reported p.1)
        (Registration.carryOut_entries (bootstrapEnd base messages templates text document) fair b)
    _ = _ := by
        rw [reported_eq, Registration.failures_ofResults, List.head?_filterMap]
        rfl

/-- **Filling a builder does not depend on the order of arrival.**  Whatever the answers are, the builder gets
the messages if they were asked for and could be used, and the templates if the document could be used,
each of them whatever became of the other.  The load succeeds when all that was asked for could be used;
otherwise the error is that of the failed load that ended first. -/
theorem loadBy_any_order (fair : run.Fair (bootstrapLoads base messages templates).length) :
    let loaded :=
      b.loadBy run (bootstrapEnds base messages templates text document) base messages templates
    loaded.2 = b.filled (messages.bind fun _ => text.text?) document.root? ∧
      (loaded.1 = .ok () ↔ (messages.isSome → text.text?.isSome) ∧ document.root?.isSome) ∧
      loaded.1 = ((run.order _).findSome? fun i =>
        failure? (bootstrapResult base messages templates text document i)).elim (.ok ()) .error := by
  refine ⟨loadBy_snd b base messages templates text document fair, ?_,
    loadBy_fst b base messages templates text document fair⟩
  rw [loadBy_fst b base messages templates text document fair, ← forall_failure?_eq_none base templates,
    elim_error_eq_ok, List.findSome?_eq_none_iff]
  exact ⟨fun all i => all i (fair.once.mem_iff.2 (List.mem_finRange i)), fun all i _ => all i⟩

end Loading

/-- A document with one template. -/
def helloDocument : String :=
  "<r xmlns:t='http://www.adnotatio.org/ns/templates#'><t:template t:name='hello'>Hello</t:template></r>"

/-- Messages that do not exist, and templates that do: the templates are there, and the messages are what is
reported, although the templates came first. -/
theorem loadBy_any_order_missing : Barrier.lastFirst.Fair 2 ∧
    let loaded := (create (.builtin 0) ⟨0⟩).loadBy Barrier.lastFirst
      (bootstrapEnds "" (some "m") "t" (.response .notFound) (.response (.ok helloDocument))) "" (some "m") "t"
    loaded.1 = .error (.status "m" .notFound) ∧ loaded.2.templates.contains "hello" = true := by
  have fair := Barrier.fair_lastFirst 2
  obtain ⟨filled, -, first⟩ := loadBy_any_order (create (.builtin 0) ⟨0⟩) "" (some "m") "t"
    (.response .notFound) (.response (.ok helloDocument)) fair
  refine ⟨fair, first.trans ?_, (congrArg (fun b => b.templates.contains "hello") filled).trans ?_⟩
  · have missing : ((Barrier.lastFirst.order _).findSome? fun i => failure?
        (bootstrapResult "" (some "m") "t" (.response .notFound) (.response (.ok helloDocument)) i)) =
        some (.status "m" .notFound) := by decide +kernel
    rw [missing]
    rfl
  · decide +kernel

/-! ## The load of a transport -/

theorem answered_bootstrapLoads (transport : Transport) (base templates : String) :
    ∀ messages : Option String,
      Barrier.answered transport (bootstrapEntries base messages templates) =
        bootstrapEnds base messages templates (transport (base ++ messages.getD "")).answer
          (transport (base ++ templates)).answer
  | none => by
    funext index
    match index with
    | 0 => rfl
    | _ + 1 => rfl
  | some path => by
    funext index
    match index with
    | 0 => rfl
    | 1 => rfl
    | _ + 2 => rfl

/-- **Loading from a transport** leaves the builder with what could be used of the answers, however long they
take. -/
theorem load_snd (b : Builder) (transport : Transport) (base : String) (messages : Option String)
    (templates : String) :
    (b.load transport base messages templates).2 = b.filled
      (messages.bind fun path => (transport (base ++ path)).answer.text?)
      (transport (base ++ templates)).answer.root? := by
  unfold load
  dsimp only
  rw [answered_bootstrapLoads, loadBy_snd b base messages templates _ _ (Barrier.fair_byDelay _ _ _)]
  cases messages <;> rfl

end Builder

end Formwork
