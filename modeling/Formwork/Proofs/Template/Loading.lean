import Formwork.Proofs.Template.Recursion

/-!
# Templates of a document

The templates of a document that was read are named elements directly below its root.  Each of them
can be built, unless it shows itself in the end (`Builder.build_loaded`), provided that the texts and
values of the document hold nothing but characters that may occur in markup.  What a template says is
written as markup and read again; a control character that came from a reference by number is written
as it is, and the markup with it is refused.
-/

namespace Formwork

set_option autoImplicit false

open Markup (parseDocument)

namespace Builder

/-- The names of the templates of a document. -/
def namesIn (root : Markup.Element) : List String := root.elements.filterMap templateName?

/-- Adding the element of a document, when it is a template. -/
def addElement (b : Builder) (element : Markup.Element) : Builder :=
  match templateName? element with
  | some name => b.addTemplate name element (some element.fieldAttributes)
  | none => b

/-- Counting apart, the templates of a document are added one after the other. -/
theorem addTemplates_eq_foldl (b : Builder) (root : Markup.Element) :
    (b.addTemplates root).2 = root.elements.foldl addElement b := by
  unfold addTemplates
  generalize root.elements = elements
  generalize 0 = count
  induction elements generalizing b count with
  | nil => rfl
  | cons element elements ih =>
    rw [List.foldl_cons, List.foldl_cons]
    unfold addElement
    cases templateName? element with
    | none => exact ih b count
    | some name => exact ih _ _

theorem Compiled.addElement {b : Builder} (h : b.Compiled) {element : Markup.Element}
    (writable : element.toNode.Writable) : (b.addElement element).Compiled := by
  unfold Builder.addElement
  cases templateName? element with
  | none => exact h
  | some name => exact h.addTemplate writable _ _

/-- The templates of a document that can be written are compiled. -/
theorem Compiled.addTemplates {b : Builder} (h : b.Compiled) {root : Markup.Element}
    (writable : root.toNode.Writable) : (b.addTemplates root).2.Compiled := by
  rw [addTemplates_eq_foldl]
  refine List.foldlRecOn _ _ h fun b h element mem => h.addElement ?_
  obtain ⟨n, below, found⟩ := List.mem_filterMap.1 mem
  cases n with
  | text content => cases found
  | element tag children =>
    cases found
    exact writable.2.2.of_mem _ below

/-- A template that was added is there. -/
theorem contains_addTemplate (b : Builder) (name : String) (element : Markup.Element)
    (metadata : Option Attributes) {u : String} :
    (b.addTemplate name element metadata).templates.contains u = true ↔
      u = name ∨ b.templates.contains u = true := by
  unfold OrderedMap.contains addTemplate
  dsimp only
  rw [OrderedMap.get?_insert]
  by_cases same : name = u
  · rw [if_pos same]
    exact ⟨fun _ => .inl same.symm, fun _ => rfl⟩
  · rw [if_neg same]
    exact ⟨.inr, fun h => h.resolve_left fun eq => same eq.symm⟩

theorem contains_foldl_addElement {u : String} : ∀ (elements : List Markup.Element) {b : Builder},
    (elements.foldl addElement b).templates.contains u = true ↔
      u ∈ elements.filterMap templateName? ∨ b.templates.contains u = true
  | [], b => by simp
  | element :: elements, b => by
    rw [List.foldl_cons, contains_foldl_addElement elements, List.filterMap_cons]
    unfold addElement
    cases named : templateName? element with
    | none => rfl
    | some name =>
      rw [contains_addTemplate, List.mem_cons]
      exact or_left_comm.trans or_assoc.symm

/-- **The templates of a document** are there when they were added, besides those that were there. -/
theorem contains_addTemplates (b : Builder) (root : Markup.Element) {u : String} :
    (b.addTemplates root).2.templates.contains u = true ↔
      u ∈ namesIn root ∨ b.templates.contains u = true := by
  rw [addTemplates_eq_foldl]
  exact contains_foldl_addElement root.elements

/-- **The templates of a document can be built**, wherever it is and whatever was built before, when
its texts and values hold nothing but characters that may occur in markup.  Only recursion is
refused. -/
theorem build_loaded {b : Builder} (compiled : b.Compiled) {source : String}
    {root : Markup.Element} (parsed : parseDocument source = .ok root)
    (legible : root.toNode.Legible) {name : String} (listed : name ∈ namesIn root) (w : Workspace) :
    (∃ p w', exec ((b.addTemplates root).2.build name) w = (.ok (some p), w')) ∨
      ∃ u w', exec ((b.addTemplates root).2.build name) w = (.error (.recursiveTemplate u), w') := by
  have writable := (Markup.Node.writable_iff _).2 ⟨Markup.parseDocument_named parsed, legible⟩
  have builds := builds_buildUpTo (compiled.addTemplates writable) _ (Deep.start _)
  by_cases doomed : (b.addTemplates root).2.Doomed [] name
  · exact .inr (builds.refuses doomed w)
  · obtain ⟨o, w', run, gives⟩ := builds.gives doomed w
    cases gives with
    | panel bears built => exact .inl ⟨_, w', run⟩
    | nothing absent =>
      have known := (contains_addTemplates b root).2 (.inl listed)
      unfold OrderedMap.contains at known
      rw [absent] at known
      cases known

/-- Whether a document can be read and its root passes a test. -/
def readsTo (source : String) (test : Markup.Element → Bool) : Bool :=
  match parseDocument source with
  | .ok root => test root
  | .error _ => false

theorem exists_of_readsTo (source : String) (test : Markup.Element → Bool)
    (reads : readsTo source test = true) :
    ∃ root, parseDocument source = .ok root ∧ test root = true := by
  unfold readsTo at reads
  cases parsed : parseDocument source with
  | error e =>
    rw [parsed] at reads
    cases reads
  | ok root =>
    rw [parsed] at reads
    exact ⟨root, rfl, reads⟩

/-- A document with one template, in which a reference stands for a character of markup. -/
def ampersandDocument : String :=
  "<r xmlns:t='http://www.adnotatio.org/ns/templates#'><t:template t:name='t'>&#38;</t:template></r>"

theorem build_loaded_ampersand : ∃ root, parseDocument ampersandDocument = .ok root ∧
    ((∃ p w', exec (((create (.builtin 0) ⟨0⟩).addTemplates root).2.build "t")
        ⟨⟨#[]⟩, ⟨#[.initial]⟩⟩ = (.ok (some p), w')) ∨
      ∃ u w', exec (((create (.builtin 0) ⟨0⟩).addTemplates root).2.build "t")
        ⟨⟨#[]⟩, ⟨#[.initial]⟩⟩ = (.error (.recursiveTemplate u), w')) := by
  obtain ⟨root, parsed, passed⟩ := exists_of_readsTo ampersandDocument
    (fun root => decide (root.toNode.Legible ∧ "t" ∈ namesIn root)) (by decide +kernel)
  obtain ⟨legible, listed⟩ := of_decide_eq_true passed
  exact ⟨root, parsed, build_loaded (Compiled.create _ _) parsed legible listed _⟩

/-- A document with one template, in which a reference stands for a control character. -/
def controlDocument : String :=
  "<r xmlns:t='http://www.adnotatio.org/ns/templates#'><t:template t:name='t'>&#1;</t:template></r>"

/-- Whether a build is refused because markup cannot be read. -/
def isUnreadable (answer : Except BuildError (Option Panel)) : Bool :=
  match answer with
  | .error (.page (.invalidMarkup _)) => true
  | _ => false

theorem exists_of_isUnreadable {answer : Except BuildError (Option Panel)}
    (unreadable : isUnreadable answer = true) : ∃ e, answer = .error (.page (.invalidMarkup e)) := by
  match answer, unreadable with
  | .error (.page (.invalidMarkup e)), _ => exact ⟨e, rfl⟩

/-- Not every template of a document can be built: a control character is read when it is written as
a reference, and refused when it is written as it is. -/
theorem build_control : ∃ root e w', parseDocument controlDocument = .ok root ∧
    "t" ∈ namesIn root ∧
      exec (((create (.builtin 0) ⟨0⟩).addTemplates root).2.build "t")
        ⟨⟨#[]⟩, ⟨#[.initial]⟩⟩ = (.error (.page (.invalidMarkup e)), w') := by
  obtain ⟨root, parsed, passed⟩ := exists_of_readsTo controlDocument
    (fun root => decide ("t" ∈ namesIn root) && isUnreadable
      (exec (((create (.builtin 0) ⟨0⟩).addTemplates root).2.build "t")
        ⟨⟨#[]⟩, ⟨#[.initial]⟩⟩).1) (by decide +kernel)
  rw [Bool.and_eq_true] at passed
  obtain ⟨e, same⟩ := exists_of_isUnreadable passed.2
  exact ⟨root, e, _, parsed, of_decide_eq_true passed.1, Prod.ext same rfl⟩

end Builder

end Formwork
