import Formwork.Proofs.Markup.Scoping
import Formwork.Proofs.Template.Loading

/-!
# Looking attributes up

The attributes of an element are looked up in two ways.  One searches the tag and finds the first
attribute with a URI; the other searches a map of the tag, in which the last attribute with a URI
counts.  Differently written names may stand for one URI, and a document in which they do is accepted.

So the lookups of an element agree at a URI exactly if the first and the last value that its names give
to the URI are the same.  A template is registered under its first name, and its metadata have the last
(`Builder.addTemplates_lookups`).
-/

namespace Formwork

set_option autoImplicit false

open Markup (parseDocument)

/-! ## The two lookups of a tag -/

namespace Markup

/-- The values that the innermost of some tags gives to a URI, in the order in which they are written:
those of its attributes whose names stand for the URI there. -/
def Tag.valuesIn : List Tag → String → List String
  | [], _ => []
  | t :: around, u => (t.attributes.filter fun a =>
      attributeUriIn (t :: around) (.ofText a.qname) = u).map Attribute.value

/-- In the innermost of some tags one lookup finds the first value that is given to a URI, the other
the last one. -/
def Tag.Answers : List Tag → Prop
  | [] => True
  | t :: around => ∀ u, t.attribute? u = (valuesIn (t :: around) u).head? ∧
      t.fieldAttributes.get? u = (valuesIn (t :: around) u).getLast?

/-- In the innermost of some tags the lookups agree at the URIs that have a single value there, or whose
last value is the first one again. -/
def Tag.AgreesIn : List Tag → Prop
  | [] => True
  | t :: around => ∀ u, t.attribute? u = t.fieldAttributes.get? u ↔
      (valuesIn (t :: around) u).head? = (valuesIn (t :: around) u).getLast?

/-- The map of a tag has the last value of every URI. -/
theorem Tag.get?_fieldAttributes (t : Tag) (u : String) :
    t.fieldAttributes.get? u =
      ((t.attributes.filter fun a => a.uri = u).map Attribute.value).getLast? := by
  rw [fieldAttributes, OrderedMap.get?_ofList, List.filter_map, List.getLast?_map, List.getLast?_map,
    Option.map_map]
  rfl

/-- Tags whose names are resolved by position answer by position. -/
theorem Tag.Scoped.answers : ∀ {tags : List Tag}, Tag.Scoped tags → Tag.Answers tags
  | [], _ => trivial
  | t :: around, ⟨_, uris, _⟩ => by
    intro u
    have given : t.attributes.filter (fun a => a.uri = u) =
        t.attributes.filter fun a => attributeUriIn (t :: around) (.ofText a.qname) = u :=
      List.filter_congr fun a mem => by rw [uris a mem]
    rw [valuesIn, ← given]
    refine ⟨?_, t.get?_fieldAttributes u⟩
    rw [attribute?, List.head?_map, List.head?_filter]

theorem Tag.Answers.agreesIn : ∀ {tags : List Tag}, Tag.Answers tags → Tag.AgreesIn tags
  | [], _ => trivial
  | _ :: _, answers => fun u => by rw [(answers u).1, (answers u).2]

mutual
theorem Node.EveryTag.imp {P Q : List Tag → Prop} (implies : ∀ tags, P tags → Q tags) :
    ∀ {n : Node} {around : List Tag}, n.EveryTag P around → n.EveryTag Q around
  | .text _, _, _ => trivial
  | .element _ _, _, ⟨own, below⟩ => ⟨implies _ own, EveryTagIn.imp implies below⟩

theorem Node.EveryTagIn.imp {P Q : List Tag → Prop} (implies : ∀ tags, P tags → Q tags) :
    ∀ {ns : List Node} {around : List Tag}, EveryTagIn P around ns → EveryTagIn Q around ns
  | [], _, _ => trivial
  | _ :: _, _, ⟨first, rest⟩ => ⟨EveryTag.imp implies first, EveryTagIn.imp implies rest⟩
end

theorem Node.EveryTagIn.of_mem {P : List Tag → Prop} {around : List Tag} :
    ∀ {ns : List Node}, EveryTagIn P around ns → ∀ n ∈ ns, n.EveryTag P around
  | _ :: _, ⟨first, _⟩, _, .head _ => first
  | _ :: _, ⟨_, rest⟩, n, .tail _ mem => of_mem rest n mem

/-- The tag of an element directly below a root stands in that of the root. -/
theorem Element.tag_of_mem_elements {P : List Tag → Prop} {root e : Element}
    (every : root.toNode.EveryTag P []) (mem : e ∈ root.elements) : P [e.toTag, root.toTag] := by
  obtain ⟨n, below, found⟩ := List.mem_filterMap.1 mem
  cases n with
  | text content => cases found
  | element tag children =>
    cases found
    exact (every.2.of_mem _ below).1

end Markup

/-! ## The metadata of a template -/

namespace Builder

/-- The last element of a document that is a template of this name. -/
def namedIn? (root : Markup.Element) (name : String) : Option Markup.Element :=
  (root.elements.filter fun e => templateName? e = some name).getLast?

/-- The last template of a name counts, with its own metadata. -/
theorem get?_foldl_addElement (b : Builder) (elements : List Markup.Element) (name : String) :
    (elements.foldl addElement b).templates.get? name =
        ((elements.filter fun e => templateName? e = some name).getLast?.map fun e =>
          Template.compile b.registry e.toNode).or (b.templates.get? name) ∧
      (elements.foldl addElement b).metadata.get? name =
        ((elements.filter fun e => templateName? e = some name).getLast?.map fun e =>
          e.fieldAttributes).or (b.metadata.get? name) ∧
      (elements.foldl addElement b).registry = b.registry := by
  induction elements using List.reverseRecOn with
  | nil => exact ⟨rfl, rfl, rfl⟩
  | append_singleton elements e ih =>
    obtain ⟨templates, metadata, registry⟩ := ih
    rw [List.foldl_append, List.foldl_cons, List.foldl_nil, List.filter_append]
    by_cases named : templateName? e = some name
    · rw [List.filter_cons_of_pos (by simpa using named), List.filter_nil, List.getLast?_concat]
      unfold addElement
      rw [named]
      refine ⟨?_, OrderedMap.get?_insert_self _ _ _, registry⟩
      rw [← registry]
      exact OrderedMap.get?_insert_self _ _ _
    · rw [List.filter_cons_of_neg (by simpa using named), List.filter_nil, List.append_nil]
      unfold addElement
      cases other : templateName? e with
      | none => exact ⟨templates, metadata, registry⟩
      | some name' =>
        have apart : name' ≠ name := fun eq => named (eq ▸ other)
        exact ⟨(OrderedMap.get?_insert_of_ne _ _ apart).trans templates,
          (OrderedMap.get?_insert_of_ne _ _ apart).trans metadata, registry⟩

theorem exists_namedIn? {root : Markup.Element} {name : String} (listed : name ∈ namesIn root) :
    ∃ e, namedIn? root name = some e ∧ e ∈ root.elements ∧ templateName? e = some name := by
  obtain ⟨e, mem, named⟩ := List.mem_filterMap.1 listed
  have some : namedIn? root name ≠ none := by
    rw [namedIn?, Ne, List.getLast?_eq_none_iff]
    exact List.ne_nil_of_mem (List.mem_filter.2 ⟨mem, by simpa using named⟩)
  obtain ⟨last, found⟩ := Option.ne_none_iff_exists'.1 some
  obtain ⟨mem, named⟩ := List.mem_filter.1 (List.mem_of_getLast? found)
  exact ⟨last, found, mem, by simpa using named⟩

/-- **How the lookups of a document answer.**  At every element of an accepted document they agree at a
URI exactly if the first and the last value that the names of the element give to the URI are the same.
What is registered under a name by adding the templates of the document is the last template with this
as its first name; its metadata have its last name. -/
theorem addTemplates_lookups (b : Builder) {source : String} {root : Markup.Element}
    (parsed : parseDocument source = .ok root) :
    root.toNode.EveryTag Markup.Tag.AgreesIn [] ∧
      ∀ name ∈ namesIn root, ∃ e ∈ root.elements, namedIn? root name = some e ∧
        (b.addTemplates root).2.templates.get? name =
          some (Template.compile b.registry e.toNode) ∧
        (Markup.Tag.valuesIn [e.toTag, root.toTag] Vocabulary.nameKey).head? = some name ∧
        ∃ metadata, (b.addTemplates root).2.metadata.get? name = some metadata ∧
          metadata.get? Vocabulary.nameKey =
            (Markup.Tag.valuesIn [e.toTag, root.toTag] Vocabulary.nameKey).getLast? := by
  have resolved : root.toNode.EveryTag Markup.Tag.Scoped [] :=
    @Markup.Node.everyTag_of_resolves _ [] (Markup.parseDocument_resolves parsed)
  refine ⟨resolved.imp fun _ own => own.answers.agreesIn, fun name listed => ?_⟩
  obtain ⟨e, found, mem, named⟩ := exists_namedIn? listed
  have answers := (Markup.Element.tag_of_mem_elements resolved mem).answers Vocabulary.nameKey
  obtain ⟨templates, metadata, _⟩ := get?_foldl_addElement b root.elements name
  rw [← addTemplates_eq_foldl] at templates metadata
  unfold namedIn? at found
  rw [found] at templates metadata
  have first : e.attribute? Vocabulary.nameKey = some name := by
    unfold templateName? at named
    split at named
    · exact named
    · cases named
  exact ⟨e, mem, found, templates, answers.1.symm.trans first, _, metadata, answers.2⟩

/-- A document with a template whose two names are in different namespaces and stand for one URI. -/
def twiceNamedDocument : String :=
  "<r xmlns:t='http://www.adnotatio.org/ns/templates#' xmlns:s='http://www.adnotatio.org/ns/templates'>" ++
    "<t:template t:name='a' s:name='b'/></r>"

theorem addTemplates_lookups_twice_named : ∃ root, parseDocument twiceNamedDocument = .ok root ∧
    "a" ∈ namesIn root ∧ root.toNode.EveryTag Markup.Tag.AgreesIn [] ∧
      ∃ e ∈ root.elements, namedIn? root "a" = some e ∧
        ((create (.builtin 0) ⟨0⟩).addTemplates root).2.templates.get? "a" =
          some (Template.compile (.builtin 0) e.toNode) ∧
        (Markup.Tag.valuesIn [e.toTag, root.toTag] Vocabulary.nameKey).head? = some "a" ∧
        ∃ metadata, ((create (.builtin 0) ⟨0⟩).addTemplates root).2.metadata.get? "a" = some metadata ∧
          metadata.get? Vocabulary.nameKey =
            (Markup.Tag.valuesIn [e.toTag, root.toTag] Vocabulary.nameKey).getLast? := by
  obtain ⟨root, parsed, passed⟩ := exists_of_readsTo twiceNamedDocument
    (fun root => decide ("a" ∈ namesIn root)) (by decide +kernel)
  have listed := of_decide_eq_true passed
  obtain ⟨agree, registered⟩ := addTemplates_lookups (create (.builtin 0) ⟨0⟩) parsed
  exact ⟨root, parsed, listed, agree, registered "a" listed⟩

/-- Lookups do not always agree: this template is found under its first name, and its metadata have the
other one. -/
theorem addTemplates_twice_named : ∃ root, parseDocument twiceNamedDocument = .ok root ∧
    (root.elements.map fun e => (e.attribute? Vocabulary.nameKey,
      e.fieldAttributes.get? Vocabulary.nameKey)) = [(some "a", some "b")] ∧
    ((create (.builtin 0) ⟨0⟩).addTemplates root).2.templateNames = ["a"] ∧
    (((create (.builtin 0) ⟨0⟩).addTemplates root).2.metadata.get? "a").bind
      (fun metadata => metadata.get? Vocabulary.nameKey) = some "b" := by
  obtain ⟨root, parsed, passed⟩ := exists_of_readsTo twiceNamedDocument (fun root => decide
    ((root.elements.map fun e => (e.attribute? Vocabulary.nameKey,
        e.fieldAttributes.get? Vocabulary.nameKey)) = [(some "a", some "b")] ∧
      ((create (.builtin 0) ⟨0⟩).addTemplates root).2.templateNames = ["a"] ∧
      (((create (.builtin 0) ⟨0⟩).addTemplates root).2.metadata.get? "a").bind
        (fun metadata => metadata.get? Vocabulary.nameKey) = some "b")) (by decide +kernel)
  exact ⟨root, parsed, of_decide_eq_true passed⟩

end Builder

end Formwork
