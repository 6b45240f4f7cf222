import Formwork.Proofs.Markup.Document

/-!
# The names of a source

Every name of a document or a fragment that was read is a qualified name (`parseDocument_named`,
`parseFragment_named`).  Its characters are another matter: in texts and values they may come from
references by number, which name control characters as well.  Nodes can be written when none of their
texts and values has one (`Node.writable_iff`).
-/

namespace Formwork.Markup

set_option autoImplicit false

/-! ## Named trees -/

mutual
/-- A node whose names are qualified names. -/
def Node.Named : Node → Prop
  | .text _ => True
  | .element tag children => IsQualifiedName tag.qname ∧
      (∀ a ∈ tag.attributes, IsQualifiedName a.qname) ∧ Node.NamedAll children

/-- Siblings whose names are qualified names. -/
def Node.NamedAll : List Node → Prop
  | [] => True
  | n :: ns => n.Named ∧ Node.NamedAll ns
end

mutual
/-- A node whose texts and values hold only characters that may occur in markup. -/
def Node.Legible : Node → Prop
  | .text content => IsMarkupText content
  | .element tag children => (∀ a ∈ tag.attributes, IsMarkupText a.value) ∧ Node.LegibleAll children

/-- Siblings whose texts and values hold only characters that may occur in markup. -/
def Node.LegibleAll : List Node → Prop
  | [] => True
  | n :: ns => n.Legible ∧ Node.LegibleAll ns
end

/-- Whether a text has only characters that may occur in markup. -/
instance (s : String) : Decidable (IsMarkupText s) :=
  decidable_of_iff (s.toList.all isMarkupChar = true) List.all_eq_true

mutual
/-- Whether a node has only characters that may occur in markup. -/
def Node.decLegible : ∀ n : Node, Decidable n.Legible
  | .text content => inferInstanceAs (Decidable (IsMarkupText content))
  | .element tag children => @instDecidableAnd _ _
      (List.decidableBAll (fun a => IsMarkupText a.value) tag.attributes)
      (Node.decLegibleAll children)

def Node.decLegibleAll : ∀ ns : List Node, Decidable (Node.LegibleAll ns)
  | [] => inferInstanceAs (Decidable True)
  | n :: ns => @instDecidableAnd _ _ (Node.decLegible n) (Node.decLegibleAll ns)
end

instance (n : Node) : Decidable n.Legible := n.decLegible

/-- Whether some characters are a plain name. -/
instance : ∀ cs : List Char, Decidable (IsPlainName cs)
  | [] => inferInstanceAs (Decidable False)
  | c :: cs => @instDecidableAnd (isNameStart c = true ∧ c ≠ ':') _ inferInstance
      (List.decidableBAll (fun d => isNameChar d = true ∧ d ≠ ':') cs)

/-- A qualified name is cut at its first colon. -/
theorem isQualifiedName_iff {s : String} : IsQualifiedName s ↔ IsPlainName s.toList ∨
    s.toList.dropWhile (· ≠ ':') ≠ [] ∧ IsPlainName (s.toList.takeWhile (· ≠ ':')) ∧
      IsPlainName (s.toList.dropWhile (· ≠ ':')).tail := by
  refine or_congr_right ⟨?_, ?_⟩
  · rintro ⟨qualifier, localName, split, first, second⟩
    have before : ∀ c ∈ qualifier, decide (c ≠ ':') = true := fun c mem =>
      decide_eq_true fun eq => first.colon_not_mem (eq ▸ mem)
    rw [split, List.takeWhile_append_of_pos before, List.dropWhile_append_of_pos before,
      List.takeWhile_cons_of_neg (by simp), List.dropWhile_cons_of_neg (by simp), List.append_nil]
    exact ⟨List.cons_ne_nil _ _, first, second⟩
  · rintro ⟨cut, first, second⟩
    obtain ⟨c, rest, behind⟩ := List.exists_cons_of_ne_nil cut
    have colon : c = ':' := by
      have head := List.head_dropWhile_not (fun c : Char => decide (c ≠ ':')) cut
      simp only [behind, List.head_cons] at head
      simpa using head
    subst colon
    refine ⟨_, _, ?_, first, second⟩
    rw [behind, List.tail_cons, ← behind, List.takeWhile_append_dropWhile]

instance (s : String) : Decidable (IsQualifiedName s) := decidable_of_iff' _ isQualifiedName_iff

mutual
/-- Whether the names of a node are qualified names. -/
def Node.decNamed : ∀ n : Node, Decidable n.Named
  | .text _ => inferInstanceAs (Decidable True)
  | .element tag children => @instDecidableAnd _ _ inferInstance
      (@instDecidableAnd _ _ (List.decidableBAll (fun a => IsQualifiedName a.qname) tag.attributes)
        (Node.decNamedAll children))

def Node.decNamedAll : ∀ ns : List Node, Decidable (Node.NamedAll ns)
  | [] => inferInstanceAs (Decidable True)
  | n :: ns => @instDecidableAnd _ _ (Node.decNamed n) (Node.decNamedAll ns)
end

instance (n : Node) : Decidable n.Named := n.decNamed

mutual
/-- What it takes for a node to be written. -/
theorem Node.writable_iff : ∀ n : Node, n.Writable ↔ n.Named ∧ n.Legible
  | .text _ => (true_and _).symm.to_iff
  | .element tag children => by
    rw [Writable, Named, Legible, writableAll_iff children]
    constructor
    · rintro ⟨name, attributes, named, legible⟩
      exact ⟨⟨name, fun a mem => (attributes a mem).1, named⟩, fun a mem => (attributes a mem).2,
        legible⟩
    · rintro ⟨⟨name, names, named⟩, values, legible⟩
      exact ⟨name, fun a mem => ⟨names a mem, values a mem⟩, named, legible⟩

theorem Node.writableAll_iff : ∀ ns : List Node, WritableAll ns ↔ NamedAll ns ∧ LegibleAll ns
  | [] => (true_and _).symm.to_iff
  | n :: ns => by
    rw [WritableAll, NamedAll, LegibleAll, writable_iff n, writableAll_iff ns]
    exact and_and_and_comm
end

/-- Whether a node can be written. -/
instance (n : Node) : Decidable n.Writable := decidable_of_iff' _ n.writable_iff

/-- Siblings are writable one by one. -/
theorem Node.WritableAll.of_mem {ns : List Node} (h : WritableAll ns) : ∀ n ∈ ns, n.Writable := by
  induction ns with
  | nil => exact List.forall_mem_nil _
  | cons m ns ih =>
    intro n mem
    rcases List.mem_cons.1 mem with rfl | mem
    · exact h.1
    · exact ih h.2 n mem

theorem Node.NamedAll.of_mem {ns : List Node} (h : NamedAll ns) : ∀ n ∈ ns, n.Named := by
  induction ns with
  | nil => exact List.forall_mem_nil _
  | cons m ns ih =>
    intro n mem
    rcases List.mem_cons.1 mem with rfl | mem
    · exact h.1
    · exact ih h.2 n mem

/-! ## Names that are read -/

/-- Name characters without a colon, the first of which may begin a name. -/
theorem isPlainName_of_begins {cs : List Char} (letters : ∀ c ∈ cs, isNameChar c = true)
    (plain : ':' ∉ cs) (begins : cs.head?.any isNameStart = true) : IsPlainName cs := by
  have apart : ∀ c ∈ cs, c ≠ ':' := fun c mem eq => plain (eq ▸ mem)
  cases cs with
  | nil => cases begins
  | cons c cs =>
    exact ⟨⟨begins, apart c List.mem_cons_self⟩, fun d mem =>
      ⟨letters d (List.mem_cons_of_mem _ mem), apart d (List.mem_cons_of_mem _ mem)⟩⟩

/-- A name that a run of name characters spells is a qualified name. -/
theorem Scan.qualified_of_qnameOf {run : List Char} {q : QName}
    (letters : ∀ c ∈ run, isNameChar c = true) (found : qnameOf? run = some q) :
    IsQualifiedName q.text := by
  unfold qnameOf? at found
  by_cases colon : ':' ∈ run
  · rw [if_pos colon] at found
    obtain ⟨⟨behind, begins, begins'⟩, eq⟩ := Option.ite_none_right_eq_some.1 found
    cases eq
    have second : IsPlainName ((run.dropWhile (· ≠ ':')).drop 1) :=
      isPlainName_of_begins (fun c mem => letters c
        ((List.dropWhile_sublist _).subset (List.mem_of_mem_drop mem))) behind begins'
    by_cases bare : run.takeWhile (· ≠ ':') = []
    · left
      have none : String.ofList (run.takeWhile (· ≠ ':')) = "" := by rw [bare]
      unfold QName.text
      rw [if_pos none, String.toList_ofList]
      exact second
    · right
      have given : ¬ String.ofList (run.takeWhile (· ≠ ':')) = "" := fun eq =>
        bare (by simpa using congrArg String.toList eq)
      refine ⟨_, _, ?_, isPlainName_of_begins (fun c mem => letters c
        ((List.takeWhile_sublist _).subset mem)) (fun mem => ?_) (begins.resolve_left bare), second⟩
      · unfold QName.text
        rw [if_neg given]
        simp
      · simpa using List.mem_takeWhile_imp mem
  · rw [if_neg colon] at found
    obtain ⟨⟨behind, begins, begins'⟩, eq⟩ := Option.ite_none_right_eq_some.1 found
    cases eq
    left
    have text : (QName.mk (String.ofList []) (String.ofList run)).text = String.ofList run :=
      if_pos rfl
    rw [text, String.toList_ofList]
    exact isPlainName_of_begins letters behind begins'

/-- Names that can be read are qualified names. -/
theorem Scan.qualified_qname : qname.Yields fun q => IsQualifiedName q.text := by
  have letters : (takeWhile isNameChar).Yields fun run => ∀ c ∈ run, isNameChar c = true := by
    intro cs run rest taken c mem
    cases taken
    exact List.mem_takeWhile_imp mem
  refine Yields.bind_of letters fun run named => ?_
  cases found : qnameOf? run with
  | none => exact Yields.throw _
  | some q => exact Yields.pure (qualified_of_qnameOf named found)

/-! ## Readers -/

/-- The invariant of reading a source: all names are qualified names. -/
structure Reader.Named (r : Reader) : Prop where
  tag : ∀ t ∈ r.tag, IsQualifiedName t.name.text ∧ ∀ a ∈ t.attributes, IsQualifiedName a.1.text
  elements : ∀ e ∈ r.elements, e.element.toNode.Named
  roots : Node.NamedAll r.roots

/-- Pushing a node with qualified names. -/
theorem Node.namedAll_push {ns : List Node} {n : Node} (h : NamedAll ns) (h' : n.Named) :
    NamedAll (push ns n) := by
  induction ns with
  | nil => exact ⟨h', trivial⟩
  | cons m ns ih =>
    obtain ⟨first, rest⟩ := h
    cases ns with
    | nil =>
      cases m with
      | element tag children => exact ⟨first, h', trivial⟩
      | text content =>
        cases n with
        | element tag children => exact ⟨first, h', trivial⟩
        | text more => exact ⟨trivial, trivial⟩
    | cons m' ns =>
      rw [push_cons_cons]
      exact ⟨first, ih rest⟩

namespace Reader.Named

variable {form : Form} {r r' : Reader}

theorem addNode (h : r.Named) {n : Node} (named : n.Named) : (r.addNode n).Named := by
  cases r with
  | mk tag elements scope roots =>
    cases elements with
    | nil => exact ⟨h.tag, List.forall_mem_nil _, Node.namedAll_push h.roots named⟩
    | cons e es =>
      obtain ⟨name, names, children⟩ := h.elements e List.mem_cons_self
      refine ⟨h.tag, fun e' mem => ?_, h.roots⟩
      rcases List.mem_cons.1 mem with rfl | mem
      · exact ⟨name, names, Node.namedAll_push children named⟩
      · exact h.elements e' (List.mem_cons_of_mem _ mem)

theorem leave (h : r.Named) {e : OpenElement} (named : e.element.toNode.Named) :
    (r.leave e).Named :=
  addNode (r := { r with scope := r.scope.drop e.declared }) ⟨h.tag, h.elements, h.roots⟩ named

theorem addText (h : r.Named) (content : List Char) : (r.addText form content).Named := by
  unfold Reader.addText
  split
  · exact h
  · split
    · exact h
    · exact h.addNode trivial

theorem endTagStart (h : r.Named) {isEmpty : Bool}
    (run : r.endTagStart form isEmpty = .ok r') : r'.Named := by
  obtain ⟨t, tag, reading, made, rfl⟩ := Reader.endTagStart_ok run
  obtain ⟨name, names⟩ := h.tag t reading
  obtain ⟨qname, written⟩ := Scope.written_tag made
  have named : ({ tag with children := [] } : Element).toNode.Named := by
    refine ⟨qname ▸ name, fun a mem => ?_, trivial⟩
    have listed := List.mem_map_of_mem (f := fun a : Attribute => (a.qname, a.value)) mem
    rw [written] at listed
    obtain ⟨a', mem', same⟩ := List.mem_map.1 listed
    have text : a'.1.text = a.qname := congrArg Prod.fst same
    exact text ▸ names a' mem'
  have bare : ∀ scope : Scope, ({ r with tag := none, scope := scope } : Reader).Named :=
    fun _ => ⟨nofun, h.elements, h.roots⟩
  cases isEmpty with
  | true => exact (bare _).leave named
  | false => exact ⟨nofun, List.forall_mem_cons.2 ⟨named, h.elements⟩, h.roots⟩

theorem close (h : r.Named) {name : QName} {mark : Mark} (run : r.close name mark = .ok r') :
    r'.Named := by
  obtain ⟨e, es, elements, _, rfl⟩ := Reader.close_ok run
  obtain ⟨own, outer⟩ := List.forall_mem_cons.1 (elements ▸ h.elements)
  have rest : ({ r with elements := es } : Reader).Named := ⟨h.tag, outer, h.roots⟩
  exact rest.leave own

theorem invariant : Reader.Invariant form (fun q => IsQualifiedName q.text) Reader.Named where
  named h := h.tag
  tag h named := ⟨named, h.elements, h.roots⟩
  addText content h := h.addText content
  endTagStart h := h.endTagStart
  close h := h.close

/-- **Taking tokens in** keeps the invariant. -/
theorem takeAll {ts : List Token} (h : r.Named)
    (named : ∀ t ∈ ts, t.Names fun q => IsQualifiedName q.text)
    (run : Reader.takeAll form r ts = .ok r') : r'.Named :=
  invariant.takeAll h named run

end Reader.Named

theorem Reader.named_initial : Reader.initial.Named := ⟨nofun, List.forall_mem_nil _, trivial⟩

/-- **The names of a document** are qualified names. -/
theorem parseDocument_named {source : String} {e : Element}
    (parsed : parseDocument source = .ok e) : e.toNode.Named := by
  obtain ⟨r, run, mem⟩ := mem_roots_of_parseDocument parsed
  exact (Reader.named_initial.takeAll (names_documentTokens Scan.qualified_qname _) run).roots.of_mem _ mem

/-- **The names of a fragment** are qualified names. -/
theorem parseFragment_named {source : String} {ns : List Node}
    (parsed : parseFragment source = .ok ns) : Node.NamedAll ns := by
  obtain ⟨_, r, run, _, rfl⟩ := nodesOfTokens_eq_ok.1 parsed
  exact (Reader.named_initial.takeAll (Lexer.names_run Scan.qualified_qname _) run).roots

end Formwork.Markup
