import Mathlib.Data.List.TakeWhile
import Formwork.Proofs.Markup.Roundtrip

/-!
# Documents that are written and read again

The names of a document are resolved by the declarations in scope, and the declarations are kept as
attributes of the elements that make them.  So the root of a document says by itself what its names
stand for: in the empty scope it resolves to itself (`parseDocument_resolves`), and written and read
again it is the same root (`parse_markup`).

What an invariant has to be kept by, so that every token that is taken in keeps it, is said once and for
any property of the names that are read (`Reader.Invariant`).

The invariant of documents is that every finished node resolves to itself in the scope of the
elements around it, and that so does every open tag with its declarations (`Reader.Resolved`).  It
rests on names being spelled: what is read as a name is read as the same name when its written form
is read again (`Scan.spelled_qname`).
-/

namespace Formwork.Markup

set_option autoImplicit false

/-! ## Names that are read -/

/-- A name that its written form spells. -/
def QName.Spelled (q : QName) : Prop := QName.ofText q.text = q

/-- Two parts without a colon that begin as names do spell the name that they make; the first one
may be empty. -/
theorem QName.spelled_of_parts {qualifier localName : List Char} (before : ':' ∉ qualifier)
    (behind : ':' ∉ localName)
    (begins : qualifier = [] ∨ qualifier.head?.any isNameStart = true)
    (begins' : localName.head?.any isNameStart = true) :
    (QName.mk (String.ofList qualifier) (String.ofList localName)).Spelled := by
  by_cases bare : qualifier = []
  · subst bare
    have text : (QName.mk (String.ofList []) (String.ofList localName)).text =
        String.ofList localName := if_pos rfl
    simp [Spelled, ofText, text, Scan.qnameOf?, behind, begins']
  · have text : (QName.mk (String.ofList qualifier) (String.ofList localName)).text.toList =
        qualifier ++ ':' :: localName := by
      have given : ¬ String.ofList qualifier = "" := fun eq =>
        bare (by simpa using congrArg String.toList eq)
      unfold QName.text
      rw [if_neg given]
      simp
    have all : ∀ c ∈ qualifier, decide (c ≠ ':') = true := fun c mem =>
      decide_eq_true fun eq => before (eq ▸ mem)
    have cut : (qualifier ++ ':' :: localName).takeWhile (· ≠ ':') = qualifier := by
      rw [List.takeWhile_append_of_pos all]
      simp
    have rest : ((qualifier ++ ':' :: localName).dropWhile (· ≠ ':')).drop 1 = localName := by
      rw [List.dropWhile_append_of_pos all]
      simp
    have colon : ':' ∈ qualifier ++ ':' :: localName := by simp
    unfold Spelled ofText Scan.qnameOf?
    rw [text, if_pos colon, cut, rest]
    exact congrArg (Option.getD · _)
      (if_pos ⟨behind, begins.imp_right id, begins'⟩)

/-- A name that a run spells is spelled by its written form. -/
theorem Scan.spelled_of_qnameOf {run : List Char} {q : QName} (found : qnameOf? run = some q) :
    q.Spelled := by
  unfold qnameOf? at found
  by_cases colon : ':' ∈ run
  · rw [if_pos colon] at found
    obtain ⟨⟨behind, begins, begins'⟩, eq⟩ := Option.ite_none_right_eq_some.1 found
    cases eq
    refine QName.spelled_of_parts (fun mem => ?_) behind begins begins'
    simpa using List.mem_takeWhile_imp mem
  · rw [if_neg colon] at found
    obtain ⟨⟨behind, begins, begins'⟩, eq⟩ := Option.ite_none_right_eq_some.1 found
    cases eq
    exact QName.spelled_of_parts List.not_mem_nil behind begins begins'

theorem Scan.spelled_qname : qname.Yields QName.Spelled := by
  refine Yields.bind fun run => ?_
  cases found : qnameOf? run with
  | none => exact Yields.throw _
  | some q => exact Yields.pure (spelled_of_qnameOf found)

/-- A token whose names have a property. -/
def Token.Names (P : QName → Prop) : Token → Prop
  | .startTag name _ => P name
  | .attr name _ _ => P name
  | .endTag name _ => P name
  | _ => True

section Names

variable {P : QName → Prop}

namespace Token

open Scan.Yields

theorem names_true (t : Token) : t.Names fun _ => True := by
  cases t <;> exact trivial

theorem names_of_isPlain {t : Token} (plain : t.isPlain = true) : t.Names P := by
  cases t <;> first | exact trivial | cases plain

theorem names_startOfTag (reads : Scan.qname.Yields P) : startOfTag.Yields (Names P) :=
  bind fun _ => bind fun _ => bind_of reads fun _ named => pure named

theorem names_endOfElement (reads : Scan.qname.Yields P) : endOfElement.Yields (Names P) :=
  bind fun _ => bind fun _ => bind_of reads fun _ named => bind fun _ => bind fun _ => pure named

theorem names_inTag (reads : Scan.qname.Yields P) : inTag.Yields (Names P) :=
  yields_inTag_of (bind_of reads fun _ named => bind fun _ => bind fun _ => bind fun _ =>
    bind fun _ => bind fun _ => pure named) fun _ => trivial

end Token

namespace Lexer

/-- Whatever token a step gives has names with a property. -/
def Step.Names (P : QName → Prop) (result : Step) : Prop :=
  ∀ t next unread, result = .ok (some t, next, unread) → t.Names P

variable {lexer : Lexer} {cs : List Char}

/-- Whatever the stage, a step gives names that were read. -/
theorem names_step (reads : Scan.qname.Yields P) : Step.Names P (step lexer cs) := by
  intro t next unread run
  cases scans_of_step run with
  | comment _ _ scanned => exact Token.yields_comment (P := Token.Names P) trivial _ _ _ scanned
  | instruction _ _ scanned => exact Token.yields_instruction (P := Token.Names P) trivial _ _ _ scanned
  | doctype _ _ => trivial
  | entity _ scanned => exact Token.yields_entity (P := Token.Names P) trivial _ _ _ scanned
  | doctypeEnd _ scanned => exact Token.yields_doctypeEnd (P := Token.Names P) trivial _ _ _ scanned
  | startTag _ _ scanned => exact Token.names_startOfTag reads _ _ _ scanned
  | attr _ scanned | tagEnd _ scanned => exact Token.names_inTag reads _ _ _ scanned
  | endTag _ _ scanned => exact Token.names_endOfElement reads _ _ _ scanned
  | cdata _ _ scanned => exact Token.names_of_isPlain (Token.yields_cdataSection _ _ _ scanned)
  | text _ _ scanned => exact Token.names_of_isPlain (Token.yields_text _ _ _ scanned)

/-- The names of a run were read. -/
theorem names_run (reads : Scan.qname.Yields P) (steps : Nat) :
    ∀ t ∈ (run steps lexer cs).tokens, t.Names P := by
  induction steps generalizing lexer cs with
  | zero => exact List.forall_mem_nil _
  | succ steps ih =>
    cases cs with
    | nil => exact List.forall_mem_nil _
    | cons c cs =>
      rw [run]
      cases stepped : step lexer (c :: cs) with
      | error fault => exact List.forall_mem_nil _
      | ok answer =>
        obtain ⟨token, next, unread⟩ := answer
        cases token with
        | none => exact ih
        | some t =>
          intro u mem
          rcases List.mem_cons.1 mem with rfl | mem
          · exact names_step reads _ _ _ stepped
          · exact ih u mem

end Lexer

/-- **The names of a document** have any property that the names have which can be read. -/
theorem names_documentTokens (reads : Scan.qname.Yields P) (source : List Char) :
    ∀ t ∈ (documentTokens source).tokens, t.Names P := by
  have declared : ∀ (body : List Char) (t : Token) (unread : List Char),
      Lexer.read .declaration Token.declaration body = .ok (t, unread) →
        ∀ u ∈ (TokenStream.cons t (Lexer.tokens ⟨.prolog, 0, true⟩ unread)).tokens, u.Names P := by
    intro body t unread run u mem
    rcases List.mem_cons.1 mem with rfl | mem
    · exact Token.yields_declaration (P := Token.Names P) trivial _ _ _ (Lexer.scan_of_read run)
    · exact Lexer.names_run reads _ u mem
  unfold documentTokens
  dsimp only
  split
  all_goals
    split
    · split
      · nofun
      · next run => exact declared _ _ _ run
    · exact Lexer.names_run reads _

end Names

/-! ## Steps of readers -/

/-- Changing an error changes no result. -/
theorem ok_of_mapError {ε ε' α : Type} {x : Except ε α} {f : ε → ε'} {a : α}
    (h : x.mapError f = .ok a) : x = .ok a := by
  cases x with
  | error e => cases h
  | ok b =>
    cases h
    rfl

/-- The declarations that a start tag puts into the scope. -/
def OpenTag.declares (form : Form) (t : OpenTag) : Scope :=
  match form with
  | .document => declarationsOf t.attributes
  | .fragment => []

/-- The end of a start tag makes an element of it in the scope of what it declares, which is open then, or
is left at once. -/
theorem Reader.endTagStart_ok {form : Form} {r r' : Reader} {isEmpty : Bool}
    (run : r.endTagStart form isEmpty = .ok r') : ∃ t tag, r.tag = some t ∧
      (t.declares form ++ r.scope).tag form t.name t.attributes = .ok tag ∧
      r' = if isEmpty then
          { r with tag := none, scope := t.declares form ++ r.scope }.leave
            ⟨{ tag with children := [] }, (t.declares form).length⟩
        else { r with
          tag := none
          scope := t.declares form ++ r.scope
          elements := ⟨{ tag with children := [] }, (t.declares form).length⟩ :: r.elements } := by
  unfold endTagStart at run
  cases reading : r.tag with
  | none =>
    rw [reading] at run
    cases run
  | some t =>
    rw [reading] at run
    obtain ⟨tag, made, run⟩ := exists_of_bind_eq_ok run
    refine ⟨t, tag, rfl, ok_of_mapError made, ?_⟩
    cases isEmpty <;> cases run <;> rfl

/-- An end tag that is taken in has the name of the innermost open element, which is left. -/
theorem Reader.close_ok {r r' : Reader} {name : QName} {mark : Mark}
    (run : r.close name mark = .ok r') : ∃ e es, r.elements = e :: es ∧
      e.element.qname = name.text ∧ r' = { r with elements := es }.leave e := by
  unfold close at run
  cases elements : r.elements with
  | nil =>
    rw [elements] at run
    cases run
  | cons e es =>
    rw [elements] at run
    dsimp only at run
    split at run
    · next same =>
      cases run
      exact ⟨e, es, rfl, same, rfl⟩
    · cases run

/-! ## Invariants of readers -/

/-- The names of a start tag have a property. -/
def OpenTag.Names (P : QName → Prop) (t : OpenTag) : Prop := P t.name ∧ ∀ a ∈ t.attributes, P a.1

/-- An invariant of reading tokens whose names have a property: the names of the tag being read have it, and
whatever may be done to a reader keeps the invariant. -/
structure Reader.Invariant (form : Form) (P : QName → Prop) (inv : Reader → Prop) : Prop where
  named : ∀ {r}, inv r → ∀ t ∈ r.tag, t.Names P
  tag : ∀ {r} {t : Option OpenTag}, inv r → (∀ t' ∈ t, t'.Names P) → inv { r with tag := t }
  addText : ∀ {r} content, inv r → inv (r.addText form content)
  endTagStart : ∀ {r r' isEmpty}, inv r → r.endTagStart form isEmpty = .ok r' → inv r'
  close : ∀ {r r' name mark}, inv r → r.close name mark = .ok r' → inv r'

namespace Reader.Invariant

variable {form : Form} {P : QName → Prop} {inv : Reader → Prop} {r r' : Reader}

/-- **Taking a token in** keeps an invariant. -/
theorem take (kept : Invariant form P inv) (h : inv r) {t : Token} (named : t.Names P)
    (run : r.take form t = .ok r') : inv r' := by
  cases t with
  | startTag name mark =>
    cases run
    refine kept.tag h fun t reading => ?_
    cases reading
    exact ⟨named, List.forall_mem_nil _⟩
  | attr name value mark =>
    obtain ⟨content, _, run⟩ := exists_of_bind_eq_ok run
    cases run
    refine kept.tag h fun t reading => ?_
    obtain ⟨t, before, rfl⟩ := Option.map_eq_some_iff.1 reading
    obtain ⟨first, all⟩ := kept.named h t before
    exact ⟨first, List.forall_mem_append.2 ⟨all, List.forall_mem_singleton.2 named⟩⟩
  | tagEnd isEmpty => exact kept.endTagStart h run
  | endTag name mark => exact kept.close h run
  | characters raw mark =>
    obtain ⟨content, _, run⟩ := exists_of_bind_eq_ok run
    cases run
    exact kept.addText content h
  | cdata content =>
    cases run
    exact kept.addText content h
  | aside =>
    cases run
    exact h

theorem takeAll (kept : Invariant form P inv) (h : inv r) {ts : List Token}
    (named : ∀ t ∈ ts, t.Names P) (run : Reader.takeAll form r ts = .ok r') : inv r' := by
  induction ts generalizing r with
  | nil =>
    cases run
    exact h
  | cons t ts ih =>
    obtain ⟨s, taken, run⟩ := exists_of_bind_eq_ok run
    exact ih (kept.take h (named t List.mem_cons_self) taken)
      (fun u mem => named u (List.mem_cons_of_mem t mem)) run

end Reader.Invariant

/-! ## Readers of documents -/

/-- What the attributes of a tag declare. -/
def Tag.declarations (t : Tag) : Scope := declarationsOf t.named

/-- Open elements that resolve to themselves in a scope, which is made of what they declare and of
the scope around them. -/
def OpenElement.Resolved : List OpenElement → Scope → Prop
  | [], scope => scope = []
  | e :: es, scope => ∃ outer,
    scope = e.element.toTag.declarations ++ outer ∧
      e.declared = e.element.toTag.declarations.length ∧
      Scope.tag scope .document (.ofText e.element.qname) e.element.toTag.named =
        .ok e.element.toTag ∧
      Node.ResolvesAll .document scope e.element.children e.element.children ∧
      OpenElement.Resolved es outer

/-- The invariant of reading a document: the names of the tag being read are spelled, and everything
else resolves to itself. -/
structure Reader.Resolved (r : Reader) : Prop where
  spelled : ∀ t ∈ r.tag, t.name.Spelled ∧ ∀ a ∈ t.attributes, a.1.Spelled
  elements : OpenElement.Resolved r.elements r.scope
  roots : Node.ResolvesAll .document [] r.roots r.roots

/-- Pushing a node that resolves to itself. -/
theorem Node.resolvesAll_push {form : Form} {scope : Scope} {ns : List Node} {n : Node}
    (h : ResolvesAll form scope ns ns) (h' : n.Resolves form scope n) :
    ResolvesAll form scope (push ns n) (push ns n) := by
  induction ns with
  | nil => exact ⟨h', rfl⟩
  | cons m ns ih =>
    obtain ⟨first, rest⟩ := h
    cases ns with
    | nil =>
      cases m with
      | element tag children => exact ⟨first, h', rfl⟩
      | text content =>
        cases n with
        | element tag children => exact ⟨first, h', rfl⟩
        | text more => exact ⟨rfl, rfl⟩
    | cons m' ns =>
      rw [push_cons_cons]
      exact ⟨first, ih rest⟩

/-- What all results of steps have in common with what they are results of. -/
theorem map_of_mapM {ε α β γ : Type} {f : α → Except ε β} {g : β → γ} {k : α → γ} {xs : List α}
    {ys : List β} (each : ∀ x ∈ xs, ∀ y, f x = .ok y → g y = k x) (h : xs.mapM f = .ok ys) :
    ys.map g = xs.map k := by
  induction xs generalizing ys with
  | nil =>
    cases h
    rfl
  | cons x xs ih =>
    rw [List.mapM_cons] at h
    obtain ⟨y, first, h⟩ := exists_of_bind_eq_ok h
    obtain ⟨rest, others, h⟩ := exists_of_bind_eq_ok h
    cases h
    rw [List.map_cons, List.map_cons, each x List.mem_cons_self y first,
      ih (fun x mem => each x (List.mem_cons_of_mem _ mem)) others]

/-- A tag keeps the written names and the values of the start tag that it is made of. -/
theorem Scope.written_tag {scope : Scope} {form : Form} {name : QName}
    {attributes : List (QName × String)} {tag : Tag}
    (made : scope.tag form name attributes = .ok tag) : tag.qname = name.text ∧
      tag.attributes.map (fun a => (a.qname, a.value)) =
        attributes.map fun a => (a.1.text, a.2) := by
  cases form with
  | fragment =>
    cases made
    exact ⟨rfl, List.map_map⟩
  | document =>
    obtain ⟨uri, _, made⟩ := exists_of_bind_eq_ok made
    obtain ⟨resolved, others, made⟩ := exists_of_bind_eq_ok made
    cases made
    refine ⟨rfl, map_of_mapM (fun a _ b made => ?_) others⟩
    obtain ⟨uri, _, made⟩ := exists_of_bind_eq_ok made
    cases made
    rfl

/-- A tag that is made of spelled names keeps them as its written names. -/
theorem Scope.named_tag {scope : Scope} {name : QName} {attributes : List (QName × String)}
    {tag : Tag} (spelled : name.Spelled) (all : ∀ a ∈ attributes, a.1.Spelled)
    (h : scope.tag .document name attributes = .ok tag) :
    .ofText tag.qname = name ∧ tag.named = attributes := by
  obtain ⟨uri, _, h⟩ := exists_of_bind_eq_ok h
  obtain ⟨resolved, made, h⟩ := exists_of_bind_eq_ok h
  cases h
  refine ⟨spelled, ?_⟩
  have named := map_of_mapM (g := Attribute.named) (k := id) (fun a mem b made => ?_) made
  · exact named.trans (List.map_id _)
  · obtain ⟨uri, _, made⟩ := exists_of_bind_eq_ok made
    cases made
    exact Prod.ext (all a mem) rfl

namespace Reader.Resolved

variable {r r' : Reader}

theorem addNode (h : r.Resolved) {n : Node} (resolves : n.Resolves .document r.scope n) :
    (r.addNode n).Resolved := by
  cases r with
  | mk tag elements scope roots =>
    cases elements with
    | nil =>
      have bare : scope = [] := h.elements
      subst bare
      exact ⟨h.spelled, rfl, Node.resolvesAll_push h.roots resolves⟩
    | cons e es =>
      obtain ⟨outer, made, declared, named, children, rest⟩ := h.elements
      exact ⟨h.spelled, ⟨outer, made, declared, named, Node.resolvesAll_push children resolves, rest⟩,
        h.roots⟩

theorem addText (h : r.Resolved) (content : List Char) :
    (r.addText .document content).Resolved := by
  unfold Reader.addText
  split
  · exact h
  · split
    · exact h
    · exact h.addNode rfl

theorem endTagStart (h : r.Resolved) {isEmpty : Bool}
    (run : r.endTagStart .document isEmpty = .ok r') : r'.Resolved := by
  obtain ⟨t, tag, reading, tagged, rfl⟩ := Reader.endTagStart_ok run
  obtain ⟨spelled, all⟩ := h.spelled t reading
  obtain ⟨name, named⟩ := Scope.named_tag spelled all tagged
  have own : t.declares .document = tag.declarations := congrArg declarationsOf named.symm
  rw [own, ← named, ← name] at tagged
  have bare : ({ r with tag := none } : Reader).Resolved := ⟨nofun, h.elements, h.roots⟩
  rw [own]
  cases isEmpty with
  | true =>
    rw [if_pos rfl, Reader.leave_eq rfl rfl]
    exact bare.addNode ⟨tagged, rfl⟩
  | false => exact ⟨nofun, ⟨r.scope, rfl, rfl, tagged, rfl, h.elements⟩, h.roots⟩

theorem close (h : r.Resolved) {name : QName} {mark : Mark} (run : r.close name mark = .ok r') :
    r'.Resolved := by
  obtain ⟨e, es, elements, _, rfl⟩ := Reader.close_ok run
  obtain ⟨outer, made, declared, named, children, around⟩ := elements ▸ h.elements
  have rest : ({ r with elements := es, scope := outer } : Reader).Resolved :=
    ⟨h.spelled, around, h.roots⟩
  rw [made] at named children
  rw [Reader.leave_eq (r := { r with elements := es }) made declared]
  exact rest.addNode ⟨named, children⟩

theorem invariant : Reader.Invariant .document QName.Spelled Reader.Resolved where
  named h := h.spelled
  tag h named := ⟨named, h.elements, h.roots⟩
  addText content h := h.addText content
  endTagStart h := h.endTagStart
  close h := h.close

/-- **Taking a token in** keeps the invariant. -/
theorem take (h : r.Resolved) {t : Token} (spelled : t.Names QName.Spelled)
    (run : r.take .document t = .ok r') : r'.Resolved :=
  invariant.take h spelled run

theorem takeAll {ts : List Token} (h : r.Resolved) (spelled : ∀ t ∈ ts, t.Names QName.Spelled)
    (run : Reader.takeAll .document r ts = .ok r') : r'.Resolved :=
  invariant.takeAll h spelled run

end Reader.Resolved

theorem Reader.resolved_initial : Reader.initial.Resolved := ⟨nofun, rfl, rfl⟩

theorem Node.resolves_of_mem {form : Form} {scope : Scope} {ns : List Node}
    (h : ResolvesAll form scope ns ns) : ∀ n ∈ ns, n.Resolves form scope n := by
  induction ns with
  | nil => nofun
  | cons m ns ih =>
    intro n mem
    rcases List.mem_cons.1 mem with rfl | mem
    · exact h.1
    · exact ih h.2 n mem

/-- A document is accepted with a root exactly if its tokens are taken in without a fault, leave no
element open, and the root is the first element that they make. -/
theorem parseDocument_eq_ok {source : String} {e : Element} : parseDocument source = .ok e ↔
    (documentTokens source.toList).fault = none ∧
      ∃ r, Reader.takeAll .document .initial (documentTokens source.toList).tokens = .ok r ∧
        r.elements = [] ∧ r.roots.findSome? Node.element? = some e := by
  constructor
  · intro parsed
    obtain ⟨roots, made, parsed⟩ := exists_of_bind_eq_ok parsed
    obtain ⟨faultless, r, run, closed, rfl⟩ := nodesOfTokens_eq_ok.1 made
    refine ⟨faultless, r, run, closed, ?_⟩
    cases found : r.roots.findSome? Node.element? with
    | none =>
      rw [found] at parsed
      cases parsed
    | some root =>
      rw [found] at parsed
      cases parsed
      rfl
  · rintro ⟨faultless, r, run, closed, found⟩
    unfold parseDocument
    dsimp only
    rw [nodesOfTokens_of_ok run faultless closed]
    simp only [bind, Except.bind, found]
    rfl

/-- The root of a document is one of the nodes that its tokens make. -/
theorem mem_roots_of_parseDocument {source : String} {e : Element}
    (parsed : parseDocument source = .ok e) : ∃ r,
      Reader.takeAll .document .initial (documentTokens source.toList).tokens = .ok r ∧
        e.toNode ∈ r.roots := by
  obtain ⟨_, r, run, _, found⟩ := parseDocument_eq_ok.1 parsed
  obtain ⟨n, mem, element⟩ := List.exists_of_findSome?_eq_some found
  refine ⟨r, run, ?_⟩
  cases n with
  | text content => cases element
  | element tag children =>
    cases element
    exact mem

/-- **The root of a document resolves to itself** in the empty scope. -/
theorem parseDocument_resolves {source : String} {e : Element}
    (parsed : parseDocument source = .ok e) : e.toNode.Resolves .document [] e.toNode := by
  obtain ⟨r, run, mem⟩ := mem_roots_of_parseDocument parsed
  have resolved := Reader.resolved_initial.takeAll (names_documentTokens Scan.spelled_qname _) run
  exact Node.resolves_of_mem resolved.roots _ mem

/-- The root of a document is read back from its markup. -/
theorem parseDocument_markup {e : Element} (writable : e.toNode.Writable)
    (parted : e.toNode.Parted) (resolves : e.toNode.Resolves .document [] e.toNode) :
    parseDocument e.markup = .ok e := by
  obtain ⟨name, attributes, content⟩ := writable
  obtain ⟨tagged, below⟩ := resolves
  obtain ⟨mark, stepped⟩ := Lexer.step_prolog_startTag (l := ⟨.prolog, 0, true⟩) rfl name
    (head_attrChars .single e.attributes (Node.charsOf .single e.children ++
      '<' :: '/' :: (e.qname.toList ++ ['>'])))
  have whole := takes_element .single name attributes tagged
    (Node.partedAll_resolved parted below) (l := ⟨.inTag, 0, true⟩) (r := .initial) rfl mark rfl []
    fun rest stage deep outside inside scope ends =>
      takes_nodes .single content parted (scope ▸ below) outside stage (.inr inside) (.inr deep) rest
        ends
  have written : e.markup.toList = '<' :: (e.qname.toList ++ (attrChars .single e.attributes ++
      '>' :: (Node.charsOf .single e.children ++ '<' :: '/' :: (e.qname.toList ++ ['>'])))) := by
    rw [Element.markup, Node.toList_markup]
    rfl
  obtain ⟨ts, reads, taken⟩ :=
    (Takes.of_step stepped (by simp only [List.length_cons, List.length_append]; omega) rfl).trans
      whole
  have tokens : documentTokens e.markup.toList = ⟨ts, none⟩ := by
    obtain ⟨c, cs, split, start⟩ := name.exists_cons
    have question : '?' ≠ c := by
      rintro rfl
      exact absurd start (by decide)
    have plain : startsWith "<?xml " e.markup.toList = false := by
      have letters : "<?xml ".toList = ['<', '?', 'x', 'm', 'l', ' '] := rfl
      rw [written, split]
      simp [startsWith, letters, List.isPrefixOf, question]
    rw [← written] at reads
    unfold documentTokens
    split
    · next mark =>
      rw [written] at mark
      cases mark
    · dsimp only
      rw [plain]
      exact reads.tokens
  have made : nodesOfTokens .document e.markup.toList (documentTokens e.markup.toList) =
      .ok [e.toNode] := by
    refine nodesOfTokens_of_ok (r := Reader.initial.addNode e.toNode) ?_ ?_ rfl
    · rw [tokens]
      exact taken
    · rw [tokens]
  unfold parseDocument
  dsimp only
  rw [made]
  rfl

/-- **Parsing undoes writing.**  The markup of an element whose names are qualified names, whose texts
and values hold only characters of markup, and below which no text is empty or next to another one,
is read as a fragment that is this element alone, with every URI replaced by the written name.  If the
element is the root of a document, its markup is read as a document with the same root. -/
theorem parse_markup (e : Element) (writable : e.toNode.Writable) (parted : e.toNode.Parted) :
    parseFragment e.markup = .ok [e.toNode.asWritten] ∧
      ∀ source, parseDocument source = .ok e → parseDocument e.markup = .ok e := by
  have alone : Node.WritableAll [e.toNode] := ⟨writable, trivial⟩
  have apart : Node.PartedAll [e.toNode] := ⟨parted, nofun, trivial⟩
  have written : e.markup.toList = Node.charsOf .single [e.toNode] := by
    rw [Element.markup, Node.toList_markup, Node.charsOf, Node.charsOf, List.append_nil]
  exact ⟨parseFragment_charsOf alone apart .single written,
    fun _ parsed => parseDocument_markup writable parted (parseDocument_resolves parsed)⟩

/-- An element with a declared namespace, a text, and an element without content. -/
def declaringElement : Element :=
  ⟨⟨"u#a", "p:a", [⟨"http://www.w3.org/2000/xmlns/p", "xmlns:p", "u"⟩]⟩,
    [.text "x & y", .element ⟨"b", "b", []⟩ []]⟩

theorem parse_markup_declaring :
    parseFragment declaringElement.markup = .ok [declaringElement.toNode.asWritten] ∧
      parseDocument declaringElement.markup = .ok declaringElement := by
  have plain : ∀ {c : Char}, isNameStart c = true ∧ c ≠ ':' → IsPlainName [c] :=
    fun start => ⟨start, nofun⟩
  have writable : declaringElement.toNode.Writable := by
    refine ⟨.inr ⟨['p'], ['a'], rfl, plain (by decide), plain (by decide)⟩, ?_, ?_⟩
    · intro a mem
      cases List.mem_singleton.1 mem
      have xmlns : IsPlainName "xmlns".toList := ⟨by decide, fun d mem =>
        Escape.of_mem_of_all (fun d => isNameChar d = true ∧ d ≠ ':') mem
          (by decide)⟩
      refine ⟨.inr ⟨"xmlns".toList, ['p'], rfl, xmlns, plain (by decide)⟩, ?_⟩
      exact List.all_eq_true.1 (by decide : "u".toList.all isMarkupChar = true)
    · refine ⟨?_, ⟨.inl (plain (by decide)), nofun, trivial⟩, trivial⟩
      exact List.all_eq_true.1 (by decide : "x & y".toList.all isMarkupChar = true)
  have parted : declaringElement.toNode.Parted :=
    ⟨(by decide : "x & y" ≠ ""), fun _ m head => by cases head; rfl, trivial, nofun, trivial⟩
  have parsed : parseDocument "<p:a xmlns:p=\"u\">x &amp; y<b/></p:a>" = .ok declaringElement := by
    rfl
  obtain ⟨fragment, document⟩ := parse_markup declaringElement writable parted
  exact ⟨fragment, document _ parsed⟩

end Formwork.Markup
