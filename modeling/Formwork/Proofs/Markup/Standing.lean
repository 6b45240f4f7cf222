import Formwork.Proofs.Markup.Arrangement

/-!
# What the tokens of a document must fit

Whether a token of a document is accepted depends on the names of the tags before it alone: on the
names in the start tag that is being read, and on those in the tags of the elements around it.  A
`Standing` keeps these names.  It never breaks off, so it can be read off any tokens (`Standing.of`)
before one asks whether they fit.

A token fits its standing if its references can be decoded, if it closes the innermost element by its
name, or if it ends a start tag in which every qualifier is declared (`Standing.Fits`).  The reader
takes tokens in exactly if each one fits the standing before it (`Reader.exists_takeAll_iff`); then the
standing is that of the reader, and its qualifiers are those in the reader's scope.
-/

namespace Formwork.Markup

set_option autoImplicit false

/-! ## Names in tags -/

/-- The names in a start tag: that of the element, and those of its attributes in order. -/
structure TagNames where
  name : QName
  attributes : List QName
  deriving DecidableEq, Repr

namespace TagNames

/-- The qualifiers that a start tag declares, the empty one for the default namespace. -/
def declares (t : TagNames) : List String := t.attributes.filterMap declaredQualifier?

/-- The qualifiers in a start tag that need a declaration: all but those of declarations, the empty
one and `xml`. -/
def uses (t : TagNames) : List String :=
  ((t.name :: t.attributes.filter fun a => (declaredQualifier? a).isNone).map QName.qualifier).filter
    fun q => q ≠ "" ∧ q ≠ "xml"

theorem mem_uses {t : TagNames} {q : String} : q ∈ t.uses ↔
    (q = t.name.qualifier ∨ ∃ a ∈ t.attributes, declaredQualifier? a = none ∧ a.qualifier = q) ∧
      q ≠ "" ∧ q ≠ "xml" := by
  simp [uses, and_assoc]

end TagNames

/-- The names in the tag of an element. -/
def Tag.names (t : Tag) : TagNames := ⟨.ofText t.qname, t.named.map Prod.fst⟩

/-! ## Scopes -/

/-- All steps answer exactly if each one does. -/
theorem exists_mapM_eq_ok {ε α β : Type} {f : α → Except ε β} {xs : List α} :
    (∃ ys, xs.mapM f = .ok ys) ↔ ∀ x ∈ xs, ∃ y, f x = .ok y := by
  induction xs with
  | nil => exact ⟨fun _ => nofun, fun _ => ⟨[], rfl⟩⟩
  | cons x xs ih =>
    rw [List.forall_mem_cons, ← ih]
    constructor
    · rintro ⟨ys, run⟩
      rw [List.mapM_cons] at run
      obtain ⟨y, first, run⟩ := exists_of_bind_eq_ok run
      obtain ⟨rest, others, _⟩ := exists_of_bind_eq_ok run
      exact ⟨⟨y, first⟩, rest, others⟩
    · rintro ⟨⟨y, first⟩, rest, others⟩
      refine ⟨y :: rest, ?_⟩
      rw [List.mapM_cons, first, others]
      rfl

theorem exists_map_eq_ok {ε α β : Type} {x : Except ε α} {f : α → β} :
    (∃ b, x.map f = .ok b) ↔ ∃ a, x = .ok a := by
  cases x <;> simp [Except.map]

/-- What attributes declare, they declare by their names. -/
theorem mem_map_declarationsOf {attributes : List (QName × String)} {q : String} :
    q ∈ (declarationsOf attributes).map Prod.fst ↔
      ∃ a ∈ attributes.map Prod.fst, declaredQualifier? a = some q := by
  simp only [declarationsOf, List.map_reverse, List.mem_reverse, List.mem_map, List.mem_filterMap,
    Option.map_eq_some_iff]
  constructor
  · rintro ⟨_, ⟨a, mem, qualifier, declared, rfl⟩, rfl⟩
    exact ⟨a.1, ⟨a, mem, rfl⟩, declared⟩
  · rintro ⟨_, ⟨a, mem, rfl⟩, declared⟩
    exact ⟨(q, a.2), ⟨a, mem, q, declared, rfl⟩, rfl⟩

namespace Scope

variable {scope : Scope}

/-- A qualifier has a meaning in a scope if it needs no declaration or has one. -/
theorem exists_resolve_eq_ok {q : String} : (∃ space, scope.resolve q = .ok space) ↔
    (q ≠ "" ∧ q ≠ "xml" → q ∈ scope.map Prod.fst) := by
  unfold resolve
  by_cases xml : q = "xml"
  · rw [if_pos xml]
    exact ⟨fun _ other => absurd xml other.2, fun _ => ⟨_, rfl⟩⟩
  · rw [if_neg xml]
    have declared : (scope.lookup q).isSome = true ↔ q ∈ scope.map Prod.fst := by
      rw [List.lookup_isSome_iff]
      simp
    rw [← declared]
    cases found : scope.lookup q with
    | none =>
      by_cases bare : q = ""
      · simp [bare]
      · simp [bare, xml]
    | some space =>
      refine ⟨fun _ _ => rfl, fun _ => ?_⟩
      split
      · exact ⟨_, rfl⟩
      · exact ⟨_, rfl⟩
      · next other => cases other

theorem exists_attributeUri_eq_ok {name : QName} : (∃ uri, scope.attributeUri name = .ok uri) ↔
    (declaredQualifier? name = none ∧ name.qualifier ≠ "" ∧ name.qualifier ≠ "xml" →
      name.qualifier ∈ scope.map Prod.fst) := by
  unfold attributeUri
  split
  · case isTrue declares =>
    refine ⟨fun _ plain => ?_, fun _ => ⟨_, rfl⟩⟩
    rw [plain.1] at declares
    cases declares
  · case isFalse plain =>
    have none_ : declaredQualifier? name = none := Option.not_isSome_iff_eq_none.1 plain
    split
    · case isTrue bare => exact ⟨fun _ used => absurd bare used.2.1, fun _ => ⟨_, rfl⟩⟩
    · case isFalse =>
      unfold elementUri
      rw [exists_map_eq_ok, exists_resolve_eq_ok]
      simp [none_]

/-- A start tag makes a tag exactly if every qualifier in it that needs a declaration has one. -/
theorem exists_tag_eq_ok {name : QName} {attributes : List (QName × String)} :
    (∃ tag, scope.tag .document name attributes = .ok tag) ↔
      ∀ q ∈ (TagNames.mk name (attributes.map Prod.fst)).uses, q ∈ scope.map Prod.fst := by
  have parts : (∃ tag, scope.tag .document name attributes = .ok tag) ↔
      (∃ uri, scope.elementUri name = .ok uri) ∧
        ∀ a ∈ attributes, ∃ uri, scope.attributeUri a.1 = .ok uri := by
    constructor
    · rintro ⟨tag, made⟩
      obtain ⟨uri, first, made⟩ := exists_of_bind_eq_ok made
      obtain ⟨resolved, others, _⟩ := exists_of_bind_eq_ok made
      refine ⟨⟨uri, first⟩, fun a mem => ?_⟩
      obtain ⟨answer, made⟩ := exists_mapM_eq_ok.1 ⟨resolved, others⟩ a mem
      obtain ⟨uri, found, _⟩ := exists_of_bind_eq_ok made
      exact ⟨uri, found⟩
    · rintro ⟨⟨uri, first⟩, others⟩
      have each : ∀ a ∈ attributes, ∃ made, (do
          return ⟨← scope.attributeUri a.1, a.1.text, a.2⟩ : Except ErrorCause Attribute) =
            .ok made := by
        intro a mem
        obtain ⟨uri, found⟩ := others a mem
        rw [found]
        exact ⟨_, rfl⟩
      obtain ⟨resolved, made⟩ := exists_mapM_eq_ok.2 each
      refine ⟨⟨uri, name.text, resolved⟩, ?_⟩
      unfold Scope.tag
      dsimp only
      rw [first]
      change (attributes.mapM (m := Except ErrorCause) _ >>= _) = _
      rw [made]
      rfl
  rw [parts]
  unfold elementUri
  rw [exists_map_eq_ok, exists_resolve_eq_ok]
  simp only [exists_attributeUri_eq_ok, TagNames.mem_uses, List.mem_map]
  constructor
  · rintro ⟨own, others⟩ q ⟨rfl | ⟨_, ⟨a, mem, rfl⟩, plain, rfl⟩, used⟩
    · exact own used
    · exact others a mem ⟨plain, used⟩
  · intro all
    exact ⟨fun used => all _ ⟨.inl rfl, used⟩, fun a mem used =>
      all _ ⟨.inr ⟨_, ⟨a, mem, rfl⟩, used.1, rfl⟩, used.2⟩⟩

end Scope

/-! ## Standings -/

/-- The names that decide about a token: those in the start tag that is being read, and those in the
tags of the open elements, innermost first. -/
structure Standing where
  tag : Option TagNames
  elements : List TagNames
  deriving DecidableEq, Repr

namespace Standing

/-- No tag is open. -/
def closed : Standing := ⟨none, []⟩

/-- The standing behind one more token. -/
def take (s : Standing) : Token → Standing
  | .startTag name _ => { s with tag := some ⟨name, []⟩ }
  | .attr name _ _ =>
    { s with tag := s.tag.map fun t => { t with attributes := t.attributes ++ [name] } }
  | .tagEnd isEmpty => ⟨none, if isEmpty then s.elements else s.tag.toList ++ s.elements⟩
  | .endTag _ _ => { s with elements := s.elements.tail }
  | _ => s

/-- The standing behind some tokens. -/
def of (ts : List Token) : Standing := ts.foldl take closed

/-- Every qualifier that the start tag being read uses is declared by it or by an open element. -/
def Bound (s : Standing) : Prop :=
  ∀ t ∈ s.tag, ∀ q ∈ t.uses, ∃ u ∈ t :: s.elements, q ∈ u.declares

/-- A token may come next: the end of a start tag if all its qualifiers are declared, an end tag if it
names the innermost open element, and all else if its references can be decoded. -/
def Fits (s : Standing) : Token → Prop
  | .tagEnd _ => s.Bound
  | .endTag name _ => ∃ t ∈ s.elements.head?, t.name.text = name.text
  | t => t.decodes = true

/-- Tokens may come next one after the other. -/
def Fitting : Standing → List Token → Prop
  | _, [] => True
  | s, t :: ts => s.Fits t ∧ Fitting (s.take t) ts

/-- Each token has to fit the standing behind the tokens before it. -/
theorem fitting_iff {s : Standing} {ts : List Token} : s.Fitting ts ↔
    ∀ before t behind, ts = before ++ t :: behind → (before.foldl take s).Fits t := by
  induction ts generalizing s with
  | nil => exact ⟨fun _ before t behind eq => absurd eq (by simp), fun _ => trivial⟩
  | cons t ts ih =>
    constructor
    · rintro ⟨first, rest⟩ before u behind eq
      cases before with
      | nil =>
        cases eq
        exact first
      | cons v before =>
        cases eq
        exact ih.1 rest before u behind rfl
    · intro all
      refine ⟨all [] t ts rfl, ih.2 fun before u behind eq => ?_⟩
      exact all (t :: before) u behind (congrArg (t :: ·) eq)

end Standing

/-! ## The standing of a reader -/

namespace Reader

variable {r r' : Reader}

/-- The names that a reader has in its tags. -/
def standing (r : Reader) : Standing :=
  ⟨r.tag.map fun t => ⟨t.name, t.attributes.map Prod.fst⟩,
    r.elements.map fun e => e.element.toTag.names⟩

theorem standing_addNode (r : Reader) (n : Node) : (r.addNode n).standing = r.standing := by
  unfold addNode standing
  cases r.elements <;> rfl

theorem standing_addText (form : Form) (r : Reader) (content : List Char) :
    (r.addText form content).standing = r.standing := by
  unfold addText
  split
  · rfl
  · split
    · rfl
    · exact r.standing_addNode _

/-- The scope holds the declarations of the open elements, innermost first. -/
theorem scope_eq {es : List OpenElement} {scope : Scope} (h : OpenElement.Resolved es scope) :
    scope = es.flatMap fun e => e.element.toTag.declarations := by
  induction es generalizing scope with
  | nil => exact h
  | cons e es ih =>
    obtain ⟨outer, made, _, _, _, around⟩ := h
    rw [made, List.flatMap_cons, ← ih around]

/-- A qualifier is in the scope exactly if an open element declares it. -/
theorem mem_scope_iff (h : r.Resolved) {q : String} :
    q ∈ r.scope.map Prod.fst ↔ ∃ t ∈ r.standing.elements, q ∈ t.declares := by
  have declared : ∀ e : OpenElement, (∃ b ∈ e.element.toTag.declarations, b.1 = q) ↔
      q ∈ e.element.toTag.names.declares := by
    intro e
    rw [← List.mem_map]
    exact mem_map_declarationsOf.trans List.mem_filterMap.symm
  rw [scope_eq h.elements]
  simp only [List.mem_map, List.mem_flatMap, standing]
  constructor
  · rintro ⟨b, ⟨e, mem, mem'⟩, rfl⟩
    exact ⟨_, ⟨e, mem, rfl⟩, (declared e).1 ⟨b, mem', rfl⟩⟩
  · rintro ⟨_, ⟨e, mem, rfl⟩, declares⟩
    obtain ⟨b, mem', rfl⟩ := (declared e).2 declares
    exact ⟨b, ⟨e, mem, mem'⟩, rfl⟩

/-- A qualifier is in the scope of a start tag exactly if the tag or an open element declares it. -/
theorem mem_scope_within_iff (h : r.Resolved) (t : OpenTag) {q : String} :
    q ∈ (declarationsOf t.attributes ++ r.scope).map Prod.fst ↔
      ∃ u ∈ (⟨t.name, t.attributes.map Prod.fst⟩ : TagNames) :: r.standing.elements,
        q ∈ u.declares := by
  rw [List.map_append, List.mem_append, mem_map_declarationsOf, mem_scope_iff h,
    List.exists_mem_cons_iff]
  exact or_congr_left List.mem_filterMap.symm

theorem standing_tag {t : OpenTag} (reading : r.tag = some t) :
    r.standing.tag = some ⟨t.name, t.attributes.map Prod.fst⟩ := by
  unfold standing
  rw [reading]
  rfl

/-- The start tag being read makes a tag exactly if its qualifiers are bound. -/
theorem exists_tag_iff (h : r.Resolved) {t : OpenTag} (reading : r.tag = some t) :
    (∃ tag, (declarationsOf t.attributes ++ r.scope).tag .document t.name t.attributes = .ok tag) ↔
      r.standing.Bound := by
  unfold Standing.Bound
  rw [standing_tag reading, Scope.exists_tag_eq_ok]
  simp only [mem_scope_within_iff h]
  exact ⟨fun all u eq => by cases eq; exact all, fun all => all _ rfl⟩

theorem exists_decode_iff {raw : List Char} {mark : Mark} :
    (∃ content, decode raw mark = .ok content) ↔ (Reference.decode raw).isOk = true := by
  cases decoded : Reference.decode raw with
  | ok content => exact ⟨fun _ => rfl, fun _ => ⟨_, decode_of_ok decoded mark⟩⟩
  | error fault =>
    refine ⟨?_, nofun⟩
    rintro ⟨content, run⟩
    rw [decode_of_error decoded] at run
    cases run

/-- The name of an open element is the one that was read. -/
theorem text_names {e : OpenElement} {es : List OpenElement} {scope : Scope}
    (h : OpenElement.Resolved (e :: es) scope) :
    e.element.toTag.names.name.text = e.element.qname := by
  obtain ⟨outer, _, _, named, _⟩ := h
  exact (Scope.written_tag named).1.symm

theorem exists_bind_iff {ε α β : Type} {x : Except ε α} {f : α → β} :
    (∃ b, (x >>= fun a => .ok (f a)) = .ok b) ↔ ∃ a, x = .ok a := by
  cases x with
  | error e => exact ⟨nofun, nofun⟩
  | ok a => exact ⟨fun _ => ⟨a, rfl⟩, fun _ => ⟨_, rfl⟩⟩

/-- An end tag closes the innermost open element exactly if it has its name. -/
theorem exists_close_iff (h : r.Resolved) {name : QName} {mark : Mark} :
    (∃ r', r.close name mark = .ok r') ↔ r.standing.Fits (.endTag name mark) := by
  unfold close Standing.Fits standing
  cases elements : r.elements with
  | nil => simp
  | cons e es =>
    have text : e.element.toTag.names.name.text = e.element.qname := by
      have resolved := h.elements
      rw [elements] at resolved
      exact text_names resolved
    by_cases same : e.element.qname = name.text
    · simp [same, text]
    · simp [same, text]

/-- The start tag being read can end exactly if its qualifiers are bound. -/
theorem exists_endTagStart_iff (h : r.Resolved) {t : OpenTag} (reading : r.tag = some t)
    (isEmpty : Bool) : (∃ r', r.endTagStart .document isEmpty = .ok r') ↔ r.standing.Bound := by
  rw [← exists_tag_iff h reading]
  unfold endTagStart
  rw [reading]
  cases made : (declarationsOf t.attributes ++ r.scope).tag .document t.name t.attributes with
  | error cause =>
    dsimp only
    rw [made]
    exact ⟨nofun, nofun⟩
  | ok tag =>
    dsimp only
    rw [made]
    cases isEmpty <;> exact ⟨fun _ => ⟨tag, rfl⟩, fun _ => ⟨_, rfl⟩⟩

/-- **A token is taken in** exactly if it fits the standing. -/
theorem exists_take_iff (h : r.Resolved) {p q : Place} (at_ : r.At p) {t : Token}
    (goes : p.Goes t q) : (∃ r', r.take .document t = .ok r') ↔ r.standing.Fits t := by
  have ends : ∀ {depth : Nat} (isEmpty : Bool), r.At (.inTag depth) →
      ((∃ r', r.take .document (.tagEnd isEmpty) = .ok r') ↔ r.standing.Bound) := by
    rintro depth isEmpty ⟨reading, _, _⟩
    obtain ⟨tag, reading⟩ := Option.isSome_iff_exists.1 reading
    exact exists_endTagStart_iff h reading isEmpty
  cases goes with
  | attr name value mark => exact exists_bind_iff.trans exists_decode_iff
  | characters raw mark => exact exists_bind_iff.trans exists_decode_iff
  | opens => exact ends false at_
  | empty => exact ends true at_
  | closes name mark => exact exists_close_iff h
  | aside | asideBefore | root | child | cdata => exact ⟨fun _ => rfl, fun _ => ⟨_, rfl⟩⟩

theorem standing_endTagStart (h : r.Resolved) {isEmpty : Bool}
    (run : r.endTagStart .document isEmpty = .ok r') :
    r'.standing = r.standing.take (.tagEnd isEmpty) := by
  obtain ⟨t, tag, reading, made, rfl⟩ := endTagStart_ok run
  obtain ⟨spelled, all⟩ := h.spelled t reading
  obtain ⟨name, named⟩ := Scope.named_tag spelled all made
  cases isEmpty with
  | true => exact standing_addNode _ _
  | false => simp [standing, Standing.take, reading, Tag.names, name, named]

/-- The standing behind a token is the reader's own. -/
theorem standing_take (h : r.Resolved) {t : Token} (run : r.take .document t = .ok r') :
    r'.standing = r.standing.take t := by
  cases t with
  | startTag name mark =>
    cases run
    rfl
  | attr name value mark =>
    obtain ⟨content, _, run⟩ := exists_of_bind_eq_ok run
    cases run
    unfold standing Standing.take
    cases r.tag <;> simp
  | tagEnd isEmpty => exact standing_endTagStart h run
  | endTag name mark =>
    obtain ⟨e, es, elements, _, rfl⟩ := close_ok run
    refine (standing_addNode _ _).trans ?_
    simp [standing, Standing.take, elements]
  | characters raw mark =>
    obtain ⟨content, _, run⟩ := exists_of_bind_eq_ok run
    cases run
    exact standing_addText _ _ _
  | cdata content =>
    cases run
    exact standing_addText _ _ _
  | aside =>
    cases run
    rfl

/-- The standing behind tokens is the reader's own. -/
theorem standing_takeAll {ts : List Token} (h : r.Resolved)
    (spelled : ∀ t ∈ ts, t.Names QName.Spelled) (run : takeAll .document r ts = .ok r') :
    r'.standing = ts.foldl Standing.take r.standing := by
  induction ts generalizing r with
  | nil =>
    cases run
    rfl
  | cons t ts ih =>
    obtain ⟨s, taken, run⟩ := exists_of_bind_eq_ok run
    rw [List.foldl_cons, ← standing_take h taken]
    exact ih (h.take (spelled t List.mem_cons_self) taken)
      (fun u mem => spelled u (List.mem_cons_of_mem t mem)) run

/-- **Tokens are taken in** exactly if each one fits the standing before it. -/
theorem exists_takeAll_iff {ts : List Token} {p q : Place} (h : r.Resolved) (at_ : r.At p)
    (leads : p.Leads ts q) (spelled : ∀ t ∈ ts, t.Names QName.Spelled) :
    (∃ r', takeAll .document r ts = .ok r') ↔ r.standing.Fitting ts := by
  induction ts generalizing r p with
  | nil => exact ⟨fun _ => trivial, fun _ => ⟨r, rfl⟩⟩
  | cons t ts ih =>
    obtain ⟨m, goes, leads⟩ := leads
    have rest : ∀ {s : Reader}, r.take .document t = .ok s →
        ((∃ r', takeAll .document s ts = .ok r') ↔ (r.standing.take t).Fitting ts) := by
      intro s taken
      rw [← standing_take h taken]
      exact ih (h.take (spelled t List.mem_cons_self) taken) (at_.take goes taken) leads
        fun u mem => spelled u (List.mem_cons_of_mem t mem)
    rw [Standing.Fitting, ← exists_take_iff h at_ goes]
    constructor
    · rintro ⟨r', run⟩
      obtain ⟨s, taken, run⟩ := exists_of_bind_eq_ok run
      exact ⟨⟨s, taken⟩, (rest taken).1 ⟨r', run⟩⟩
    · rintro ⟨⟨s, taken⟩, fitting⟩
      obtain ⟨r', run⟩ := (rest taken).2 fitting
      refine ⟨r', ?_⟩
      rw [takeAll, taken]
      exact run

/-- The tokens of a document are taken in exactly if each one fits the standing before it. -/
theorem exists_takeAll_document_iff (source : List Char) :
    (∃ r, takeAll .document initial (documentTokens source).tokens = .ok r) ↔
      Standing.closed.Fitting (documentTokens source).tokens := by
  obtain ⟨q, leads⟩ := documentTokens_leads source
  exact exists_takeAll_iff resolved_initial at_initial leads
    (names_documentTokens Scan.spelled_qname source)

end Reader

end Formwork.Markup
