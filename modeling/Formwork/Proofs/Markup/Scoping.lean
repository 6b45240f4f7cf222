import Formwork.Proofs.Markup.Standing

/-!
# Which namespace a qualifier stands for

In the tree of a document the tags around an element say what its qualifiers stand for: the innermost
tag that declares a qualifier counts, the element's own first, and in one tag the last declaration
(`spaceOf`).  Every name of an accepted document is resolved in exactly this way (`Tag.Scoped`).

While a document is read, the declarations in scope are those of the open elements, one element after
the other; so an element that is left finds its declarations in front and takes them away.  A start tag
with a qualifier that is not declared there, and only such a tag, is refused for that reason
(`parseDocument_scoping`).
-/

namespace Formwork.Markup

set_option autoImplicit false

/-! ## Namespaces by position -/

/-- The value of the last declaration of a qualifier in a tag. -/
def Tag.declaration? (t : Tag) (q : String) : Option String :=
  (t.attributes.reverse.find? fun a => declaredQualifier? (.ofText a.qname) = some q).map
    Attribute.value

/-- The namespace of a qualifier in some tags, innermost first: none if nothing declares the
qualifier, or if an empty value does. -/
def spaceOf (tags : List Tag) (q : String) : Option String :=
  if q = "xml" then some NameUri.xmlNamespace
  else (tags.findSome? fun t => t.declaration? q).filter fun space => space ≠ ""

/-- The URI of the name of an attribute in some tags. -/
def attributeUriIn (tags : List Tag) (name : QName) : String :=
  if (declaredQualifier? name).isSome then
    NameUri.make (some NameUri.declarationNamespace) name.localName
  else if name.qualifier = "" then name.localName
  else NameUri.make (spaceOf tags name.qualifier) name.localName

/-- The first of some tags is resolved by itself and the tags around it, and they declare every
qualifier that it uses. -/
def Tag.Scoped : List Tag → Prop
  | [] => True
  | t :: around =>
    t.uri = NameUri.make (spaceOf (t :: around) t.names.name.qualifier) t.names.name.localName ∧
    (∀ a ∈ t.attributes, a.uri = attributeUriIn (t :: around) (.ofText a.qname)) ∧
    ∀ q ∈ t.names.uses, ∃ u ∈ t :: around, (u.declaration? q).isSome = true

mutual
/-- A property holds of every tag in a node together with the tags around it, innermost first. -/
def Node.EveryTag (P : List Tag → Prop) : List Tag → Node → Prop
  | _, .text _ => True
  | around, .element tag children =>
    P (tag :: around) ∧ Node.EveryTagIn P (tag :: around) children

/-- A property holds of every tag in some siblings together with the tags around it. -/
def Node.EveryTagIn (P : List Tag → Prop) : List Tag → List Node → Prop
  | _, [] => True
  | around, n :: ns => n.EveryTag P around ∧ Node.EveryTagIn P around ns
end

/-! ## Scopes by position -/

/-- The declarations of some tags, innermost first. -/
def scopeOf (tags : List Tag) : Scope := tags.flatMap Tag.declarations

/-- The last declaration of a qualifier in a tag is the first one in its scope. -/
theorem Tag.lookup_declarations (t : Tag) (q : String) :
    t.declarations.lookup q = t.declaration? q := by
  unfold declarations declarationsOf declaration? named
  rw [← List.filterMap_reverse, ← List.map_reverse]
  induction t.attributes.reverse with
  | nil => rfl
  | cons a as ih =>
    rw [List.map_cons, List.find?_cons]
    cases declared : declaredQualifier? (.ofText a.qname) with
    | none =>
      rw [List.filterMap_cons_none, ih]
      · rfl
      · show (declaredQualifier? (.ofText a.qname)).map _ = none
        rw [declared]
        rfl
    | some d =>
      rw [List.filterMap_cons_some (b := (d, a.value)), List.lookup_cons, ih]
      · by_cases same : d = q
        · simp [same]
        · simp [same, beq_false_of_ne (Ne.symm same)]
      · show (declaredQualifier? (.ofText a.qname)).map _ = some (d, a.value)
        rw [declared]
        rfl

/-- The innermost tag that declares a qualifier counts. -/
theorem lookup_scopeOf (tags : List Tag) (q : String) :
    (scopeOf tags).lookup q = tags.findSome? fun t => t.declaration? q := by
  induction tags with
  | nil => rfl
  | cons t tags ih =>
    rw [scopeOf, List.flatMap_cons, List.lookup_append, Tag.lookup_declarations, List.findSome?_cons,
      ← ih]
    cases t.declaration? q <;> rfl

/-- Qualifiers are resolved by position. -/
theorem spaceOf_of_resolve {tags : List Tag} {q : String} {space : Option String}
    (resolved : (scopeOf tags).resolve q = .ok space) : space = spaceOf tags q := by
  unfold Scope.resolve at resolved
  unfold spaceOf
  by_cases xml : q = "xml"
  · rw [if_pos xml] at resolved ⊢
    cases resolved
    rfl
  · rw [if_neg xml] at resolved ⊢
    rw [lookup_scopeOf] at resolved
    cases found : tags.findSome? fun t => t.declaration? q with
    | none =>
      rw [found] at resolved
      replace resolved : (if q = "" then .ok none else .error (.unbound q) :
        Except ErrorCause (Option String)) = .ok space := resolved
      split at resolved
      · cases resolved
        rfl
      · cases resolved
    | some value =>
      rw [found] at resolved
      by_cases nothing : value = ""
      · subst nothing
        cases resolved
        rfl
      · split at resolved
        · next eq => exact absurd (Option.some.inj eq) nothing
        · next value' _ eq =>
          cases eq
          cases resolved
          simp [Option.filter, nothing]
        · next eq => cases eq

theorem elementUri_eq {tags : List Tag} {name : QName} {uri : String}
    (resolved : (scopeOf tags).elementUri name = .ok uri) :
    uri = NameUri.make (spaceOf tags name.qualifier) name.localName := by
  unfold Scope.elementUri at resolved
  cases found : (scopeOf tags).resolve name.qualifier with
  | error cause =>
    rw [found] at resolved
    cases resolved
  | ok space =>
    rw [found] at resolved
    cases resolved
    rw [spaceOf_of_resolve found]

theorem attributeUri_eq {tags : List Tag} {name : QName} {uri : String}
    (resolved : (scopeOf tags).attributeUri name = .ok uri) : uri = attributeUriIn tags name := by
  unfold Scope.attributeUri at resolved
  unfold attributeUriIn
  by_cases declares : (declaredQualifier? name).isSome = true
  · rw [if_pos declares] at resolved ⊢
    cases resolved
    rfl
  · rw [if_neg declares] at resolved ⊢
    by_cases bare : name.qualifier = ""
    · rw [if_pos bare] at resolved ⊢
      cases resolved
      rfl
    · rw [if_neg bare] at resolved ⊢
      exact elementUri_eq resolved

/-- A tag that resolves to itself is scoped. -/
theorem Tag.scoped_of_tag {t : Tag} {around : List Tag}
    (made : (scopeOf (t :: around)).tag .document (.ofText t.qname) t.named = .ok t) :
    Scoped (t :: around) := by
  have declared := Scope.exists_tag_eq_ok.1 ⟨t, made⟩
  obtain ⟨uri, own, made⟩ := exists_of_bind_eq_ok made
  obtain ⟨resolved, others, made⟩ := exists_of_bind_eq_ok made
  have uris : resolved.map Attribute.uri =
      t.named.map fun a => attributeUriIn (t :: around) a.1 := by
    refine map_of_mapM (fun a _ b made => ?_) others
    obtain ⟨uri, found, made⟩ := exists_of_bind_eq_ok made
    cases made
    exact attributeUri_eq found
  have whole : (⟨uri, (QName.ofText t.qname).text, resolved⟩ : Tag) = t := Except.ok.inj made
  rw [show resolved = t.attributes from congrArg Tag.attributes whole, named, List.map_map] at uris
  refine ⟨?_, List.map_inj_left.1 uris, fun q used => ?_⟩
  · rw [← show uri = t.uri from congrArg Tag.uri whole]
    exact elementUri_eq own
  · have found : ((scopeOf (t :: around)).lookup q).isSome = true := by
      rw [List.lookup_isSome_iff]
      simpa using declared q used
    rw [lookup_scopeOf, List.findSome?_isSome_iff] at found
    exact found

mutual
/-- Every tag of a node that resolves to itself is scoped. -/
theorem Node.everyTag_of_resolves : ∀ {n : Node} {around : List Tag},
    n.Resolves .document (scopeOf around) n → n.EveryTag Tag.Scoped around
  | .text _, _, _ => trivial
  | .element tag _, around, ⟨made, children⟩ =>
    ⟨Tag.scoped_of_tag made, @everyTagIn_of_resolves _ (tag :: around) children⟩

theorem Node.everyTagIn_of_resolves : ∀ {ns : List Node} {around : List Tag},
    ResolvesAll .document (scopeOf around) ns ns → EveryTagIn Tag.Scoped around ns
  | [], _, _ => trivial
  | _ :: _, _, ⟨first, rest⟩ => ⟨everyTag_of_resolves first, everyTagIn_of_resolves rest⟩
end

/-! ## The scope while a document is read -/

/-- The tags of the open elements, innermost first. -/
def Reader.tags (r : Reader) : List Tag := r.elements.map fun e => e.element.toTag

/-- The declarations in scope are those of the open elements, and the innermost element has put just
its own there. -/
structure Reader.ScopeKept (r : Reader) : Prop where
  scope : r.scope = scopeOf r.tags
  own : ∀ e ∈ r.elements.head?, e.declared ≤ r.scope.length ∧
    r.scope.drop e.declared = scopeOf r.tags.tail

theorem Reader.Resolved.scopeKept {r : Reader} (h : r.Resolved) : r.ScopeKept := by
  have whole : ∀ {es : List OpenElement} {scope : Scope}, OpenElement.Resolved es scope →
      scope = scopeOf (es.map fun e => e.element.toTag) := by
    intro es scope resolved
    rw [scopeOf, List.flatMap_map]
    exact scope_eq resolved
  refine ⟨whole h.elements, fun e head => ?_⟩
  unfold Reader.tags
  cases elements : r.elements with
  | nil =>
    rw [elements] at head
    cases head
  | cons e' es =>
    rw [elements] at head
    cases head
    have resolved := h.elements
    rw [elements] at resolved
    obtain ⟨outer, made, declared, _, _, around⟩ := resolved
    rw [made, declared, List.length_append, List.drop_left]
    exact ⟨Nat.le_add_right _ _, whole around⟩

/-! ## Qualifiers without a declaration -/

/-- Tokens are refused at the first one that is. -/
theorem Reader.takeAll_eq_error {form : Form} {r : Reader} {ts : List Token}
    {e : ErrorCause × Mark} : takeAll form r ts = .error e ↔
      ∃ before t behind s, ts = before ++ t :: behind ∧ takeAll form r before = .ok s ∧
        s.take form t = .error e := by
  induction ts generalizing r with
  | nil => exact ⟨nofun, fun ⟨before, t, behind, _, eq, _⟩ => absurd eq (by simp)⟩
  | cons t ts ih =>
    cases taken : r.take form t with
    | error e' =>
      have run : takeAll form r (t :: ts) = .error e' := by
        rw [takeAll, taken]
        rfl
      rw [run]
      constructor
      · rintro ⟨⟩
        exact ⟨[], t, ts, r, rfl, rfl, taken⟩
      · rintro ⟨before, u, behind, s, eq, first, refused⟩
        cases before with
        | nil =>
          cases eq
          cases first
          exact taken.symm.trans refused
        | cons v before =>
          cases eq
          rw [takeAll, taken] at first
          cases first
    | ok r' =>
      have run : takeAll form r (t :: ts) = takeAll form r' ts := by
        rw [takeAll, taken]
        rfl
      rw [run, ih]
      constructor
      · rintro ⟨before, u, behind, s, rfl, first, refused⟩
        refine ⟨t :: before, u, behind, s, rfl, ?_, refused⟩
        rw [takeAll, taken]
        exact first
      · rintro ⟨before, u, behind, s, eq, first, refused⟩
        cases before with
        | nil =>
          cases eq
          cases first
          rw [taken] at refused
          cases refused
        | cons v before =>
          cases eq
          rw [takeAll, taken] at first
          exact ⟨before, u, behind, s, rfl, first, refused⟩

theorem of_bind_eq_error {ε α β : Type} {x : Except ε α} {f : α → Except ε β} {e : ε}
    (h : x >>= f = .error e) : x = .error e ∨ ∃ a, x = .ok a ∧ f a = .error e := by
  cases x with
  | error e' =>
    cases h
    exact .inl rfl
  | ok a => exact .inr ⟨a, rfl, h⟩

theorem exists_of_mapM_eq_error {ε α β : Type} {f : α → Except ε β} {xs : List α} {e : ε}
    (h : xs.mapM f = .error e) : ∃ x ∈ xs, f x = .error e := by
  induction xs with
  | nil => cases h
  | cons x xs ih =>
    rw [List.mapM_cons] at h
    rcases of_bind_eq_error h with first | ⟨y, _, h⟩
    · exact ⟨x, List.mem_cons_self, first⟩
    · rcases of_bind_eq_error h with others | ⟨ys, _, h⟩
      · obtain ⟨x', mem, refused⟩ := ih others
        exact ⟨x', List.mem_cons_of_mem x mem, refused⟩
      · cases h

theorem of_map_eq_error {ε α β : Type} {x : Except ε α} {f : α → β} {e : ε}
    (h : x.map f = .error e) : x = .error e := by
  cases x with
  | error e' =>
    cases h
    rfl
  | ok a => cases h

namespace Scope

variable {scope : Scope} {cause : ErrorCause}

/-- A qualifier that is refused needs a declaration and has none. -/
theorem unbound_of_resolve {q : String} (refused : scope.resolve q = .error cause) :
    cause = .unbound q ∧ (q ≠ "" ∧ q ≠ "xml") ∧ q ∉ scope.map Prod.fst := by
  have undeclared : ¬ (q ≠ "" ∧ q ≠ "xml" → q ∈ scope.map Prod.fst) := by
    rw [← exists_resolve_eq_ok]
    rintro ⟨space, found⟩
    rw [refused] at found
    cases found
  refine ⟨?_, Classical.not_imp.1 undeclared⟩
  unfold resolve at refused
  split at refused
  · cases refused
  · split at refused
    · cases refused
    · cases refused
    · split at refused <;> cases refused
      rfl

theorem unbound_of_attributeUri {name : QName} (refused : scope.attributeUri name = .error cause) :
    declaredQualifier? name = none ∧ scope.resolve name.qualifier = .error cause := by
  unfold attributeUri at refused
  split at refused
  · cases refused
  · case isFalse plain =>
    split at refused
    · cases refused
    · exact ⟨Option.not_isSome_iff_eq_none.1 plain, of_map_eq_error refused⟩

/-- A start tag can be refused for a qualifier without a declaration alone, which it uses. -/
theorem unbound_of_tag {name : QName} {attributes : List (QName × String)}
    (refused : scope.tag .document name attributes = .error cause) :
    ∃ q, cause = .unbound q ∧ q ∈ (TagNames.mk name (attributes.map Prod.fst)).uses ∧
      q ∉ scope.map Prod.fst := by
  rcases of_bind_eq_error refused with own | ⟨uri, _, refused⟩
  · obtain ⟨same, used, undeclared⟩ := unbound_of_resolve (of_map_eq_error own)
    exact ⟨_, same, TagNames.mem_uses.2 ⟨.inl rfl, used⟩, undeclared⟩
  · rcases of_bind_eq_error refused with others | ⟨resolved, _, refused⟩
    · obtain ⟨a, mem, refused⟩ := exists_of_mapM_eq_error others
      rcases of_bind_eq_error refused with refused | ⟨uri, _, refused⟩
      · obtain ⟨plain, refused⟩ := unbound_of_attributeUri refused
        obtain ⟨same, used, undeclared⟩ := unbound_of_resolve refused
        have named := List.mem_map_of_mem (f := Prod.fst) mem
        exact ⟨_, same, TagNames.mem_uses.2 ⟨.inr ⟨_, named, plain, rfl⟩, used⟩, undeclared⟩
      · cases refused
    · cases refused

end Scope

namespace Reader

variable {r : Reader}

theorem endTagStart_eq_unbound (h : r.Resolved) {t : OpenTag} (reading : r.tag = some t)
    (isEmpty : Bool) : (∃ q mark, r.endTagStart .document isEmpty = .error (.unbound q, mark)) ↔
      ¬ r.standing.Bound := by
  rw [← exists_endTagStart_iff h reading isEmpty]
  constructor
  · rintro ⟨q, mark, refused⟩ ⟨r', taken⟩
    rw [refused] at taken
    cases taken
  · intro refused
    cases run : r.endTagStart .document isEmpty with
    | ok r' => exact absurd ⟨r', run⟩ refused
    | error e =>
      unfold endTagStart at run
      rw [reading] at run
      rcases of_bind_eq_error run with run | ⟨tag, _, run⟩
      · cases made : (declarationsOf t.attributes ++ r.scope).tag .document t.name t.attributes with
        | ok tag =>
          dsimp only at run
          rw [made] at run
          cases run
        | error cause =>
          dsimp only at run
          rw [made] at run
          obtain ⟨q, rfl, _⟩ := Scope.unbound_of_tag made
          cases run
          exact ⟨q, t.mark, rfl⟩
      · cases isEmpty <;> cases run

/-- **A token is refused for a qualifier without a declaration** exactly if it ends a start tag whose
qualifiers are not all bound. -/
theorem take_eq_unbound {p m : Place} {t : Token} (h : r.Resolved) (at_ : r.At p)
    (goes : p.Goes t m) :
    (∃ q mark, r.take .document t = .error (.unbound q, mark)) ↔
      ∃ isEmpty, t = .tagEnd isEmpty ∧ ¬ r.standing.Bound := by
  have ends : ∀ {depth : Nat} (isEmpty : Bool), r.At (.inTag depth) →
      ((∃ q mark, r.take .document (.tagEnd isEmpty) = .error (.unbound q, mark)) ↔
        ∃ other, Token.tagEnd isEmpty = .tagEnd other ∧ ¬ r.standing.Bound) := by
    rintro depth isEmpty ⟨reading, _, _⟩
    obtain ⟨tag, reading⟩ := Option.isSome_iff_exists.1 reading
    refine (endTagStart_eq_unbound h reading isEmpty).trans ?_
    exact ⟨fun unbound => ⟨isEmpty, rfl, unbound⟩, fun ⟨_, _, unbound⟩ => unbound⟩
  have decodes : ∀ {raw : List Char} {mark : Mark} {f : List Char → Reader} {q : String} {m : Mark},
      (decode raw mark >>= fun content => .ok (f content)) ≠ .error (.unbound q, m) := by
    intro raw mark f q m run
    rcases of_bind_eq_error run with run | ⟨content, _, run⟩
    · unfold decode at run
      cases decoded : Reference.decode raw <;> rw [decoded] at run <;> cases run
    · cases run
  cases goes with
  | opens => exact ends false at_
  | empty => exact ends true at_
  | attr name value mark => exact ⟨fun ⟨_, _, run⟩ => absurd run decodes, nofun⟩
  | characters raw mark => exact ⟨fun ⟨_, _, run⟩ => absurd run decodes, nofun⟩
  | closes name mark =>
    refine ⟨?_, nofun⟩
    rintro ⟨q, m, run⟩
    replace run : r.close name mark = .error (.unbound q, m) := run
    unfold close at run
    split at run
    · cases run
    · split at run <;> cases run
  | aside | asideBefore | root | child | cdata => exact ⟨nofun, nofun⟩

end Reader

/-- The one kind of error with this name. -/
theorem ErrorCause.eq_unbound {cause : ErrorCause} (named : cause.kind.name = "unbound-prefix") :
    ∃ q, cause = .unbound q := by
  cases cause with
  | unbound q => exact ⟨q, rfl⟩
  | _ => simp [ErrorCause.kind, ErrorKind.name] at named

/-- A document is refused for a qualifier without a declaration exactly if a token is. -/
theorem parseDocument_eq_unbound {source : String} :
    (∃ error, parseDocument source = .error error ∧ error.kind.name = "unbound-prefix") ↔
      ∃ q mark, Reader.takeAll .document .initial (documentTokens source.toList).tokens =
        .error (.unbound q, mark) := by
  constructor
  · rintro ⟨error, refused, named⟩
    obtain ⟨q, cause⟩ := ErrorCause.eq_unbound named
    rcases of_bind_eq_error refused with refused | ⟨roots, _, refused⟩
    · unfold nodesOfTokens at refused
      dsimp only at refused
      split at refused
      · cases refused
        cases cause
      · next cause' mark _ run =>
        cases refused
        exact ⟨q, mark, cause ▸ run⟩
      · next r _ =>
        split at refused
        · cases refused
          cases cause
        · unfold Reader.finish at refused
          cases elements : r.elements <;> rw [elements] at refused <;> cases refused
          cases cause
    · split at refused <;> cases refused
      cases cause
  · rintro ⟨q, mark, run⟩
    refine ⟨⟨.unbound q, Position.ofUnread source.toList mark⟩, ?_, rfl⟩
    unfold parseDocument nodesOfTokens
    dsimp only
    rw [run]
    rfl

/-- **Namespaces are scoped exactly.**  In the tree of an accepted document every name is resolved by the
tags around it.  However many tokens have been taken in, the declarations in scope are those of the open
elements, and an element that is left takes just its own away.  A document is refused for a qualifier
without a declaration exactly if it is the first thing wrong with it that a start tag uses one. -/
theorem parseDocument_scoping (source : String) :
    (∀ e, parseDocument source = .ok e → e.toNode.EveryTag Tag.Scoped []) ∧
      (∀ before behind r, (documentTokens source.toList).tokens = before ++ behind →
        Reader.takeAll .document .initial before = .ok r → r.ScopeKept) ∧
      ((∃ error, parseDocument source = .error error ∧ error.kind.name = "unbound-prefix") ↔
        ∃ before isEmpty behind,
          (documentTokens source.toList).tokens = before ++ .tagEnd isEmpty :: behind ∧
            Standing.closed.Fitting before ∧ ¬ (Standing.of before).Bound) := by
  obtain ⟨q, leads⟩ := documentTokens_leads source.toList
  have spelled : ∀ {before behind : List Token},
      (documentTokens source.toList).tokens = before ++ behind →
        ∀ t ∈ before, t.Names QName.Spelled := fun eq t mem =>
    names_documentTokens Scan.spelled_qname source.toList t (eq ▸ List.mem_append_left _ mem)
  have resolved : ∀ {before behind : List Token} {r : Reader},
      (documentTokens source.toList).tokens = before ++ behind →
        Reader.takeAll .document .initial before = .ok r → r.Resolved := fun eq run =>
    Reader.resolved_initial.takeAll (spelled eq) run
  refine ⟨fun e parsed => @Node.everyTag_of_resolves _ [] (parseDocument_resolves parsed),
    fun before behind r eq run => (resolved eq run).scopeKept, ?_⟩
  -- A token is refused where the tokens before it have been taken in, so where they fit.
  have refused : ∀ {before behind : List Token} {t : Token} {r : Reader},
      (documentTokens source.toList).tokens = before ++ t :: behind →
        Reader.takeAll .document .initial before = .ok r →
          ((∃ q mark, r.take .document t = .error (.unbound q, mark)) ↔
            ∃ isEmpty, t = .tagEnd isEmpty ∧ ¬ (Standing.of before).Bound) := by
    intro before behind t r eq run
    obtain ⟨m, leads', m', goes, _⟩ := Place.leads_append.1 (eq ▸ leads)
    have standing : r.standing = Standing.of before :=
      Reader.standing_takeAll Reader.resolved_initial (spelled eq) run
    rw [← standing]
    exact Reader.take_eq_unbound (resolved eq run) (Reader.at_initial.takeAll leads' run) goes
  rw [parseDocument_eq_unbound]
  constructor
  · rintro ⟨q, mark, run⟩
    obtain ⟨before, t, behind, r, eq, first, stopped⟩ := Reader.takeAll_eq_error.1 run
    obtain ⟨isEmpty, rfl, unbound⟩ := (refused eq first).1 ⟨q, mark, stopped⟩
    obtain ⟨m, leads', _⟩ := Place.leads_append.1 (eq ▸ leads)
    exact ⟨before, isEmpty, behind, eq, (Reader.exists_takeAll_iff Reader.resolved_initial
      Reader.at_initial leads' (spelled eq)).1 ⟨r, first⟩, unbound⟩
  · rintro ⟨before, isEmpty, behind, eq, fitting, unbound⟩
    obtain ⟨m, leads', _⟩ := Place.leads_append.1 (eq ▸ leads)
    obtain ⟨r, first⟩ := (Reader.exists_takeAll_iff Reader.resolved_initial
      Reader.at_initial leads' (spelled eq)).2 fitting
    obtain ⟨q, mark, run⟩ := (refused eq first).2 ⟨isEmpty, rfl, unbound⟩
    exact ⟨q, mark, Reader.takeAll_eq_error.2 ⟨before, _, behind, r, eq, first, run⟩⟩

/-- A document that declares a qualifier twice, once behind its use, and takes a default namespace
back. -/
def shadowingDocument : String :=
  "<a xmlns='u' xmlns:p='v'><p:b p:k='1' xmlns:p='w/'/><c xmlns=''/><p:d/></a>"

/-- The root of `shadowingDocument`. -/
def shadowingRoot : Element :=
  ⟨⟨"u#a", "a", [⟨"http://www.w3.org/2000/xmlns/xmlns", "xmlns", "u"⟩,
      ⟨"http://www.w3.org/2000/xmlns/p", "xmlns:p", "v"⟩]⟩,
    [.element ⟨"w/b", "p:b", [⟨"w/k", "p:k", "1"⟩,
        ⟨"http://www.w3.org/2000/xmlns/p", "xmlns:p", "w/"⟩]⟩ [],
      .element ⟨"c", "c", [⟨"http://www.w3.org/2000/xmlns/xmlns", "xmlns", ""⟩]⟩ [],
      .element ⟨"v#d", "p:d", []⟩ []]⟩

theorem parseDocument_scoping_shadowing : parseDocument shadowingDocument = .ok shadowingRoot ∧
    shadowingRoot.toNode.EveryTag Tag.Scoped [] ∧
      ∃ r, Reader.takeAll .document .initial
          ((documentTokens shadowingDocument.toList).tokens.take 8) = .ok r ∧
        r.scope = [("p", "v"), ("", "u")] ∧ r.ScopeKept := by
  have parsed : parseDocument shadowingDocument = .ok shadowingRoot := by rfl
  obtain ⟨everywhere, kept, _⟩ := parseDocument_scoping shadowingDocument
  refine ⟨parsed, everywhere shadowingRoot parsed, _, rfl, rfl, ?_⟩
  exact kept _ ((documentTokens shadowingDocument.toList).tokens.drop 8) _
    (List.take_append_drop 8 _).symm rfl

end Formwork.Markup
