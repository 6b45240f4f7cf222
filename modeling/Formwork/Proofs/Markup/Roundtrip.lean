import Formwork.Proofs.Markup.Writing

/-!
# Parsing undoes writing

A tree is written with its qualified names and its decoded texts.  Reading it back gives the same
tree, up to the names that identify elements and attributes: these are resolved anew, in the scope
of the declarations that were written as attributes.

**Reading.**  `Takes` says that a lexer and a reader get over some characters together.  What carries
the induction over a tree is stated for an arbitrary reader outside start tags: it takes the
characters of a node in and adds the node, resolved in its own scope (`takes_nodes`).

**Fragments.**  The names of a fragment identify themselves, so a written tree is read back with
every URI replaced by the written name (`parseFragment_charsOf`).
-/

namespace Formwork.Markup

set_option autoImplicit false

/-! ## Written trees -/

/-- The characters of attributes in a start tag. -/
def attrChars (quote : Quote) (attributes : List Attribute) : List Char :=
  attributes.flatMap fun a => ' ' :: (a.qname.toList ++ '=' :: Token.quotedValue quote a.value)

mutual
/-- The characters of a written node, whose attribute values stand in given quotes. -/
def Node.chars (quote : Quote) : Node → List Char
  | .text content => content.toList.flatMap Escape.textChar
  | .element tag children =>
    '<' :: (tag.qname.toList ++ (attrChars quote tag.attributes ++ '>' ::
      (Node.charsOf quote children ++ '<' :: '/' :: (tag.qname.toList ++ ['>']))))

/-- The characters of written siblings. -/
def Node.charsOf (quote : Quote) : List Node → List Char
  | [] => []
  | n :: ns => n.chars quote ++ Node.charsOf quote ns
end

theorem Escape.toList_attr (quote : Quote) (name content : String) :
    (Escape.attr quote name content).toList =
      ' ' :: (name.toList ++ '=' :: Token.quotedValue quote content) := by
  simp [Escape.attr, Escape.value, Token.quotedValue, Char.toString]

mutual
/-- Markup is written with single quotes. -/
theorem Node.toList_markup : ∀ n : Node, n.markup.toList = n.chars .single
  | .text content => by simp [markup, chars, Escape.text]
  | .element tag children => by
    have attrs : (String.join (tag.attributes.map fun a =>
        Escape.attr .single a.qname a.value)).toList = attrChars .single tag.attributes := by
      simp [attrChars, String.toList_join, List.flatMap_map, Escape.toList_attr]
    simp [markup, chars, Tag.openMarkup, Tag.closeMarkup, attrs, toList_markupOf children]

theorem Node.toList_markupOf : ∀ ns : List Node, (markupOf ns).toList = charsOf .single ns
  | [] => rfl
  | n :: ns => by simp [markupOf, charsOf, toList_markup n, toList_markupOf ns]
end

mutual
/-- A node that can be written: its names are qualified names, and its texts and values hold only
characters that may occur in markup. -/
def Node.Writable : Node → Prop
  | .text content => IsMarkupText content
  | .element tag children => IsQualifiedName tag.qname ∧
      (∀ a ∈ tag.attributes, IsQualifiedName a.qname ∧ IsMarkupText a.value) ∧
      Node.WritableAll children

/-- Siblings that can be written. -/
def Node.WritableAll : List Node → Prop
  | [] => True
  | n :: ns => n.Writable ∧ Node.WritableAll ns
end

/-- A text, and not an element. -/
def Node.isText : Node → Bool
  | .text _ => true
  | .element _ _ => false

mutual
/-- A node below which no text is empty or next to another one. -/
def Node.Parted : Node → Prop
  | .text content => content ≠ ""
  | .element _ children => Node.PartedAll children

/-- Siblings among and below which no text is empty or next to another one. -/
def Node.PartedAll : List Node → Prop
  | [] => True
  | n :: ns => n.Parted ∧ (n.isText = true → ∀ m ∈ ns.head?, m.isText = false) ∧ Node.PartedAll ns
end

/-! ## Resolving again -/

/-- The name and the value of an attribute, as they are read back. -/
def Attribute.named (a : Attribute) : QName × String := (.ofText a.qname, a.value)

/-- The names and values of the attributes of a tag. -/
def Tag.named (t : Tag) : List (QName × String) := t.attributes.map Attribute.named

/-- What a start tag declares for its element. -/
def Form.declared (form : Form) (attributes : List (QName × String)) : Scope :=
  match form with
  | .document => declarationsOf attributes
  | .fragment => []

mutual
/-- One tree is what the names of another one resolve to in a scope. -/
def Node.Resolves (form : Form) : Scope → Node → Node → Prop
  | _, .text content, n => n = .text content
  | _, .element _ _, .text _ => False
  | scope, .element tag children, .element tag' children' =>
    Scope.tag (form.declared tag.named ++ scope) form (.ofText tag.qname) tag.named = .ok tag' ∧
      Node.ResolvesAll form (form.declared tag.named ++ scope) children children'

/-- Siblings are what the names of others resolve to in a scope. -/
def Node.ResolvesAll (form : Form) : Scope → List Node → List Node → Prop
  | _, [], ns => ns = []
  | _, _ :: _, [] => False
  | scope, n :: ns, n' :: ns' => n.Resolves form scope n' ∧ Node.ResolvesAll form scope ns ns'
end

/-- An attribute identified by its written name. -/
def Attribute.asWritten (a : Attribute) : Attribute := .plain a.qname a.value

/-- A tag in which every name identifies itself. -/
def Tag.asWritten (t : Tag) : Tag := ⟨t.qname, t.qname, t.attributes.map Attribute.asWritten⟩

mutual
/-- A node with every URI replaced by the written name. -/
def Node.asWritten : Node → Node
  | .text content => .text content
  | .element tag children => .element tag.asWritten (Node.asWrittenAll children)

/-- Siblings with every URI replaced by the written name. -/
def Node.asWrittenAll : List Node → List Node
  | [] => []
  | n :: ns => n.asWritten :: Node.asWrittenAll ns
end

theorem Tag.resolves_asWritten {t : Tag} (name : IsQualifiedName t.qname)
    (attributes : ∀ a ∈ t.attributes, IsQualifiedName a.qname ∧ IsMarkupText a.value)
    (scope : Scope) : Scope.tag scope .fragment (.ofText t.qname) t.named = .ok t.asWritten := by
  have plain : t.named.map (fun a => Attribute.plain a.1.text a.2) =
      t.attributes.map Attribute.asWritten := by
    unfold named
    rw [List.map_map]
    refine List.map_congr_left fun a mem => ?_
    simp [Attribute.asWritten, Attribute.named, QName.text_ofText (attributes a mem).1]
  unfold Scope.tag asWritten
  rw [QName.text_ofText name, ← plain]

mutual
/-- In a fragment, names resolve to themselves. -/
theorem Node.resolves_asWritten : ∀ {n : Node}, n.Writable → ∀ scope : Scope,
    n.Resolves .fragment scope n.asWritten
  | .text _, _, _ => rfl
  | .element _ _, ⟨name, attributes, content⟩, _ =>
    ⟨Tag.resolves_asWritten name attributes _, resolvesAll_asWritten content _⟩

theorem Node.resolvesAll_asWritten : ∀ {ns : List Node}, WritableAll ns → ∀ scope : Scope,
    ResolvesAll .fragment scope ns (asWrittenAll ns)
  | [], _, _ => rfl
  | _ :: _, ⟨first, rest⟩, scope =>
    ⟨resolves_asWritten first scope, resolvesAll_asWritten rest scope⟩
end

/-! ## Getting over characters -/

/-- Tokens in front of a stream. -/
def TokenStream.prepend (ts : List Token) (s : TokenStream) : TokenStream :=
  { s with tokens := ts ++ s.tokens }

/-- A lexer reads tokens off some characters, however many steps it may still take, as long as they
are enough for all characters. -/
def Lexer.Reads (l : Lexer) (cs : List Char) (ts : List Token) (next : Lexer) (rest : List Char) :
    Prop :=
  ∀ steps, cs.length ≤ steps → ∃ more, rest.length ≤ more ∧
    l.run steps cs = (next.run more rest).prepend ts

namespace Lexer.Reads

variable {l m next : Lexer} {cs ds rest : List Char} {ts us : List Token}

theorem refl (l : Lexer) (cs : List Char) : l.Reads cs [] l cs :=
  fun steps enough => ⟨steps, enough, rfl⟩

theorem trans (h : l.Reads cs ts m ds) (h' : m.Reads ds us next rest) :
    l.Reads cs (ts ++ us) next rest := by
  intro steps enough
  obtain ⟨more, left, run⟩ := h steps enough
  obtain ⟨last, behind, run'⟩ := h' more left
  refine ⟨last, behind, ?_⟩
  rw [run, run']
  simp [TokenStream.prepend]

theorem of_step {t : Token} (stepped : l.step cs = .ok (some t, next, rest))
    (shorter : rest.length < cs.length) : l.Reads cs [t] next rest := by
  intro steps enough
  cases steps with
  | zero => exact absurd (Nat.lt_of_lt_of_le shorter enough) (Nat.not_lt_zero _)
  | succ steps =>
    cases cs with
    | nil => exact absurd shorter (Nat.not_lt_zero _)
    | cons c cs =>
      refine ⟨steps, Nat.le_of_lt_succ (Nat.lt_of_lt_of_le shorter enough), ?_⟩
      rw [run, stepped]
      rfl

/-- Reading to the end of the source. -/
theorem tokens (h : l.Reads cs ts next []) : l.tokens cs = ⟨ts, none⟩ := by
  obtain ⟨more, _, run⟩ := h cs.length (Nat.le_refl _)
  rw [Lexer.tokens, run]
  cases more <;> simp [Lexer.run, TokenStream.prepend]

end Lexer.Reads

/-- A lexer and a reader get over some characters: the tokens that are read are taken in. -/
def Takes (form : Form) (l : Lexer) (r : Reader) (cs : List Char) (next : Lexer) (r' : Reader)
    (rest : List Char) : Prop :=
  ∃ ts, l.Reads cs ts next rest ∧ Reader.takeAll form r ts = .ok r'

theorem Reader.takeAll_append {form : Form} {r r' : Reader} {ts us : List Token}
    (h : takeAll form r ts = .ok r') : takeAll form r (ts ++ us) = takeAll form r' us := by
  induction ts generalizing r with
  | nil =>
    cases h
    rfl
  | cons t ts ih =>
    rw [List.cons_append, takeAll]
    rw [takeAll] at h
    cases taken : r.take form t with
    | error e =>
      rw [taken] at h
      cases h
    | ok s =>
      rw [taken] at h
      exact ih h

namespace Takes

variable {form : Form} {l m next : Lexer} {r s r' : Reader} {cs ds rest : List Char}

theorem refl (form : Form) (l : Lexer) (r : Reader) (cs : List Char) :
    Takes form l r cs l r cs := ⟨[], .refl l cs, rfl⟩

theorem trans (h : Takes form l r cs m s ds) (h' : Takes form m s ds next r' rest) :
    Takes form l r cs next r' rest := by
  obtain ⟨ts, reads, taken⟩ := h
  obtain ⟨us, reads', taken'⟩ := h'
  exact ⟨ts ++ us, reads.trans reads', (Reader.takeAll_append taken).trans taken'⟩

theorem of_step {t : Token} (stepped : l.step cs = .ok (some t, next, rest))
    (shorter : rest.length < cs.length) (taken : r.take form t = .ok r') :
    Takes form l r cs next r' rest := by
  refine ⟨[t], .of_step stepped shorter, ?_⟩
  rw [Reader.takeAll, taken]
  rfl

end Takes

/-! ## Steps over written parts -/

namespace Lexer

variable {l : Lexer}

/-- What content begins with decides what is read there. -/
theorem step_content_startTag (stage : l.stage = .content) {s : String} (h : IsQualifiedName s)
    {rest : List Char} (ends : ∀ c ∈ rest.head?, isNameChar c = false) :
    ∃ mark, l.step ('<' :: (s.toList ++ rest)) =
      .ok (some (.startTag (.ofText s) mark), { l with stage := .inTag }, rest) := by
  obtain ⟨mark, read⟩ := Token.startOfTag_append h ends
  refine ⟨mark, ?_⟩
  obtain ⟨c, cs, split, start⟩ := h.exists_cons
  have emitted : emit .element Token.startOfTag { l with stage := .inTag }
      ('<' :: (s.toList ++ rest)) =
        .ok (some (.startTag (.ofText s) mark), { l with stage := .inTag }, rest) := by
    unfold emit Lexer.read
    rw [read]
    rfl
  unfold step content
  rw [stage]
  rw [split, List.cons_append] at emitted ⊢
  dsimp only
  split
  · next eq =>
    cases eq
    exact absurd start (by decide)
  · next eq =>
    cases eq
    exact absurd start (by decide)
  · next eq =>
    cases eq
    exact absurd start (by decide)
  · next eq => cases eq
  · exact emitted
  · next other => exact absurd rfl (other _)

theorem step_prolog_startTag (stage : l.stage = .prolog) {s : String} (h : IsQualifiedName s)
    {rest : List Char} (ends : ∀ c ∈ rest.head?, isNameChar c = false) :
    ∃ mark, l.step ('<' :: (s.toList ++ rest)) =
      .ok (some (.startTag (.ofText s) mark), { l with stage := .inTag }, rest) := by
  obtain ⟨mark, read⟩ := Token.startOfTag_append h ends
  refine ⟨mark, ?_⟩
  obtain ⟨c, cs, split, start⟩ := h.exists_cons
  have bang : c ≠ '!' := by rintro rfl; exact absurd start (by decide)
  have question : c ≠ '?' := by rintro rfl; exact absurd start (by decide)
  unfold step
  rw [stage]
  unfold aside rootTag emit Lexer.read
  rw [read]
  simp [split, startsWith, List.isPrefixOf, bang.symm, question.symm, isSpace, Except.mapError,
    Except.map]

theorem step_endTag (stage : l.stage = .content) {s : String} (h : IsQualifiedName s)
    (rest : List Char) : ∃ mark, l.step ('<' :: '/' :: (s.toList ++ '>' :: rest)) =
      .ok (some (.endTag (.ofText s) mark), l.behindTag (l.depth - 1), rest) := by
  obtain ⟨mark, read⟩ := Token.endOfElement_append h rest
  refine ⟨mark, ?_⟩
  unfold step content
  rw [stage]
  dsimp only
  unfold emit Lexer.read
  rw [read]
  rfl

theorem step_attr (stage : l.stage = .inTag) {s : String} (h : IsQualifiedName s) (quote : Quote)
    {value : String} (good : IsMarkupText value) (rest : List Char) :
    ∃ mark, l.step (' ' :: (s.toList ++ '=' :: (Token.quotedValue quote value ++ rest))) =
      .ok (some (.attr (.ofText s) (value.toList.flatMap (Escape.valueChar quote)) mark), l, rest) := by
  obtain ⟨mark, read⟩ := Token.inTag_attr h quote good rest
  refine ⟨mark, ?_⟩
  unfold step
  rw [stage]
  dsimp only
  unfold Lexer.read
  rw [read]
  rfl

theorem step_tagEnd (stage : l.stage = .inTag) (rest : List Char) :
    l.step ('>' :: rest) = .ok (some (.tagEnd false), l.behindTag (l.depth + 1), rest) := by
  unfold step
  rw [stage]
  rfl

theorem step_text (stage : l.stage = .content) {content : String} (good : IsMarkupText content)
    (some_ : content ≠ "") {rest : List Char} (ends : ∀ c ∈ rest.head?, c = '<') :
    ∃ mark, l.step (content.toList.flatMap Escape.textChar ++ rest) =
      .ok (some (.characters (content.toList.flatMap Escape.textChar) mark), l, rest) := by
  obtain ⟨mark, read⟩ := Token.text_append good ends
  refine ⟨mark, ?_⟩
  obtain ⟨c, cs, split, angle⟩ := Escape.exists_cons_text some_
  have emitted : emit .characters Token.text l (content.toList.flatMap Escape.textChar ++ rest) =
      .ok (some (.characters (content.toList.flatMap Escape.textChar) mark), l, rest) := by
    unfold emit Lexer.read
    rw [read]
    rfl
  unfold step Lexer.content
  rw [stage]
  rw [split, List.cons_append] at emitted ⊢
  dsimp only
  split
  · next eq => exact absurd (List.cons.inj eq).1 angle
  · next eq => exact absurd (List.cons.inj eq).1 angle
  · next eq => exact absurd (List.cons.inj eq).1 angle
  · next eq => exact absurd (List.cons.inj eq).1 angle
  · next eq => exact absurd (List.cons.inj eq).1 angle
  · exact emitted

end Lexer

/-! ## Adding nodes -/

namespace Reader

/-- Add finished nodes one after the other. -/
def addNodes (r : Reader) (ns : List Node) : Reader := ns.foldl addNode r

theorem scope_addNode (r : Reader) (n : Node) : (r.addNode n).scope = r.scope := by
  unfold addNode
  cases r.elements <;> rfl

/-- An element takes exactly its own declarations out of the scope. -/
theorem leave_eq {r : Reader} {e : OpenElement} {own outer : Scope} (scope : r.scope = own ++ outer)
    (declared : e.declared = own.length) :
    r.leave e = { r with scope := outer }.addNode e.element.toNode := by
  unfold leave
  rw [scope, declared, List.drop_left]

theorem elements_addNode (r : Reader) (n : Node) : (r.addNode n).elements = [] ↔ r.elements = [] := by
  unfold addNode
  cases r.elements <;> simp

/-- Nodes added in an open element are its children. -/
theorem addNodes_cons (e : OpenElement) (tag : Option OpenTag) (es : List OpenElement)
    (scope : Scope) (roots ns : List Node) : (Reader.mk tag (e :: es) scope roots).addNodes ns =
      ⟨tag, { e with element := { e.element with
        children := ns.foldl Node.push e.element.children } } :: es, scope, roots⟩ := by
  induction ns generalizing e with
  | nil => rfl
  | cons n ns ih => exact ih _

/-- Nodes added outside all elements are roots. -/
theorem addNodes_nil (tag : Option OpenTag) (scope : Scope) (roots ns : List Node) :
    (Reader.mk tag [] scope roots).addNodes ns = ⟨tag, [], scope, ns.foldl Node.push roots⟩ := by
  induction ns generalizing roots with
  | nil => rfl
  | cons n ns ih => exact ih _

end Reader

/-- A node is pushed behind the last sibling; those before it stay. -/
theorem Node.push_cons_cons (m m' : Node) (ns : List Node) (n : Node) :
    push (m :: m' :: ns) n = m :: push (m' :: ns) n := by
  cases m <;> rfl

/-- Nodes among which no text is next to another one are pushed one behind the other. -/
theorem Node.foldl_push {ns : List Node} (parted : PartedAll ns) (before : List Node)
    (seam : ∀ m ∈ before.getLast?, m.isText = true → ∀ n ∈ ns.head?, n.isText = false) :
    ns.foldl push before = before ++ ns := by
  have pushed : ∀ {before : List Node} {n : Node},
      (∀ m ∈ before.getLast?, m.isText = true → n.isText = false) → push before n = before ++ [n] := by
    intro before n seam
    induction before with
    | nil => rfl
    | cons m before ih =>
      cases before with
      | nil =>
        cases m with
        | element tag children => rfl
        | text content =>
          cases n with
          | element tag children => rfl
          | text more => cases seam (.text content) rfl rfl
      | cons m' before =>
        rw [push_cons_cons, ih seam]
        rfl
  induction ns generalizing before with
  | nil => simp
  | cons n ns ih =>
    obtain ⟨_, apart, rest⟩ := parted
    rw [List.foldl_cons, pushed fun m last text => seam m last text n rfl, ih rest, List.append_assoc]
    · rfl
    · intro m last text
      rw [List.getLast?_concat] at last
      cases last
      exact apart text

theorem Node.isText_of_resolves {form : Form} {scope : Scope} {n n' : Node}
    (h : n.Resolves form scope n') : n'.isText = n.isText := by
  cases n with
  | text content =>
    cases h
    rfl
  | element tag children =>
    cases n' with
    | text content => cases h
    | element tag' children' => rfl

mutual
/-- Resolving names leaves the texts where they are. -/
theorem Node.Parted.resolved {form : Form} : ∀ {n n' : Node} {scope : Scope}, n.Parted →
    n.Resolves form scope n' → n'.Parted
  | .text _, _, _, parted, rfl => parted
  | .element _ _, .text _, _, _, resolves => nomatch resolves
  | .element _ _, .element _ _, _, parted, ⟨_, content⟩ => partedAll_resolved parted content

theorem Node.partedAll_resolved {form : Form} : ∀ {ns ns' : List Node} {scope : Scope},
    PartedAll ns → ResolvesAll form scope ns ns' → PartedAll ns'
  | [], _, _, _, rfl => trivial
  | _ :: _, [], _, _, resolves => nomatch resolves
  | n :: ns, n' :: ns', scope, ⟨first, apart, rest⟩, ⟨resolves, others⟩ => by
    refine ⟨first.resolved resolves, ?_, partedAll_resolved rest others⟩
    intro text m' head
    rw [isText_of_resolves resolves] at text
    cases ns' with
    | nil => cases head
    | cons m'' ns' =>
      cases head
      cases ns with
      | nil => cases others
      | cons m ns =>
        rw [isText_of_resolves others.1]
        exact apart text m rfl
end

/-- Two steps that give a result are two results. -/
theorem exists_of_bind_eq_ok {ε α β : Type} {x : Except ε α} {f : α → Except ε β} {b : β}
    (h : x >>= f = .ok b) : ∃ a, x = .ok a ∧ f a = .ok b := by
  cases x with
  | error e => cases h
  | ok a => exact ⟨a, rfl, h⟩

theorem Scope.qname_tag {scope : Scope} {form : Form} {name : QName}
    {attributes : List (QName × String)} {tag : Tag}
    (h : scope.tag form name attributes = .ok tag) : tag.qname = name.text := by
  cases form with
  | fragment =>
    cases h
    rfl
  | document =>
    obtain ⟨uri, _, h⟩ := exists_of_bind_eq_ok h
    obtain ⟨resolved, _, h⟩ := exists_of_bind_eq_ok h
    cases h
    rfl

/-! ## Written nodes -/

/-- Attributes are written one behind the other, each with the space before it. -/
theorem takes_attributes {form : Form} {l : Lexer} (stage : l.stage = .inTag) (quote : Quote)
    {attributes : List Attribute}
    (good : ∀ a ∈ attributes, IsQualifiedName a.qname ∧ IsMarkupText a.value) (r : Reader)
    (t : OpenTag) (rest : List Char) :
    Takes form l { r with tag := some t } (attrChars quote attributes ++ rest) l
      { r with tag := some { t with
        attributes := t.attributes ++ attributes.map Attribute.named } } rest := by
  induction attributes generalizing t with
  | nil => simpa [attrChars] using Takes.refl form l { r with tag := some t } rest
  | cons a attributes ih =>
    obtain ⟨name, value⟩ := good a List.mem_cons_self
    obtain ⟨mark, stepped⟩ :=
      Lexer.step_attr stage name quote value (attrChars quote attributes ++ rest)
    have first : Takes form l { r with tag := some t }
        (' ' :: (a.qname.toList ++ '=' :: (Token.quotedValue quote a.value ++
          (attrChars quote attributes ++ rest)))) l
        { r with tag := some { t with attributes := t.attributes ++ [a.named] } }
        (attrChars quote attributes ++ rest) := by
      refine .of_step stepped (by simp only [List.length_cons, List.length_append]; omega) ?_
      rw [Reader.take_attr_of_ok (Reference.decode_value quote a.value.toList)]
      simp [Attribute.named]
    have others := ih (fun b mem => good b (List.mem_cons_of_mem _ mem))
      { t with attributes := t.attributes ++ [a.named] }
    simpa [attrChars] using first.trans others

theorem head_attrChars (quote : Quote) (attributes : List Attribute) (rest : List Char) :
    ∀ c ∈ (attrChars quote attributes ++ '>' :: rest).head?, isNameChar c = false := by
  intro c head
  cases attributes with
  | nil =>
    cases Option.some.inj head
    decide
  | cons a attributes =>
    cases Option.some.inj head
    decide

/-- The tag of an element and everything up to its end, once its children are taken in. -/
theorem takes_element {form : Form} (quote : Quote) {tag tag' : Tag} {children children' : List Node}
    {l : Lexer} {r : Reader} (name : IsQualifiedName tag.qname)
    (good : ∀ a ∈ tag.attributes, IsQualifiedName a.qname ∧ IsMarkupText a.value)
    (resolves : Scope.tag (form.declared tag.named ++ r.scope) form (.ofText tag.qname) tag.named =
      .ok tag') (parted : Node.PartedAll children') (stage : l.stage = .inTag) (mark : Mark)
    (outside : r.tag = none) (rest : List Char)
    (content : ∀ {m : Lexer} {s : Reader} (rest : List Char), m.stage = .content → 0 < m.depth →
      s.tag = none → s.elements ≠ [] → s.scope = form.declared tag.named ++ r.scope →
      (∀ c ∈ rest.head?, c = '<') →
        Takes form m s (Node.charsOf quote children ++ rest) m (s.addNodes children') rest) :
    Takes form l { r with tag := some ⟨.ofText tag.qname, mark, []⟩ }
      (attrChars quote tag.attributes ++ '>' :: (Node.charsOf quote children ++
        '<' :: '/' :: (tag.qname.toList ++ '>' :: rest)))
      (l.behindTag l.depth) (r.addNode (.element tag' children')) rest := by
  -- the attributes join the tag
  refine (takes_attributes stage quote good r _ _).trans ?_
  -- the tag ends, and an element is open
  have opened : Reader.take form { r with tag := some ⟨.ofText tag.qname, mark, [] ++ tag.named⟩ }
      (.tagEnd false) = .ok { r with
        tag := none
        scope := form.declared tag.named ++ r.scope
        elements := ⟨⟨tag', []⟩, (form.declared tag.named).length⟩ :: r.elements } := by
    rw [Reader.take, List.nil_append]
    unfold Reader.endTagStart
    cases form <;> exact (congrArg (fun x => Except.mapError _ x >>= _) resolves).trans rfl
  refine (Takes.of_step (Lexer.step_tagEnd stage _) (Nat.lt_succ_self _) opened).trans ?_
  -- the children are added to it
  have inContent : (l.behindTag (l.depth + 1)).stage = .content := by simp [Lexer.behindTag]
  refine (content (m := l.behindTag (l.depth + 1)) ('<' :: '/' :: (tag.qname.toList ++ '>' :: rest))
    inContent (Nat.succ_pos _) rfl (List.cons_ne_nil _ _) rfl (by simp)).trans ?_
  rw [Reader.addNodes_cons, Node.foldl_push parted _ (by simp)]
  -- it is closed by the end tag of its name
  obtain ⟨mark', stepped⟩ := Lexer.step_endTag inContent name rest
  refine Takes.of_step stepped (by simp only [List.length_cons, List.length_append]; omega) ?_
  rw [Reader.take]
  unfold Reader.close
  dsimp only
  rw [if_pos (Scope.qname_tag resolves), List.nil_append, Reader.leave_eq rfl rfl]
  cases r with
  | mk tag elements scope roots =>
    cases (outside : tag = none)
    rfl

mutual
/-- **A written node is taken in**: it is added as its names resolve in the scope of the reader. -/
theorem takes_node {form : Form} (quote : Quote) : ∀ {n n' : Node} {l : Lexer} {r : Reader},
    n.Writable → n.Parted → n.Resolves form r.scope n' → r.tag = none → l.stage = .content →
    (form = .fragment ∨ r.elements ≠ []) → (l.isDocument = false ∨ 0 < l.depth) →
    ∀ rest : List Char, (n.isText = true → ∀ c ∈ rest.head?, c = '<') →
      Takes form l r (n.chars quote ++ rest) l (r.addNode n') rest
  | .text content, n', l, r, writable, parted, resolves, outside, stage, inside, _, rest, ends => by
    obtain ⟨mark, stepped⟩ := Lexer.step_text stage writable parted (ends rfl)
    obtain ⟨c, cs, split, _⟩ := Escape.exists_cons_text parted
    cases resolves
    have added : r.addText form content.toList = r.addNode (.text content) := by
      have kept : ¬ (r.elements.isEmpty = true ∧ form = .document ∧
          Text.allBlank content.toList = true) := by
        rintro ⟨nil, document, _⟩
        rcases inside with fragment | ne
        · cases document.symm.trans fragment
        · exact ne (List.isEmpty_iff.1 nil)
      unfold Reader.addText
      have some_ : content.toList.isEmpty = false := by
        rw [Node.Parted] at parted
        simpa using parted
      rw [some_, if_neg Bool.false_ne_true, if_neg kept, String.ofList_toList]
    refine Takes.of_step stepped ?_ ?_
    · simp only [Node.chars, split, List.cons_append, List.length_cons, List.length_append]
      omega
    rw [Reader.take_characters_of_ok (Reference.decode_text content.toList), added]
  | .element tag children, .text _, _, _, _, _, resolves, _, _, _, _, _, _ => nomatch resolves
  | .element tag children, .element tag' children', l, r, ⟨name, attributes, content⟩, parted,
    ⟨resolves, below⟩, outside, stage, inside, deep, rest, ends => by
    obtain ⟨mark, stepped⟩ := Lexer.step_content_startTag stage name
      (head_attrChars quote tag.attributes _)
    have whole := takes_element quote name attributes resolves
      (Node.partedAll_resolved parted below) (l := { l with stage := .inTag }) rfl mark outside rest
      (fun rest stage deep outside inside scope ends =>
        takes_nodes quote content parted (scope ▸ below) outside stage (.inr inside) (.inr deep) rest
          ends)
    have back : Lexer.behindTag { l with stage := .inTag } l.depth = l := by
      unfold Lexer.behindTag
      rw [if_neg]
      · rw [← stage]
      · rintro ⟨depth, document⟩
        rcases deep with fragment | inside
        · cases document.symm.trans fragment
        · exact Nat.ne_of_gt inside depth
    rw [back] at whole
    have written : (Node.element tag children).chars quote ++ rest =
        '<' :: (tag.qname.toList ++ (attrChars quote tag.attributes ++ '>' ::
          (Node.charsOf quote children ++ '<' :: '/' :: (tag.qname.toList ++ '>' :: rest)))) := by
      simp [Node.chars]
    rw [written]
    exact (Takes.of_step stepped (by simp only [List.length_cons, List.length_append]; omega) rfl).trans whole

/-- Written siblings are taken in one behind the other. -/
theorem takes_nodes {form : Form} (quote : Quote) : ∀ {ns ns' : List Node} {l : Lexer} {r : Reader},
    Node.WritableAll ns → Node.PartedAll ns → Node.ResolvesAll form r.scope ns ns' →
    r.tag = none → l.stage = .content → (form = .fragment ∨ r.elements ≠ []) →
    (l.isDocument = false ∨ 0 < l.depth) → ∀ rest : List Char, (∀ c ∈ rest.head?, c = '<') →
      Takes form l r (Node.charsOf quote ns ++ rest) l (r.addNodes ns') rest
  | [], _, l, r, _, _, rfl, _, _, _, _, rest, _ => .refl form l r rest
  | _ :: _, [], _, _, _, _, resolves, _, _, _, _, _, _ => nomatch resolves
  | n :: ns, n' :: ns', l, r, ⟨writable, others⟩, ⟨parted, apart, partedAll⟩, ⟨resolves, below⟩,
    outside, stage, inside, deep, rest, ends => by
    rw [Node.charsOf, List.append_assoc]
    refine (takes_node quote writable parted resolves outside stage inside deep _ ?_).trans
      (takes_nodes quote others partedAll (r.scope_addNode n' ▸ below)
        ((r.tag_addNode n').trans outside) stage
        (inside.imp_right fun ne nil => ne ((r.elements_addNode n').1 nil)) deep rest ends)
    intro text
    cases ns with
    | nil => exact ends
    | cons m ns =>
      cases m with
      | text content => cases apart text (.text content) rfl
      | element tag children => simp [Node.charsOf, Node.chars]
end

/-! ## Fragments -/

/-- **Written siblings are read back** from a fragment with every URI replaced by the written
name. -/
theorem parseFragment_charsOf {ns : List Node} (writable : Node.WritableAll ns)
    (parted : Node.PartedAll ns) (quote : Quote) {source : String}
    (written : source.toList = Node.charsOf quote ns) :
    parseFragment source = .ok (Node.asWrittenAll ns) := by
  have resolves := Node.resolvesAll_asWritten writable Reader.initial.scope
  obtain ⟨ts, reads, taken⟩ := takes_nodes quote (l := ⟨.content, 0, false⟩) (r := .initial)
    writable parted resolves rfl rfl (.inl rfl) (.inl rfl) [] nofun
  rw [List.append_nil] at reads
  have tokens : fragmentTokens source.toList = ⟨ts, none⟩ := by
    rw [written]
    exact reads.tokens
  have added : Reader.initial.addNodes (Node.asWrittenAll ns) =
      ⟨none, [], [], (Node.asWrittenAll ns).foldl Node.push []⟩ := Reader.addNodes_nil none [] [] _
  have pushed := Node.foldl_push (Node.partedAll_resolved parted resolves) [] nofun
  rw [added, pushed] at taken
  refine nodesOfTokens_of_ok (r := ⟨none, [], [], [] ++ Node.asWrittenAll ns⟩) ?_ ?_ rfl
  · rw [tokens]
    exact taken
  · rw [tokens]

end Formwork.Markup
