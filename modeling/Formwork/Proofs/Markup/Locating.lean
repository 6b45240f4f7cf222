import Formwork.Proofs.Markup.Pieces
import Formwork.Proofs.Markup.Positions
import Formwork.Proofs.Markup.Scoping

/-!
# Where errors are found

A source that is refused is refused at one of its tokens, unless the lexer finds a fault or something is
still open at its end.  Which token that is decides where the error is found: a bad reference at its `&`,
an end tag that closes nothing at its `<`, and a qualifier without a declaration at the `<` of the start
tag that uses it, though that tag is refused only where it ends (`Reader.Refuses`).

The places are told by the lexer in unread characters and by the decoder in characters of a value.  They
come together in the source because its tokens are pieces of it (`Form.StopsAt`).
-/

namespace Formwork.Markup

set_option autoImplicit false

/-! ## What a reader refuses -/

/-- The text of a token in which references are decoded, with its mark. -/
def Token.raw? : Token → Option (List Char × Mark)
  | .attr _ value mark => some (value, mark)
  | .characters raw mark => some (raw, mark)
  | _ => none

/-- The name of the innermost open element. -/
def Reader.innermost? (r : Reader) : Option String := r.elements.head?.map fun e => e.element.qname

/-- A reader refuses a token for a cause, and says at which mark. -/
inductive Reader.Refuses (form : Form) (r : Reader) : Token → ErrorCause → Mark → Prop where
  /-- A reference that is none. -/
  | reference {t : Token} {raw : List Char} {mark : Mark} {fault : Reference.Fault}
      (value : t.raw? = some (raw, mark)) (bad : Reference.decode raw = .error fault) :
      Refuses form r t (.badReference fault.name) (mark - (raw.length - fault.unread))
  /-- An end tag that does not close the innermost open element. -/
  | endTag {name : QName} {cause : ErrorCause} (mark : Mark) (kind : cause.kind = .mismatchedTag)
      (other : r.innermost? ≠ some name.text) : Refuses form r (.endTag name mark) cause mark
  /-- The end of a start tag in which a qualifier is not declared. -/
  | startTag {tag : OpenTag} {q : String} (isEmpty : Bool) (resolves : form = .document)
      (reading : r.tag = some tag)
      (unbound : (declarationsOf tag.attributes ++ r.scope).tag .document tag.name tag.attributes =
        .error (.unbound q)) : Refuses form r (.tagEnd isEmpty) (.unbound q) tag.mark
  /-- The end of a start tag that has not begun. -/
  | noStart (isEmpty : Bool) : Refuses form r (.tagEnd isEmpty) .endWithoutStart 0

namespace Reader

variable {form : Form} {r r' : Reader}

theorem exists_fault_of_decode {raw : List Char} {mark : Mark} {e : ErrorCause × Mark}
    (refused : decode raw mark = .error e) : ∃ fault, Reference.decode raw = .error fault ∧
      e = (.badReference fault.name, mark - (raw.length - fault.unread)) := by
  cases decoded : Reference.decode raw with
  | ok content =>
    rw [decode_of_ok decoded] at refused
    cases refused
  | error fault =>
    rw [decode_of_error decoded] at refused
    exact ⟨fault, rfl, (Except.error.inj refused).symm⟩

theorem refuses_close {name : QName} {mark : Mark} {e : ErrorCause × Mark}
    (refused : r.close name mark = .error e) : r.Refuses form (.endTag name mark) e.1 e.2 := by
  unfold close at refused
  split at refused
  · next none_ =>
    cases refused
    exact .endTag mark rfl (by simp [innermost?, none_])
  · next open_ _ elements =>
    split at refused
    · cases refused
    · next other =>
      cases refused
      exact .endTag mark rfl (by simpa [innermost?, elements] using other)

theorem refuses_endTagStart {isEmpty : Bool} {e : ErrorCause × Mark}
    (refused : r.endTagStart form isEmpty = .error e) :
    r.Refuses form (.tagEnd isEmpty) e.1 e.2 := by
  unfold endTagStart at refused
  cases reading : r.tag with
  | none =>
    rw [reading] at refused
    cases refused
    exact .noStart isEmpty
  | some tag =>
    rw [reading] at refused
    rcases of_bind_eq_error refused with refused | ⟨made, _, refused⟩
    · cases form with
      | fragment => cases refused
      | document =>
        cases made : (declarationsOf tag.attributes ++ r.scope).tag .document tag.name
            tag.attributes with
        | ok made' =>
          dsimp only at refused
          rw [made] at refused
          cases refused
        | error cause =>
          dsimp only at refused
          rw [made] at refused
          cases refused
          obtain ⟨q, rfl, -⟩ := Scope.unbound_of_tag made
          exact .startTag isEmpty rfl reading made
    · cases isEmpty <;> cases refused

/-- **Why a token is refused.** -/
theorem refuses_take {t : Token} {cause : ErrorCause} {mark : Mark}
    (refused : r.take form t = .error (cause, mark)) : r.Refuses form t cause mark := by
  cases t with
  | attr name value start =>
    rcases of_bind_eq_error refused with bad | ⟨_, _, taken⟩
    · obtain ⟨fault, decoded, same⟩ := exists_fault_of_decode bad
      cases same
      exact .reference rfl decoded
    · cases taken
  | characters raw start =>
    rcases of_bind_eq_error refused with bad | ⟨_, _, taken⟩
    · obtain ⟨fault, decoded, same⟩ := exists_fault_of_decode bad
      cases same
      exact .reference rfl decoded
    · cases taken
  | tagEnd isEmpty => exact refuses_endTagStart refused
  | endTag name start => exact refuses_close refused
  | startTag | cdata | aside => cases refused

end Reader

/-! ## Where a source is refused -/

/-- Reading a source in a form ends in an error. -/
def Form.Refuses (form : Form) (source : String) (error : Error) : Prop :=
  match form with
  | .document => parseDocument source = .error error
  | .fragment => parseFragment source = .error error

/-- A reader has taken in the tokens that the source begins with up to some place, and the token that
stands there comes next. -/
structure Form.StopsAt (form : Form) (source : String) (ts : List Token) (r : Reader) (t : Token)
    (before piece rest : List Char) : Prop where
  split : source.toList = before ++ (piece ++ rest)
  taken : Reader.takeAll form .initial ts = .ok r
  next : ∃ us, (form.tokens source.toList).tokens = ts ++ t :: us
  laid : Laid before ts (piece ++ rest)
  stands : t.Stands (piece ++ rest) piece

/-- The errors that a token causes. -/
def ErrorCause.IsOfToken (cause : ErrorCause) : Prop :=
  cause.kind = .invalidReference ∨ cause.kind = .mismatchedTag ∨ cause.kind = .unboundQualifier

theorem exists_refused_of_nodesOfTokens {form : Form} {source : List Char} {stream : TokenStream}
    {error : Error} (refused : nodesOfTokens form source stream = .error error)
    (ofToken : error.cause.IsOfToken) : ∃ mark,
      Reader.takeAll form .initial stream.tokens = .error (error.cause, mark) ∧
        error.position = Position.ofUnread source mark := by
  unfold nodesOfTokens at refused
  dsimp only at refused
  split at refused
  · cases refused
    simp [ErrorCause.IsOfToken, ErrorCause.kind] at ofToken
  · next cause mark _ run =>
    cases refused
    exact ⟨mark, run, rfl⟩
  · next r _ =>
    split at refused
    · cases refused
      simp [ErrorCause.IsOfToken, ErrorCause.kind] at ofToken
    · unfold Reader.finish at refused
      cases elements : r.elements <;> rw [elements] at refused <;> cases refused
      simp [ErrorCause.IsOfToken, ErrorCause.kind] at ofToken

/-- **A source with such an error is refused at a token.** -/
theorem Form.exists_stopsAt {form : Form} {source : String} {error : Error}
    (refused : form.Refuses source error) (ofToken : error.cause.IsOfToken) :
    ∃ ts r t before piece rest mark, form.StopsAt source ts r t before piece rest ∧
      r.Refuses form t error.cause mark ∧
        error.position = Position.ofUnread source.toList mark := by
  have reader : ∃ mark, Reader.takeAll form .initial (form.tokens source.toList).tokens =
      .error (error.cause, mark) ∧ error.position = Position.ofUnread source.toList mark := by
    cases form with
    | fragment => exact exists_refused_of_nodesOfTokens refused ofToken
    | document =>
      rcases of_bind_eq_error refused with refused | ⟨roots, _, refused⟩
      · exact exists_refused_of_nodesOfTokens refused ofToken
      · split at refused <;> cases refused
        simp [ErrorCause.IsOfToken, ErrorCause.kind] at ofToken
  obtain ⟨mark, run, position⟩ := reader
  obtain ⟨ts, t, us, r, next, taken, stopped⟩ := Reader.takeAll_eq_error.1 run
  obtain ⟨before, piece, rest, split, laid, stands⟩ := Form.exists_laid next
  exact ⟨ts, r, t, before, piece, rest, mark, ⟨split, taken, ⟨us, next⟩, laid, stands⟩,
    Reader.refuses_take stopped, position⟩

/-! ## Places of errors -/

/-- At a place in a source stands the first bad reference of the value at which the source is refused:
the first `&` that begins nothing which is taken for a reference.  It is also the first that begins no
reference, unless a signed number stands there. -/
def Form.BadReference (form : Form) (source : String) (before rest : List Char) : Prop :=
  ∃ ts r t around front raw back behind good bad,
    form.StopsAt source ts r t around (front ++ (raw ++ back)) behind ∧
    t.raw? = some (raw, (raw ++ (back ++ behind)).length) ∧
    Reference.FirstFault Reference.Taken raw good bad ∧
    ((∀ earlier later, Reference.FirstFault Reference.Means raw earlier later →
        ¬ Reference.Begins Reference.Signed later) →
      Reference.FirstFault Reference.Means raw good bad) ∧
    before = around ++ (front ++ good) ∧ rest = '&' :: (bad ++ (back ++ behind))

/-- At a place in a source stands the end tag at which the source is refused, because it does not close
the innermost open element. -/
def Form.BadEndTag (form : Form) (source : String) (before rest : List Char) : Prop :=
  ∃ ts r name piece behind, form.StopsAt source ts r (.endTag name rest.length) before piece behind ∧
    rest = piece ++ behind ∧ r.innermost? ≠ some name.text

/-- An attribute of a start tag. -/
def Token.IsAttr (t : Token) : Prop := ∃ name value mark, t = .attr name value mark

/-- At a place in a document stands a start tag that uses a qualifier which neither it nor an open
element declares, and the document is refused where this start tag ends. -/
def UnboundTag (source : String) (q : String) (before rest : List Char) : Prop :=
  ∃ ts outer name attributes r isEmpty around piece behind tag,
    Form.document.StopsAt source ts r (.tagEnd isEmpty) around piece behind ∧
    ts = outer ++ .startTag name rest.length :: attributes ∧ (∀ a ∈ attributes, a.IsAttr) ∧
    source.toList = before ++ rest ∧ Laid before outer rest ∧
    (Standing.of ts).tag = some tag ∧ tag.name = name ∧ q ∈ tag.uses ∧
    ∀ u ∈ tag :: (Standing.of ts).elements, q ∉ u.declares

/-- The value of a token is a part of the piece it stands for, where its mark says. -/
theorem Token.Stands.exists_raw {cs piece raw : List Char} {mark : Mark} {t : Token}
    (stands : t.Stands cs piece) (value : t.raw? = some (raw, mark)) :
    ∃ front back, piece = front ++ (raw ++ back) ∧ front.length + mark = cs.length := by
  cases t with
  | attr name value start =>
    cases value
    obtain ⟨front, quote, _, rfl, _, place⟩ := stands
    exact ⟨front ++ [quote], [quote], by simp, by rw [← place]; simp⟩
  | characters content start =>
    cases value
    obtain ⟨rfl, rfl⟩ := stands
    exact ⟨[], [], by simp, by simp⟩
  | startTag | tagEnd | endTag | cdata | aside => cases value

section Stopped

variable {form : Form} {source : String} {ts : List Token} {r : Reader} {t : Token}
variable {before piece rest : List Char}

/-- What the decoder finds at a character of a value stands at that character of the source. -/
theorem Form.StopsAt.badReference (stops : form.StopsAt source ts r t before piece rest)
    {raw : List Char} {mark : Mark} {fault : Reference.Fault} (value : t.raw? = some (raw, mark))
    (refused : Reference.decode raw = .error fault) : ∃ before rest,
      form.BadReference source before ('&' :: rest) ∧
        (Position.ofUnread source.toList (mark - (raw.length - fault.unread))).IsBetween source before
          ('&' :: rest) := by
  obtain ⟨front, back, rfl, place⟩ := stops.stands.exists_raw value
  have outcome := Reference.decode_outcome raw
  rw [refused] at outcome
  cases outcome with
  | @stuck good bad first =>
    have marked : (raw ++ (back ++ rest)).length = mark := by
      simp only [List.length_append] at place ⊢
      omega
    have unread : mark - (raw.length - (bad.length + 1)) =
        ('&' :: (bad ++ (back ++ rest))).length := by
      rw [← marked, first.split]
      simp
    refine ⟨before ++ (front ++ good), bad ++ (back ++ rest), ⟨ts, r, t, before, front, raw, back, rest,
      good, bad, stops, marked ▸ value, first, first.narrow, rfl, rfl⟩, ?_⟩
    rw [unread]
    apply Position.isBetween_ofUnread
    rw [stops.split, first.split]
    simp

/-- An end tag is marked where it stands. -/
theorem Form.StopsAt.badEndTag {name : QName} {mark : Mark}
    (stops : form.StopsAt source ts r (.endTag name mark) before piece rest)
    (other : r.innermost? ≠ some name.text) : ∃ behind,
      form.BadEndTag source before ('<' :: '/' :: behind) ∧
        (Position.ofUnread source.toList mark).IsBetween source before ('<' :: '/' :: behind) := by
  have stands := stops.stands
  obtain ⟨rfl, run, spaces, _, _, rfl⟩ := stands
  refine ⟨run ++ (spaces ++ ['>']) ++ rest, ⟨ts, r, name, _, rest, stops, rfl, other⟩, ?_⟩
  exact Position.isBetween_ofUnread stops.split

end Stopped

/-! ## The start tag that is being read -/

/-- In a start tag only attributes have been read since its name. -/
theorem Place.Leads.exists_startTag {p : Place} {ts : List Token} {depth : Nat}
    (leads : p.Leads ts (.inTag depth)) (outside : ∀ depth, p ≠ .inTag depth) :
    ∃ outer name mark attributes, ts = outer ++ .startTag name mark :: attributes ∧
      ∀ a ∈ attributes, a.IsAttr := by
  induction ts using List.reverseRecOn with
  | nil => exact absurd leads (outside depth)
  | append_singleton ts t ih =>
    obtain ⟨m, leads, _, goes, rfl⟩ := Place.leads_append.1 leads
    cases goes with
    | root name mark => exact ⟨ts, name, mark, [], rfl, nofun⟩
    | child name mark => exact ⟨ts, name, mark, [], rfl, nofun⟩
    | attr name value mark =>
      obtain ⟨outer, name', mark', attributes, rfl, all⟩ := ih leads
      refine ⟨outer, name', mark', attributes ++ [.attr name value mark], by simp, ?_⟩
      intro a mem
      rcases List.mem_append.1 mem with mem | mem
      · exact all a mem
      · exact ⟨name, value, mark, List.mem_singleton.1 mem⟩

/-- Attributes leave the name and the mark of the start tag being read. -/
theorem Reader.tag_takeAll_attributes {form : Form} {attributes : List Token}
    (all : ∀ a ∈ attributes, a.IsAttr) {r r' : Reader}
    (run : Reader.takeAll form r attributes = .ok r') :
    (r'.tag.map fun t => (t.name, t.mark)) = r.tag.map fun t => (t.name, t.mark) := by
  induction attributes generalizing r with
  | nil =>
    cases run
    rfl
  | cons a attributes ih =>
    obtain ⟨⟨name, value, mark, rfl⟩, others⟩ := List.forall_mem_cons.1 all
    obtain ⟨s, taken, run⟩ := exists_of_bind_eq_ok run
    obtain ⟨content, _, taken⟩ := exists_of_bind_eq_ok taken
    cases taken
    rw [ih others run, Option.map_map]
    rfl

theorem Reader.exists_takeAll_of_append {form : Form} {r r' : Reader} {ts us : List Token}
    (run : takeAll form r (ts ++ us) = .ok r') :
    ∃ s, takeAll form r ts = .ok s ∧ takeAll form s us = .ok r' := by
  cases first : takeAll form r ts with
  | ok s => exact ⟨s, rfl, (takeAll_append first).symm.trans run⟩
  | error e =>
    obtain ⟨before, t, behind, s, rfl, taken, refused⟩ := takeAll_eq_error.1 first
    have failed : takeAll form r (before ++ t :: behind ++ us) = .error e :=
      takeAll_eq_error.2 ⟨before, t, behind ++ us, s, by simp, taken, refused⟩
    rw [failed] at run
    cases run

/-- Where a start tag ends, what is being read is the tag that the last start of a tag began. -/
theorem Form.StopsAt.exists_startTag {source : String} {ts : List Token} {r : Reader} {isEmpty : Bool}
    {around piece behind : List Char} {tag : OpenTag}
    (stops : Form.document.StopsAt source ts r (.tagEnd isEmpty) around piece behind)
    (reading : r.tag = some tag) : ∃ outer attributes,
      ts = outer ++ .startTag tag.name tag.mark :: attributes ∧ ∀ a ∈ attributes, a.IsAttr := by
  obtain ⟨us, next⟩ := stops.next
  replace next : (documentTokens source.toList).tokens = ts ++ .tagEnd isEmpty :: us := next
  obtain ⟨p, leads⟩ := documentTokens_leads source.toList
  obtain ⟨m, leads, _, goes, _⟩ := Place.leads_append.1 (next ▸ leads)
  obtain ⟨depth, rfl⟩ : ∃ depth, m = .inTag depth := by
    cases goes <;> exact ⟨_, rfl⟩
  obtain ⟨outer, name, mark, attributes, rfl, all⟩ := leads.exists_startTag (by simp)
  obtain ⟨s, _, run⟩ := Reader.exists_takeAll_of_append stops.taken
  obtain ⟨s', taken, run⟩ := exists_of_bind_eq_ok run
  cases taken
  have same := Reader.tag_takeAll_attributes all run
  rw [reading] at same
  obtain ⟨rfl, rfl⟩ : tag.name = name ∧ tag.mark = mark := by simpa using same
  exact ⟨outer, attributes, rfl, all⟩

/-- A start tag that is refused where it ends is marked where it begins. -/
theorem Form.StopsAt.unboundTag {source : String} {ts : List Token} {r : Reader} {isEmpty : Bool}
    {around piece behind : List Char} {tag : OpenTag} {q : String}
    (stops : Form.document.StopsAt source ts r (.tagEnd isEmpty) around piece behind)
    (reading : r.tag = some tag)
    (unbound : (declarationsOf tag.attributes ++ r.scope).tag .document tag.name tag.attributes =
      .error (.unbound q)) : ∃ before rest, UnboundTag source q before ('<' :: rest) ∧
        (Position.ofUnread source.toList tag.mark).IsBetween source before ('<' :: rest) := by
  obtain ⟨us, next⟩ := stops.next
  have spelled : ∀ t ∈ ts, t.Names QName.Spelled := fun t mem =>
    names_documentTokens Scan.spelled_qname source.toList t (next ▸ List.mem_append_left _ mem)
  have resolved : r.Resolved := Reader.resolved_initial.takeAll spelled stops.taken
  have standing : r.standing = Standing.of ts :=
    Reader.standing_takeAll Reader.resolved_initial spelled stops.taken
  have own := Reader.standing_tag reading
  obtain ⟨_, same, used, undeclared⟩ := Scope.unbound_of_tag unbound
  cases same
  rw [Reader.mem_scope_within_iff resolved, standing] at undeclared
  rw [standing] at own
  obtain ⟨outer, attributes, rfl, all⟩ := stops.exists_startTag reading
  obtain ⟨before, piece', rest, split, laid, marked, run, rfl, _⟩ :=
    Form.exists_laid (next.trans (List.append_assoc ..))
  refine ⟨before, run ++ rest, ⟨_, outer, tag.name, attributes, r, isEmpty, around, piece, behind,
    ⟨tag.name, tag.attributes.map Prod.fst⟩, stops, ?_, all, split, laid, own, rfl, used,
    fun u mem declares => undeclared ⟨u, mem, declares⟩⟩, marked ▸ Position.isBetween_ofUnread split⟩
  exact congrArg (fun mark => outer ++ .startTag tag.name mark :: attributes) marked

/-! ## Positions of errors -/

theorem ErrorKind.name_injective : Function.Injective ErrorKind.name := by
  intro kind kind' same
  cases kind <;> cases kind' <;> first | rfl | simp [name] at same

/-- **The position of an error points at the fault.**  A source with a bad reference is refused at the `&`
of the first one in the value that is refused; one with an end tag that closes nothing, at the `<` of
that tag; and one with a qualifier that is not declared, at the `<` of the start tag that uses it.  The
position tells the place, for positions grow strictly with the boundaries of characters. -/
theorem Form.error_position :
    (∀ (form : Form) (source : String) (error : Error), form.Refuses source error →
      (error.kind.name = "invalid-entity" → ∃ before rest,
        form.BadReference source before ('&' :: rest) ∧
          error.position.IsBetween source before ('&' :: rest)) ∧
      (error.kind.name = "mismatched-tag" → ∃ before rest,
        form.BadEndTag source before ('<' :: '/' :: rest) ∧
          error.position.IsBetween source before ('<' :: '/' :: rest)) ∧
      (error.kind.name = "unbound-prefix" → form = .document ∧ ∃ q before rest,
        error.cause = .unbound q ∧ UnboundTag source q before ('<' :: rest) ∧
          error.position.IsBetween source before ('<' :: rest))) ∧
    ∀ (text : String) (offset offset' : Nat), Position.IsBoundary text offset →
      Position.IsBoundary text offset' →
        (offset < offset' → Position.ofByteOffset text offset < Position.ofByteOffset text offset') ∧
        (Position.ofByteOffset text offset = Position.ofByteOffset text offset' → offset = offset') := by
  refine ⟨fun form source error refused => ⟨?_, ?_, ?_⟩, fun text offset offset' boundary boundary' =>
    ⟨Position.ofByteOffset_lt boundary boundary', Position.eq_of_ofByteOffset_eq boundary boundary'⟩⟩
  · intro named
    have kind : error.cause.kind = .invalidReference := ErrorKind.name_injective named
    obtain ⟨ts, r, t, before, piece, rest, mark, stops, refuses, position⟩ :=
      Form.exists_stopsAt refused (.inl kind)
    rw [position]
    generalize error.cause = cause at kind refuses
    cases refuses with
    | reference value bad => exact stops.badReference value bad
    | endTag mark kind' => rw [kind'] at kind; cases kind
    | startTag | noStart => cases kind
  · intro named
    have kind : error.cause.kind = .mismatchedTag := ErrorKind.name_injective named
    obtain ⟨ts, r, t, before, piece, rest, mark, stops, refuses, position⟩ :=
      Form.exists_stopsAt refused (.inr (.inl kind))
    rw [position]
    generalize error.cause = cause at kind refuses
    cases refuses with
    | endTag mark _ other => exact ⟨before, stops.badEndTag other⟩
    | reference | startTag | noStart => cases kind
  · intro named
    have kind : error.cause.kind = .unboundQualifier := ErrorKind.name_injective named
    obtain ⟨ts, r, t, before, piece, rest, mark, stops, refuses, position⟩ :=
      Form.exists_stopsAt refused (.inr (.inr kind))
    rw [position]
    generalize error.cause = cause at kind refuses
    cases refuses with
    | startTag isEmpty resolves reading unbound =>
      subst resolves
      obtain ⟨before, rest, tag, place⟩ := stops.unboundTag reading unbound
      exact ⟨rfl, _, before, rest, rfl, tag, place⟩
    | endTag mark kind' => rw [kind'] at kind; cases kind
    | reference | noStart => cases kind

/-- A value with a good reference and a line end before the bad one, a character of two bytes before an
end tag, and a tag that is refused behind its attributes. -/
theorem Form.error_position_found :
    (∃ before rest, Form.document.BadReference "<a b='é&lt;\n&x;'/>" before ('&' :: rest) ∧
      (⟨2, 1⟩ : Position).IsBetween "<a b='é&lt;\n&x;'/>" before ('&' :: rest)) ∧
    (∃ before rest, Form.fragment.BadEndTag "<p>é</q>" before ('<' :: '/' :: rest) ∧
      (⟨1, 5⟩ : Position).IsBetween "<p>é</q>" before ('<' :: '/' :: rest)) ∧
    (∃ before rest, UnboundTag "<a>\n <b q:c='' d=''/></a>" "q" before ('<' :: rest) ∧
      (⟨2, 2⟩ : Position).IsBetween "<a>\n <b q:c='' d=''/></a>" before ('<' :: rest)) := by
  have reference : Form.document.Refuses "<a b='é&lt;\n&x;'/>" ⟨.badReference "x", ⟨2, 1⟩⟩ := rfl
  have endTag : Form.fragment.Refuses "<p>é</q>" ⟨.mismatched "p" "q", ⟨1, 5⟩⟩ := rfl
  have startTag : Form.document.Refuses "<a>\n <b q:c='' d=''/></a>" ⟨.unbound "q", ⟨2, 2⟩⟩ := rfl
  obtain ⟨-, _, before, rest, cause, tag, place⟩ := (Form.error_position.1 _ _ _ startTag).2.2 rfl
  cases cause
  exact ⟨(Form.error_position.1 _ _ _ reference).1 rfl, (Form.error_position.1 _ _ _ endTag).2.1 rfl,
    before, rest, tag, place⟩

end Formwork.Markup
