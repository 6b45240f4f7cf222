import Formwork.Proofs.Markup.Passing
import Formwork.Proofs.Markup.Document

/-!
# Where the tokens of a source stand

A token keeps how many characters are unread at the place that an error would be reported at.  This is
the place where the token stands in the source (`Token.Stands`): a tag begins there with its `<`, and a
value or text with its first character.

The tokens of a source are pieces of it, one behind the other (`Laid`).  Between them only space, a byte
order mark and declarations that are not read are passed over.  So the source up to any of its tokens is
made of the tokens before (`Form.exists_laid`), whether or not the lexer finds a fault later.
-/

namespace Formwork.Markup

set_option autoImplicit false

/-! ## What a token stands for -/

/-- The unread characters `cs` begin with a piece that a token stands for, and its mark is that of its
first character, or for an attribute that of the value between its quotes. -/
def Token.Stands (cs piece : List Char) : Token → Prop
  | .startTag name mark =>
    mark = cs.length ∧ ∃ run, piece = '<' :: run ∧ Scan.qnameOf? run = some name
  | .attr _ value mark => ∃ front quote, (quote = '\'' ∨ quote = '"') ∧
      piece = front ++ quote :: (value ++ [quote]) ∧ (∀ c ∈ value, c ≠ quote ∧ c ≠ '<') ∧
        front.length + 1 + mark = cs.length
  | .tagEnd isEmpty => ∃ spaces : List Char, (∀ c ∈ spaces, isSpace c = true) ∧
      piece = spaces ++ if isEmpty then ['/', '>'] else ['>']
  | .endTag name mark => mark = cs.length ∧ ∃ run spaces, Scan.qnameOf? run = some name ∧
      (∀ c ∈ spaces, isSpace c = true) ∧ piece = '<' :: '/' :: (run ++ (spaces ++ ['>']))
  | .characters raw mark => mark = cs.length ∧ piece = raw
  | .cdata content => piece = "<![CDATA[".toList ++ (content ++ "]]>".toList)
  | .aside => True

/-- What may stand between tokens without being one. -/
def IsGap (gap : List Char) : Prop :=
  (∀ c ∈ gap, isSpace c = true) ∨ gap = ['\uFEFF'] ∨
    ∃ declared, gap = '<' :: '!' :: (declared ++ ['>']) ∧ '>' ∉ declared

/-- Some characters are the pieces of tokens, in front of a rest. -/
inductive Laid : List Char → List Token → List Char → Prop where
  | nil {rest : List Char} : Laid [] [] rest
  | gap {gap before rest : List Char} {ts : List Token} (isGap : IsGap gap)
      (later : Laid before ts rest) : Laid (gap ++ before) ts rest
  | token {t : Token} {piece before rest : List Char} {ts : List Token}
      (stands : t.Stands (piece ++ (before ++ rest)) piece) (later : Laid before ts rest) :
      Laid (piece ++ before) (t :: ts) rest

/-- The characters before one of the tokens are the pieces of the tokens before it. -/
theorem Laid.cut {before rest : List Char} {ts us : List Token} {t : Token} {vs : List Token}
    (laid : Laid before ts rest) (split : ts = us ++ t :: vs) :
    ∃ front piece behind, before = front ++ (piece ++ behind) ∧
      Laid front us (piece ++ (behind ++ rest)) ∧ t.Stands (piece ++ (behind ++ rest)) piece := by
  induction laid generalizing us with
  | nil => simp at split
  | gap isGap _ ih =>
    obtain ⟨front, piece, behind, rfl, laid, stands⟩ := ih split
    exact ⟨_ ++ front, piece, behind, by simp, .gap isGap laid, stands⟩
  | @token t' piece' before rest ts' stands later ih =>
    cases us with
    | nil =>
      cases split
      exact ⟨[], piece', before, rfl, .nil, stands⟩
    | cons u us =>
      cases split
      obtain ⟨front, piece, behind, rfl, laid, stands'⟩ := ih rfl
      refine ⟨piece' ++ front, piece, behind, by simp, .token ?_ laid, stands'⟩
      simpa using stands

/-! ## Scans -/

/-- What a scan leaves is the rest of what it was given. -/
def Scan.Drops {α : Type} (scan : Scan α) (cs : List Char) : Prop :=
  ∀ a rest, scan cs = .ok (a, rest) → rest <:+ cs

namespace Scan.Drops

variable {α β : Type} {cs : List Char}

theorem pure (b : β) : Drops (Pure.pure b : Scan β) cs := by
  intro a rest run
  cases run
  exact List.suffix_rfl

theorem throw (cause : Cause Mark) : Drops (MonadExcept.throw cause : Scan β) cs := by
  intro a rest run
  cases run

theorem bind {scan : Scan α} {f : α → Scan β} (first : scan.Drops cs)
    (h : ∀ a rest, (f a).Drops rest) : Drops (scan >>= f) cs := by
  intro b rest run
  cases scanned : scan cs with
  | error cause =>
    have failed : (scan >>= f) cs = .error cause := by
      show Except.bind (scan cs) _ = _
      rw [scanned]
      rfl
    rw [failed] at run
    cases run
  | ok answer =>
    obtain ⟨a, unread⟩ := answer
    rw [bind_of_ok scanned] at run
    exact (h a unread b rest run).trans (first a unread scanned)

theorem bind_get {f : List Char → Scan β} (h : (f cs).Drops cs) : Drops (get >>= f) cs := h

theorem bind_set {rest : List Char} {f : Unit → Scan β} (suffix : rest <:+ cs)
    (h : (f ()).Drops rest) : Drops (set rest >>= f) cs :=
  fun b unread run => (h b unread run).trans suffix

theorem set {rest : List Char} (suffix : rest <:+ cs) : Drops (MonadState.set rest : Scan PUnit) cs := by
  intro a unread run
  cases run
  exact suffix

theorem ite {c : Prop} [Decidable c] {scan other : Scan β} (h : Drops scan cs)
    (h' : Drops other cs) : Drops (if c then scan else other) cs := by
  split
  · exact h
  · exact h'

theorem of_passes {P : α → List Char → Prop} {scan : Scan α} (passes : scan.Passes cs P) :
    scan.Drops cs := by
  intro a rest run
  obtain ⟨front, rfl, _⟩ := passes a rest run
  exact List.suffix_append _ _

/-! ### The small parts -/

theorem skip (count : Nat) : (Scan.skip count).Drops cs := by
  intro _ rest run
  cases run
  exact List.drop_suffix _ _

theorem sees (text : String) : (Scan.sees text).Drops cs := by
  intro _ rest run
  cases run
  exact List.suffix_rfl

theorem char (wanted : Char) : (Scan.char wanted).Drops cs := by
  unfold Scan.char
  refine bind_get ?_
  split
  · exact throw _
  · exact ite (set (List.suffix_cons _ _)) (throw _)

theorem literal (text : String) : (Scan.literal text).Drops cs := by
  unfold Scan.literal
  exact bind_get (ite (set (List.drop_suffix _ _)) (throw _))

theorem takeWhile (p : Char → Bool) : (Scan.takeWhile p).Drops cs := by
  intro _ rest run
  cases run
  exact List.dropWhile_suffix _

theorem optionalSpace : Scan.optionalSpace.Drops cs := of_passes Scan.Passes.optionalSpace

theorem space : Scan.space.Drops cs := by
  unfold Scan.space
  refine bind_get ?_
  split
  · exact throw _
  · exact ite (set ((List.dropWhile_suffix _).trans (List.suffix_cons _ _))) (throw _)

theorem quote : Scan.quote.Drops cs := of_passes Scan.Passes.quote

theorem equals : Scan.equals.Drops cs := of_passes Scan.Passes.equals

theorem quoted : Scan.quoted.Drops cs :=
  bind quote fun _ _ => bind (takeWhile _) fun _ _ => char _

theorem optionalName : Scan.optionalName.Drops cs := of_passes Scan.Passes.optionalName

theorem name : Scan.name.Drops cs := of_passes Scan.Passes.name

end Scan.Drops

namespace Token

open Scan.Drops

variable {cs : List Char}

theorem drops_externalId : externalId.Drops cs := by
  unfold externalId
  refine bind (sees _) fun _ _ => ite ?_ (bind (sees _) fun known _ => ite ?_ (pure _))
  · exact bind (skip _) fun _ _ => bind space fun _ _ => bind quoted fun _ _ => pure _
  · exact bind (skip _) fun _ _ => bind space fun _ _ => bind quoted fun _ _ =>
      bind space fun _ _ => bind quoted fun _ _ => pure _

theorem drops_doctype : doctype.Drops cs := by
  unfold doctype
  refine bind (skip _) fun _ _ => bind space fun _ _ => bind name fun _ _ =>
    bind optionalSpace fun _ _ => bind drops_externalId fun _ _ => bind optionalSpace fun _ rest =>
      bind_get ?_
  split
  · exact throw _
  · exact ite (bind_set (List.suffix_cons _ _) (pure _)) (throw _)

theorem drops_doctypeEnd : doctypeEnd.Drops cs :=
  bind (skip _) fun _ _ => bind optionalSpace fun _ _ => bind (char _) fun _ _ => pure _

theorem drops_declarationSpace : declarationSpace.Drops cs := by
  unfold declarationSpace
  refine bind_get ?_
  split
  · exact pure _
  · exact ite optionalSpace (ite (pure _) (throw _))

theorem drops_entityDefinition (general : Bool) : (entityDefinition general).Drops cs := by
  unfold entityDefinition
  refine bind_get ?_
  split
  · exact throw _
  · refine ite quoted (ite (bind drops_externalId fun known _ => ?_) (throw _))
    have naming : ∀ rest, Scan.Drops (do
        if general then
          Scan.optionalSpace
          if ← Scan.sees "NDATA" then
            Scan.skip 5
            Scan.space
            let _ ← Scan.optionalName) rest := fun rest =>
      ite (bind optionalSpace fun _ _ => bind (sees _) fun _ _ =>
        ite (bind (skip _) fun _ _ => bind space fun _ _ => bind optionalName fun _ _ => pure _)
          (pure _)) (pure _)
    exact ite (naming _) (bind (throw _) fun _ _ => naming _)

theorem drops_entity : entity.Drops cs := by
  unfold entity
  refine bind (skip _) fun _ _ => bind space fun _ _ => bind (sees _) fun percent _ => ?_
  have rest_ : ∀ rest, Scan.Drops (do
      let _ ← Scan.name
      Scan.space
      entityDefinition !percent
      Scan.optionalSpace
      Scan.char '>'
      return Token.aside) rest := fun rest =>
    bind name fun _ _ => bind space fun _ _ => bind (drops_entityDefinition _) fun _ _ =>
      bind optionalSpace fun _ _ => bind (char _) fun _ _ => pure _
  exact ite (rest_ _) (bind (skip _) fun _ _ => bind space fun _ _ => rest_ _)

theorem drops_declaration : declaration.Drops cs := by
  have close : ∀ rest, Scan.Drops (do
      Scan.optionalSpace
      Scan.literal "?>"
      return Token.aside) rest := fun rest =>
    bind optionalSpace fun _ _ => bind (literal _) fun _ _ => pure _
  have standalone : ∀ rest, Scan.Drops (do
      if ← Scan.sees "standalone" then
        Scan.skip 10
        Scan.equals
        let mark ← Scan.quote
        let place := (← get).length
        let answer ← Scan.name
        unless answer = "yes".toList ∨ answer = "no".toList do
          throw (.expectedText ["yes", "no"] place)
        Scan.char mark
      Scan.optionalSpace
      Scan.literal "?>"
      return Token.aside) rest := by
    intro rest
    refine bind (sees _) fun _ _ => ite ?_ (close _)
    refine bind (skip _) fun _ _ => bind equals fun _ _ => bind quote fun mark _ => ?_
    refine bind_get (bind name fun answer _ => ite ?_ (bind (throw _) fun _ _ => ?_))
    · exact bind (char _) fun _ _ => close _
    · exact bind (char _) fun _ _ => close _
  unfold declaration
  refine bind (skip _) fun _ _ => bind optionalSpace fun _ _ => ?_
  refine bind (literal _) fun _ _ => bind equals fun _ _ => bind quote fun mark _ => ?_
  refine bind (literal _) fun _ _ => bind (takeWhile _) fun _ _ => bind (char _) fun _ _ => ?_
  refine bind drops_declarationSpace fun _ _ => bind (sees _) fun _ _ => ite ?_ (standalone _)
  refine bind (skip _) fun _ _ => bind equals fun _ _ => bind quote fun mark _ => ?_
  refine bind (takeWhile _) fun _ _ => bind (char _) fun _ _ => ?_
  exact bind drops_declarationSpace fun _ _ => standalone _

end Token

/-! ## Pieces of tokens -/

/-- The tokens that a scan yields stand where it begins. -/
def Scan.Places (scan : Scan Token) (cs : List Char) : Prop :=
  ∀ t rest, scan cs = .ok (t, rest) → ∃ piece, cs = piece ++ rest ∧ t.Stands cs piece

theorem Scan.Passes.places {scan : Scan Token} {cs : List Char}
    (passes : scan.Passes cs fun t piece => t.Stands cs piece) : scan.Places cs := by
  intro t rest run
  obtain ⟨piece, split, _, stands⟩ := passes t rest run
  exact ⟨piece, split, stands⟩

/-- An aside may stand for anything. -/
theorem Scan.Drops.places {scan : Scan Token} {cs : List Char} (drops : scan.Drops cs)
    (yields : scan.Yields (.aside = ·)) : scan.Places cs := by
  intro t rest run
  obtain ⟨piece, split⟩ := drops t rest run
  rw [← yields _ _ _ run]
  exact ⟨piece, split.symm, trivial⟩

namespace Token

open Scan.Passes

variable {cs : List Char}

theorem stands_startOfTag (begins : startsWith "<" cs = true) :
    startOfTag.Passes cs fun t piece => t.Stands cs piece := by
  refine bind_get (bind_skip 1 rfl (by decide) begins (qname_spelled.bind fun name run _ spelled =>
    pure ⟨rfl, run, ?_, spelled⟩))
  rw [List.append_nil]
  rfl

theorem stands_endOfElement (begins : startsWith "</" cs = true) :
    endOfElement.Passes cs fun t piece => t.Stands cs piece := by
  refine bind_get (bind_skip 2 rfl (by decide) begins (qname_spelled.bind fun name run _ spelled =>
    optionalSpace_spaces.bind fun _ spaces _ blank => (char rfl).bind fun _ final _ ends => ?_))
  subst ends
  exact pure ⟨rfl, run, spaces, spelled, blank, by simp⟩

theorem stands_text : text.Passes cs fun t piece => t.Stands cs piece := by
  refine bind_get ((upTo _).bind fun raw front _ same => ite (bind_throw _) (pure ⟨rfl, ?_⟩))
  rw [List.append_nil, same]

theorem stands_cdataSection (begins : startsWith "<![CDATA[" cs = true) :
    cdataSection.Passes cs fun t piece => t.Stands cs piece := by
  refine bind_skip 9 rfl (by decide) begins ((upTo _).bind fun content front _ same =>
    (literal (by decide)).bind fun _ final _ ends => pure ?_)
  subst same ends
  simp [Stands]

theorem stands_inTag : inTag.Passes cs fun t piece => t.Stands cs piece := by
  unfold inTag
  refine bind_get (optionalSpace_spaces.bind_split fun _ spaces rest within blank => bind_get ?_)
  have named : namedValue.Passes rest fun t piece => t.Stands cs (spaces ++ piece) := by
    refine qname.bind_split fun name run _ behindName _ => equals.bind_split
      fun _ sign _ behindSign _ => quote.bind_split ?_
    rintro quote _ unread behindQuote ⟨rfl, kind, markup⟩
    refine bind_get ((value quote).bind fun value _ _ ⟨same, plain⟩ =>
      (char markup).bind fun _ _ _ ends => pure ⟨spaces ++ (run ++ sign), quote, kind, ?_, plain, ?_⟩)
    · subst same ends
      simp
    · subst within behindName behindSign behindQuote
      simp
      omega
  split
  · next unread =>
    refine bind_set rfl ((char rfl).bind fun _ _ _ ends => pure ⟨spaces, blank, ?_⟩)
    subst ends
    rfl
  · exact bind_set rfl (pure ⟨spaces, blank, rfl⟩)
  · exact ite (bind_throw _) named
  · exact ite (bind_throw _) named

end Token

/-! ## The lexer -/

namespace Lexer

/-- A step takes a piece off the front of the source: that of its token, or a gap. -/
def Step.Lays (cs : List Char) (result : Step) : Prop :=
  ∀ token next unread, result = .ok (token, next, unread) → ∃ piece, cs = piece ++ unread ∧
    (token = none → IsGap piece) ∧ ∀ t ∈ token, t.Stands cs piece

variable {lexer : Lexer} {cs : List Char}

/-- A token that a scan takes leaves its piece, which is no gap. -/
theorem lays_scanned {scan : Scan Token} {t : Token} {unread : List Char} (places : scan.Places cs)
    (scanned : scan cs = .ok (t, unread)) :
    ∃ piece, cs = piece ++ unread ∧ (some t = none → IsGap piece) ∧
      ∀ u ∈ some t, u.Stands cs piece := by
  obtain ⟨piece, split, here⟩ := places _ _ scanned
  refine ⟨piece, split, nofun, ?_⟩
  rintro u ⟨⟩
  exact here

/-- A declaration that is passed over unread is a gap. -/
theorem isGap_of_passedDeclaration {rest : List Char} (begins : startsWith "<!" cs = true)
    (passed : Token.passedDeclaration cs = .ok ((), rest)) :
    ∃ gap, cs = gap ++ rest ∧ IsGap gap := by
  obtain ⟨behind, rfl⟩ := List.isPrefixOf_iff_prefix.1 begins
  have taken : Scan.takeWhile (· ≠ '>') ("<!".toList ++ behind) =
      .ok ('<' :: '!' :: behind.takeWhile (· ≠ '>'), behind.dropWhile (· ≠ '>')) := rfl
  rw [Token.passedDeclaration, Scan.bind_of_ok taken] at passed
  obtain ⟨_, split, _, rfl⟩ := Scan.Passes.char rfl _ _ passed
  refine ⟨'<' :: '!' :: (behind.takeWhile (· ≠ '>') ++ ['>']), ?_, .inr (.inr ⟨_, rfl, ?_⟩)⟩
  · calc "<!".toList ++ behind
        = '<' :: '!' :: (behind.takeWhile (· ≠ '>') ++ behind.dropWhile (· ≠ '>')) := by
          rw [List.takeWhile_append_dropWhile]
          rfl
      _ = '<' :: '!' :: (behind.takeWhile (· ≠ '>') ++ ['>']) ++ rest := by
          rw [split]
          simp
  · intro mem
    simpa using List.mem_takeWhile_imp mem

/-- **One step** takes one piece, whatever the stage. -/
theorem lays_step : Step.Lays cs (step lexer cs) := by
  intro token next unread run
  cases scans_of_step run with
  | comment _ begins scanned =>
    have places := Scan.Drops.places (.of_passes (Token.passes_comment begins)) (Token.yields_comment rfl)
    exact lays_scanned places scanned
  | instruction _ begins scanned =>
    have places :=
      Scan.Drops.places (.of_passes (Token.passes_instruction begins)) (Token.yields_instruction rfl)
    exact lays_scanned places scanned
  | space =>
    refine ⟨cs.takeWhile isSpace, List.takeWhile_append_dropWhile.symm, fun _ => ?_, nofun⟩
    exact .inl fun c mem => List.mem_takeWhile_imp mem
  | doctype _ scanned =>
    obtain ⟨piece, split⟩ := Token.drops_doctype _ _ scanned
    refine ⟨piece, split.symm, nofun, ?_⟩
    rintro t ⟨⟩
    trivial
  | entity _ scanned =>
    exact lays_scanned (Token.drops_entity.places (Token.yields_entity rfl)) scanned
  | doctypeEnd _ scanned =>
    exact lays_scanned (Token.drops_doctypeEnd.places (Token.yields_doctypeEnd rfl)) scanned
  | passed _ begins passed =>
    obtain ⟨gap, split, isGap⟩ := isGap_of_passedDeclaration begins passed
    exact ⟨gap, split, fun _ => isGap, nofun⟩
  | startTag _ begins scanned =>
    exact lays_scanned (Token.stands_startOfTag begins).places scanned
  | attr _ scanned => exact lays_scanned Token.stands_inTag.places scanned
  | tagEnd _ scanned => exact lays_scanned Token.stands_inTag.places scanned
  | endTag _ begins scanned =>
    exact lays_scanned (Token.stands_endOfElement begins).places scanned
  | cdata _ begins scanned =>
    exact lays_scanned (Token.stands_cdataSection begins).places scanned
  | text _ _ scanned => exact lays_scanned Token.stands_text.places scanned

/-- **A run** lays its tokens from the front of the source. -/
theorem run_laid (steps : Nat) : ∃ before rest, cs = before ++ rest ∧
    Laid before (run steps lexer cs).tokens rest := by
  induction steps generalizing lexer cs with
  | zero => exact ⟨[], cs, rfl, .nil⟩
  | succ steps ih =>
    cases cs with
    | nil => exact ⟨[], [], rfl, .nil⟩
    | cons c cs =>
      rw [run]
      cases stepped : step lexer (c :: cs) with
      | error fault => exact ⟨[], c :: cs, rfl, .nil⟩
      | ok answer =>
        obtain ⟨token, next, unread⟩ := answer
        obtain ⟨piece, split, gap, stands⟩ := lays_step token next unread stepped
        obtain ⟨before, rest, rfl, laid⟩ := @ih next unread
        refine ⟨piece ++ before, rest, by rw [split, List.append_assoc], ?_⟩
        cases token with
        | none => exact .gap (gap rfl) laid
        | some t => exact .token (split ▸ stands t rfl) laid

end Lexer

/-! ## Whole sources -/

/-- The tokens of a source that is read in a form. -/
def Form.tokens : Form → List Char → TokenStream
  | .document => documentTokens
  | .fragment => fragmentTokens

/-- The tokens behind a byte order mark are laid, the declaration of the document among them. -/
theorem body_laid (body : List Char) : ∃ before rest, body = before ++ rest ∧
    Laid before (if startsWith "<?xml " body then
      match Lexer.read .declaration Token.declaration body with
      | .error fault => ⟨[], some fault⟩
      | .ok (t, unread) => (Lexer.tokens ⟨.prolog, 0, true⟩ unread).cons t
    else Lexer.tokens ⟨.prolog, 0, true⟩ body).tokens rest := by
  split
  · unfold Lexer.read
    cases scanned : Token.declaration body with
    | error cause => exact ⟨[], body, rfl, .nil⟩
    | ok answer =>
      obtain ⟨t, unread⟩ := answer
      obtain ⟨piece, rfl, stands⟩ :=
        Token.drops_declaration.places (Token.yields_declaration rfl) _ _ scanned
      obtain ⟨before, rest, rfl, laid⟩ := @Lexer.run_laid ⟨.prolog, 0, true⟩ unread unread.length
      exact ⟨piece ++ before, rest, (List.append_assoc ..).symm, .token stands laid⟩
  · exact Lexer.run_laid _

theorem documentTokens_laid (source : List Char) : ∃ before rest, source = before ++ rest ∧
    Laid before (documentTokens source).tokens rest := by
  unfold documentTokens
  split
  · next body =>
    obtain ⟨before, rest, split, laid⟩ := body_laid body
    exact ⟨['\uFEFF'] ++ before, rest, congrArg ('\uFEFF' :: ·) split, .gap (.inr (.inl rfl)) laid⟩
  · exact body_laid source

/-- **The tokens of every source** are laid from its front. -/
theorem Form.tokens_laid (form : Form) (source : List Char) : ∃ before rest,
    source = before ++ rest ∧ Laid before (form.tokens source).tokens rest := by
  cases form with
  | document => exact documentTokens_laid source
  | fragment => exact Lexer.run_laid _

/-- Each token of a source stands behind the pieces of the tokens before it. -/
theorem Form.exists_laid {form : Form} {source : List Char} {ts us : List Token} {t : Token}
    (split : (form.tokens source).tokens = ts ++ t :: us) :
    ∃ before piece rest, source = before ++ (piece ++ rest) ∧ Laid before ts (piece ++ rest) ∧
      t.Stands (piece ++ rest) piece := by
  obtain ⟨whole, rest, rfl, laid⟩ := form.tokens_laid source
  obtain ⟨before, piece, behind, rfl, laid, stands⟩ := laid.cut split
  exact ⟨before, piece, behind ++ rest, by simp, laid, stands⟩

end Formwork.Markup
