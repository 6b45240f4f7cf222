import Mathlib.Data.List.Basic
import Formwork.Markup.Lexer

/-!
# What a step of the lexer does

A step that finds no fault takes one token off the front of the source, or passes over something that is
no token.  Which scan takes the token is decided by the stage and by what the source begins with, and so is
the stage behind the token (`Lexer.Scans`, `Lexer.scans_of_step`).  How the tokens of a source are arranged,
what names they have, and which pieces of the source they are: each of these is proved by cases of this
relation for one step, and by induction for a run.

What a scan yields has a property if whatever its last part yields has it (`Scan.Yields`).
-/

namespace Formwork.Markup

set_option autoImplicit false

/-! ## Which tokens scans yield -/

/-- Whatever a scan yields has a property. -/
def Scan.Yields {α : Type} (scan : Scan α) (P : α → Prop) : Prop :=
  ∀ cs a rest, scan cs = .ok (a, rest) → P a

namespace Scan.Yields

variable {α β : Type} {P : β → Prop}

theorem pure {b : β} (h : P b) : Yields (Pure.pure b : Scan β) P := by
  intro cs a rest run
  cases run
  exact h

theorem throw (cause : Cause Mark) : Yields (MonadExcept.throw cause : Scan β) P := by
  intro cs a rest run
  cases run

theorem bind_of {Q : α → Prop} {scan : Scan α} {f : α → Scan β} (first : scan.Yields Q)
    (h : ∀ a, Q a → Yields (f a) P) : Yields (scan >>= f) P := by
  intro cs b rest run
  cases scanned : scan cs with
  | error cause =>
    have failed : (scan >>= f) cs = .error cause := by
      show Except.bind (scan cs) _ = _
      rw [scanned]
      rfl
    rw [failed] at run
    cases run
  | ok answer =>
    obtain ⟨a, unread⟩ := answer
    have went : (scan >>= f) cs = f a unread := by
      show Except.bind (scan cs) _ = _
      rw [scanned]
      rfl
    rw [went] at run
    exact h a (first cs a unread scanned) unread b rest run

theorem bind {scan : Scan α} {f : α → Scan β} (h : ∀ a, Yields (f a) P) :
    Yields (scan >>= f) P :=
  bind_of (Q := fun _ => True) (fun _ _ _ _ => trivial) fun a _ => h a

theorem ite {c : Prop} [Decidable c] {scan other : Scan β} (h : Yields scan P)
    (h' : Yields other P) : Yields (if c then scan else other) P := by
  split
  · exact h
  · exact h'

end Scan.Yields

/-- A token that opens or closes nothing. -/
def Token.isPlain : Token → Bool
  | .characters _ _ => true
  | .cdata _ => true
  | .aside => true
  | _ => false

/-- A token that begins a start tag. -/
def Token.isStart : Token → Bool
  | .startTag _ _ => true
  | _ => false

/-- A token that ends an element. -/
def Token.isEnd : Token → Bool
  | .endTag _ _ => true
  | _ => false

/-- A part of a start tag behind its name: an attribute, or the end of the tag. -/
def Token.isInner : Token → Bool
  | .attr _ _ _ => true
  | .tagEnd _ => true
  | _ => false

namespace Token

open Scan.Yields

theorem yields_comment {P : Token → Prop} (h : P .aside) : comment.Yields P :=
  bind fun _ => bind fun _ => bind fun _ => ite (bind fun _ => ite (bind fun _ => pure h) (pure h))
    (ite (bind fun _ => pure h) (pure h))

theorem yields_instruction {P : Token → Prop} (h : P .aside) : instruction.Yields P :=
  bind fun _ => bind fun _ => bind fun _ => bind fun _ => bind fun _ => pure h

theorem yields_cdataSection : cdataSection.Yields fun t => t.isPlain = true :=
  bind fun _ => bind fun _ => bind fun _ => pure rfl

theorem yields_text : text.Yields fun t => t.isPlain = true :=
  bind fun _ => bind fun _ => ite (bind fun _ => pure rfl) (pure rfl)

theorem yields_startOfTag : startOfTag.Yields fun t => t.isStart = true :=
  bind fun _ => bind fun _ => bind fun _ => pure rfl

theorem yields_endOfElement : endOfElement.Yields fun t => t.isEnd = true :=
  bind fun _ => bind fun _ => bind fun _ => bind fun _ => bind fun _ => pure rfl

/-- An attribute, behind the space in front of it. -/
def namedValue : Scan Token := do
  let name ← Scan.qname
  Scan.equals
  let quote ← Scan.quote
  let mark := (← get).length
  let value ← Scan.upTo fun cs => cs.head?.any fun c => c == quote || c == '<'
  Scan.char quote
  return .attr name value mark

/-- Inside a start tag there are attributes, and one of the two ends. -/
theorem yields_inTag_of {P : Token → Prop} (named : namedValue.Yields P)
    (ends : ∀ isEmpty, P (.tagEnd isEmpty)) : inTag.Yields P := by
  unfold inTag
  refine bind fun _ => bind fun _ => bind fun cs => ?_
  split
  · exact bind fun _ => bind fun _ => pure (ends true)
  · exact bind fun _ => pure (ends false)
  · exact ite (bind fun _ => named) named
  · exact ite (bind fun _ => named) named

theorem yields_inTag : inTag.Yields fun t => t.isInner = true :=
  yields_inTag_of (bind fun _ => bind fun _ => bind fun _ => bind fun _ => bind fun _ =>
    bind fun _ => pure rfl) fun _ => rfl

theorem yields_doctypeEnd {P : Token → Prop} (h : P .aside) : doctypeEnd.Yields P :=
  bind fun _ => bind fun _ => bind fun _ => pure h

theorem yields_entity {P : Token → Prop} (h : P .aside) : entity.Yields P := by
  refine bind fun _ => bind fun _ => bind fun percent => ?_
  exact ite (bind fun _ => bind fun _ => bind fun _ => bind fun _ => bind fun _ => pure h)
    (bind fun _ => bind fun _ => bind fun _ => bind fun _ => bind fun _ => bind fun _ =>
      bind fun _ => pure h)

theorem yields_declaration {P : Token → Prop} (h : P .aside) : declaration.Yields P := by
  unfold declaration
  repeat' first
    | exact pure h
    | refine bind fun _ => ?_
    | refine ite ?_ ?_

end Token

/-! ## Steps -/

/-- What begins with a text begins with every front part of it. -/
theorem startsWith_of_startsWith {cs : List Char} {text front : String}
    (longer : front.toList <+: text.toList) (begins : startsWith text cs = true) : startsWith front cs = true :=
  List.isPrefixOf_iff_prefix.2 (longer.trans (List.isPrefixOf_iff_prefix.1 begins))

namespace Lexer

/-- **What a step has done** that found no fault: the token that was taken off a source, if there is one,
the lexer behind it, and what is left of the source. -/
inductive Scans (lexer : Lexer) (cs : List Char) : Option Token → Lexer → List Char → Prop where
  | comment {t : Token} {rest : List Char} : lexer.stage ≠ .inTag → startsWith "<!--" cs = true →
      Token.comment cs = .ok (t, rest) → Scans lexer cs (some t) lexer rest
  | instruction {t : Token} {rest : List Char} : lexer.stage ≠ .inTag → startsWith "<?" cs = true →
      Token.instruction cs = .ok (t, rest) → Scans lexer cs (some t) lexer rest
  | space : lexer.stage ≠ .inTag → lexer.stage ≠ .content →
      Scans lexer cs none lexer (cs.dropWhile isSpace)
  | doctype {open_ : Bool} {rest : List Char} : lexer.stage = .prolog →
      Token.doctype cs = .ok (open_, rest) →
      Scans lexer cs (some .aside)
        { lexer with stage := if open_ then .doctype else .behindDoctype } rest
  | entity {t : Token} {rest : List Char} : lexer.stage = .doctype →
      Token.entity cs = .ok (t, rest) → Scans lexer cs (some t) lexer rest
  | doctypeEnd {t : Token} {rest : List Char} : lexer.stage = .doctype →
      Token.doctypeEnd cs = .ok (t, rest) →
      Scans lexer cs (some t) { lexer with stage := .behindDoctype } rest
  | passed {rest : List Char} : lexer.stage = .doctype → startsWith "<!" cs = true →
      Token.passedDeclaration cs = .ok ((), rest) → Scans lexer cs none lexer rest
  | startTag {t : Token} {rest : List Char} :
      lexer.stage = .prolog ∨ lexer.stage = .behindDoctype ∨ lexer.stage = .content →
      startsWith "<" cs = true → Token.startOfTag cs = .ok (t, rest) →
      Scans lexer cs (some t) { lexer with stage := .inTag } rest
  | attr {name : QName} {value : List Char} {mark : Mark} {rest : List Char} : lexer.stage = .inTag →
      Token.inTag cs = .ok (.attr name value mark, rest) →
      Scans lexer cs (some (.attr name value mark)) lexer rest
  | tagEnd {isEmpty : Bool} {rest : List Char} : lexer.stage = .inTag →
      Token.inTag cs = .ok (.tagEnd isEmpty, rest) →
      Scans lexer cs (some (.tagEnd isEmpty))
        (lexer.behindTag (if isEmpty then lexer.depth else lexer.depth + 1)) rest
  | endTag {t : Token} {rest : List Char} : lexer.stage = .content → startsWith "</" cs = true →
      Token.endOfElement cs = .ok (t, rest) →
      Scans lexer cs (some t) (lexer.behindTag (lexer.depth - 1)) rest
  | cdata {t : Token} {rest : List Char} : lexer.stage = .content →
      startsWith "<![CDATA[" cs = true → Token.cdataSection cs = .ok (t, rest) →
      Scans lexer cs (some t) lexer rest
  | text {t : Token} {rest : List Char} : lexer.stage = .content → (∀ ds, cs ≠ '<' :: ds) →
      Token.text cs = .ok (t, rest) → Scans lexer cs (some t) lexer rest

variable {lexer next : Lexer} {cs unread : List Char} {token : Option Token}

/-- What was read is what the scan yields. -/
theorem scan_of_read {α : Type} {what : Construct} {scan : Scan α} {a : α}
    (run : read what scan cs = .ok (a, unread)) : scan cs = .ok (a, unread) := by
  unfold read at run
  cases scanned : scan cs with
  | error cause =>
    rw [scanned] at run
    cases run
  | ok answer =>
    rw [scanned] at run
    cases run
    rfl

theorem exists_of_emit {what : Construct} {scan : Scan Token} {lexer : Lexer}
    (run : emit what scan lexer cs = .ok (token, next, unread)) :
    ∃ t, scan cs = .ok (t, unread) ∧ token = some t ∧ next = lexer := by
  unfold emit at run
  cases answer : read what scan cs with
  | error fault =>
    rw [answer] at run
    cases run
  | ok result =>
    rw [answer] at run
    cases run
    exact ⟨_, scan_of_read answer, rfl, rfl⟩

theorem scans_instruction (outside : lexer.stage ≠ .inTag) (begins : startsWith "<?" cs = true)
    (run : instruction lexer cs = .ok (token, next, unread)) : lexer.Scans cs token next unread := by
  unfold instruction at run
  split at run
  · cases run
  · obtain ⟨t, scanned, rfl, rfl⟩ := exists_of_emit run
    exact .instruction outside begins scanned

theorem scans_aside {other : Step} (outside : lexer.stage ≠ .inTag) (outer : lexer.stage ≠ .content)
    (others : other = .ok (token, next, unread) → lexer.Scans cs token next unread)
    (run : aside lexer cs other = .ok (token, next, unread)) : lexer.Scans cs token next unread := by
  unfold aside at run
  split at run
  · next begins =>
    obtain ⟨t, scanned, rfl, rfl⟩ := exists_of_emit run
    exact .comment outside begins scanned
  · split at run
    · next begins => exact scans_instruction outside begins run
    · split at run
      · cases run
        exact .space outside outer
      · exact others run

theorem scans_rootTag (stage : lexer.stage = .prolog ∨ lexer.stage = .behindDoctype)
    (run : rootTag lexer cs = .ok (token, next, unread)) : lexer.Scans cs token next unread := by
  unfold rootTag at run
  split at run
  · cases run
  · split at run
    · next begins =>
      obtain ⟨t, scanned, rfl, rfl⟩ := exists_of_emit run
      exact .startTag (stage.imp_right .inl) begins scanned
    · cases run

theorem scans_declarations (stage : lexer.stage = .doctype)
    (run : declarations lexer cs = .ok (token, next, unread)) : lexer.Scans cs token next unread := by
  unfold declarations at run
  split at run
  · obtain ⟨t, scanned, rfl, rfl⟩ := exists_of_emit run
    exact .entity stage scanned
  · split at run
    · obtain ⟨t, scanned, rfl, rfl⟩ := exists_of_emit run
      exact .doctypeEnd stage scanned
    · split at run
      · next declares =>
        have begins : startsWith "<!" cs = true := by
          rcases declares with begins | begins | begins
          all_goals exact startsWith_of_startsWith (by decide) begins
        split at run
        · next passed =>
          cases run
          exact .passed stage begins passed
        · cases run
      · cases run

theorem scans_content (stage : lexer.stage = .content)
    (run : content lexer cs = .ok (token, next, unread)) : lexer.Scans cs token next unread := by
  have outside : lexer.stage ≠ .inTag := by
    rw [stage]
    nofun
  unfold content at run
  split at run
  · split at run
    · next begins =>
      obtain ⟨t, scanned, rfl, rfl⟩ := exists_of_emit run
      exact .comment outside begins scanned
    · split at run
      · next begins =>
        obtain ⟨t, scanned, rfl, rfl⟩ := exists_of_emit run
        exact .cdata stage begins scanned
      · cases run
  · exact scans_instruction outside rfl run
  · obtain ⟨t, scanned, rfl, rfl⟩ := exists_of_emit run
    exact .endTag stage rfl scanned
  · cases run
  · obtain ⟨t, scanned, rfl, rfl⟩ := exists_of_emit run
    exact .startTag (.inr (.inr stage)) rfl scanned
  · next other =>
    obtain ⟨t, scanned, rfl, rfl⟩ := exists_of_emit run
    exact .text stage other scanned

theorem scans_inTag (stage : lexer.stage = .inTag)
    (run : step lexer cs = .ok (token, next, unread)) : lexer.Scans cs token next unread := by
  unfold step at run
  rw [stage] at run
  cases answer : read .attr Token.inTag cs with
  | error fault =>
    rw [answer] at run
    cases run
  | ok result =>
    obtain ⟨t, rest⟩ := result
    rw [answer] at run
    have scanned := scan_of_read answer
    have inner := Token.yields_inTag _ _ _ scanned
    cases t with
    | attr name value mark =>
      cases run
      exact .attr stage scanned
    | tagEnd isEmpty =>
      cases run
      exact .tagEnd stage scanned
    | _ => cases inner

/-- **A step without fault** has done one of these. -/
theorem scans_of_step (run : step lexer cs = .ok (token, next, unread)) :
    lexer.Scans cs token next unread := by
  cases stage : lexer.stage with
  | inTag => exact scans_inTag stage run
  | content =>
    unfold step at run
    rw [stage] at run
    exact scans_content stage run
  | doctype =>
    unfold step at run
    rw [stage] at run
    exact scans_aside (by simp [stage]) (by simp [stage]) (scans_declarations stage) run
  | behindDoctype =>
    unfold step at run
    rw [stage] at run
    exact scans_aside (by simp [stage]) (by simp [stage]) (scans_rootTag (.inr stage)) run
  | epilog =>
    unfold step at run
    rw [stage] at run
    have refused : noToken cs = .ok (token, next, unread) → lexer.Scans cs token next unread := nofun
    exact scans_aside (by simp [stage]) (by simp [stage]) refused run
  | prolog =>
    unfold step at run
    rw [stage] at run
    dsimp only at run
    split at run
    · cases answer : read .doctype Token.doctype cs with
      | error fault =>
        rw [answer] at run
        cases run
      | ok result =>
        rw [answer] at run
        cases run
        exact .doctype stage (scan_of_read answer)
    · exact scans_aside (by simp [stage]) (by simp [stage]) (scans_rootTag (.inl stage)) run

end Lexer

end Formwork.Markup
