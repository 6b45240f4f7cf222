import Formwork.Markup.Token

/-!
# Which tokens may follow one another

A document runs through stages: before its document type, inside and behind it,
inside a start tag, in the content of elements, and behind the root.  A fragment is
content from its first character to its last.  `Lexer.step` reads one token, or
passes over space, and says in which stage the rest is to be read; every step takes
at least one character, so as many steps as there are characters are enough.

The end of the source ends the stream in every stage without complaint.  It is left
to the reader of the stream to notice what is still open.
-/

namespace Formwork.Markup

set_option autoImplicit false

/-- Where in a source the lexer is. -/
inductive Stage where
  | prolog
  | doctype
  | behindDoctype
  | inTag
  | content
  | epilog
  deriving DecidableEq, Repr

/-- The state of reading a source: the stage, the number of open elements, and whether the
source is a document, whose content ends with its root. -/
structure Lexer where
  stage : Stage
  depth : Nat
  isDocument : Bool
  deriving DecidableEq, Repr

/-- The tokens of a source up to the first fault. -/
structure TokenStream where
  tokens : List Token
  fault : Option (Fault Mark)
  deriving DecidableEq, Repr

/-- A stream with one more token in front. -/
def TokenStream.cons (t : Token) (s : TokenStream) : TokenStream := { s with tokens := t :: s.tokens }

namespace Lexer

/-- What one step of the lexer yields: a token unless space was passed, and how to go on. -/
abbrev Step := Except (Fault Mark) (Option Token × Lexer × List Char)

/-- Read a piece of markup as a whole; a fault is located where the piece begins. -/
def read {α : Type} (what : Construct) (scan : Scan α) (cs : List Char) :
    Except (Fault Mark) (α × List Char) :=
  (scan cs).mapError (.invalid what cs.length)

/-- Read one token and go on in a given state. -/
def emit (what : Construct) (scan : Scan Token) (next : Lexer) (cs : List Char) : Step :=
  (read what scan cs).map fun (t, unread) => (some t, next, unread)

/-- Pass over space. -/
def passSpace (lexer : Lexer) (cs : List Char) : Step :=
  .ok (none, lexer, cs.dropWhile isSpace)

/-- No token begins here. -/
def noToken (cs : List Char) : Step := .error (.unknownToken cs.length)

/-- The state behind a tag that leaves `depth` elements open. -/
def behindTag (lexer : Lexer) (depth : Nat) : Lexer :=
  { lexer with depth := depth, stage := if depth = 0 ∧ lexer.isDocument then .epilog else .content }

/-- Read an instruction; a declaration is none. -/
def instruction (lexer : Lexer) (cs : List Char) : Step :=
  if startsWith "<?xml " cs then noToken cs else emit .instruction Token.instruction lexer cs

/-- Read a comment, an instruction or space; anything else is read by `other`. -/
def aside (lexer : Lexer) (cs : List Char) (other : Step) : Step :=
  if startsWith "<!--" cs then emit .comment Token.comment lexer cs
  else if startsWith "<?" cs then instruction lexer cs
  else if cs.head?.any isSpace then passSpace lexer cs
  else other

/-- Read the start of the root. -/
def rootTag (lexer : Lexer) (cs : List Char) : Step :=
  if startsWith "<!" cs then noToken cs
  else if startsWith "<" cs then emit .element Token.startOfTag { lexer with stage := .inTag } cs
  else noToken cs

/-- Read a declaration inside a document type, or its end. -/
def declarations (lexer : Lexer) (cs : List Char) : Step :=
  if startsWith "<!ENTITY" cs then emit .entity Token.entity lexer cs
  else if startsWith "]" cs then
    emit .doctype Token.doctypeEnd { lexer with stage := .behindDoctype } cs
  else if startsWith "<!ELEMENT" cs ∨ startsWith "<!ATTLIST" cs ∨ startsWith "<!NOTATION" cs then
    match Token.passedDeclaration cs with
    | .ok (_, unread) => .ok (none, lexer, unread)
    | .error _ => noToken cs
  else noToken cs

/-- Read a token of the content of elements. -/
def content (lexer : Lexer) (cs : List Char) : Step :=
  match cs with
  | '<' :: '!' :: _ =>
    if startsWith "<!--" cs then emit .comment Token.comment lexer cs
    else if startsWith "<![CDATA[" cs then emit .cdata Token.cdataSection lexer cs
    else noToken cs
  | '<' :: '?' :: _ => instruction lexer cs
  | '<' :: '/' :: _ =>
    emit .element Token.endOfElement (lexer.behindTag (lexer.depth - 1)) cs
  | '<' :: [] => noToken cs
  | '<' :: _ => emit .element Token.startOfTag { lexer with stage := .inTag } cs
  | _ => emit .characters Token.text lexer cs

/-- One step from a place that is not the end of the source. -/
def step (lexer : Lexer) (cs : List Char) : Step :=
  match lexer.stage with
  | .prolog =>
    if startsWith "<!DOCTYPE" cs then
      (read .doctype Token.doctype cs).map fun (more, unread) =>
        (some .aside, { lexer with stage := if more then .doctype else .behindDoctype }, unread)
    else aside lexer cs (rootTag lexer cs)
  | .doctype => aside lexer cs (declarations lexer cs)
  | .behindDoctype => aside lexer cs (rootTag lexer cs)
  | .inTag =>
    (read .attr Token.inTag cs).map fun (t, unread) =>
      match t with
      | .tagEnd isEmpty =>
        (some t, lexer.behindTag (if isEmpty then lexer.depth else lexer.depth + 1), unread)
      | _ => (some t, lexer, unread)
  | .content => content lexer cs
  | .epilog => aside lexer cs (noToken cs)

/-- At most `steps` steps. -/
def run : Nat → Lexer → List Char → TokenStream
  | 0, _, _ => ⟨[], none⟩
  | _, _, [] => ⟨[], none⟩
  | steps + 1, lexer, c :: cs =>
    match step lexer (c :: cs) with
    | .error fault => ⟨[], some fault⟩
    | .ok (none, next, unread) => run steps next unread
    | .ok (some t, next, unread) => (run steps next unread).cons t

/-- Read to the end of the source. -/
def tokens (lexer : Lexer) (cs : List Char) : TokenStream := run cs.length lexer cs

end Lexer

/-! ## Whole sources -/

/-- The tokens of a fragment. -/
def fragmentTokens (source : List Char) : TokenStream :=
  Lexer.tokens ⟨.content, 0, false⟩ source

/-- The tokens of a document, which may open with a byte order mark and a declaration. -/
def documentTokens (source : List Char) : TokenStream :=
  let body := match source with
    | '\uFEFF' :: cs => cs
    | cs => cs
  let lexer : Lexer := ⟨.prolog, 0, true⟩
  if startsWith "<?xml " body then
    match Lexer.read .declaration Token.declaration body with
    | .error fault => ⟨[], some fault⟩
    | .ok (t, unread) => (lexer.tokens unread).cons t
  else lexer.tokens body

end Formwork.Markup
