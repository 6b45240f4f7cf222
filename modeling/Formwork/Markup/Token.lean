import Formwork.Markup.Scan

/-!
# Tokens of markup

A source of markup is cut into tokens: the parts of start tags, end tags, runs of
characters, and asides (comments, instructions, declarations) that carry nothing
for the tree.  This module reads single tokens; the order in which they may follow
one another is the business of the lexer.

Values and characters are kept as written, with their references not yet decoded,
together with the mark of their first character, so that a bad reference can be
located later.
-/

namespace Formwork.Markup

set_option autoImplicit false

/-- A part of a source of markup. -/
inductive Token where
  /-- A start tag up to its name; the mark is that of its `<`. -/
  | startTag (name : QName) (mark : Mark)
  /-- An attribute of the start tag being read; the mark is that of its value. -/
  | attr (name : QName) (value : List Char) (mark : Mark)
  /-- The end of a start tag; an empty element has no end tag. -/
  | tagEnd (isEmpty : Bool)
  /-- An end tag; the mark is that of its `<`. -/
  | endTag (name : QName) (mark : Mark)
  /-- Characters between tags. -/
  | characters (raw : List Char) (mark : Mark)
  /-- Characters in which nothing is a reference. -/
  | cdata (content : List Char)
  /-- A comment, an instruction or a declaration. -/
  | aside
  deriving DecidableEq, Repr

namespace Token

/-! ## Asides -/

/-- A comment; its text holds no two hyphens in a row and does not end in one. -/
def comment : Scan Token := do
  Scan.skip 4
  let text ← Scan.upTo (startsWith "-->")
  Scan.literal "-->"
  if holds "--" text then throw .doubleHyphen
  if text.getLast? = some '-' then throw .finalHyphen
  return .aside

/-- A processing instruction. -/
def instruction : Scan Token := do
  Scan.skip 2
  let _ ← Scan.name
  Scan.optionalSpace
  let _ ← Scan.upTo (startsWith "?>")
  Scan.literal "?>"
  return .aside

/-- In a declaration, space must separate the parts that are there. -/
def declarationSpace : Scan Unit := do
  match ← get with
  | [] => return
  | c :: cs =>
    if isSpace c then Scan.optionalSpace
    else if startsWith "?>" (c :: cs) then return
    else throw (.expectedSpace c (cs.length + 1))

/-- The declaration that may open a document. -/
def declaration : Scan Token := do
  Scan.skip 6
  Scan.optionalSpace
  Scan.literal "version"
  Scan.equals
  let mark ← Scan.quote
  Scan.literal "1."
  let _ ← Scan.takeWhile Char.isDigit
  Scan.char mark
  declarationSpace
  if ← Scan.sees "encoding" then
    Scan.skip 8
    Scan.equals
    let mark ← Scan.quote
    let _ ← Scan.takeWhile fun c => c.isAlphanum || c == '.' || c == '-' || c == '_'
    Scan.char mark
    declarationSpace
  if ← Scan.sees "standalone" then
    Scan.skip 10
    Scan.equals
    let mark ← Scan.quote
    let place := (← get).length
    let answer ← Scan.name
    unless answer = "yes".toList ∨ answer = "no".toList do
      throw (.expectedText ["yes", "no"] place)
    Scan.char mark
  Scan.optionalSpace
  Scan.literal "?>"
  return .aside

/-! ## Document types -/

/-- Where the rest of a document type or of an entity can be found; false when nothing is said. -/
def externalId : Scan Bool := do
  if ← Scan.sees "SYSTEM" then
    Scan.skip 6
    Scan.space
    Scan.quoted
    return true
  else if ← Scan.sees "PUBLIC" then
    Scan.skip 6
    Scan.space
    Scan.quoted
    Scan.space
    Scan.quoted
    return true
  else return false

/-- The front part of a document type; true when declarations follow in brackets. -/
def doctype : Scan Bool := do
  Scan.skip 9
  Scan.space
  let _ ← Scan.name
  Scan.optionalSpace
  let _ ← externalId
  Scan.optionalSpace
  match ← get with
  | [] => throw .endOfInput
  | c :: cs =>
    if c = '[' ∨ c = '>' then set cs; return c = '['
    else throw (.expectedChar ['[', '>'] c (cs.length + 1))

/-- The closing bracket of a document type and the end of its tag. -/
def doctypeEnd : Scan Token := do
  Scan.skip 1
  Scan.optionalSpace
  Scan.char '>'
  return .aside

/-- What an entity stands for; a general entity may name a notation behind its external part. -/
def entityDefinition (general : Bool) : Scan Unit := do
  match ← get with
  | [] => throw .endOfInput
  | c :: cs =>
    if c = '"' ∨ c = '\'' then Scan.quoted
    else if c = 'S' ∨ c = 'P' then
      unless ← externalId do throw .invalidExternalId
      if general then
        Scan.optionalSpace
        if ← Scan.sees "NDATA" then
          Scan.skip 5
          Scan.space
          let _ ← Scan.optionalName
    else throw (.expectedChar ['"', '\'', 'S', 'P'] c (cs.length + 1))

/-- The declaration of an entity. -/
def entity : Scan Token := do
  Scan.skip 8
  Scan.space
  let general := !(← Scan.sees "%")
  unless general do
    Scan.skip 1
    Scan.space
  let _ ← Scan.name
  Scan.space
  entityDefinition general
  Scan.optionalSpace
  Scan.char '>'
  return .aside

/-- A declaration that is passed over unread. -/
def passedDeclaration : Scan Unit := do
  let _ ← Scan.takeWhile (· ≠ '>')
  Scan.char '>'

/-! ## Elements -/

/-- A start tag up to its name. -/
def startOfTag : Scan Token := do
  let mark := (← get).length
  Scan.skip 1
  return .startTag (← Scan.qname) mark

/-- The next attribute of a start tag, or the end of the tag.  An attribute is separated by
space from what stands before it. -/
def inTag : Scan Token := do
  let before ← get
  let spaced := before.head?.any isSpace
  Scan.optionalSpace
  match ← get with
  | '/' :: cs =>
    set cs
    Scan.char '>'
    return .tagEnd true
  | '>' :: cs =>
    set cs
    return .tagEnd false
  | [] => if !spaced then throw .endOfInput
  | c :: _ => if !spaced then throw (.expectedSpace c before.length)
  let name ← Scan.qname
  Scan.equals
  let quote ← Scan.quote
  let mark := (← get).length
  let value ← Scan.upTo fun cs => cs.head?.any fun c => c == quote || c == '<'
  Scan.char quote
  return .attr name value mark

/-- An end tag. -/
def endOfElement : Scan Token := do
  let mark := (← get).length
  Scan.skip 2
  let name ← Scan.qname
  Scan.optionalSpace
  Scan.char '>'
  return .endTag name mark

/-- A section in which nothing is markup. -/
def cdataSection : Scan Token := do
  Scan.skip 9
  let content ← Scan.upTo (startsWith "]]>")
  Scan.literal "]]>"
  return .cdata content

/-- Characters up to the next tag; the end of a section may not stand among them. -/
def text : Scan Token := do
  let mark := (← get).length
  let raw ← Scan.upTo (startsWith "<")
  if holds "]]>" raw then throw .sectionEndInText
  return .characters raw mark

end Token

end Formwork.Markup
