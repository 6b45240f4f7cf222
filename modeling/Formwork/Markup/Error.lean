import Formwork.Markup.Fault

/-!
# Why markup is refused

A source of markup is refused for one of a few causes, at one position.  Causes
fall into kinds, which have fixed names; the wording of a cause is given by
`ErrorCause.message`, and `Error.text` adds the position.
-/

namespace Formwork.Markup

set_option autoImplicit false

/-- The kinds of errors. -/
inductive ErrorKind where
  | malformed
  | mismatchedTag
  | unclosedElement
  | unboundQualifier
  | invalidReference
  | missingRoot
  deriving DecidableEq, Repr

/-- All kinds of errors. -/
def ErrorKind.all : List ErrorKind :=
  [.malformed, .mismatchedTag, .unclosedElement, .unboundQualifier, .invalidReference, .missingRoot]

/-- The name of a kind. -/
def ErrorKind.name : ErrorKind → String
  | .malformed => "syntax"
  | .mismatchedTag => "mismatched-tag"
  | .unclosedElement => "unclosed-element"
  | .unboundQualifier => "unbound-prefix"
  | .invalidReference => "invalid-entity"
  | .missingRoot => "missing-root"

/-- The kind with a name. -/
def ErrorKind.ofName? (name : String) : Option ErrorKind := all.find? fun k => k.name = name

/-- What is wrong with a source. -/
inductive ErrorCause where
  /-- The lexer found no token. -/
  | fault (fault : Fault Position)
  /-- A tag ends that never began. -/
  | endWithoutStart
  /-- An end tag names another element than the innermost open one. -/
  | mismatched (opened closed : String)
  /-- An end tag stands where no element is open. -/
  | unexpectedEndTag (closed : String)
  /-- The source ends inside an element. -/
  | unclosed (opened : String)
  /-- A qualifier is used that no declaration in scope declares. -/
  | unbound (qualifier : String)
  /-- A `&` begins no reference. -/
  | badReference (name : String)
  /-- A document holds no element. -/
  | noRoot
  deriving DecidableEq, Repr

/-- The kind of a cause. -/
def ErrorCause.kind : ErrorCause → ErrorKind
  | .fault _ => .malformed
  | .endWithoutStart => .malformed
  | .mismatched _ _ => .mismatchedTag
  | .unexpectedEndTag _ => .mismatchedTag
  | .unclosed _ => .unclosedElement
  | .unbound _ => .unboundQualifier
  | .badReference _ => .invalidReference
  | .noRoot => .missingRoot

/-- A cause in words. -/
def ErrorCause.message : ErrorCause → String
  | .fault f => f.message
  | .endWithoutStart => "Element end without start"
  | .mismatched opened closed => s!"Expected </{opened}>, found </{closed}>"
  | .unexpectedEndTag closed => s!"Unexpected close tag </{closed}>"
  | .unclosed opened => s!"Unclosed element <{opened}>"
  | .unbound qualifier => s!"Unbound namespace prefix '{qualifier}'"
  | .badReference name => s!"Invalid entity reference '&{name};'"
  | .noRoot => "Document has no root element"

/-- A cause and the position it was found at. -/
structure Error where
  cause : ErrorCause
  position : Position
  deriving DecidableEq, Repr

/-- The kind of an error. -/
def Error.kind (e : Error) : ErrorKind := e.cause.kind

/-- An error in words, with its position. -/
def Error.text (e : Error) : String := e.position.annotate e.cause.message

end Formwork.Markup
