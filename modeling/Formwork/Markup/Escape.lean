/-!
# Escaping

Text is written into markup with `&`, `<` and `>` replaced by entity references;
an attribute value has the quote that surrounds it replaced as well.  Each
character is treated on its own, so escaping distributes over appending.
-/

namespace Formwork.Markup

set_option autoImplicit false

/-- The two marks an attribute value can be quoted with. -/
inductive Quote where
  | single
  | double
  deriving DecidableEq, Repr

/-- The quote mark itself. -/
def Quote.char : Quote → Char
  | .single => '\''
  | .double => '"'

/-- The reference that stands for the quote mark inside a value. -/
def Quote.reference : Quote → String
  | .single => "&apos;"
  | .double => "&quot;"

namespace Escape

/-- How one character of a text is written. -/
def textChar : Char → List Char
  | '&' => "&amp;".toList
  | '<' => "&lt;".toList
  | '>' => "&gt;".toList
  | c => [c]

/-- How one character of a quoted value is written. -/
def valueChar (quote : Quote) (c : Char) : List Char :=
  if c = quote.char then quote.reference.toList else textChar c

/-- The written form of a text. -/
def text (s : String) : String := String.ofList (s.toList.flatMap textChar)

/-- The written form of an attribute value between the given quotes, which are not included. -/
def value (quote : Quote) (s : String) : String :=
  String.ofList (s.toList.flatMap (valueChar quote))

/-- An attribute as it stands in a start tag, with the space before it. -/
def attr (quote : Quote) (name content : String) : String :=
  " " ++ name ++ "=" ++ quote.char.toString ++ value quote content ++ quote.char.toString

end Escape

end Formwork.Markup
