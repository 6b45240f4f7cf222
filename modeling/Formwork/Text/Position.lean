/-!
# Places in a text

A place in a text is reported to people as a line and a column, both counted
from one; columns count characters, and a line ends after its `'\n'`.  A reader
that walks over a text knows how many characters are still unread; `ofUnread`
turns that count into a position of the whole source, and `ofByteOffset` does the
same for an offset into the UTF-8 form of the text.
-/

namespace Formwork

set_option autoImplicit false

/-- A line and a column, both counted from one. -/
structure Position where
  line : Nat
  column : Nat
  deriving DecidableEq, Repr, Inhabited

namespace Position

/-- Where every text begins. -/
def start : Position := ⟨1, 1⟩

/-- The position behind one more character. -/
def step (p : Position) (c : Char) : Position :=
  if c = '\n' then ⟨p.line + 1, 1⟩ else ⟨p.line, p.column + 1⟩

/-- The position behind the given characters. -/
def after (before : List Char) : Position := before.foldl step start

/-- The position of the place in `source` behind which `unread` characters follow. -/
def ofUnread (source : List Char) (unread : Nat) : Position :=
  after (source.take (source.length - unread))

/-- The characters that end at or before a byte offset. -/
def charsBefore : Nat → List Char → List Char
  | _, [] => []
  | offset, c :: cs =>
    if offset < c.utf8Size then [] else c :: charsBefore (offset - c.utf8Size) cs

/-- The position of a byte offset; offsets past the end mean the end. -/
def ofByteOffset (text : String) (offset : Nat) : Position :=
  after (charsBefore offset text.toList)

/-- The position as written in messages. -/
def text (p : Position) : String := s!"{p.line}:{p.column}"

/-- A message followed by the position it speaks of. -/
def annotate (p : Position) (message : String) : String := message ++ " at " ++ p.text

end Position

end Formwork
