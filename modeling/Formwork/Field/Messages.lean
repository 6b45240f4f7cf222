import Formwork.OrderedMap
import Formwork.Text.Blank

/-!
# Localized messages

Messages are read from a text with one message a line.  A line is trimmed; blank lines and
lines that begin with `#` say nothing.  The key ends at the first `=`, or at the first
space when there is no `=`, or at the first tab when there is neither; a line without any
of them is a key with an empty message.  The last line for a key counts.
-/

namespace Formwork

set_option autoImplicit false

/-- Messages by their keys. -/
abbrev Messages := OrderedMap String String

namespace Messages

/-- The lines of a text; both a newline and a carriage return end a line. -/
def lines : List Char → List (List Char)
  | [] => [[]]
  | c :: cs =>
    if c = '\n' ∨ c = '\r' then [] :: lines cs
    else match lines cs with
      | [] => [[c]]
      | line :: rest => (c :: line) :: rest

/-- Cut a line at the first occurrence of a character, which belongs to neither part. -/
def cutAt? (mark : Char) (line : List Char) : Option (List Char × List Char) :=
  if mark ∈ line then some (line.takeWhile (· ≠ mark), (line.dropWhile (· ≠ mark)).drop 1)
  else none

/-- Key and message of a trimmed line. -/
def entry (line : List Char) : String × String :=
  match cutAt? '=' line <|> cutAt? ' ' line <|> cutAt? '\t' line with
  | some (key, message) => (String.ofList (Text.trim key), String.ofList (Text.trim message))
  | none => (String.ofList line, "")

/-- Key and message of a line, if it says anything. -/
def entry? (line : List Char) : Option (String × String) :=
  let line := Text.trim line
  if line.isEmpty ∨ line.head? = some '#' then none else some (entry line)

/-- Read messages from a text. -/
def parse (text : String) : Messages := OrderedMap.ofList ((lines text.toList).filterMap entry?)

end Messages

end Formwork
