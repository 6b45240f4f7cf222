/-!
# A small part of JSON

Settings and reports need texts, lists and tables, and the value `null`; numbers and truth
values do not occur in them.  A table is kept as it is written, with repeated keys and in
order.

A value is written on one line without spaces.  In a text, quotes, backslashes and the
control characters below U+0020 are escaped; everything else stands for itself.
-/

namespace Formwork

set_option autoImplicit false

/-- A JSON value without numbers and truth values. -/
inductive Json where
  | null
  | text (content : String)
  | list (items : List Json)
  | table (entries : List (String × Json))
  deriving Inhabited

namespace Json

/-- How one character of a text is written. -/
def escapeChar (c : Char) : List Char :=
  if c = '"' then ['\\', '"']
  else if c = '\\' then ['\\', '\\']
  else if c = '\n' then ['\\', 'n']
  else if c = '\r' then ['\\', 'r']
  else if c = '\t' then ['\\', 't']
  else if c.toNat = 8 then ['\\', 'b']
  else if c.toNat = 12 then ['\\', 'f']
  else if c.toNat < 0x20 then
    ['\\', 'u', '0', '0', Nat.digitChar (c.toNat / 16), Nat.digitChar (c.toNat % 16)]
  else [c]

/-- A text in quotes. -/
def quote (s : String) : String := "\"" ++ String.ofList (s.toList.flatMap escapeChar) ++ "\""

mutual
/-- A value as JSON text. -/
def write : Json → String
  | .null => "null"
  | .text content => quote content
  | .list items => "[" ++ ",".intercalate (writeItems items) ++ "]"
  | .table entries => "\x7b" ++ ",".intercalate (writeEntries entries) ++ "\x7d"

/-- The items of a list, each as JSON text. -/
def writeItems : List Json → List String
  | [] => []
  | item :: items => item.write :: writeItems items

/-- The entries of a table, each as JSON text. -/
def writeEntries : List (String × Json) → List String
  | [] => []
  | (key, item) :: entries => (quote key ++ ":" ++ item.write) :: writeEntries entries
end

end Json

end Formwork
