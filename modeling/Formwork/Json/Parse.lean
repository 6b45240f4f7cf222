import Formwork.Json.Basic

/-!
# Reading JSON

Reading is strict: no comments, no trailing commas, no control characters inside a text, and
no half of a surrogate pair without the other.  A text of numbers or truth values is refused,
because no value stands for it.

Every value takes at least one character, so values are nested at most as deep as there are
characters.
-/

namespace Formwork.Json

set_option autoImplicit false

/-- White space between the parts of a value. -/
def isSpace (c : Char) : Bool := c == ' ' || c == '\t' || c == '\n' || c == '\r'

/-- Pass over white space. -/
def skipSpace (cs : List Char) : List Char := cs.dropWhile isSpace

/-! ## Texts -/

/-- The value of a hexadecimal digit. -/
def hexDigit? (c : Char) : Option Nat :=
  if c.isDigit then some (c.toNat - '0'.toNat)
  else if 'a' ≤ c ∧ c ≤ 'f' then some (c.toNat - 'a'.toNat + 10)
  else if 'A' ≤ c ∧ c ≤ 'F' then some (c.toNat - 'A'.toNat + 10)
  else none

/-- The number written by four hexadecimal digits. -/
def hexNumber? (a b c d : Char) : Option Nat := do
  return (((← hexDigit? a) * 16 + (← hexDigit? b)) * 16 + (← hexDigit? c)) * 16 + (← hexDigit? d)

/-- The character that a short escape stands for. -/
def shortEscape? (c : Char) : Option Char :=
  match c with
  | '"' | '\\' | '/' => some c
  | 'b' => some (Char.ofNat 8)
  | 'f' => some (Char.ofNat 12)
  | 'n' => some '\n'
  | 'r' => some '\r'
  | 't' => some '\t'
  | _ => none

/-- Read a text behind its opening quote. -/
def readText : List Char → Option (List Char × List Char)
  | [] => none
  | '"' :: cs => some ([], cs)
  | '\\' :: 'u' :: a :: b :: c :: d :: cs =>
    match hexNumber? a b c d with
    | none => none
    | some high =>
      if high < 0xD800 ∨ 0xDFFF < high then
        (readText cs).map fun (run, rest) => (Char.ofNat high :: run, rest)
      else match cs with
        | '\\' :: 'u' :: a :: b :: c :: d :: cs =>
          match hexNumber? a b c d with
          | none => none
          | some low =>
            if high < 0xDC00 ∧ 0xDC00 ≤ low ∧ low ≤ 0xDFFF then
              let n := 0x10000 + (high - 0xD800) * 0x400 + (low - 0xDC00)
              (readText cs).map fun (run, rest) => (Char.ofNat n :: run, rest)
            else none
        | _ => none
  | '\\' :: c :: cs =>
    match shortEscape? c with
    | none => none
    | some c => (readText cs).map fun (run, rest) => (c :: run, rest)
  | c :: cs =>
    if c.toNat < 0x20 ∨ c = '\\' then none
    else (readText cs).map fun (run, rest) => (c :: run, rest)

/-! ## Values -/

mutual
/-- Read a value nested at most so deep. -/
def readValue : Nat → List Char → Option (Json × List Char)
  | 0, _ => none
  | depth + 1, cs =>
    match skipSpace cs with
    | '"' :: cs => (readText cs).map fun (run, rest) => (.text (String.ofList run), rest)
    | 'n' :: 'u' :: 'l' :: 'l' :: cs => some (.null, cs)
    | '[' :: cs =>
      match skipSpace cs with
      | ']' :: cs => some (.list [], cs)
      | _ => (readItems depth cs).map fun (items, rest) => (.list items, rest)
    | '\x7b' :: cs =>
      match skipSpace cs with
      | '\x7d' :: cs => some (.table [], cs)
      | _ => (readEntries depth cs).map fun (entries, rest) => (.table entries, rest)
    | _ => none

/-- Read the items of a list that has some, up to its end. -/
def readItems : Nat → List Char → Option (List Json × List Char)
  | 0, _ => none
  | depth + 1, cs => do
    let (item, cs) ← readValue depth cs
    match skipSpace cs with
    | ']' :: cs => return ([item], cs)
    | ',' :: cs =>
      let (items, cs) ← readItems depth cs
      return (item :: items, cs)
    | _ => none

/-- Read the entries of a table that has some, up to its end. -/
def readEntries : Nat → List Char → Option (List (String × Json) × List Char)
  | 0, _ => none
  | depth + 1, cs => do
    let '"' :: cs := skipSpace cs | none
    let (key, cs) ← readText cs
    let ':' :: cs := skipSpace cs | none
    let (value, cs) ← readValue depth cs
    let entry := (String.ofList key, value)
    match skipSpace cs with
    | '\x7d' :: cs => return ([entry], cs)
    | ',' :: cs =>
      let (entries, cs) ← readEntries depth cs
      return (entry :: entries, cs)
    | _ => none
end

/-- Read a whole text as one value. -/
def parse? (text : String) : Option Json := do
  let cs := text.toList
  let (value, rest) ← readValue (2 * cs.length + 2) cs
  if (skipSpace rest).isEmpty then return value else none

end Formwork.Json
