import Formwork.Markup.Name

/-!
# Character references

In text and attribute values a character can be written as a reference: by one of
five names, or by its number in decimal or hexadecimal digits.  `decode` replaces
every reference by its character and leaves all else alone.  It fails at the first
`&` that begins no reference, and then reports what stood between that `&` and the
next `;`, or everything behind the `&` when no `;` follows.
-/

namespace Formwork.Markup.Reference

set_option autoImplicit false

/-- The value of a digit in a radix of at most sixteen. -/
def digit? (radix : Nat) (c : Char) : Option Nat :=
  let n :=
    if c.isDigit then c.toNat - '0'.toNat
    else if 'a' ≤ c ∧ c ≤ 'f' then c.toNat - 'a'.toNat + 10
    else if 'A' ≤ c ∧ c ≤ 'F' then c.toNat - 'A'.toNat + 10
    else radix
  if n < radix then some n else none

/-- The number written by at least one digit; a plus sign may precede the digits. -/
def number? (radix : Nat) (cs : List Char) : Option Nat :=
  let digits := match cs with
    | '+' :: ds => ds
    | ds => ds
  if digits.isEmpty then none
  else digits.foldlM (fun n c => (digit? radix c).map (n * radix + ·)) 0

/-- The character with a number, when there is one. -/
def scalar? (n : Nat) : Option Char := if n.isValidChar then some (Char.ofNat n) else none

/-- The character meant by what stands between `&` and `;`. -/
def char? : List Char → Option Char
  | '#' :: 'x' :: hex => (number? 16 hex).bind scalar?
  | '#' :: decimal => (number? 10 decimal).bind scalar?
  | name =>
    if name = "amp".toList then some '&'
    else if name = "lt".toList then some '<'
    else if name = "gt".toList then some '>'
    else if name = "quot".toList then some '"'
    else if name = "apos".toList then some '\''
    else none

/-- A `&` that begins no reference: the characters from it to the end of the text,
and what it was taken to name. -/
structure Fault where
  unread : Nat
  name : String
  deriving DecidableEq, Repr

/-- Decode a text.  `reading` is the reference being read, newest character first, with the
count of characters from its `&` to the end of the text. -/
def decodeFrom : Option (Nat × List Char) → List Char → Except Fault (List Char)
  | none, [] => .ok []
  | some (unread, name), [] => .error ⟨unread, String.ofList name.reverse⟩
  | none, '&' :: cs => decodeFrom (some (cs.length + 1, [])) cs
  | none, c :: cs => (decodeFrom none cs).map (c :: ·)
  | some (unread, name), ';' :: cs =>
    match char? name.reverse with
    | some c => (decodeFrom none cs).map (c :: ·)
    | none => .error ⟨unread, String.ofList name.reverse⟩
  | some (unread, name), c :: cs => decodeFrom (some (unread, c :: name)) cs

/-- Replace every reference of a text by its character. -/
def decode (cs : List Char) : Except Fault (List Char) := decodeFrom none cs

end Formwork.Markup.Reference
