import Formwork.Cache.Basic

/-!
# Hashing caches

A hash is computed from bytes.  A value writes its parts one after the other: a text as
its UTF-8 bytes and one byte that no text contains, a count as eight bytes, and before
every item its kind.  The payload of a composite writes what it likes.

Texts end themselves and counts have a fixed width, but nothing says where the parts of a
payload end.  So caches whose payloads write different numbers of parts can write the
same bytes.
-/

namespace Formwork.Cache

set_option autoImplicit false

variable {α : Type}

/-- A part of what a value writes when it is hashed. -/
inductive HashWrite where
  | text (content : String)
  | count (n : Nat)
  | isText
  | isComposite
  deriving DecidableEq, Repr

/-- A number in so many bytes, the lowest first. -/
def littleEndian : Nat → Nat → List UInt8
  | 0, _ => []
  | width + 1, n => UInt8.ofNat n :: littleEndian width (n / 256)

/-- How many bytes a count takes. -/
def countWidth : Nat := 8

/-- The byte behind a text; it occurs in no UTF-8 text. -/
def textEnd : UInt8 := 0xff

/-- The bytes of a part. -/
def HashWrite.bytes : HashWrite → List UInt8
  | .text content => content.toList.flatMap String.utf8EncodeChar ++ [textEnd]
  | .count n => littleEndian countWidth n
  | .isText => littleEndian countWidth 0
  | .isComposite => littleEndian countWidth 1

mutual
/-- What an item writes when it is hashed, given what its payloads write. -/
def Item.hashWrites (writes : α → List HashWrite) : Item α → List HashWrite
  | .text run => [.isText, .text run]
  | .composite payload items =>
    .isComposite :: (writes payload ++ .count items.length :: itemsHashWrites writes items)

/-- What some items write when they are hashed one after the other. -/
def itemsHashWrites (writes : α → List HashWrite) : List (Item α) → List HashWrite
  | [] => []
  | item :: items => item.hashWrites writes ++ itemsHashWrites writes items
end

namespace Composite

/-- What a composite writes when it is hashed: its payload, the length of its content and its
content. -/
def hashWrites (writes : α → List HashWrite) (c : Composite α) : List HashWrite :=
  writes c.payload ++ .count c.items.length :: itemsHashWrites writes c.items

/-- The bytes from which the hash of a composite is computed. -/
def hashBytes (writes : α → List HashWrite) (c : Composite α) : List UInt8 :=
  (c.hashWrites writes).flatMap HashWrite.bytes

end Composite

end Formwork.Cache
