/-!
# Caches of static and dynamic content

A cache is what remains of a tree once everything static has been written out: runs
of text, and between them composites, which stand for the dynamic elements and hold
the cache of their content.  A composite carries a payload that says how to bring it
to life later.

Contents are grown by `Composite.push`, which drops empty text and joins a text with
the text before it.  So however the static text was cut, the same content always
gives the same cache, without empty and without adjacent runs.
-/

namespace Formwork.Cache

set_option autoImplicit false

/-! ## Data -/

/-- An item of a cache: static text, or a composite with its own items. -/
inductive Item (α : Type) where
  | text (run : String)
  | composite (payload : α) (items : List (Item α))
  deriving Inhabited

/-- A dynamic element with its compiled content. -/
structure Composite (α : Type) where
  payload : α
  items : List (Item α)
  deriving Inhabited

variable {α : Type}

/-- A composite seen as an item. -/
def Composite.toItem (c : Composite α) : Item α := .composite c.payload c.items

/-- A composite without content. -/
def Composite.leaf (payload : α) : Composite α := ⟨payload, []⟩

/-! ## Growing -/

/-- Add text behind some items: nothing for the empty text, and no new item behind a text. -/
def appendText : List (Item α) → String → List (Item α)
  | [], run => if run = "" then [] else [.text run]
  | [.text before], run => [.text (before ++ run)]
  | item :: items, run => item :: appendText items run

/-- Add an item behind some items. -/
def appendItem (items : List (Item α)) : Item α → List (Item α)
  | .text run => appendText items run
  | item => items ++ [item]

/-- Add text to the content of a composite. -/
def Composite.pushText (c : Composite α) (run : String) : Composite α :=
  { c with items := appendText c.items run }

/-- Add an item to the content of a composite. -/
def Composite.push (c : Composite α) (item : Item α) : Composite α :=
  { c with items := appendItem c.items item }

/-! ## Measuring -/

mutual
/-- The text of an item, in document order. -/
def Item.allText : Item α → String
  | .text run => run
  | .composite _ items => textOf items

/-- The text of some items, in document order. -/
def textOf : List (Item α) → String
  | [] => ""
  | item :: items => item.allText ++ textOf items
end

mutual
/-- How many composites lie on the longest path into an item, itself included. -/
def Item.height : Item α → Nat
  | .text _ => 0
  | .composite _ items => heightOf items + 1

/-- The greatest height of some items. -/
def heightOf : List (Item α) → Nat
  | [] => 0
  | item :: items => max item.height (heightOf items)
end

namespace Composite

/-- All static text of a composite, in document order. -/
def text (c : Composite α) : String := textOf c.items

/-- How deeply composites are nested below a composite. -/
def depth (c : Composite α) : Nat := heightOf c.items

/-- How many items the content has. -/
def size (c : Composite α) : Nat := c.items.length

/-- Whether there is no content. -/
def isEmpty (c : Composite α) : Bool := c.items.isEmpty

end Composite

/-! ## Comparing -/

mutual
/-- Whether two items are equal when payloads are compared by `same`. -/
def Item.agrees (same : α → α → Bool) : Item α → Item α → Bool
  | .text run, .text run' => run == run'
  | .composite payload items, .composite payload' items' =>
    same payload payload' && itemsAgree same items items'
  | _, _ => false

/-- Whether two lists of items are equal when payloads are compared by `same`. -/
def itemsAgree (same : α → α → Bool) : List (Item α) → List (Item α) → Bool
  | [], [] => true
  | item :: items, item' :: items' => item.agrees same item' && itemsAgree same items items'
  | _, _ => false
end

/-- Whether two composites are equal when payloads are compared by `same`. -/
def Composite.agrees (same : α → α → Bool) (c d : Composite α) : Bool :=
  same c.payload d.payload && itemsAgree same c.items d.items

end Formwork.Cache
