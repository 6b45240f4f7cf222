import Formwork.Text.Position

/-!
# Faults of markup below the level of tags

What can be wrong with the characters of a piece of markup.  A fault speaks of
places; its type leaves open how a place is given.  While a source is being read a
place is a `Mark`, the number of characters not yet read; before a fault is shown
every mark is resolved to a `Position` of the source (`Fault.map`).

A character that was found in place of an expected one is shown by the first byte
of its UTF-8 form, read as a character of its own.
-/

namespace Formwork.Markup

set_option autoImplicit false

/-- A place in a source, given by the number of characters behind it. -/
abbrev Mark := Nat

/-- Why a piece of markup could not be read. -/
inductive Cause (ρ : Type) where
  | endOfInput
  | invalidName
  | nonMarkupChar (found : Char) (place : ρ)
  | expectedChar (wanted : List Char) (found : Char) (place : ρ)
  | expectedQuote (found : Char) (place : ρ)
  | expectedSpace (found : Char) (place : ρ)
  | expectedText (wanted : List String) (place : ρ)
  | invalidExternalId
  | doubleHyphen
  | finalHyphen
  | sectionEndInText
  deriving DecidableEq, Repr

/-- The pieces of markup that are read as a whole. -/
inductive Construct where
  | declaration
  | comment
  | instruction
  | doctype
  | entity
  | element
  | attr
  | cdata
  | characters
  deriving DecidableEq, Repr

/-- A piece of markup that could not be read, and where it begins. -/
inductive Fault (ρ : Type) where
  | invalid (what : Construct) (place : ρ) (cause : Cause ρ)
  | unknownToken (place : ρ)
  deriving DecidableEq, Repr

/-! ## Changing how places are given -/

/-- Give the place inside a cause in another way. -/
def Cause.map {ρ σ : Type} (f : ρ → σ) : Cause ρ → Cause σ
  | .endOfInput => .endOfInput
  | .invalidName => .invalidName
  | .nonMarkupChar c p => .nonMarkupChar c (f p)
  | .expectedChar w c p => .expectedChar w c (f p)
  | .expectedQuote c p => .expectedQuote c (f p)
  | .expectedSpace c p => .expectedSpace c (f p)
  | .expectedText w p => .expectedText w (f p)
  | .invalidExternalId => .invalidExternalId
  | .doubleHyphen => .doubleHyphen
  | .finalHyphen => .finalHyphen
  | .sectionEndInText => .sectionEndInText

/-- Give the places inside a fault in another way. -/
def Fault.map {ρ σ : Type} (f : ρ → σ) : Fault ρ → Fault σ
  | .invalid what place cause => .invalid what (f place) (cause.map f)
  | .unknownToken place => .unknownToken (f place)

/-- Where the faulty piece begins. -/
def Fault.place {ρ : Type} : Fault ρ → ρ
  | .invalid _ place _ => place
  | .unknownToken place => place

/-! ## Messages -/

/-- The first byte of the UTF-8 form of a character, as a character. -/
def leadByte (c : Char) : Char :=
  let n := c.toNat
  if n < 0x80 then c
  else if n < 0x800 then Char.ofNat (0xC0 + n / 0x40)
  else if n < 0x10000 then Char.ofNat (0xE0 + n / 0x1000)
  else Char.ofNat (0xF0 + n / 0x40000)

/-- A character that may not occur in markup, by its number. -/
def codeText (c : Char) : String :=
  if c.toNat = 0 then "'\\0'"
  else "'\\u\x7b" ++ String.ofList (Nat.toDigits 16 c.toNat) ++ "\x7d'"

/-- Alternatives as they are listed in messages. -/
def alternatives (wanted : List String) : String := "'" ++ "', '".intercalate wanted ++ "'"

/-- A cause in words. -/
def Cause.message : Cause Position → String
  | .endOfInput => "unexpected end of stream"
  | .invalidName => "invalid name token"
  | .nonMarkupChar c p => p.annotate ("a non-XML character " ++ codeText c ++ " found")
  | .expectedChar wanted c p =>
    p.annotate s!"expected {alternatives (wanted.map Char.toString)} not '{leadByte c}'"
  | .expectedQuote c p => p.annotate s!"expected quote mark not '{leadByte c}'"
  | .expectedSpace c p => p.annotate s!"expected space not '{leadByte c}'"
  | .expectedText wanted p => p.annotate s!"expected {alternatives wanted}"
  | .invalidExternalId => "invalid ExternalID"
  | .doubleHyphen => "'--' is not allowed in comments"
  | .finalHyphen => "comment cannot end with '-'"
  | .sectionEndInText => "']]>' is not allowed inside a character data"

/-- What is invalid, in words. -/
def Construct.text : Construct → String
  | .declaration => "XML declaration"
  | .comment => "comment"
  | .instruction => "processing instruction"
  | .doctype => "DTD"
  | .entity => "DTD entity"
  | .element => "element"
  | .attr => "attribute"
  | .cdata => "CDATA"
  | .characters => "character data"

/-- A fault in words. -/
def Fault.message : Fault Position → String
  | .invalid what place cause =>
    place.annotate ("invalid " ++ what.text) ++ " cause " ++ cause.message
  | .unknownToken place => place.annotate "unknown token"

end Formwork.Markup
