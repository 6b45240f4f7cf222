import Formwork.Markup.Character
import Formwork.Markup.Name
import Formwork.Markup.Fault

/-!
# Reading the small parts of markup

A scan takes characters off the front of a source and returns what they mean, or
the cause for which they mean nothing.  A scan never looks at what was read before
it, so its answer depends on the unread characters alone; a place is reported as
the number of characters that were unread there.

The scans of this module read the parts that tags, comments and declarations are
made of: fixed texts, space, quotes, names, and runs of characters up to a stop.
-/

namespace Formwork.Markup

set_option autoImplicit false

/-- Take characters off the front of a source. -/
abbrev Scan (α : Type) := StateT (List Char) (Except (Cause Mark)) α

/-- Whether `cs` begins with a text. -/
def startsWith (text : String) (cs : List Char) : Bool := text.toList.isPrefixOf cs

/-- Whether a text occurs anywhere in `cs`. -/
def holds (text : String) : List Char → Bool
  | [] => startsWith text []
  | c :: cs => startsWith text (c :: cs) || holds text cs

namespace Scan

/-! ## Fixed parts -/

/-- Whether the unread characters begin with a text. -/
def sees (text : String) : Scan Bool := return startsWith text (← get)

/-- Pass over a number of characters. -/
def skip (count : Nat) : Scan Unit := modify (List.drop count)

/-- Read exactly one given character. -/
def char (wanted : Char) : Scan Unit := do
  match ← get with
  | [] => throw .endOfInput
  | c :: cs =>
    if c = wanted then set cs else throw (.expectedChar [wanted] c (cs.length + 1))

/-- Read exactly a given text. -/
def literal (text : String) : Scan Unit := do
  let cs ← get
  if startsWith text cs then set (cs.drop text.length)
  else throw (.expectedText [text] cs.length)

/-! ## Space and quotes -/

/-- Pass over space, if there is any. -/
def optionalSpace : Scan Unit := modify (List.dropWhile isSpace)

/-- Pass over at least one space. -/
def space : Scan Unit := do
  match ← get with
  | [] => throw .endOfInput
  | c :: cs =>
    if isSpace c then set (cs.dropWhile isSpace) else throw (.expectedSpace c (cs.length + 1))

/-- Read a quote mark of either kind and return it. -/
def quote : Scan Char := do
  match ← get with
  | [] => throw .endOfInput
  | c :: cs =>
    if c = '\'' ∨ c = '"' then set cs; return c else throw (.expectedQuote c (cs.length + 1))

/-- Read an equals sign with optional space around it. -/
def equals : Scan Unit := do
  optionalSpace
  char '='
  optionalSpace

/-! ## Runs of characters -/

/-- The longest front part whose characters satisfy `p`. -/
def takeWhile (p : Char → Bool) : Scan (List Char) := do
  let cs ← get
  set (cs.dropWhile p)
  return cs.takeWhile p

/-- The front part before the first place where `stop` holds of the unread characters, or
everything.  Every character up to and including that place must be a character of markup. -/
def runUntil (stop : List Char → Bool) : List Char → Except (Cause Mark) (List Char × List Char)
  | [] => .ok ([], [])
  | c :: cs =>
    if isMarkupChar c then
      if stop (c :: cs) then .ok ([], c :: cs)
      else (runUntil stop cs).map fun (run, unread) => (c :: run, unread)
    else .error (.nonMarkupChar c (cs.length + 1))

/-- Read characters of markup up to the first place where `stop` holds. -/
def upTo (stop : List Char → Bool) : Scan (List Char) := fun cs => runUntil stop cs

/-- Read anything between two equal quote marks. -/
def quoted : Scan Unit := do
  let mark ← quote
  let _ ← takeWhile (· ≠ mark)
  char mark

/-! ## Names -/

/-- Read a name; at the end of the source it is empty. -/
def optionalName : Scan (List Char) := do
  match ← get with
  | [] => return []
  | c :: _ => if isNameStart c then takeWhile isNameChar else throw .invalidName

/-- Read a name. -/
def name : Scan (List Char) := do
  let cs ← optionalName
  if cs.isEmpty then throw .invalidName
  return cs

/-- The qualified name that a run of name characters spells: at most one colon, and both parts
begin as names do; only the part before the colon may be empty. -/
def qnameOf? (run : List Char) : Option QName :=
  let (qualifier, localName) :=
    if ':' ∈ run then (run.takeWhile (· ≠ ':'), (run.dropWhile (· ≠ ':')).drop 1) else ([], run)
  let begins := fun cs : List Char => cs.head?.any isNameStart
  if ':' ∉ localName ∧ (qualifier = [] ∨ begins qualifier) ∧ begins localName then
    some ⟨String.ofList qualifier, String.ofList localName⟩
  else none

/-- Read a qualified name. -/
def qname : Scan QName := do
  match qnameOf? (← takeWhile isNameChar) with
  | some n => return n
  | none => throw .invalidName

end Scan

end Formwork.Markup
