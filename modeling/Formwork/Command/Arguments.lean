/-!
# Command-line arguments

The command takes the path of a document and a number of options.  An option is written in
full behind two hyphens or as one letter behind one; letters can be run together.  A value
follows as the next word, behind `=`, or directly behind a letter.  A word of two hyphens
makes everything behind it positional.

Words are read from left to right.  An option whose value is the next word is only checked
when the next option or path begins, or at the end; so a later word that is no argument at
all can be reported before a bad value that stands in front of it.
-/

namespace Formwork.Command

set_option autoImplicit false

/-! ## Data -/

/-- How a report is written. -/
inductive OutputFormat where
  | human
  | json
  deriving DecidableEq, Repr, Inhabited

/-- The format with a name. -/
def OutputFormat.ofName? : String → Option OutputFormat
  | "human" => some .human
  | "json" => some .json
  | _ => none

/-- What an argument can say. -/
inductive Item where
  | templates
  | messages
  | template
  | set
  | list
  | output
  | config
  | verbose
  | help
  | version
  deriving DecidableEq, Repr

/-- Why arguments are refused, or answered without running the command. -/
inductive UsageError where
  | missingArgument
  | unknownArgument
  | invalidValue
  | invalidAssignment
  | repeatedArgument
  | unneededValue
  | helpAsked
  | versionAsked
  deriving DecidableEq, Repr

/-- What was said so far; a document has been named once `templates` holds its path. -/
structure Arguments where
  templates : Option String
  messages : Option String
  template : Option String
  values : List (String × String)
  list : Bool
  output : Option OutputFormat
  config : Option String
  verbose : Bool
  deriving DecidableEq, Repr, Inhabited

namespace Arguments

/-- Nothing was said. -/
def none : Arguments := ⟨.none, .none, .none, [], false, .none, .none, false⟩

end Arguments

/-! ## Single items -/

namespace Item

/-- The option with a full name. -/
def ofName? : String → Option Item
  | "messages" => some .messages
  | "template" => some .template
  | "set" => some .set
  | "list" => some .list
  | "output" => some .output
  | "config" => some .config
  | "verbose" => some .verbose
  | "help" => some .help
  | "version" => some .version
  | _ => none

/-- The option with a letter. -/
def ofLetter? : Char → Option Item
  | 'm' => some .messages
  | 't' => some .template
  | 'v' => some .verbose
  | 'h' => some .help
  | 'V' => some .version
  | _ => none

/-- Whether an item has a value. -/
def takesValue : Item → Bool
  | .list | .verbose | .help | .version => false
  | _ => true

end Item

/-- Name and value of an assignment: the name ends at the first `=` and is not empty. -/
def parseAssignment? (text : String) : Option (String × String) :=
  let cs := text.toList
  let name := cs.takeWhile (· ≠ '=')
  if '=' ∈ cs ∧ name ≠ [] then
    some (String.ofList name, String.ofList ((cs.dropWhile (· ≠ '=')).drop 1))
  else none

/-- Why a text is no assignment, in words. -/
def assignmentMessage (text : String) : String := s!"expected NAME=VALUE, got '{text}'"

/-- A path is not empty. -/
def parsePath (text : String) : Except UsageError String :=
  if text = "" then .error .invalidValue else .ok text

/-- Store a value that can be given once. -/
def once {α : Type} (old : Option α) (new : Except UsageError α) : Except UsageError (Option α) :=
  if old.isSome then .error .repeatedArgument else new.map some

/-- Take in what an item says; `value` is missing when nothing followed an option that needs it. -/
def Arguments.take (a : Arguments) (item : Item) (value : Option String) :
    Except UsageError Arguments := do
  let value ← match value with
    | some value => pure value
    | .none => if item.takesValue then throw .invalidValue else pure ""
  match item with
  | .templates => return { a with templates := ← once a.templates (parsePath value) }
  | .messages => return { a with messages := ← once a.messages (parsePath value) }
  | .template => return { a with template := ← once a.template (.ok value) }
  | .config => return { a with config := ← once a.config (parsePath value) }
  | .output =>
    let format := match OutputFormat.ofName? value with
      | some format => .ok format
      | .none => .error .invalidValue
    return { a with output := ← once a.output format }
  | .set =>
    match parseAssignment? value with
    | some assignment => return { a with values := a.values ++ [assignment] }
    | .none => throw .invalidAssignment
  | .list => if a.list then throw .repeatedArgument else return { a with list := true }
  | .verbose => if a.verbose then throw .repeatedArgument else return { a with verbose := true }
  | .help => throw .helpAsked
  | .version => throw .versionAsked

/-! ## Words -/

/-- What has been read of a command line: what was said, and the item whose value was not
checked yet, with that value if it is known. -/
structure CommandLine where
  said : Arguments
  pending : Option (Item × Option String)

namespace CommandLine

/-- Nothing has been read. -/
def start : CommandLine := ⟨.none, .none⟩

/-- Check the pending item. -/
def settle (l : CommandLine) : Except UsageError CommandLine :=
  match l.pending with
  | .none => .ok l
  | some (item, value) => (l.said.take item value).map fun said => ⟨said, .none⟩

/-- Take in an item that stands with its value. -/
def give (l : CommandLine) (item : Item) (value : Option String) :
    Except UsageError CommandLine := do
  let l ← l.settle
  return { l with said := ← l.said.take item value }

/-- Begin an item whose value is checked later. -/
def defer (l : CommandLine) (item : Item) (value : Option String) :
    Except UsageError CommandLine := do
  return { ← l.settle with pending := some (item, value) }

/-- Read an option written in full, without its hyphens. -/
def takeLong (l : CommandLine) (cs : List Char) : Except UsageError CommandLine :=
  let value := if '=' ∈ cs then some (String.ofList ((cs.dropWhile (· ≠ '=')).drop 1)) else .none
  match Item.ofName? (String.ofList (cs.takeWhile (· ≠ '='))), value with
  | .none, _ => .error .unknownArgument
  | some item, some value =>
    if item.takesValue then l.give item (some value) else .error .unneededValue
  | some item, .none => if item.takesValue then l.defer item .none else l.give item .none

/-- Read options written as letters, without their hyphen. -/
def takeLetters (l : CommandLine) : List Char → Except UsageError CommandLine
  | [] => .ok l
  | c :: cs =>
    match Item.ofLetter? c with
    | .none => .error .unknownArgument
    | some item =>
      if item.takesValue then
        match cs with
        | [] => l.defer item .none
        | '=' :: value => l.give item (some (String.ofList value))
        | value => l.give item (some (String.ofList value))
      else do takeLetters (← l.give item .none) cs

/-- Whether the next word can be the value of the pending item. -/
def awaitsValue (l : CommandLine) : Bool :=
  match l.pending with
  | some (_, .none) => true
  | _ => false

/-- Whether the path of the document was given. -/
def hasPath (l : CommandLine) : Bool :=
  l.said.templates.isSome || l.pending.any fun entry => entry.1 = .templates

/-- Read the path of the document; there is only one. -/
def takePath (l : CommandLine) (word : String) : Except UsageError CommandLine :=
  if l.hasPath then .error .unknownArgument else l.defer .templates (some word)

/-- Read words, all of them as paths once two hyphens were seen. -/
def readWords : Bool → CommandLine → List String → Except UsageError CommandLine
  | _, l, [] => l.settle
  | true, l, word :: words => do readWords true (← l.takePath word) words
  | false, l, word :: words =>
    match word.toList with
    | ['-', '-'] => readWords true l words
    | '-' :: '-' :: cs => do readWords false (← l.takeLong cs) words
    | '-' :: c :: cs => do readWords false (← l.takeLetters (c :: cs)) words
    | _ =>
      match l.pending, l.awaitsValue with
      | some (item, _), true =>
        readWords false { l with pending := some (item, some word) } words
      | _, _ => do readWords false (← l.takePath word) words

end CommandLine

/-- Read the words of a command line, the name of the command left out. -/
def Arguments.parse (words : List String) : Except UsageError Arguments := do
  let l ← CommandLine.start.readWords false words
  if l.said.templates.isNone then throw .missingArgument
  return l.said

end Formwork.Command
