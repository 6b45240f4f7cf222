import Formwork.OrderedMap

/-!
# Folders of files

A folder holds text files under paths, whose steps are separated by `/`.  Reading a path
walks its steps: a step stays where it is (`.` and the empty step), goes up (`..`), or goes
down into a folder or a file.  Nothing can be done in a file but reading it, and a folder
cannot be read.

The folder lies somewhere below the root, where a path that begins with `/` starts.  What is
above it are folders too, and nothing is known to be in them.

Names and paths have a largest length, counted in bytes.
-/

namespace Formwork

set_option autoImplicit false

/-- What comes of reading a path: the text of a file, nothing there, or a failure. -/
inductive FileRead where
  | text (content : String)
  | missing
  | failed (reason : String)
  deriving DecidableEq, Repr

namespace FileRead

/-- A folder was to be read. -/
def isFolder : FileRead := .failed "Is a directory (os error 21)"

/-- Something was looked for in a file. -/
def notFolder : FileRead := .failed "Not a directory (os error 20)"

/-- A name or a path is longer than it may be. -/
def tooLong : FileRead := .failed "File name too long (os error 36)"

/-- A path contains a character that ends it. -/
def cutShort : FileRead := .failed "file name contained an unexpected NUL byte"

end FileRead

/-- Files by the steps that lead to them. -/
structure Folder where
  files : OrderedMap (List String) String

namespace Folder

/-- Where a walk stands: at a place in the folder, or above it. -/
inductive Standpoint where
  | within (place : List String)
  | above
  deriving DecidableEq, Repr

namespace Standpoint

/-- Go up; above the folder there is always something above. -/
def up : Standpoint → Standpoint
  | .within [] => .above
  | .within place => .within place.dropLast
  | .above => .above

end Standpoint

/-- The largest number of bytes of a name. -/
def nameLimit : Nat := 255

/-- The largest number of bytes of a path. -/
def pathLimit : Nat := 4095

/-- The steps of a path. -/
def steps (path : String) : List String := path.splitOn "/"

/-- Whether a step stays where it is. -/
def stays (step : String) : Bool := step == "" || step == "."

/-- The steps that lead down to where a path leads, none of them needless. -/
def directSteps (path : String) : List String :=
  (steps path).foldl
    (fun place step =>
      if stays step then place else if step = ".." then place.dropLast else place ++ [step])
    []

/-- A folder with the given files, by their paths. -/
def ofList (files : List (String × String)) : Folder :=
  ⟨.ofList (files.map fun (path, content) => (directSteps path, content))⟩

/-- Whether a place is a folder: the folder itself, or one with something in it. -/
def holdsFolder (f : Folder) (place : List String) : Bool :=
  place.isEmpty || f.files.keys.any fun steps => place.isPrefixOf steps && place.length < steps.length

/-- The file at a standpoint. -/
def fileAt? (f : Folder) : Standpoint → Option String
  | .within place => f.files.get? place
  | .above => none

/-- Go down by a name, if there is something of that name. -/
def down? (f : Folder) (name : String) : Standpoint → Option Standpoint
  | .within place =>
    let next := place ++ [name]
    if (f.files.get? next).isSome || f.holdsFolder next then some (.within next) else none
  | .above => none

/-- Walk on from a standpoint. -/
def walk (f : Folder) (s : Standpoint) : List String → FileRead
  | [] =>
    match f.fileAt? s with
    | some content => .text content
    | none => .isFolder
  | step :: rest =>
    if (f.fileAt? s).isSome then .notFolder
    else if stays step then walk f s rest
    else if step = ".." then walk f s.up rest
    else if nameLimit < step.utf8ByteSize then .tooLong
    else
      match f.down? step s with
      | some next => walk f next rest
      | none => .missing

/-- Where the walk of a path starts: at the root if it begins with `/`, else in the folder. -/
def start (path : String) : Standpoint :=
  if path.toList.head? = some '/' then .above else .within []

/-- Read a path. -/
def read (f : Folder) (path : String) : FileRead :=
  if '\x00' ∈ path.toList then .cutShort
  else if pathLimit < path.utf8ByteSize then .tooLong
  else f.walk (start path) (steps path)

end Folder

end Formwork
