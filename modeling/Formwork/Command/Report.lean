import Formwork.Json.Basic
import Formwork.Command.Arguments

/-!
# Reports

What the command prints: the names of templates, or a rendered template with a table of its
fields.  For people the names stand on lines of their own, and the table has columns that are
as wide as the UTF-8 form of their longest entry.  For programs everything is one JSON value.
-/

namespace Formwork.Command

set_option autoImplicit false

/-- A field of a rendered template. -/
structure FieldRow where
  name : String
  kind : String
  value : Option String
  deriving DecidableEq, Repr

/-- A rendered template. -/
structure Rendered where
  template : String
  html : String
  fields : List FieldRow
  deriving DecidableEq, Repr

/-- What the command found out. -/
inductive Report where
  | templates (names : List String)
  | panel (rendered : Rendered)
  deriving DecidableEq, Repr

/-- A text with spaces behind it, up to a number of characters. -/
def padded (width : Nat) (s : String) : String :=
  s ++ String.ofList (List.replicate (width - s.toList.length) ' ')

/-- The width of a column: the number of bytes of its longest entry. -/
def columnWidth (entries : List String) : Nat := (entries.map String.utf8ByteSize).foldl max 0

namespace Rendered

/-- The table of fields. -/
def tableLines (r : Rendered) : List String :=
  let nameWidth := columnWidth (r.fields.map FieldRow.name)
  let kindWidth := columnWidth (r.fields.map FieldRow.kind)
  r.fields.map fun field =>
    padded nameWidth field.name ++ "  " ++ padded kindWidth field.kind ++ "  " ++
      field.value.getD "-" ++ "\n"

/-- A rendered template for people. -/
def text (r : Rendered) : String :=
  r.html ++ "\n" ++ if r.fields.isEmpty then "" else "\n" ++ String.join r.tableLines

/-- A rendered template as a value with sorted keys. -/
def toJson (r : Rendered) : Json :=
  .table [
    ("fields", .list (r.fields.map fun field => .table [
      ("kind", .text field.kind),
      ("name", .text field.name),
      ("value", (field.value.map Json.text).getD .null)])),
    ("html", .text r.html),
    ("template", .text r.template)]

end Rendered

/-- Write a report. -/
def Report.write (format : OutputFormat) : Report → String
  | .templates names =>
    match format with
    | .human => String.join (names.map (· ++ "\n"))
    | .json => (Json.table [("templates", .list (names.map .text))]).write ++ "\n"
  | .panel rendered =>
    match format with
    | .human => rendered.text
    | .json => rendered.toJson.write ++ "\n"

end Formwork.Command
