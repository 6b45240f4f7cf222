import Formwork.Field.Error

/-!
# The fields of a panel

A table holds the fields of a panel and an index of them by name.  Fields are numbered in
the order of creation and numbers are not used again, so a removed field leaves its slot
empty.  The index lists the names in the order in which they were first used, and the fields
of a name in the order of creation; a name without fields is not listed.

A field is linked below at most one parent.  The walks over the tree of fields take as many
levels as there are slots.
-/

namespace Formwork

set_option autoImplicit false

/-- Fields by number, and their numbers by name. -/
structure FieldTable where
  slots : Array (Option Field)
  names : OrderedMap String (List FieldId)
  deriving Inhabited

namespace FieldTable

/-- The table without fields. -/
def empty : FieldTable := ⟨#[], .empty⟩

/-! ## Looking up -/

/-- A field that was not removed. -/
def field? (t : FieldTable) (f : FieldId) : Option Field := (t.slots[f.index]?).join

/-- The fields with a name, in the order of creation. -/
def named (t : FieldTable) (name : String) : List FieldId := (t.names.get? name).getD []

/-- All fields, grouped by name. -/
def ids (t : FieldTable) : List FieldId := t.names.values.flatten

/-- All fields, grouped by name. -/
def fields (t : FieldTable) : List Field := t.ids.filterMap t.field?

/-- How many fields are listed. -/
def size (t : FieldTable) : Nat := t.ids.length

/-- Whether no field is listed. -/
def isEmpty (t : FieldTable) : Bool := t.names.isEmpty

/-! ## Changing -/

/-- Change a field in place. -/
def update (t : FieldTable) (f : FieldId) (change : Field → Field) : FieldTable :=
  { t with slots := t.slots.modify f.index fun slot => slot.map change }

/-- Add a new field. -/
def create (t : FieldTable) (kind : FieldKind) (name : String) (attributes : Attributes) :
    FieldId × FieldTable :=
  let f : FieldId := ⟨t.slots.size⟩
  (f, ⟨t.slots.push (some (.create f kind name attributes)),
    t.names.insert name (t.named name ++ [f])⟩)

/-- Take a field from under its parent. -/
def unlink (t : FieldTable) (f : FieldId) : FieldTable :=
  match (t.field? f).bind Field.parent with
  | none => t
  | some parent =>
    (t.update f fun field => { field with parent := none }).update parent fun field =>
      field.dropChild f

/-- Put a field under a parent, away from its former parent. -/
def link (t : FieldTable) (parent child : FieldId) (role : Role) : FieldTable :=
  ((t.unlink child).update parent fun field => field.addChild role child).update child fun field =>
    { field with parent := some parent }

/-- Empty the slot of a field and take it out of the index. -/
def drop (t : FieldTable) (field : Field) : FieldTable :=
  let rest := (t.named field.name).filter (· ≠ field.id)
  ⟨t.slots.modify field.id.index fun _ => none,
    if rest.isEmpty then t.names.erase field.name else t.names.insert field.name rest⟩

/-! ## Walks -/

/-- Remove a field and everything below it, for at most so many levels; the removed fields are
returned as well. -/
def removeUpTo : Nat → FieldTable → FieldId → List Field × FieldTable
  | 0, t, _ => ([], t)
  | levels + 1, t, f =>
    match t.field? f with
    | none => ([], t)
    | some field =>
      field.contents.foldl
        (fun (removed, t) child =>
          let (below, t) := removeUpTo levels t child
          (removed ++ below, t))
        ([field], t.drop field)

/-- Remove a field and everything below it; the removed fields are returned as well. -/
def remove (t : FieldTable) (f : FieldId) : List Field × FieldTable :=
  removeUpTo t.slots.size (t.unlink f) f

/-- A field and everything below it, content in front, for at most so many levels. -/
def subtreeUpTo (t : FieldTable) : Nat → FieldId → Except FieldError (List FieldId)
  | 0, _ => .ok []
  | levels + 1, f =>
    match t.field? f with
    | none => .error (.unknownField f)
    | some field =>
      (field.contents.mapM (subtreeUpTo t levels)).map fun below => f :: below.flatten

/-- A field and everything below it, depth first and content in front. -/
def subtree (t : FieldTable) (f : FieldId) : Except FieldError (List FieldId) :=
  t.subtreeUpTo t.slots.size f

end FieldTable

end Formwork
