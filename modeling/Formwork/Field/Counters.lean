/-!
# Running numbers

Placeholders, fields and buttons without a name get names made of a running number.  The
three numbers of a set only ever grow, so two names drawn from one set are never the same.
Several panels and builders may draw from one set; a pool holds all sets, and everyone who
draws knows the number of a set (`SeriesId`).
-/

namespace Formwork

set_option autoImplicit false

/-- The next numbers to be given out. -/
structure Counters where
  placeholder : Nat
  field : Nat
  button : Nat
  deriving DecidableEq, Repr, Inhabited

namespace Counters

/-- Counters that gave out nothing yet. -/
def initial : Counters := ⟨0, 0, 0⟩

/-- What a running number can be drawn for. -/
inductive Purpose where
  | placeholder
  | field
  | button
  deriving DecidableEq, Repr

/-- The identifier made from a running number. -/
def Purpose.identifier (purpose : Purpose) (n : Nat) : String :=
  match purpose with
  | .placeholder => s!"__tmps_{n}"
  | .field => s!"field{n}"
  | .button => s!"Button-{n}"

/-- Draw the next identifier. -/
def next (c : Counters) : Purpose → String × Counters
  | .placeholder => (Purpose.placeholder.identifier c.placeholder, { c with placeholder := c.placeholder + 1 })
  | .field => (Purpose.field.identifier c.field, { c with field := c.field + 1 })
  | .button => (Purpose.button.identifier c.button, { c with button := c.button + 1 })

end Counters

/-- A set of counters, by its number in a pool. -/
structure SeriesId where
  index : Nat
  deriving DecidableEq, Repr, Inhabited

/-- All sets of counters. -/
structure CounterPool where
  sets : Array Counters
  deriving Inhabited

namespace CounterPool

/-- The pool without sets. -/
def empty : CounterPool := ⟨#[]⟩

/-- Add a fresh set. -/
def create (pool : CounterPool) : SeriesId × CounterPool :=
  (⟨pool.sets.size⟩, ⟨pool.sets.push .initial⟩)

/-- The counters of a set. -/
def get (pool : CounterPool) (series : SeriesId) : Counters :=
  (pool.sets[series.index]?).getD .initial

/-- Draw the next identifier from a set. -/
def next (pool : CounterPool) (series : SeriesId) (purpose : Counters.Purpose) :
    String × CounterPool :=
  let (identifier, counters) := (pool.get series).next purpose
  (identifier, ⟨pool.sets.modify series.index fun _ => counters⟩)

end CounterPool

end Formwork
