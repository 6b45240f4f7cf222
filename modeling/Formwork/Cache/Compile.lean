import Formwork.Cache.Basic

/-!
# Compiling a tree into a cache

A source tree is walked once, in document order.  Hooks say for every node whether it
is dynamic, which text stands before and behind its content, and whether its content
is visited.  Text is collected until a composite begins or ends, and is then added to
the composite it lies in.  The text before a dynamic node belongs to the surrounding
composite, the text behind its content to the node's own.

A hook sees the composite of its node as far as it has been built: text that is still
being collected is not part of it yet.  The first hook that fails ends the walk.
-/

namespace Formwork.Cache

set_option autoImplicit false

/-- A tree whose nodes carry labels. -/
inductive SourceTree (ν : Type) where
  | node (label : ν) (children : List (SourceTree ν))
  deriving Inhabited

/-- The label of the topmost node. -/
def SourceTree.label {ν : Type} : SourceTree ν → ν
  | .node label _ => label

/-- How a tree with labels in `ν` is mapped to a cache with payloads in `α`; a hook may fail with
an error in `ε`. -/
structure Hooks (ν α ε : Type) where
  /-- The composite that holds the whole cache. -/
  root : ν → Except ε (Composite α)
  /-- A fresh composite when the node is dynamic. -/
  composite : ν → Except ε (Option (Composite α))
  /-- The text before the content of a node. -/
  before : ν → Option (Composite α) → Except ε (Option String)
  /-- The text behind the content of a node. -/
  behind : ν → Option (Composite α) → Except ε (Option String)
  /-- Whether the content of a node is visited. -/
  descends : ν → Option (Composite α) → Bool

variable {ν α ε : Type}

/-- A composite being filled, and the text collected since its last item. -/
structure Filling (α : Type) where
  composite : Composite α
  pending : String

namespace Filling

/-- Begin to fill a composite. -/
def start (c : Composite α) : Filling α := ⟨c, ""⟩

/-- Collect text, if there is any. -/
def collect (f : Filling α) (run : Option String) : Filling α :=
  { f with pending := f.pending ++ run.getD "" }

/-- The composite with all collected text. -/
def close (f : Filling α) : Composite α := f.composite.pushText f.pending

/-- Add a finished composite behind everything collected so far. -/
def add (f : Filling α) (c : Composite α) : Filling α := start (f.close.push c.toItem)

end Filling

namespace Hooks

mutual
/-- Add what a node contributes to the composite it lies in. -/
def visit (h : Hooks ν α ε) : SourceTree ν → Filling α → Except ε (Filling α)
  | .node label children, outer => do
    let own ← h.composite label
    let outer := outer.collect (← h.before label own)
    match own with
    | none =>
      let outer ← if h.descends label none then visitAll h children outer else pure outer
      return outer.collect (← h.behind label none)
    | some c =>
      let inner := Filling.start c
      let inner ← if h.descends label (some c) then visitAll h children inner else pure inner
      let inner := inner.collect (← h.behind label (some inner.composite))
      return outer.add inner.close

/-- Add what some siblings contribute, in order. -/
def visitAll (h : Hooks ν α ε) : List (SourceTree ν) → Filling α → Except ε (Filling α)
  | [], outer => .ok outer
  | t :: ts, outer => do visitAll h ts (← visit h t outer)
end

/-- Compile a tree into a cache. -/
def compile (h : Hooks ν α ε) (t : SourceTree ν) : Except ε (Composite α) := do
  let root ← h.root t.label
  return (← h.visit t (.start root)).close

end Hooks

end Formwork.Cache
