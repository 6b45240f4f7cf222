import Formwork.OrderedMap
import Formwork.Resource.Loader

/-!
# Waiting for a group of loaders

Loaders are added to a barrier and then all started at once, each in a task of its own.  As the
tasks end, in whatever order, the callback that was added with a loader is told its result; when
the last one has ended, the outcome lists the successes and the failures in the order in which
they came.  A barrier is activated at most once, and nothing can be added to it afterwards.

A task that finishes hands over its result with its place among the loaders.  A task that breaks
off hands over nothing: all that is left of it is the number that the runtime gave it.

Callbacks work on a state, which the barrier passes from one to the next.
-/

namespace Formwork

set_option autoImplicit false

variable {σ : Type}

/-- What is told the result of a loader. -/
abbrev Callback (σ : Type) := Except LoadError Loaded → σ → σ

/-- A callback for values of one kind.  It is not told a value of another kind. -/
def Callback.ofKind {k : LoadKind} (callback : Except LoadError k.Output → σ → σ) : Callback σ
  | .ok value, state =>
    match value.ofKind? k with
    | some value => callback (.ok value) state
    | none => state
  | .error e, state => callback (.error e) state

/-- A loader in a barrier. -/
structure BarrierEntry (σ : Type) where
  loader : Loader
  callback : Option (Callback σ)

/-- A loader that is to be added, with a callback for the values that it makes, or without. -/
structure Registration (σ : Type) where
  loader : Loader
  callback : Option (Except LoadError loader.kind.Output → σ → σ)

/-- The loader in a barrier. -/
def Registration.entry (r : Registration σ) : BarrierEntry σ := ⟨r.loader, r.callback.map .ofKind⟩

/-- A group of loaders that are waited for together. -/
structure Barrier (σ : Type) where
  transport : Transport
  entries : List (BarrierEntry σ)
  activated : Bool
  /-- The URLs whose fetch was started, in order. -/
  asked : List String

/-- What an activated barrier refuses. -/
inductive BarrierError where
  | alreadyActivated
  deriving DecidableEq, Repr

/-- A refusal in words. -/
def BarrierError.message : BarrierError → String
  | .alreadyActivated => "the loader barrier is already activated"

/-- The results of a barrier, each list in the order in which they came. -/
structure Outcome where
  successes : List (String × Loaded)
  failures : List LoadError

namespace Outcome

/-- Nothing has finished. -/
def empty : Outcome := ⟨[], []⟩

/-- How many loaders finished. -/
def size (o : Outcome) : Nat := o.successes.length + o.failures.length

/-- Take in one more result. -/
def add (o : Outcome) (url : String) : Except LoadError Loaded → Outcome
  | .ok value => { o with successes := o.successes ++ [(url, value)] }
  | .error e => { o with failures := o.failures ++ [e] }

end Outcome

/-! ## Tasks -/

/-- The number of a task. -/
abbrev TaskId := Nat

/-- What carries out tasks: it numbers them as they are started, and of so many tasks that run at
a time it lets one after the other end. -/
structure Runtime where
  id : Nat → TaskId
  order : (count : Nat) → List (Fin count)

/-- What is left of a task that has ended. -/
inductive Joined (count : Nat) where
  | finished (index : Fin count) (result : Except LoadError Loaded)
  | brokenOff (task : TaskId)

/-- What a task leaves when it ends in a given way. -/
def Runtime.leaves {count : Nat} (run : Runtime) (ends : Nat → TaskEnd Loaded) (i : Fin count) :
    Joined count :=
  match ends i with
  | .finished result => .finished i result
  | .brokenOff => .brokenOff (run.id i)

/-- What some tasks leave, in the order in which they end. -/
def Runtime.joined (run : Runtime) (count : Nat) (ends : Nat → TaskEnd Loaded) :
    List (Joined count) := (run.order count).map (run.leaves ends)

/-- A group of loaders whose tasks are running, what came of those that have ended, and the state
of the callbacks. -/
structure Waiting (σ : Type) (count : Nat) where
  urls : Vector String count
  callbacks : Vector (Option (Callback σ)) count
  indices : OrderedMap TaskId (Fin count)
  outcome : Outcome
  state : σ

namespace Waiting

/-- Start a task for every loader. -/
def start (entries : List (BarrierEntry σ)) (run : Runtime) (state : σ) :
    Waiting σ entries.length where
  urls := .ofFn fun i => entries[i].loader.url
  callbacks := .ofFn fun i => entries[i].callback
  indices := .ofList ((List.finRange entries.length).map fun i => (run.id i.val, i))
  outcome := .empty
  state := state

variable {count : Nat}

/-- The loader whose task has ended, and its result; a number that no task has means nothing. -/
def identify (w : Waiting σ count) : Joined count → Option (Fin count × Except LoadError Loaded)
  | .finished index result => some (index, result)
  | .brokenOff task =>
    (w.indices.get? task).map fun index => (index, .error (.brokenOff w.urls[index]))

/-- Tell a result to the callback of its loader, which is done with then, and take the result in. -/
def settle (w : Waiting σ count) (joined : Joined count) : Waiting σ count :=
  match w.identify joined with
  | none => w
  | some (index, result) =>
    { w with
      callbacks := w.callbacks.set index none
      outcome := w.outcome.add w.urls[index] result
      state := match w.callbacks[index] with
        | some callback => callback result w.state
        | none => w.state }

end Waiting

/-- Run the tasks of some loaders until all have ended. -/
def carryOut (entries : List (BarrierEntry σ)) (run : Runtime) (ends : Nat → TaskEnd Loaded)
    (state : σ) : Outcome × σ :=
  let done := (run.joined entries.length ends).foldl Waiting.settle (.start entries run state)
  (done.outcome, done.state)

/-! ## Operations -/

/-- An operation on a barrier; a refusal ends it but takes nothing back. -/
abbrev BarrierM (σ α : Type) := ExceptT BarrierError (StateM (Barrier σ)) α

namespace BarrierM

/-- Refuse everything once the barrier is activated. -/
def checkActivation : BarrierM σ Unit := do
  if (← get).activated then throw .alreadyActivated

/-- Add a loader with what is to be told its result. -/
def push (entry : BarrierEntry σ) : BarrierM σ Unit := do
  checkActivation
  modify fun b => { b with entries := b.entries ++ [entry] }

/-- Add a loader. -/
def add (r : Registration σ) : BarrierM σ Unit := push r.entry

/-- Start all loaders and wait until they have ended, in the ways and in the order that are
given. -/
def activate (run : Runtime) (ends : Nat → TaskEnd Loaded) (state : σ) :
    BarrierM σ (Outcome × σ) := do
  checkActivation
  modify fun b => { b with activated := true }
  let entries := (← get).entries
  modify fun b => { b with entries := [] }
  modify fun b => { b with asked := b.asked ++ entries.map fun entry => entry.loader.url }
  return carryOut entries run ends state

end BarrierM

namespace Barrier

/-- A barrier without loaders. -/
def create (transport : Transport) : Barrier σ := ⟨transport, [], false, []⟩

/-- Carry out an operation. -/
def perform {α : Type} (b : Barrier σ) (operation : BarrierM σ α) :
    Except BarrierError (α × Barrier σ) :=
  match operation.run.run b with
  | (.ok answer, b) => .ok (answer, b)
  | (.error e, _) => .error e

/-- Add a loader, with or without something that is told its result. -/
def add (b : Barrier σ) (loader : Loader) (callback : Option (Callback σ)) :
    Except BarrierError (Barrier σ) := (b.perform (.push ⟨loader, callback⟩)).map Prod.snd

/-! ## Prepared answers -/

/-- What the fetch for a loader delivers. -/
def delivery? (transport : Transport) (entries : List (BarrierEntry σ)) (index : Nat) :
    Option Delivery :=
  entries[index]?.map fun entry => transport entry.loader.url

/-- Tasks that end when their answers arrive: the quicker ones first, and the equally quick ones
as they were started. -/
def byDelay (transport : Transport) (entries : List (BarrierEntry σ)) : Runtime where
  id := id
  order count :=
    let delay (index : Nat) := ((delivery? transport entries index).map Delivery.delay).getD 0
    (List.finRange count).mergeSort fun i j => delay i ≤ delay j

/-- How the tasks end that are given the answers of a transport. -/
def answered (transport : Transport) (entries : List (BarrierEntry σ)) (index : Nat) :
    TaskEnd Loaded :=
  match entries[index]? with
  | some entry => entry.loader.load (transport entry.loader.url).answer
  | none => .brokenOff

/-- Start all loaders and wait for them. -/
def activate (b : Barrier σ) (state : σ) : Except BarrierError ((Outcome × σ) × Barrier σ) :=
  b.perform (.activate (byDelay b.transport b.entries) (answered b.transport b.entries) state)

end Barrier

end Formwork
