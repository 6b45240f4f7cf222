import Mathlib.Data.List.FinRange
import Mathlib.Data.List.Induction
import Formwork.Proofs.OrderedMap
import Formwork.Proofs.Step
import Formwork.Resource.Barrier

/-!
# A barrier accounts for every loader

The tasks of a barrier may end in any order, and each of them with a value, with an error, or broken off.
All that is asked of the runtime is that every task ends exactly once, and that no two tasks have one
number (`Runtime.Fair`).

While tasks are running, the callbacks of those that have not ended are still there (`Waiting.Awaits`), and
a task that ends is taken for what it is, whether it hands over its place or is known by its number
(`Waiting.Awaits.settle`).  So what comes of some loaders is told by what became of each and by the order
alone (`carryOut_eq`): each result is taken in once, under the URL of its loader, and told once to the
callback that was added with the loader (`Barrier.accounts_for_all`).
-/

namespace Formwork

set_option autoImplicit false

variable {σ : Type}

/-- Every one of so many tasks ends exactly once, and each is known by its number. -/
structure Runtime.Fair (run : Runtime) (count : Nat) : Prop where
  once : (run.order count).Perm (List.finRange count)
  distinct : ∀ i j : Fin count, run.id i = run.id j → i = j

/-- Tasks that end when their answers arrive all end once. -/
theorem Barrier.fair_byDelay (transport : Transport) (entries : List (BarrierEntry σ)) (count : Nat) :
    (byDelay transport entries).Fair count where
  once := List.mergeSort_perm _ _
  distinct _ _ same := Fin.ext same

/-! ## Values of some kind -/

@[simp]
theorem Loaded.ofKind?_box : ∀ (k : LoadKind) (value : k.Output), (k.box value).ofKind? k = some value
  | .raw, _ => rfl
  | .text, _ => rfl
  | .document, _ => rfl
  | .broken, value => value.elim

/-- **A callback is told what its own loader made.** -/
theorem Callback.ofKind_map_box {k : LoadKind} (callback : Except LoadError k.Output → σ → σ)
    (result : Except LoadError k.Output) (state : σ) :
    Callback.ofKind callback (result.map k.box) state = callback result state := by
  cases result with
  | error e => rfl
  | ok value =>
    simp only [Except.map, Callback.ofKind]
    rw [Loaded.ofKind?_box]

theorem TaskEnd.result_map {α β : Type} (g : α → β) (url : String) : ∀ e : TaskEnd α,
    (e.map g).result url = (e.result url).map g
  | .finished _ => rfl
  | .brokenOff => rfl

/-! ## Outcomes -/

/-- The value of a result, under its URL. -/
def success? {α : Type} (url : String) : Except LoadError α → Option (String × α)
  | .ok value => some (url, value)
  | .error _ => none

/-- The error of a result. -/
def failure? {α : Type} : Except LoadError α → Option LoadError
  | .ok _ => none
  | .error e => some e

theorem failure?_map {α β : Type} (g : α → β) : ∀ result : Except LoadError α,
    failure? (result.map g) = failure? result
  | .ok _ => rfl
  | .error _ => rfl

namespace Outcome

/-- The outcome of some results that come one after the other. -/
def ofResults (results : List (String × Except LoadError Loaded)) : Outcome :=
  ⟨results.filterMap fun r => success? r.1 r.2, results.filterMap fun r => failure? r.2⟩

theorem ofResults_concat (results : List (String × Except LoadError Loaded)) (url : String)
    (result : Except LoadError Loaded) :
    ofResults (results ++ [(url, result)]) = (ofResults results).add url result := by
  cases result <;> simp [ofResults, add, success?, failure?]

theorem size_add (o : Outcome) (url : String) (result : Except LoadError Loaded) :
    (o.add url result).size = o.size + 1 := by
  cases result <;> simp [add, size] <;> omega

theorem size_ofResults (results : List (String × Except LoadError Loaded)) :
    (ofResults results).size = results.length := by
  induction results using List.reverseRecOn with
  | nil => rfl
  | append_singleton results r ih =>
    rw [ofResults_concat, size_add, ih, List.length_append, List.length_singleton]

end Outcome

/-! ## Tasks that run -/

/-- What the callback of a loader, if it has one, makes of the state when it is told a result. -/
def BarrierEntry.tell (entry : BarrierEntry σ) (result : Except LoadError Loaded) (state : σ) : σ :=
  entry.callback.elim state fun callback => callback result state

namespace Waiting

variable {entries : List (BarrierEntry σ)} {run : Runtime} {ends : Nat → TaskEnd Loaded}
  {left : List (Fin entries.length)} {w : Waiting σ entries.length} {i : Fin entries.length}

/-- What is known of the result of a loader when its task has ended. -/
def resultAt (entries : List (BarrierEntry σ)) (ends : Nat → TaskEnd Loaded)
    (i : Fin entries.length) : Except LoadError Loaded := (ends i).result (entries.get i).loader.url

/-- The tasks of some loaders are running; those that are left have not ended yet, and their callbacks are
there. -/
structure Awaits (entries : List (BarrierEntry σ)) (run : Runtime) (left : List (Fin entries.length))
    (w : Waiting σ entries.length) : Prop where
  urls : ∀ i : Fin entries.length, w.urls.get i = (entries.get i).loader.url
  indices : ∀ i : Fin entries.length, w.indices.get? (run.id i) = some i
  callbacks : ∀ i ∈ left, w.callbacks.get i = (entries.get i).callback

theorem awaits_start (fair : run.Fair entries.length) (state : σ) :
    (start entries run state).Awaits entries run left where
  urls i := Vector.getElem_ofFn i.isLt
  indices i := by
    refine OrderedMap.get?_foldl_insert_of_mem _ ?_ (List.mem_map_of_mem (List.mem_finRange i))
    rw [List.map_map]
    exact (List.nodup_finRange _).map fun i j => fair.distinct i j
  callbacks i _ := Vector.getElem_ofFn i.isLt

/-- A task that has ended is known, with its result. -/
theorem Awaits.identify (h : w.Awaits entries run left) (ends : Nat → TaskEnd Loaded)
    (i : Fin entries.length) :
    w.identify (run.leaves ends i) = some (i, resultAt entries ends i) := by
  unfold Runtime.leaves resultAt
  cases ends i with
  | finished result => rfl
  | brokenOff =>
    have url : w.urls[i] = (entries.get i).loader.url := h.urls i
    rw [Waiting.identify, h.indices i, Option.map_some, url]
    rfl

/-- **One task ends**: its result is taken in and told to its callback, and the others are awaited still. -/
theorem Awaits.settle (h : w.Awaits entries run (i :: left)) (apart : i ∉ left)
    (ends : Nat → TaskEnd Loaded) :
    (w.settle (run.leaves ends i)).Awaits entries run left ∧
      (w.settle (run.leaves ends i)).outcome =
        w.outcome.add (entries.get i).loader.url (resultAt entries ends i) ∧
      (w.settle (run.leaves ends i)).state = (entries.get i).tell (resultAt entries ends i) w.state := by
  unfold Waiting.settle
  rw [h.identify ends i]
  refine ⟨⟨h.urls, h.indices, fun j mem => ?_⟩, ?_, ?_⟩
  · have other : i.val ≠ j.val := fun same => apart (Fin.ext same ▸ mem)
    have kept : (w.callbacks.set i none)[j] = w.callbacks[j] := Vector.getElem_set_ne _ _ other
    exact kept.trans (h.callbacks j (List.mem_cons_of_mem _ mem))
  · exact congrArg (fun url => w.outcome.add url _) (h.urls i)
  · have there : w.callbacks[i] = (entries.get i).callback := h.callbacks i List.mem_cons_self
    dsimp only
    rw [there]
    unfold BarrierEntry.tell
    cases (entries.get i).callback <;> rfl

/-- **All tasks end**, one after the other. -/
theorem Awaits.settleAll (ends : Nat → TaskEnd Loaded) : ∀ {left : List (Fin entries.length)}
    {w : Waiting σ entries.length} {results : List (String × Except LoadError Loaded)},
    w.Awaits entries run left → left.Nodup → w.outcome = .ofResults results →
      ((left.map (run.leaves ends)).foldl Waiting.settle w).outcome = .ofResults (results ++
        left.map fun i => ((entries.get i).loader.url, resultAt entries ends i)) ∧
      ((left.map (run.leaves ends)).foldl Waiting.settle w).state =
        left.foldl (fun state i => (entries.get i).tell (resultAt entries ends i) state) w.state
  | [], w, results, _, _, outcome => by
    rw [List.map_nil, List.map_nil, List.append_nil]
    exact ⟨outcome, rfl⟩
  | i :: left, w, results, h, distinct, outcome => by
    obtain ⟨apart, distinct⟩ := List.nodup_cons.1 distinct
    obtain ⟨awaits, added, told⟩ := h.settle apart ends
    rw [outcome, ← Outcome.ofResults_concat] at added
    obtain ⟨all, state⟩ := settleAll ends awaits distinct added
    rw [List.map_cons, List.foldl_cons, List.foldl_cons, all, state, told, List.map_cons,
      List.append_assoc, List.singleton_append]
    exact ⟨rfl, rfl⟩

end Waiting

open Waiting (resultAt)

/-- **What comes of some loaders**: their results are taken in, and told to their callbacks, in the order in
which their tasks end, each of them once. -/
theorem carryOut_eq {entries : List (BarrierEntry σ)} {run : Runtime} (fair : run.Fair entries.length)
    (ends : Nat → TaskEnd Loaded) (state : σ) :
    carryOut entries run ends state =
      (.ofResults ((run.order entries.length).map fun i =>
        ((entries.get i).loader.url, resultAt entries ends i)),
      (run.order entries.length).foldl
        (fun state i => (entries.get i).tell (resultAt entries ends i) state) state) := by
  have distinct : (run.order entries.length).Nodup :=
    fair.once.nodup_iff.2 (List.nodup_finRange _)
  have empty : (Waiting.start entries run state).outcome = .ofResults [] := rfl
  obtain ⟨outcome, told⟩ := (Waiting.awaits_start fair state).settleAll ends distinct empty
  exact Prod.ext outcome told

/-! ## Loaders with callbacks for what they make -/

namespace Registration

/-- What is known of the result when the task of the loader has ended. -/
def result (r : Registration σ) (e : TaskEnd r.loader.kind.Output) :
    Except LoadError r.loader.kind.Output := e.result r.loader.url

/-- What the callback, if there is one, makes of the state when it is told a result. -/
def tell (r : Registration σ) (result : Except LoadError r.loader.kind.Output) (state : σ) : σ :=
  r.callback.elim state fun callback => callback result state

/-- The callback in the barrier is told the value that was made. -/
theorem tell_entry (r : Registration σ) (result : Except LoadError r.loader.kind.Output) (state : σ) :
    r.entry.tell (result.map r.loader.kind.box) state = r.tell result state := by
  unfold tell BarrierEntry.tell entry
  cases r.callback with
  | none => rfl
  | some callback => exact Callback.ofKind_map_box callback result state

/-- The ends of tasks, each with a value of its own kind, as the runtime has them. -/
def endsOf (rs : List (Registration σ)) (ends : (i : Fin rs.length) → TaskEnd rs[i].loader.kind.Output)
    (index : Nat) : TaskEnd Loaded :=
  if known : index < rs.length then (ends ⟨index, known⟩).map rs[index].loader.kind.box else .brokenOff

variable {rs : List (Registration σ)} {i : Fin rs.length}

theorem resultAt_entries (ends : (i : Fin rs.length) → TaskEnd rs[i].loader.kind.Output)
    (same : rs.length = (rs.map entry).length) :
    resultAt (rs.map entry) (endsOf rs ends) (i.cast same) =
      (rs[i].result (ends i)).map rs[i].loader.kind.box := by
  unfold resultAt endsOf
  rw [Fin.val_cast, dif_pos i.isLt, TaskEnd.result_map]
  simp only [List.get_eq_getElem, Fin.getElem_fin, Fin.val_cast, List.getElem_map]
  rfl

/-- A runtime has one order for so many tasks, however they are counted. -/
theorem order_cast (run : Runtime) {m n : Nat} (same : n = m) :
    run.order m = (run.order n).map (Fin.cast same) := by
  subst same
  exact (List.map_id _).symm

/-- **What comes of some loaders**, each of which has a callback for what it makes. -/
theorem carryOut_entries (ends : (i : Fin rs.length) → TaskEnd rs[i].loader.kind.Output) {run : Runtime}
    (fair : run.Fair rs.length) (state : σ) :
    carryOut (rs.map entry) run (endsOf rs ends) state =
      (.ofResults ((run.order rs.length).map fun i =>
        (rs[i].loader.url, (rs[i].result (ends i)).map rs[i].loader.kind.box)),
      (run.order rs.length).foldl (fun state i => rs[i].tell (rs[i].result (ends i)) state) state) := by
  have same : rs.length = (rs.map entry).length := (List.length_map _).symm
  have fair' : run.Fair (rs.map entry).length := same ▸ fair
  rw [carryOut_eq fair', order_cast run same, List.map_map, List.foldl_map]
  refine Prod.ext (congrArg Outcome.ofResults (List.map_congr_left fun i _ => ?_)) ?_
  · exact Prod.ext (by simp [entry]) (resultAt_entries ends same)
  · refine congrArg (fun f => List.foldl f state (run.order rs.length)) (funext₂ fun state i => ?_)
    rw [resultAt_entries ends same, ← tell_entry]
    simp only [List.get_eq_getElem, Fin.getElem_fin, Fin.val_cast, List.getElem_map]

/-- The failures among the results of some loaders. -/
theorem failures_ofResults (ends : (i : Fin rs.length) → TaskEnd rs[i].loader.kind.Output)
    (order : List (Fin rs.length)) :
    (Outcome.ofResults (order.map fun i =>
        (rs[i].loader.url, (rs[i].result (ends i)).map rs[i].loader.kind.box))).failures =
      order.filterMap fun i => failure? (rs[i].result (ends i)) :=
  List.filterMap_map.trans (List.filterMap_congr fun i _ => failure?_map _ (rs[i].result (ends i)))

end Registration

/-! ## Barriers -/

/-- A call of a barrier. -/
inductive BarrierCall (σ : Type) where
  | add (r : Registration σ)
  | activate (run : Runtime) (ends : Nat → TaskEnd Loaded) (state : σ)

namespace BarrierM

/-- Add some loaders with their callbacks. -/
def register (rs : List (Registration σ)) : BarrierM σ Unit := rs.forM add

/-- What a call does. -/
def perform : BarrierCall σ → BarrierM σ Unit
  | .add r => add r
  | .activate run ends state => do
    let _ ← activate run ends state

variable {b : Barrier σ}

theorem exec_checkActivation (fresh : b.activated = false) :
    exec (checkActivation : BarrierM σ Unit) b = (.ok (), b) := by
  unfold checkActivation
  rw [exec_bind_ok (exec_get b), fresh]
  rfl

/-- An activated barrier refuses. -/
theorem exec_checkActivation_activated (activated : b.activated = true) :
    exec (checkActivation : BarrierM σ Unit) b = (.error .alreadyActivated, b) := by
  unfold checkActivation
  rw [exec_bind_ok (exec_get b), activated]
  rfl

theorem exec_add (fresh : b.activated = false) (r : Registration σ) :
    exec (add r) b = (.ok (), { b with entries := b.entries ++ [r.entry] }) := by
  unfold add push
  rw [exec_bind_ok (exec_checkActivation fresh)]
  rfl

theorem exec_register : ∀ (rs : List (Registration σ)) {b : Barrier σ}, b.activated = false →
    exec (register rs) b = (.ok (), { b with entries := b.entries ++ rs.map Registration.entry })
  | [], b, _ => by
    rw [List.map_nil, List.append_nil]
    rfl
  | r :: rs, b, fresh => by
    have rest := exec_register rs (b := { b with entries := b.entries ++ [r.entry] }) fresh
    unfold register at rest ⊢
    rw [exec_forM_cons, exec_bind_ok (exec_add fresh r), rest, List.map_cons, List.append_assoc,
      List.singleton_append]

/-- **Activating a barrier** empties it and starts a fetch for each of its loaders. -/
theorem exec_activate (fresh : b.activated = false) (run : Runtime) (ends : Nat → TaskEnd Loaded)
    (state : σ) :
    exec (activate run ends state) b = (.ok (carryOut b.entries run ends state),
      { b with
        entries := []
        activated := true
        asked := b.asked ++ b.entries.map fun entry => entry.loader.url }) := by
  unfold activate
  rw [exec_bind_ok (exec_checkActivation fresh)]
  rfl

/-- **An activated barrier refuses every call**, and is left as it is. -/
theorem exec_perform_activated (activated : b.activated = true) (c : BarrierCall σ) :
    exec (perform c) b = (.error .alreadyActivated, b) := by
  have refused := exec_checkActivation_activated activated
  cases c with
  | add r => exact exec_bind_error refused
  | activate run ends state => exact exec_bind_error (exec_bind_error refused)

end BarrierM

namespace Barrier

/-- **A barrier accounts for every loader**, in whatever order the tasks of the loaders end, and whatever
becomes of them: the results are taken in as they come, with the URLs of their loaders, there are as many of
them as loaders, and when the outcome is there each callback has been told the result of its own loader.
Every resource was asked for once, and from then on the barrier refuses everything. -/
theorem accounts_for_all (transport : Transport) (rs : List (Registration σ))
    (ends : (i : Fin rs.length) → TaskEnd rs[i].loader.kind.Output) {run : Runtime}
    (fair : run.Fair rs.length) (state : σ) :
    ∃ (filled done : Barrier σ) (o : Outcome),
      exec (BarrierM.register rs) (.create transport) = (.ok (), filled) ∧
      exec (BarrierM.activate run (Registration.endsOf rs ends) state) filled = (.ok (o,
        (run.order rs.length).foldl (fun state i => rs[i].tell (rs[i].result (ends i)) state) state), done) ∧
      o.successes = (run.order rs.length).filterMap (fun i =>
        success? rs[i].loader.url ((rs[i].result (ends i)).map rs[i].loader.kind.box)) ∧
      o.failures = (run.order rs.length).filterMap (fun i => failure? (rs[i].result (ends i))) ∧
      o.size = rs.length ∧
      done.asked = rs.map (fun r => r.loader.url) ∧
      ∀ c : BarrierCall σ, exec (BarrierM.perform c) done = (.error .alreadyActivated, done) := by
  have filled := BarrierM.exec_register rs (b := create transport) rfl
  have answers := BarrierM.exec_activate (b := ⟨transport, rs.map Registration.entry, false, []⟩) rfl run
    (Registration.endsOf rs ends) state
  rw [Registration.carryOut_entries ends fair] at answers
  refine ⟨_, _, _, filled, answers, ?_, ?_, ?_, ?_, BarrierM.exec_perform_activated rfl⟩
  · exact List.filterMap_map
  · exact Registration.failures_ofResults ends _
  · rw [Outcome.size_ofResults, List.length_map, fair.once.length_eq, List.length_finRange]
  · exact List.map_map

/-- A runtime that lets the last task end first. -/
def lastFirst : Runtime := ⟨fun i => 10 * i + 7, fun count => (List.finRange count).reverse⟩

theorem fair_lastFirst (count : Nat) : lastFirst.Fair count where
  once := List.reverse_perm _
  distinct i j same := by
    have equal : 10 * i.val + 7 = 10 * j.val + 7 := same
    omega

/-- A text, a response, and a document whose task breaks off; their callbacks leave notes. -/
def noted : List (Registration (List String)) :=
  [⟨⟨.text, "t"⟩, some fun
      | .ok text, notes => notes ++ [text]
      | .error _, notes => notes⟩,
    ⟨⟨.raw, "r"⟩, none⟩,
    ⟨⟨.document, "d"⟩, some fun
      | .ok _, notes => notes
      | .error e, notes => notes ++ [e.kind ++ " " ++ e.url]⟩]

/-- How their tasks end. -/
def notedEnds : (i : Fin noted.length) → TaskEnd noted[i].loader.kind.Output
  | ⟨0, _⟩ => .finished (.ok "hello")
  | ⟨1, _⟩ => .finished (.error (.transport "r" "refused"))
  | ⟨2, _⟩ => .brokenOff

theorem accounts_for_all_noted : lastFirst.Fair noted.length ∧ ∃ (filled done : Barrier (List String))
    (o : Outcome),
    exec (BarrierM.register noted) (.create Catalogue.empty.transport) = (.ok (), filled) ∧
      exec (BarrierM.activate lastFirst (Registration.endsOf noted notedEnds) []) filled =
        (.ok (o, ["task d", "hello"]), done) ∧
      o.successes = [("t", .text "hello")] ∧
      o.failures = [.brokenOff "d", .transport "r" "refused"] ∧ done.asked = ["t", "r", "d"] := by
  obtain ⟨filled, done, o, register, activate, successes, failures, _, asked, _⟩ :=
    accounts_for_all Catalogue.empty.transport noted notedEnds (fair_lastFirst _) []
  exact ⟨fair_lastFirst _, filled, done, o, register, activate, successes, failures, asked⟩

end Barrier

end Formwork
